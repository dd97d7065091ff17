import ClassFile.Proofs.Signature.Writing

/-!
# The grammar is what a writer writes

A syntax tree has a text, which the grammar gives with all brackets in place,
and calls, in which there are none. The calls, told to a new writer, yield the
text (`trees_are_written`).

The brackets of type arguments are a matter of each class type by itself. A
class type begins by putting its name on top of the unfinished ones and ends by
taking it off again, and in between nothing looks below the top. So the calls of
a type write its text whatever the writer was told before, and leave it as it
was, even in places where no type belongs (`WritesAnywhere`). The induction is on the
tree; what carries it through the classes inside a class is the same statement
for a writer that has just entered one (`ClosesClass`).

The brackets of formal type parameters and of parameters are set once for a whole
declaration, and a declaration is put together from its parts by the rules for
these.
-/

namespace ClassFile.Signature

/-! ## Types -/

/-- **What calls write anywhere:** in every writer they append the text and
change nothing else. -/
def WritesAnywhere (cs : List Call) (s : String) : Prop :=
  ∀ w : Writer, w.writeAll cs = w.put s

/-- What is written anywhere is written where a type may stand. -/
theorem WritesAnywhere.writes {cs : List Call} {s : String} (h : WritesAnywhere cs s) :
    Writes cs s :=
  fun w _ => h w

theorem WritesAnywhere.array {cs : List Call} {s : String} (h : WritesAnywhere cs s) :
    WritesAnywhere (.arrayType :: cs) ("[" ++ s) := by
  intro w
  show (w.put "[").writeAll cs = _
  rw [h _, Writer.put_put]

/-- **What calls write behind the name of a class:** they append the text and leave
the class. -/
def ClosesClass (cs : List Call) (s : String) : Prop :=
  ∀ w : Writer, w.enterClass.writeAll cs = w.put s

/-- A class type ends behind its type arguments. -/
theorem WritesArguments.close {cs : List Call} {texts : List String}
    (h : WritesArguments cs texts) : ClosesClass (cs ++ [.close]) (angled texts ++ ";") := by
  intro w
  rw [Writer.writeAll_append]
  show (w.enterClass.writeAll cs).endArguments.put ";" = _
  rw [h.endArguments_eq, Writer.put_put]

/-- A class inside another one leaves that one, enters, and is left in turn. -/
theorem WritesArguments.inner {cs ds : List Call} {texts : List String} {s : String}
    (h : WritesArguments cs texts) (hs : ClosesClass ds s) (name : String) :
    ClosesClass (cs ++ .innerClassType name :: ds) (angled texts ++ ("." ++ name ++ s)) := by
  intro w
  rw [Writer.writeAll_append, Writer.writeAll_cons]
  show ((w.enterClass.writeAll cs).endArguments.put ("." ++ name)).enterClass.writeAll ds = _
  rw [h.endArguments_eq, hs _, Writer.put_put, Writer.put_put]

/-- A class type that is left leaves no trace but its text. -/
theorem ClosesClass.writesAnywhere {cs : List Call} {s : String} (h : ClosesClass cs s)
    (name : String) : WritesAnywhere (.classType name :: cs) ("L" ++ name ++ s) := by
  intro w
  show (w.put ("L" ++ name)).enterClass.writeAll cs = _
  rw [h _, Writer.put_put]

mutual

/-- **A type is written anywhere,** by recursion on its tree. -/
theorem TypeTree.writesAnywhere : ∀ t : TypeTree, WritesAnywhere t.calls t.text
  | .base _ => fun _ => rfl
  | .reference r => by
    rw [TypeTree.calls, TypeTree.text]
    exact r.writesAnywhere

/-- A reference type is written anywhere. -/
theorem ReferenceTree.writesAnywhere : ∀ r : ReferenceTree, WritesAnywhere r.calls r.text
  | .typeVariable _ => fun _ => rfl
  | .array c => by
    rw [ReferenceTree.calls, ReferenceTree.text]
    exact c.writesAnywhere.array
  | .declared ⟨name, arguments⟩ inner => by
    have hclass := (Segment.closesClass inner
      (ArgumentTree.writesArguments arguments)).writesAnywhere name
    rw [ReferenceTree.calls, ReferenceTree.text, Segment.text]
    simpa only [String.append_assoc, List.cons_append] using hclass

/-- Behind the name of a class its type arguments and the classes inside it are
written, and the class is left. -/
theorem Segment.closesClass : ∀ (inner : List Segment) {cs : List Call} {texts : List String},
    WritesArguments cs texts →
      ClosesClass (cs ++ Segment.innerCalls inner ++ [.close])
        (angled texts ++ Segment.innerText inner ++ ";")
  | [], cs, texts, h => by
    rw [Segment.innerCalls, Segment.innerText, List.append_nil, String.append_empty]
    exact h.close
  | ⟨name, arguments⟩ :: further, cs, texts, h => by
    have hinner := h.inner (Segment.closesClass further
      (ArgumentTree.writesArguments arguments)) name
    rw [Segment.innerCalls, Segment.innerText, Segment.text]
    simpa only [String.append_assoc, List.append_assoc, List.cons_append] using hinner

/-- A type argument is written behind the bracket, which it sets if it is the
first. -/
theorem ArgumentTree.writesArgument : ∀ a : ArgumentTree, WritesArgument a.calls a.text
  | .any => writesArgument_unbounded
  | .exactly r => by
    rw [ArgumentTree.calls, ArgumentTree.text]
    exact r.writesAnywhere.writes.exactly
  | .subtypeOf r => by
    rw [ArgumentTree.calls, ArgumentTree.text]
    exact r.writesAnywhere.writes.bound (show '+' ≠ '=' by decide)
  | .supertypeOf r => by
    rw [ArgumentTree.calls, ArgumentTree.text]
    exact r.writesAnywhere.writes.bound (show '-' ≠ '=' by decide)

/-- Type arguments are written one behind the other. -/
theorem ArgumentTree.writesArguments :
    ∀ as : List ArgumentTree, WritesArguments (ArgumentTree.allCalls as) (ArgumentTree.texts as)
  | [] => writesArguments_nil
  | a :: as => by
    rw [ArgumentTree.allCalls, ArgumentTree.texts]
    exact WritesArguments.cons a.writesArgument (ArgumentTree.writesArguments as)

end

/-! ## Declarations

In a declaration there is one place for each part, so it is enough that the
parts are written where they stand. -/

/-- Items of a list are written one behind the other. -/
theorem writes_flatMap {α : Type} {calls : α → List Call} {text : α → String}
    (h : ∀ a, Writes (calls a) (text a)) (as : List α) :
    Writes (as.flatMap calls) (String.join (as.map text)) := by
  rw [List.flatMap_def]
  refine writes_flatten (List.forall₂_map_left_iff.mpr (List.forall₂_map_right_iff.mpr ?_))
  exact List.forall₂_same.mpr fun a _ => h a

theorem ResultTree.writes : ∀ t : ResultTree, Writes t.calls t.text
  | .value t => t.writesAnywhere.writes
  | .void => writes_baseType voidLetter

/-- A formal type parameter is written with its bounds. A class bound that is left
out leaves its colon behind. -/
theorem FormalTree.writesFormal (f : FormalTree) : WritesFormal f.calls f.text := by
  obtain ⟨name, classBound, interfaceBounds⟩ := f
  have hinterfaces := writes_flatMap
    (fun r : ReferenceTree => r.writesAnywhere.writes.interfaceBound) interfaceBounds
  unfold FormalTree.calls FormalTree.text
  cases classBound with
  | none => simpa using hinterfaces.formal name
  | some bound =>
    have hbounds := bound.writesAnywhere.writes.classBound.append hinterfaces
    simpa [String.append_assoc] using hbounds.formal name

/-- Formal type parameters are written in angle brackets. -/
theorem FormalTree.writesFormals (fs : List FormalTree) :
    WritesFormals (fs.flatMap FormalTree.calls) (fs.map FormalTree.text) := by
  have hcontinue : ∀ others : List FormalTree, ContinuesFormals
      (others.flatMap FormalTree.calls) (String.join (others.map FormalTree.text)) := by
    intro others
    induction others with
    | nil => exact fun w _ _ => w.put_nothing.symm
    | cons f others ih =>
      rw [List.flatMap_cons, List.map_cons, String.join_cons]
      exact f.writesFormal.continuesFormals.append ih
  cases fs with
  | nil => exact writesFormals_nil
  | cons f others =>
    rw [List.flatMap_cons, List.map_cons]
    exact (f.writesFormal.append (hcontinue others)).writesFormals

/-- **The signature of a class is written.** -/
theorem ClassTree.textOf_calls (c : ClassTree) : textOf c.calls = c.text :=
  (FormalTree.writesFormals c.formals).textOf_class c.superclass.writesAnywhere.writes
    (writes_flatMap (fun r : ReferenceTree => r.writesAnywhere.writes.interface) c.interfaces)

/-- **The signature of a method is written.** -/
theorem MethodTree.textOf_calls (m : MethodTree) : textOf m.calls = m.text := by
  have hparameters : List.Forall₂ WritesParameter
      (m.parameters.map fun t => .parameterType :: t.calls) (m.parameters.map TypeTree.text) :=
    List.forall₂_map_left_iff.mpr <| List.forall₂_map_right_iff.mpr <|
      List.forall₂_same.mpr fun t _ => t.writesAnywhere.writes.parameter
  have hthrown := writes_flatMap
    (fun r : ReferenceTree => r.writesAnywhere.writes.exceptionType) m.thrown
  have htext := (FormalTree.writesFormals m.formals).textOf_method
    (m.result.writes.shape hparameters) hthrown
  rw [← List.flatMap_def] at htext
  unfold MethodTree.calls MethodTree.text
  simpa only [List.append_assoc, String.append_assoc] using htext

/-- **A writer prints the grammar.** The calls of a syntax tree – of a type, of a
class or of a method – told to a new writer yield its text. The calls of a complete
type do so in the middle of anything: to whichever writer they are told, they append
the text of the type and leave all that it remembers of brackets as it was. -/
theorem trees_are_written :
    (∀ t : TypeTree, textOf t.calls = t.text)
      ∧ (∀ c : ClassTree, textOf c.calls = c.text)
      ∧ (∀ m : MethodTree, textOf m.calls = m.text)
      ∧ ∀ (w : Writer) (t : TypeTree), w.writeAll t.calls = { w with text := w.text ++ t.text } :=
  ⟨fun t => t.writesAnywhere.writes.textOf_eq, ClassTree.textOf_calls, MethodTree.textOf_calls,
    fun w t => t.writesAnywhere w⟩

example : textOf (ReferenceTree.calls (.declared ⟨"pkg/Outer", [.exactly (.typeVariable "K")]⟩
    [⟨"Inner", [.any, .supertypeOf (.declared ⟨"java/lang/Integer", []⟩ [])]⟩]))
      = "Lpkg/Outer<TK;>.Inner<*-Ljava/lang/Integer;>;" := by decide

end ClassFile.Signature
