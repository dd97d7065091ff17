import ClassFile.Proofs.DescriptorErasure
import ClassFile.Proofs.Signature.Text
import ClassFile.Signature.Declaration

/-!
# The names of thrown types

What a method throws is listed by the internal names of classes, and such a name has
neither the letter in front of it nor the semicolon behind it that a descriptor has. It
is found on a way of its own: the thrown type is erased, and if what remains is a class
and no array of it, its name is taken.

The descriptor of the type goes through the erasure as well, in a different order, and
it can be written without its end. All three say the same
(`Program.thrownName_agrees_with_descriptor`). A name `x` is listed exactly if the
descriptor is `Lx;`, which no array and no primitive type is written like, and exactly
if the descriptor without its end is `Lx`. What has another descriptor cannot be
listed, and neither can what has none.

An end is missing only where there is one: the two forms of a descriptor are the same
but for a semicolon behind a class, under whatever array layers it stands.
-/

namespace ClassFile

/-! ## Descriptors without their end -/

namespace Signature

variable {cs : List Call} {s : String}

/-- The component of an array may be a class that has only been entered. -/
theorem OpensClass.array (h : OpensClass cs s) : OpensClass (.arrayType :: cs) ("[" ++ s) := by
  intro w hw
  show (w.put "[").writeAll cs = _
  rw [h _ (Writer.isSettled_put.mpr hw), Writer.put_put]

theorem OpensClass.arrays (h : OpensClass cs s) (layers : Nat) :
    OpensClass (List.replicate layers .arrayType ++ cs)
      (String.join (List.replicate layers "[") ++ s) := by
  induction layers with
  | zero => simpa using h
  | succ n ih =>
    rw [List.replicate_succ, List.replicate_succ, String.join_cons, String.append_assoc]
    exact ih.array

/-- Entering a class is not seen in the text. -/
theorem OpensClass.textOf_eq (h : OpensClass cs s) : textOf cs = s := by
  unfold textOf
  rw [h _ Writer.isSettled_empty]
  exact String.empty_append

end Signature

/-- What the descriptor of an erased type ends with: a class has an end of its own. -/
def ErasedType.terminator (e : ErasedType) : String :=
  match e.element with
  | .declared _ => ";"
  | .primitive _ | .void => ""

namespace Program

open Signature

variable {p : Program} {t : JavaType}

/-- **An erased type with its end and without it.** -/
theorem erasedCalls_unterminated_agree (p : Program) (e : ErasedType) :
    Agree (fun cs ds => textOf cs = textOf ds ++ e.terminator) (p.erasedCalls true e)
      (p.erasedCalls false e) := by
  obtain ⟨layers, element⟩ := e
  unfold erasedCalls
  -- a letter has no end that could be missing
  cases element with
  | primitive b => exact .ok String.append_empty.symm
  | void => exact .ok String.append_empty.symm
  | declared id =>
    dsimp only
    cases p.internalName id with
    | error e => exact .error e
    | ok name =>
      have hopens := (opensClass_classType name).arrays layers
      have hcloses := hopens.close writesArguments_nil
      refine .ok ?_
      show textOf (List.replicate layers Call.arrayType ++ [Call.classType name, Call.close])
        = textOf (List.replicate layers Call.arrayType ++ [Call.classType name]) ++ ";"
      rw [hopens.textOf_eq]
      have htext := hcloses.textOf_eq
      rw [List.append_nil, List.append_assoc] at htext
      exact htext.trans (congrArg (· ++ ";") String.append_empty)

/-- A type that is no wildcard is encoded as its erasure is. -/
theorem descriptor_eq_erasure_bind (h : t.isWildcardArray = false) (terminated : Bool) :
    (p.descriptorCalls terminated t).map textOf
      = p.erasure t >>= fun e => (p.erasedCalls terminated e).map textOf := by
  rw [p.descriptorCalls_eq terminated t h]
  cases p.erasure t <;> rfl

/-- The descriptor is the text of the erasure. -/
theorem typeDescriptor_eq_erasedText (h : t.isWildcardArray = false) :
    p.typeDescriptor t = p.erasure t >>= p.erasedText := by
  refine (descriptor_eq_erasure_bind h true).trans (congrArg _ (funext fun e => ?_))
  exact (p.erasedCalls_agree e).map_eq fun _ _ h => h.textOf_eq

/-! ## A name beside a descriptor

Each outcome of asking for the name goes with an outcome of asking for the
descriptor (`ListedAs`). From the pairs that there are everything else is read
off. -/

/-- A letter by itself is shorter than the text of a class. -/
theorem letter_ne_class {c : Char} {x : String} : c.toString ≠ "L" ++ x ++ ";" := by
  intro h
  have hlength := congrArg String.length h
  rw [String.length_append, String.length_append] at hlength
  have hletter : c.toString.length = 1 := String.length_singleton
  have hmarks : "L".length = 1 ∧ ";".length = 1 := ⟨rfl, rfl⟩
  omega

/-- An array begins with a bracket. -/
theorem array_ne_class {s x : String} : "[" ++ s ≠ "L" ++ x ++ ";" := by
  intro h
  have hhead := congrArg (fun u : String => u.toList.head?) h
  simp at hhead

/-- **What a thrown type is listed as,** beside its descriptor. -/
inductive ListedAs : Except Error String → Except Error String → Prop
  /-- A class is listed by what its descriptor has between letter and semicolon. -/
  | name (x : String) : ListedAs (.ok x) (.ok ("L" ++ x ++ ";"))
  /-- What has another descriptor is no class. -/
  | other {s : String} (h : ∀ x, s ≠ "L" ++ x ++ ";") :
    ListedAs (.error (.unsupported .thrownNotClass)) (.ok s)
  /-- Without a descriptor there is no name either. -/
  | error (e : Error) : ListedAs (.error e) (.error e)
  /-- Of an array it is not asked whether its element has a name. -/
  | array (e : Error) : ListedAs (.error (.unsupported .thrownNotClass)) (.error e)

/-- The name under which an erased type is listed. -/
def erasedName (p : Program) : ErasedType → Except Error String
  | ⟨0, .declared id⟩ => p.internalName id
  | _ => .error (.unsupported .thrownNotClass)

/-- The name of a thrown type is that of its erasure. -/
theorem thrownName_eq (p : Program) (t : JavaType) :
    p.thrownName t = p.erasure t >>= p.erasedName := by
  unfold thrownName
  refine congrArg _ (funext fun e => ?_)
  obtain ⟨_ | n, element⟩ := e
  · cases element <;> rfl
  · rfl

/-- **An erased type is listed beside its text:** by cases on its layers and on what
is under them. -/
theorem erasedName_listedAs (p : Program) (e : ErasedType) :
    ListedAs (p.erasedName e) (p.erasedText e) := by
  obtain ⟨layers, element⟩ := e
  -- with layers it is refused as an array, before the element is asked for its name
  cases layers with
  | zero =>
    cases element with
    | primitive b => exact .other fun _ => letter_ne_class
    | void => exact .other fun _ => letter_ne_class
    | declared id =>
      show ListedAs (p.internalName id)
        ((p.internalName id >>= fun name => .ok ("L" ++ name ++ ";")) >>= fun s => .ok ("" ++ s))
      cases p.internalName id with
      | error e => exact .error e
      | ok name => exact .name name
  | succ n =>
    show ListedAs (.error _) (p.elementText element >>= fun _ => _)
    cases p.elementText element with
    | error e => exact .array e
    | ok text =>
      refine .other fun x => ?_
      dsimp only
      rw [List.replicate_succ, String.join_cons, String.append_assoc]
      exact array_ne_class

/-- **A thrown type is listed beside its descriptor.** -/
theorem thrownName_listedAs (h : t.isWildcardArray = false) :
    ListedAs (p.thrownName t) (p.typeDescriptor t) := by
  rw [thrownName_eq, typeDescriptor_eq_erasedText h]
  cases p.erasure t with
  | error e => exact .error e
  | ok e => exact p.erasedName_listedAs e

/-- A name of a class is what its descriptor without end has behind the letter. -/
theorem thrownName_eq_tail {id : ClassId} (h : p.erasure t = .ok ⟨0, .declared id⟩) :
    p.thrownName t = (p.encode (.declared (.plain id)) .descriptorUnterminated).map
      fun s => String.ofList s.toList.tail := by
  rw [thrownName_eq, h]
  show p.internalName id = ((p.erasedCalls false ⟨0, .declared id⟩).map textOf).map _
  unfold erasedCalls
  dsimp only
  cases p.internalName id with
  | error e => rfl
  | ok name =>
    show Except.ok name = .ok (String.ofList (textOf [Call.classType name]).toList.tail)
    rw [(opensClass_classType name).textOf_eq]
    simp

/-- **The names of thrown types agree with the descriptors.** Of a type that is no
wildcard under any array layers: `x` is its name exactly if `Lx;` is its descriptor;
with another descriptor it is refused as no class, and without one it is refused as
well. The descriptor with and without its end fail with the same error, or there is an
erasure and they differ by what that ends with. -/
theorem thrownName_agrees_with_descriptor (p : Program) (t : JavaType)
    (h : t.isWildcardArray = false) :
    (∀ x, p.thrownName t = .ok x ↔ p.typeDescriptor t = .ok ("L" ++ x ++ ";"))
      ∧ (∀ s, p.typeDescriptor t = .ok s → (∀ x, s ≠ "L" ++ x ++ ";") →
        p.thrownName t = .error (.unsupported .thrownNotClass))
      ∧ (∀ e, p.typeDescriptor t = .error e →
        p.thrownName t = .error e ∨ p.thrownName t = .error (.unsupported .thrownNotClass))
      ∧ Agree (fun s u => ∃ e, p.erasure t = .ok e ∧ s = u ++ e.terminator)
        (p.encode t .descriptor) (p.encode t .descriptorUnterminated) := by
  have hlisted : ListedAs (p.thrownName t) (p.typeDescriptor t) := thrownName_listedAs h
  refine ⟨fun x => ?_, fun s hs hother => ?_, fun e he => ?_, ?_⟩
  · generalize p.thrownName t = name at hlisted ⊢
    generalize p.typeDescriptor t = text at hlisted ⊢
    cases hlisted with
    | name y => simp
    | other hother => simpa using hother x
    | error e => simp
    | array e => simp
  · generalize p.thrownName t = name at hlisted
    rw [hs] at hlisted
    cases hlisted with
    | name y => exact absurd rfl (hother y)
    | other _ => rfl
  · generalize p.thrownName t = name at hlisted
    rw [he] at hlisted
    cases hlisted with
    | error e => exact .inl rfl
    | array e => exact .inr rfl
  · show Agree _ ((p.descriptorCalls true t).map textOf) ((p.descriptorCalls false t).map textOf)
    rw [descriptor_eq_erasure_bind h, descriptor_eq_erasure_bind h]
    cases herasure : p.erasure t with
    | error e => exact .error e
    | ok e =>
      exact (p.erasedCalls_unterminated_agree e).map fun cs ds htext => ⟨e, rfl, htext⟩

/-- A variable that is bounded by a class, and by an interface besides, is listed by the
name of the class. -/
theorem thrownName_agrees_with_descriptor_variable :
    let p : Program :=
      { classes := Program.initial.classes.push (.bare .interface "a" "I")
        typeParameters :=
          #[⟨"X", .intersection [.declared (.plain .string), .declared (.plain ⟨6⟩)], none, []⟩] }
    let t : JavaType := .typeVariable ⟨0⟩ []
    t.isWildcardArray = false
      ∧ ((∀ x, p.thrownName t = .ok x ↔ p.typeDescriptor t = .ok ("L" ++ x ++ ";"))
        ∧ (∀ s, p.typeDescriptor t = .ok s → (∀ x, s ≠ "L" ++ x ++ ";") →
          p.thrownName t = .error (.unsupported .thrownNotClass))
        ∧ (∀ e, p.typeDescriptor t = .error e →
          p.thrownName t = .error e ∨ p.thrownName t = .error (.unsupported .thrownNotClass))
        ∧ Agree (fun s u => ∃ e, p.erasure t = .ok e ∧ s = u ++ e.terminator)
          (p.encode t .descriptor) (p.encode t .descriptorUnterminated))
      ∧ p.thrownName t = .ok "java/lang/String" :=
  ⟨rfl, thrownName_agrees_with_descriptor _ _ rfl, by cbv⟩

end Program

end ClassFile
