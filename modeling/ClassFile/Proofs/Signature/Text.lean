import ClassFile.Proofs.Agreement
import ClassFile.Proofs.Signature.Writing
import ClassFile.Signature.Declaration

/-!
# The text of a signature, rule by rule

An encoded type is a list of calls, and only a writer turns it into a text.
Here the text is given directly: `Program.typeText` says for each kind of
type what its signature consists of, with all brackets in place, and
`Program.typeSignature_eq` says that this is the text that is written. The
two fail alike, too. From there on nothing that is said about the signature
of a type has to look at a writer.

Nothing is assumed about the type: a wildcard inside a wildcard or a
primitive type as a type argument has no place in the grammar, but it has a
text.

Descriptors have their rules as well (`Program.descriptorText`).
-/

namespace ClassFile

open Signature

namespace Program

mutual

/-- **The text of the signature of a type.** -/
def typeText (p : Program) : JavaType → Except Error String
  | .primitive b => return b.letter.toString
  | .void => return voidLetter.toString
  | .array c => return "[" ++ (← p.typeText c)
  | .declared ⟨⟨id, arguments, _⟩, outer⟩ => do
    let head ← p.headText id outer
    let arguments ← p.argumentTexts arguments
    return head ++ angled arguments ++ ";"
  | .typeVariable id _ => return "T" ++ (← p.typeParameterOf id).name ++ ";"
  | .wildcard => return "*"
  | .wildcardExtends bound => return "+" ++ (← p.typeText bound)
  | .wildcardSuper bound => return "-" ++ (← p.typeText bound)
  | .intersection _ => throw (.unsupported .intersectionOutsideBound)

/-- The texts of type arguments. -/
def argumentTexts (p : Program) : List JavaType → Except Error (List String)
  | [] => return []
  | t :: ts => do
    let first ← p.typeText t
    return first :: (← p.argumentTexts ts)

/-- The text of a class type up to its own type arguments. -/
def headText (p : Program) (id : ClassId) : List ClassPart → Except Error String
  | [] => return "L" ++ (← p.internalName id)
  | ⟨outerId, arguments, annotations⟩ :: further =>
    if (ClassType.mk ⟨outerId, arguments, annotations⟩ further).isParameterized then do
      let head ← p.headText outerId further
      let arguments ← p.argumentTexts arguments
      return head ++ angled arguments ++ "." ++ (← p.classOf id).simpleName
    else return "L" ++ (← p.internalName id)

end

/-! ## What a text consists of

That a text has been found says that its parts have been found. These are the
forms in which that is used. -/

variable {p : Program} {s : String} {texts : List String}

theorem typeText_declared_ok {id : ClassId} {arguments : List JavaType}
    {annotations : List Annotation} {outer : List ClassPart}
    (h : p.typeText (.declared ⟨⟨id, arguments, annotations⟩, outer⟩) = .ok s) :
    ∃ head, p.headText id outer = .ok head ∧
      ∃ texts, p.argumentTexts arguments = .ok texts ∧ head ++ angled texts ++ ";" = s := by
  rw [typeText] at h
  obtain ⟨head, hh, h⟩ := bind_eq_ok h
  exact ⟨head, hh, bind_pure_eq_ok h⟩

theorem typeText_typeVariable_ok {id : TypeParameterId} {annotations : List Annotation}
    (h : p.typeText (.typeVariable id annotations) = .ok s) :
    ∃ parameter, p.typeParameterOf id = .ok parameter ∧ "T" ++ parameter.name ++ ";" = s := by
  rw [typeText] at h
  exact bind_pure_eq_ok h

theorem argumentTexts_cons_ok {t : JavaType} {ts : List JavaType}
    (h : p.argumentTexts (t :: ts) = .ok texts) :
    ∃ first, p.typeText t = .ok first ∧
      ∃ others, p.argumentTexts ts = .ok others ∧ first :: others = texts := by
  rw [argumentTexts] at h
  obtain ⟨first, hf, h⟩ := bind_eq_ok h
  exact ⟨first, hf, bind_pure_eq_ok h⟩

/-- A class inside a parameterized one is a segment behind it. -/
theorem headText_cons_ok {id : ClassId} {part : ClassPart} {further : List ClassPart}
    (hp : (ClassType.mk part further).isParameterized = true)
    (h : p.headText id (part :: further) = .ok s) :
    ∃ head, p.headText part.id further = .ok head ∧
      ∃ texts, p.argumentTexts part.arguments = .ok texts ∧
        ∃ c, p.classOf id = .ok c ∧ head ++ angled texts ++ "." ++ c.simpleName = s := by
  obtain ⟨outerId, arguments, annotations⟩ := part
  rw [headText, if_pos hp] at h
  obtain ⟨head, hh, h⟩ := bind_eq_ok h
  obtain ⟨texts, ht, h⟩ := bind_eq_ok h
  exact ⟨head, hh, texts, ht, bind_pure_eq_ok h⟩

/-- A class around which nothing is parameterized has its internal name. -/
theorem headText_plain {id : ClassId} {outer : List ClassPart}
    (hp : outer.any ClassPart.hasArguments = false) :
    p.headText id outer = do return "L" ++ (← p.internalName id) := by
  cases outer with
  | nil => rfl
  | cons part further =>
    obtain ⟨outerId, arguments, annotations⟩ := part
    have hplain : ¬ (ClassType.mk ⟨outerId, arguments, annotations⟩ further).isParameterized := by
      unfold ClassType.isParameterized ClassType.parts
      rw [hp]
      exact Bool.false_ne_true
    rw [headText, if_neg hplain]

end Program

/-! ## The text is what is written

Calls and text are found by the same recursion, so they fail at the same
places and for the same reasons. That is what `Agree` says, and only where
both are found there is something to be shown of them. -/

/-- **What calls write as the type `t`:** the text, and the same text where
they are announced as a type argument. -/
structure WritesType (t : JavaType) (cs : List Call) (s : String) : Prop where
  writes : Writes cs s
  announced : WritesArgument (t.argumentMark ++ cs) s

/-- A type that is no wildcard is announced. -/
theorem Signature.Writes.ofType {t : JavaType} {cs : List Call} {s : String}
    (h : Writes cs s) (ht : t.isWildcard = false) : WritesType t cs s where
  writes := h
  announced := by
    unfold JavaType.argumentMark
    rw [ht]
    exact h.exactly

/-- A wildcard announces itself. -/
theorem Signature.WritesArgument.ofWildcard {t : JavaType} {cs : List Call} {s : String}
    (h : WritesArgument cs s) (ht : t.isWildcard = true) : WritesType t cs s where
  writes := h.writes
  announced := by
    unfold JavaType.argumentMark
    rw [ht]
    exact h

namespace Program

/-- The calls that name a class write `L` and its internal name. -/
theorem classTypeCalls_agree (p : Program) (id : ClassId) :
    Agree OpensClass (do return [.classType (← p.internalName id)])
      (do return "L" ++ (← p.internalName id)) :=
  (Agree.refl _).bind fun _ _ h => h ▸ .ok (opensClass_classType _)

mutual

/-- **The calls of a type write its text,** by recursion on the type. -/
theorem typeCalls_agree (p : Program) :
    ∀ t : JavaType, Agree (WritesType t) (p.typeCalls t) (p.typeText t)
  | .primitive _ => .ok ((writes_baseType _).ofType rfl)
  | .void => .ok ((writes_baseType _).ofType rfl)
  | .array c => by
    rw [typeCalls, typeText]
    exact (p.typeCalls_agree c).bind fun _ _ h => .ok (h.writes.array.ofType rfl)
  | .declared ⟨⟨id, arguments, _⟩, outer⟩ => by
    rw [typeCalls, typeText]
    exact (p.headCalls_agree id outer).bind fun _ _ hh =>
      (p.argumentCalls_agree arguments).bind fun _ _ ha => .ok ((hh.close ha).ofType rfl)
  | .typeVariable id _ => by
    rw [typeCalls, typeText]
    exact (Agree.refl _).bind fun _ _ h => h ▸ .ok ((writes_typeVariable _).ofType rfl)
  | .wildcard => .ok (writesArgument_unbounded.ofWildcard rfl)
  | .wildcardExtends bound => by
    rw [typeCalls, typeText]
    exact (p.typeCalls_agree bound).bind fun _ _ h =>
      .ok ((h.writes.bound (show '+' ≠ '=' by decide)).ofWildcard rfl)
  | .wildcardSuper bound => by
    rw [typeCalls, typeText]
    exact (p.typeCalls_agree bound).bind fun _ _ h =>
      .ok ((h.writes.bound (show '-' ≠ '=' by decide)).ofWildcard rfl)
  | .intersection _ => .error _

/-- The calls of type arguments write their texts. -/
theorem argumentCalls_agree (p : Program) :
    ∀ ts : List JavaType, Agree WritesArguments (p.argumentCalls ts) (p.argumentTexts ts)
  | [] => .ok writesArguments_nil
  | t :: ts => by
    rw [argumentCalls, argumentTexts]
    exact (p.typeCalls_agree t).bind fun _ _ h =>
      (p.argumentCalls_agree ts).bind fun _ _ hs => .ok (hs.cons h.announced)

/-- The calls that begin a class type write its text. -/
theorem headCalls_agree (p : Program) (id : ClassId) :
    ∀ outer : List ClassPart, Agree OpensClass (p.headCalls id outer) (p.headText id outer)
  | [] => p.classTypeCalls_agree id
  | ⟨outerId, arguments, annotations⟩ :: further => by
    rw [headCalls, headText]
    split
    · exact (p.headCalls_agree outerId further).bind fun _ _ hh =>
        (p.argumentCalls_agree arguments).bind fun _ _ ha =>
          (Agree.refl _).bind fun _ _ h => h ▸ .ok (hh.inner ha _)
    · exact p.classTypeCalls_agree id

end

/-- **The signature of a type is its text.** -/
theorem typeSignature_eq (p : Program) (t : JavaType) : p.typeSignature t = p.typeText t :=
  (p.typeCalls_agree t).map_eq fun _ _ h => h.writes.textOf_eq

/-! ## Descriptors

An array that is written layer by layer has the same text as one that is
erased first and written at once. -/

/-- The text of what an erased type has under its array layers. -/
def elementText (p : Program) : ErasedElement → Except Error String
  | .primitive b => return b.letter.toString
  | .void => return voidLetter.toString
  | .declared id => return "L" ++ (← p.internalName id) ++ ";"

/-- The text of an erased type: the brackets of its layers and the element. -/
def erasedText (p : Program) (e : ErasedType) : Except Error String := do
  return String.join (List.replicate e.layers "[") ++ (← p.elementText e.element)

/-- **The text of the descriptor of a type.** -/
def descriptorText (p : Program) : JavaType → Except Error String
  | .primitive b => return b.letter.toString
  | .void => return voidLetter.toString
  | .array c => return "[" ++ (← p.descriptorText c)
  | .declared t => p.erasedText ⟨0, .declared t.id⟩
  | .wildcard | .wildcardExtends _ | .wildcardSuper _ =>
    throw (.unsupported .wildcardOutsideArgument)
  | t@(.typeVariable _ _) | t@(.intersection _) => do
    p.erasedText (← p.erasure t)

end Program

/-- Brackets of arrays are written ahead of the element. -/
theorem Signature.Writes.arrays {cs : List Call} {s : String} (h : Writes cs s) (layers : Nat) :
    Writes (List.replicate layers .arrayType ++ cs)
      (String.join (List.replicate layers "[") ++ s) := by
  induction layers with
  | zero => simpa using h
  | succ n ih =>
    rw [List.replicate_succ, List.replicate_succ, String.join_cons, String.append_assoc]
    exact ih.array

namespace Program

/-- The calls of an erased type write its element behind the brackets. -/
theorem erasedCalls_agree (p : Program) (e : ErasedType) :
    Agree Writes (p.erasedCalls true e) (p.erasedText e) := by
  unfold erasedCalls erasedText
  cases e.element with
  | primitive b => exact .ok ((writes_baseType _).arrays _)
  | void => exact .ok ((writes_baseType _).arrays _)
  | declared id =>
    unfold elementText
    simp only [bind_assoc, pure_bind, if_true]
    refine (Agree.refl _).bind fun name name' h => ?_
    subst h
    have hclass : Writes [.classType name, .close] ("L" ++ name ++ ";") := by
      have hangled : "L" ++ name = "L" ++ name ++ angled [] := String.append_empty.symm
      rw [hangled]
      exact (opensClass_classType name).close writesArguments_nil
    exact .ok (hclass.arrays _)

/-- **The calls of a descriptor write its text,** by recursion on the array
layers. -/
theorem descriptorCalls_agree (p : Program) :
    ∀ t : JavaType, Agree Writes (p.descriptorCalls true t) (p.descriptorText t)
  | .primitive _ => .ok (writes_baseType _)
  | .void => .ok (writes_baseType _)
  | .array c => by
    rw [descriptorCalls, descriptorText]
    exact (p.descriptorCalls_agree c).bind fun _ _ h => .ok h.array
  | .declared t => by
    rw [descriptorCalls, descriptorText]
    exact p.erasedCalls_agree _
  | .wildcard | .wildcardExtends _ | .wildcardSuper _ => .error _
  | .typeVariable _ _ | .intersection _ => by
    rw [descriptorCalls, descriptorText]
    refine (Agree.refl _).bind fun e e' h => ?_
    subst h
    exact p.erasedCalls_agree e

/-- **The descriptor of a type is its text.** -/
theorem typeDescriptor_eq (p : Program) (t : JavaType) :
    p.typeDescriptor t = p.descriptorText t :=
  (p.descriptorCalls_agree t).map_eq fun _ _ h => h.textOf_eq

end Program

end ClassFile
