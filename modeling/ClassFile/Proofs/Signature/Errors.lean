import ClassFile.Proofs.Signature.DeclarationText

/-!
# Writing never fails as reading does

There is one error that reading has: the text is not that of a descriptor.
Writing has errors of its own, for handles that name nothing, for types that have
no form and for bounds that lead in a circle, and never this one. So where a text
is written and then read, the error says which of the two has failed.

`ReadsNoText` is kept by whatever is built from such computations, and every rule
for the text of a descriptor or of a signature is built from them.
-/

namespace ClassFile

open Signature

/-! ## Computations that read no text

Only the reader of descriptors makes this error, and it is called by nothing
that writes. So the rules are those for any error that is never raised. -/

section

variable {α β : Type}

/-- **A computation that reads no text:** it does not fail because a text is that of
no descriptor. -/
def ReadsNoText (x : Except Error α) : Prop := x ≠ .error .invalidDescriptor

namespace ReadsNoText

variable {x : Except Error α}

theorem ok (a : α) : ReadsNoText (.ok a) := nofun

theorem error {e : Error} (h : e ≠ .invalidDescriptor) : ReadsNoText (.error e : Except Error α) :=
  fun he => h (Except.error.inj he)

theorem bind {f : α → Except Error β} (h : ReadsNoText x) (k : ∀ a, ReadsNoText (f a)) :
    ReadsNoText (x >>= f) := by
  cases x with
  | error e => exact fun he => h (congrArg Except.error (Except.error.inj he))
  | ok a => exact k a

theorem map {f : α → β} (h : ReadsNoText x) : ReadsNoText (x.map f) := by
  cases x with
  | error e => exact fun he => h (congrArg Except.error (Except.error.inj he))
  | ok a => exact ok (f a)

theorem mapM {f : α → Except Error β} (h : ∀ a, ReadsNoText (f a)) (l : List α) :
    ReadsNoText (l.mapM f) := by
  induction l with
  | nil => exact ok []
  | cons a l ih =>
    rw [List.mapM_cons]
    exact (h a).bind fun b => ih.bind fun bs => ok (b :: bs)

end ReadsNoText

end

namespace Program

variable (p : Program)

/-! ## Handles, names and erasure -/

theorem readsNoText_classOf (id : ClassId) : ReadsNoText (p.classOf id) := by
  unfold classOf
  split
  · exact .ok _
  · exact .error nofun

theorem readsNoText_typeParameterOf (id : TypeParameterId) :
    ReadsNoText (p.typeParameterOf id) := by
  unfold typeParameterOf
  split
  · exact .ok _
  · exact .error nofun

theorem readsNoText_outwards (steps : Nat) : ∀ id, ReadsNoText (p.outwards steps id) := by
  induction steps with
  | zero => exact fun id => (p.readsNoText_classOf id).bind fun _ => .error nofun
  | succ n ih =>
    refine fun id => (p.readsNoText_classOf id).bind fun c => ?_
    split
    · exact .ok _
    · exact (ih _).bind fun _ => .ok _

theorem readsNoText_internalName (id : ClassId) : ReadsNoText (p.internalName id) :=
  (p.readsNoText_outwards _ id).map.map

theorem readsNoText_isInterface : ∀ t : JavaType, ReadsNoText (p.isInterface t)
  | .declared t => (p.readsNoText_classOf t.id).map
  | .intersection (first :: _) => by
    rw [isInterface]
    exact readsNoText_isInterface first
  | .primitive _ | .void | .array _ | .typeVariable _ _ | .wildcard | .wildcardExtends _
  | .wildcardSuper _ | .intersection [] => .ok _

/-- **Erasure reads no text:** by recursion on the type parameters that may still be
met. -/
theorem readsNoText_erasureAmong (unseen : List TypeParameterId) (t : JavaType) :
    ReadsNoText (p.erasureAmong unseen t) := by
  fun_induction p.erasureAmong unseen t with
  | case1 => exact .ok _
  | case2 => exact (p.readsNoText_classOf _).map
  | case3 _ _ _ id _ e he =>
    have hparameter := p.readsNoText_typeParameterOf id
    rw [he] at hparameter
    exact fun h => hparameter (congrArg Except.error (Except.error.inj h))
  | case4 _ _ _ _ _ _ _ _ ih => exact ih.map
  | case5 => exact .error nofun

theorem readsNoText_erasedText (e : ErasedType) : ReadsNoText (p.erasedText e) := by
  refine ReadsNoText.bind ?_ fun _ => .ok _
  unfold elementText
  split
  · exact .ok _
  · exact .ok _
  · exact (p.readsNoText_internalName _).bind fun _ => .ok _

/-! ## Types -/

/-- **Writing a descriptor reads no text.** -/
theorem readsNoText_descriptorText : ∀ t : JavaType, ReadsNoText (p.descriptorText t)
  | .primitive _ | .void => .ok _
  | .array c => by
    rw [descriptorText]
    exact (readsNoText_descriptorText c).bind fun _ => .ok _
  | .declared t => p.readsNoText_erasedText _
  | .wildcard | .wildcardExtends _ | .wildcardSuper _ => .error nofun
  | .typeVariable _ _ | .intersection _ => by
    rw [descriptorText]
    exact (p.readsNoText_erasureAmong _ _).bind p.readsNoText_erasedText

/-- A class type begins with the name of a class. -/
theorem readsNoText_classType (id : ClassId) :
    ReadsNoText (do return "L" ++ (← p.internalName id) : Except Error String) :=
  (p.readsNoText_internalName id).bind fun _ => .ok _

mutual

/-- **Writing a signature reads no text.** -/
theorem readsNoText_typeText : ∀ t : JavaType, ReadsNoText (p.typeText t)
  | .primitive _ | .void | .wildcard => .ok _
  | .array c | .wildcardExtends c | .wildcardSuper c => by
    rw [typeText]
    exact (readsNoText_typeText c).bind fun _ => .ok _
  | .declared ⟨⟨id, arguments, _⟩, outer⟩ => by
    rw [typeText]
    exact (readsNoText_headText id outer).bind fun _ =>
      (readsNoText_argumentTexts arguments).bind fun _ => .ok _
  | .typeVariable id _ => (p.readsNoText_typeParameterOf id).bind fun _ => .ok _
  | .intersection _ => .error nofun

/-- So does writing type arguments. -/
theorem readsNoText_argumentTexts : ∀ ts : List JavaType, ReadsNoText (p.argumentTexts ts)
  | [] => .ok _
  | t :: ts => by
    rw [argumentTexts]
    exact (readsNoText_typeText t).bind fun _ =>
      (readsNoText_argumentTexts ts).bind fun _ => .ok _

/-- So does writing the beginning of a class type. -/
theorem readsNoText_headText (id : ClassId) :
    ∀ outer : List ClassPart, ReadsNoText (p.headText id outer)
  | [] => p.readsNoText_classType id
  | ⟨outerId, arguments, annotations⟩ :: further => by
    rw [headText]
    split
    · exact (readsNoText_headText outerId further).bind fun _ =>
        (readsNoText_argumentTexts arguments).bind fun _ =>
          (p.readsNoText_classOf id).bind fun _ => .ok _
    · exact p.readsNoText_classType id

end

/-! ## Methods -/

theorem readsNoText_shapeText {text : JavaType → Except Error String}
    (h : ∀ t, ReadsNoText (text t)) (parameters : List JavaType) (result : JavaType) :
    ReadsNoText (shapeText text parameters result) :=
  (ReadsNoText.mapM h parameters).bind fun _ => (h result).bind fun _ => .ok _

theorem readsNoText_boundText (bound : JavaType) : ReadsNoText (p.boundText bound) :=
  (p.readsNoText_isInterface bound).bind fun _ => (p.readsNoText_typeText bound).bind fun _ => .ok _

theorem readsNoText_formalText (declared : List TypeParameterId) (id : TypeParameterId) :
    ReadsNoText (p.formalText declared id) := by
  refine (p.readsNoText_typeParameterOf id).bind fun parameter => ?_
  split
  · exact .ok _
  · split
    · exact .error nofun
    · exact (ReadsNoText.mapM p.readsNoText_boundText _).bind fun _ => .ok _

theorem readsNoText_formalTexts (ids : List TypeParameterId) :
    ∀ declared, ReadsNoText (p.formalTexts declared ids) := by
  induction ids with
  | nil => exact fun _ => .ok _
  | cons id ids ih =>
    exact fun declared => (p.readsNoText_formalText declared id).bind fun _ =>
      (ih (id :: declared)).bind fun _ => .ok _

/-- **Writing the signature of a method reads no text.** -/
theorem readsNoText_methodText (m : MethodDeclaration) : ReadsNoText (p.methodText m) := by
  refine (p.readsNoText_formalTexts _ _).bind fun _ =>
    (readsNoText_shapeText p.readsNoText_typeText _ _).bind fun _ =>
      ReadsNoText.bind ?_ fun _ => .ok _
  unfold thrownText
  split
  · exact (ReadsNoText.mapM (fun t => (p.readsNoText_typeText t).bind fun _ => .ok _) _).bind
      fun _ => .ok _
  · exact .ok _

end Program

end ClassFile
