import ClassFile.Proofs.NamesAlike
import ClassFile.Signature.Declaration

/-!
# What a signature depends on

A type that is written in a signature shows names only. A type variable is its
name, and what bounds it is not looked at: so the signature of a type is the same
in all programs that name things alike (`Program.NamesAlike.typeCalls_eq`).

The one place where bounds are written is the declaration of a type parameter.
Programs that name things alike may still declare a type parameter differently;
`Program.DeclaresAlike` says that they do not. The signatures of methods and
classes are the same in two programs if the type parameters that are declared in
them are declared alike, whatever becomes of all others.
-/

namespace ClassFile

open Signature (Call)

/-- **The type parameters that are declared when a type is written,** if its
variables are declared with their bounds: it is one, under arrays, or none. -/
def JavaType.declaredVariables : JavaType → List TypeParameterId
  | array c => c.declaredVariables
  | typeVariable id _ => [id]
  | _ => []

/-- A list of type parameters declares these. -/
theorem JavaType.flatMap_declaredVariables (ids : List TypeParameterId) :
    (ids.map ofParameter).flatMap declaredVariables = ids := by
  rw [List.flatMap_map]
  exact List.flatMap_singleton' ids

/-- The type parameters that are declared when a type is written in a mode. -/
def JavaType.declaredIn (t : JavaType) : EncodingMode → List TypeParameterId
  | .signatureWithBounds => t.declaredVariables
  | _ => []

namespace Program

/-- **Programs that declare a type parameter alike:** by the same name, with a
lower bound in both or in none, and with bounds that are written alike. -/
def DeclaresAlike (p q : Program) (id : TypeParameterId) : Prop :=
  Agree
    (fun s t => s.name = t.name ∧ s.lowerBound.isSome = t.lowerBound.isSome
      ∧ s.bounds.mapM p.boundCalls = t.bounds.mapM q.boundCalls)
    (p.typeParameterOf id) (q.typeParameterOf id)

namespace NamesAlike

variable {p q : Program}

/-! ## Types

No hypothesis on type parameters is needed here beyond their names. That is
what distinguishes a signature from a descriptor. -/

mutual

/-- **The signature of a type shows names only,** by recursion on the type. -/
theorem typeCalls_eq (h : NamesAlike p q) : ∀ t : JavaType, p.typeCalls t = q.typeCalls t
  | .primitive _ | .void | .wildcard | .intersection _ => rfl
  | .array c => by rw [typeCalls, typeCalls, h.typeCalls_eq c]
  | .declared ⟨⟨id, arguments, _⟩, outer⟩ => by
    rw [typeCalls, typeCalls, h.headCalls_eq id outer, h.argumentCalls_eq arguments]
  | .typeVariable id _ => by
    rw [typeCalls, typeCalls]
    exact ((h.typeParameterOf id).bind fun _ _ hst => .ok (by rw [hst])).eq
  | .wildcardExtends bound => by rw [typeCalls, typeCalls, h.typeCalls_eq bound]
  | .wildcardSuper bound => by rw [typeCalls, typeCalls, h.typeCalls_eq bound]

/-- So do type arguments. -/
theorem argumentCalls_eq (h : NamesAlike p q) :
    ∀ ts : List JavaType, p.argumentCalls ts = q.argumentCalls ts
  | [] => rfl
  | t :: ts => by
    rw [argumentCalls, argumentCalls, h.typeCalls_eq t, h.argumentCalls_eq ts]

/-- So does the beginning of a class type. -/
theorem headCalls_eq (h : NamesAlike p q) (id : ClassId) :
    ∀ outer : List ClassPart, p.headCalls id outer = q.headCalls id outer
  | [] => by rw [headCalls, headCalls, h.internalName_eq]
  | ⟨outerId, arguments, annotations⟩ :: further => by
    rw [headCalls, headCalls, h.headCalls_eq outerId further, h.argumentCalls_eq arguments,
      h.internalName_eq]
    split
    · refine congrArg (_ >>= ·) (funext fun head => congrArg (_ >>= ·) (funext fun arguments => ?_))
      exact ((h.classOf id).bind fun _ _ hcd => .ok (by rw [hcd.simpleName])).eq
    · rfl

end

theorem boundCalls_eq (h : NamesAlike p q) (bound : JavaType) :
    p.boundCalls bound = q.boundCalls bound := by
  rw [boundCalls, boundCalls, h.isInterface_eq, h.typeCalls_eq]

/-- A type parameter that is the same in both programs is declared alike. -/
theorem declaresAlike (h : NamesAlike p q) {id : TypeParameterId}
    (hid : p.typeParameterOf id = q.typeParameterOf id) : DeclaresAlike p q id := by
  unfold DeclaresAlike
  rw [hid]
  refine (Agree.refl _).mono fun s t hst => ?_
  subst hst
  exact ⟨rfl, rfl, by rw [funext h.boundCalls_eq]⟩

/-! ## Type parameters

A type parameter is declared by its bounds. What is asked of two programs is
no more than that these are written alike and that both or neither have a
lower bound, which is an error. -/

/-- **A type parameter that is declared alike** is written alike, whether it is
declared or only named. -/
theorem formalCalls_eq (declared : List TypeParameterId) {id : TypeParameterId}
    (hid : DeclaresAlike p q id) : p.formalCalls declared id = q.formalCalls declared id := by
  unfold formalCalls
  refine (hid.bind fun s t hst => ?_).eq
  obtain ⟨hname, hlower, hbounds⟩ := hst
  rw [hname, hlower, hbounds]
  exact .refl _

/-- So is a list of them, by induction on the list with what it has declared
so far. -/
theorem formalsCalls_eq : ∀ (types : List JavaType) (declared : List TypeParameterId),
    (∀ id ∈ types.flatMap JavaType.declaredVariables, DeclaresAlike p q id) →
      p.formalsCalls declared types = q.formalsCalls declared types
  | [], _, _ => rfl
  | .typeVariable id _ :: ts, declared, hd => by
    rw [List.flatMap_cons] at hd
    have hid : DeclaresAlike p q id := hd id (List.mem_append_left _ List.mem_cons_self)
    rw [formalsCalls, formalsCalls, formalCalls_eq declared hid,
      formalsCalls_eq ts (id :: declared) fun i hi => hd i (List.mem_append_right _ hi)]
  | .primitive _ :: _, _, _ | .void :: _, _, _ | .array _ :: _, _, _ | .declared _ :: _, _, _
  | .wildcard :: _, _, _ | .wildcardExtends _ :: _, _, _ | .wildcardSuper _ :: _, _, _
  | .intersection _ :: _, _, _ => rfl

theorem declaringCalls_eq (h : NamesAlike p q) : ∀ t : JavaType,
    (∀ id ∈ t.declaredVariables, DeclaresAlike p q id) → p.declaringCalls t = q.declaringCalls t
  | .array c, hd => by rw [declaringCalls, declaringCalls, h.declaringCalls_eq c hd]
  | .typeVariable id _, hd => formalCalls_eq [] (hd id List.mem_cons_self)
  | .primitive _, _ | .void, _ | .declared _, _ | .wildcard, _ | .wildcardExtends _, _
  | .wildcardSuper _, _ | .intersection _, _ => h.typeCalls_eq _

theorem segmentCalls_eq (h : NamesAlike p q) : ∀ t : JavaType, p.segmentCalls t = q.segmentCalls t
  | .array c => by rw [segmentCalls, segmentCalls, h.segmentCalls_eq c]
  | .declared t => by
    rw [segmentCalls, segmentCalls, h.argumentCalls_eq]
    exact ((h.classOf t.id).bind fun _ _ hcd => by rw [hcd.simpleName]; exact .refl _).eq
  | .primitive _ | .void | .typeVariable _ _ | .wildcard | .wildcardExtends _
  | .wildcardSuper _ | .intersection _ => h.typeCalls_eq _

/-- **The signature of a type in whatever mode** is the same if what it declares
is declared alike. -/
theorem calls_eq (h : NamesAlike p q) (t : JavaType) {mode : EncodingMode}
    (hmode : mode.isDescriptor = false) (hd : ∀ id ∈ t.declaredIn mode, DeclaresAlike p q id) :
    p.calls t mode = q.calls t mode := by
  cases mode with
  | descriptor => cases hmode
  | descriptorUnterminated => cases hmode
  | signature => exact h.typeCalls_eq t
  | signatureWithBounds => exact h.declaringCalls_eq t hd
  | signatureSimple => exact h.segmentCalls_eq t

/-! ## Methods and classes

The type parameters that are asked to be declared alike are those that the
method or the class lists itself. Others that are mentioned, as those of a
class in a method of it, are not declared again. -/

theorem shapeCalls_eq (h : NamesAlike p q) (parameters : List JavaType) (result : JavaType) :
    p.shapeCalls parameters result .signature = q.shapeCalls parameters result .signature := by
  unfold shapeCalls calls
  simp only [h.typeCalls_eq]

theorem thrownCalls_eq (h : NamesAlike p q) (m : MethodDeclaration) :
    p.thrownCalls m = q.thrownCalls m := by
  unfold thrownCalls
  simp only [h.typeCalls_eq]

/-- **The calls of a method** are the same in a signature if its type parameters
are declared alike. -/
theorem methodCalls_eq (h : NamesAlike p q) (types parameters : List JavaType) (result : JavaType)
    {mode : EncodingMode} (hmode : mode.isDescriptor = false)
    (hd : ∀ id ∈ types.flatMap JavaType.declaredVariables, DeclaresAlike p q id) :
    p.methodCalls types parameters result mode = q.methodCalls types parameters result mode := by
  have hsignature : ¬ mode.isDescriptor = true := by
    rw [hmode]
    exact Bool.false_ne_true
  rw [methodCalls, methodCalls, if_neg hsignature, if_neg hsignature, formalsCalls_eq types [] hd,
    h.shapeCalls_eq]

/-- **The signature of a method** is the same if its type parameters are declared
alike. -/
theorem methodSignature_eq (h : NamesAlike p q) (m : MethodDeclaration)
    (hd : ∀ id ∈ m.typeParameters, DeclaresAlike p q id) :
    p.methodSignature m = q.methodSignature m := by
  unfold methodSignature
  dsimp only
  rw [h.thrownCalls_eq,
    h.methodCalls_eq _ _ _ rfl (by rwa [JavaType.flatMap_declaredVariables])]

/-- **The signature of a class** is the same if its type parameters are declared
alike. -/
theorem declarationCalls_eq (h : NamesAlike p q) (c : ClassDeclaration)
    (hd : ∀ id ∈ c.typeParameters, DeclaresAlike p q id) :
    p.declarationCalls c = q.declarationCalls c := by
  unfold declarationCalls
  rw [formalsCalls_eq _ [] (by rwa [JavaType.flatMap_declaredVariables])]
  simp only [h.typeCalls_eq]

end NamesAlike

end Program

end ClassFile
