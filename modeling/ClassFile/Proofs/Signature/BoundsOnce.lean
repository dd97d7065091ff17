import ClassFile.Proofs.Signature.Cycles
import ClassFile.Proofs.Signature.Dependence

/-!
# Bounds are written once

Signatures enter the bounds of a type parameter in one place only, where it is
declared, and everything that is written in there is written by name. A list of
type parameters may name one of them twice. Those that have been declared before
are handed along the list, so each is declared where it comes first: the calls
contain its declaration, and no other call declares anything
(`Program.DeclaresOnce`). The number of calls is then bounded by what is declared
and what is mentioned, whatever circles the bounds run in.

Bounds that are never entered may be anything. Two programs that differ in such
bounds only name things alike, and what that means for signatures is known
(`Program.NamesAlike.calls_eq`).
-/

namespace ClassFile

open Signature (Call)

/-- A class that needs no signature declares no type parameters. -/
theorem ClassDeclaration.typeParameters_eq_nil_of_needsSignature {c : ClassDeclaration}
    (h : c.needsSignature = false) : c.typeParameters = [] := by
  obtain ⟨hnone, -⟩ := Bool.or_eq_false_iff.mp (Bool.or_eq_false_iff.mp h).1
  rwa [Bool.not_eq_false', List.isEmpty_iff] at hnone

namespace Program

variable (p : Program)

/-! ## Declarations

To say that something is declared once, the declarations are taken out of the
calls and listed: `distinct` are the type parameters and `declarations` what
declares them, in the same order. That they stand in the calls is `whole`, and
that there are no others is `alone`. -/

/-- The bounds of a type parameter, if it is known. -/
def boundsOf (id : TypeParameterId) : List JavaType :=
  match p.typeParameterOf id with
  | .ok parameter => parameter.bounds
  | .error _ => []

/-- What announces a bound and writes it. -/
def Announces (bound : JavaType) (cs : List Call) : Prop :=
  ∃ isInterface written, p.isInterface bound = .ok isInterface ∧ p.typeCalls bound = .ok written
    ∧ cs = (if isInterface then .interfaceBound else .classBound) :: written

/-- **What declares a type parameter:** its name, and each of its bounds in order. -/
def Declares (id : TypeParameterId) (d : List Call) : Prop :=
  ∃ parameter announced, p.typeParameterOf id = .ok parameter
    ∧ List.Forall₂ p.Announces parameter.bounds announced
    ∧ d = .formalTypeParameter parameter.name :: announced.flatten

/-- **Calls that declare some type parameters once.** The `ids` are listed, those
of `declared` have been declared before, and the others are the `distinct` ones.
The declaration of each of these, with all its bounds, stands in the calls;
nothing but these declarations declares anything; and apart from the bounds in
them, there are no more calls than are listed and mentioned. -/
structure DeclaresOnce (declared ids : List TypeParameterId) (mentioned : Nat) (cs : List Call)
    (distinct : List TypeParameterId) (declarations : List (List Call)) : Prop where
  nodup : distinct.Nodup
  mem_iff : ∀ id, id ∈ distinct ↔ id ∈ ids ∧ id ∉ declared
  declares : List.Forall₂ p.Declares distinct declarations
  whole : ∀ d ∈ declarations, d <:+: cs
  alone : cs.filter Call.declares = declarations.flatten.filter Call.declares
  length_le : cs.length
    ≤ ids.length + JavaType.sizeOfAll (distinct.flatMap p.boundsOf) + mentioned

namespace DeclaresOnce

variable {p} {declared ids distinct : List TypeParameterId} {m n : Nat} {cs ds d : List Call}
  {declarations : List (List Call)} {id : TypeParameterId}

theorem nil : p.DeclaresOnce declared [] 0 [] [] [] where
  nodup := .nil
  mem_iff _ := ⟨fun h => (nomatch h), fun h => h.1⟩
  declares := .nil
  whole _ h := nomatch h
  alone := rfl
  length_le := Nat.le_refl 0

/-- A type parameter that has been declared is named. -/
theorem named (h : p.DeclaresOnce (id :: declared) ids n cs distinct declarations)
    (hid : id ∈ declared) (hd : Mentions 1 d) :
    p.DeclaresOnce declared (id :: ids) n (d ++ cs) distinct declarations where
  nodup := h.nodup
  mem_iff i := by
    rw [h.mem_iff, List.mem_cons, List.mem_cons]
    constructor
    · rintro ⟨hi, hnot⟩
      exact ⟨.inr hi, fun hmem => hnot (.inr hmem)⟩
    · -- what is listed first has been declared, so it is not among the distinct ones
      rintro ⟨rfl | hi, hnot⟩
      · exact absurd hid hnot
      · exact ⟨hi, fun hmem => hmem.elim (fun heq => hnot (heq ▸ hid)) hnot⟩
  declares := h.declares
  whole d' hd' := (h.whole d' hd').trans (List.suffix_append d cs).isInfix
  alone := by rw [List.filter_append, hd.filter_eq, h.alone, List.nil_append]
  length_le := by
    rw [List.length_append, List.length_cons]
    have := h.length_le
    have := hd.length_le
    omega

/-- A type parameter that has not been declared is declared. -/
theorem fresh (h : p.DeclaresOnce (id :: declared) ids n cs distinct declarations)
    (hid : id ∉ declared) (hd : p.Declares id d)
    (hlength : d.length ≤ 1 + JavaType.sizeOfAll (p.boundsOf id)) :
    p.DeclaresOnce declared (id :: ids) n (d ++ cs) (id :: distinct) (d :: declarations) where
  nodup := List.nodup_cons.mpr
    ⟨fun hmem => ((h.mem_iff id).mp hmem).2 List.mem_cons_self, h.nodup⟩
  mem_iff i := by
    rw [List.mem_cons, h.mem_iff, List.mem_cons, List.mem_cons]
    constructor
    · -- either it is the one that is declared here, or it is declared further back
      rintro (rfl | ⟨hi, hnot⟩)
      · exact ⟨.inl rfl, hid⟩
      · exact ⟨.inr hi, fun hmem => hnot (.inr hmem)⟩
    · rintro ⟨rfl | hi, hnot⟩
      · exact .inl rfl
      · by_cases heq : i = id
        · exact .inl heq
        · exact .inr ⟨hi, fun hmem => hmem.elim heq hnot⟩
  declares := .cons hd h.declares
  whole d' hd' := by
    rcases List.mem_cons.mp hd' with rfl | hd'
    · exact (List.prefix_append d' cs).isInfix
    · exact (h.whole d' hd').trans (List.suffix_append d cs).isInfix
  alone := by rw [List.filter_append, h.alone, List.flatten_cons, List.filter_append]
  length_le := by
    rw [List.length_append, List.length_cons, List.flatMap_cons, JavaType.sizeOfAll_append]
    have := h.length_le
    omega

/-- There may be more mentioning than there is. -/
theorem mono (h : p.DeclaresOnce declared ids m cs distinct declarations) (hmn : m ≤ n) :
    p.DeclaresOnce declared ids n cs distinct declarations :=
  { h with length_le := Nat.le_trans h.length_le (Nat.add_le_add_left hmn _) }

/-- What stands ahead of the declarations mentions things only. -/
theorem prepend (h : p.DeclaresOnce declared ids m cs distinct declarations) (hd : Mentions n ds) :
    p.DeclaresOnce declared ids (n + m) (ds ++ cs) distinct declarations where
  nodup := h.nodup
  mem_iff := h.mem_iff
  declares := h.declares
  whole d' hd' := (h.whole d' hd').trans (List.suffix_append ds cs).isInfix
  alone := by rw [List.filter_append, hd.filter_eq, List.nil_append, h.alone]
  length_le := by
    rw [List.length_append]
    have := h.length_le
    have := hd.length_le
    omega

/-- What follows the declarations mentions things only. -/
theorem append (h : p.DeclaresOnce declared ids m cs distinct declarations) (hd : Mentions n ds) :
    p.DeclaresOnce declared ids (m + n) (cs ++ ds) distinct declarations where
  nodup := h.nodup
  mem_iff := h.mem_iff
  declares := h.declares
  whole d' hd' := (h.whole d' hd').trans (List.prefix_append cs ds).isInfix
  alone := by rw [List.filter_append, hd.filter_eq, List.append_nil, h.alone]
  length_le := by
    rw [List.length_append]
    have := h.length_le
    have := hd.length_le
    omega

end DeclaresOnce

/-- A bound is announced and written. -/
theorem meetsNoCycle_boundCalls (bound : JavaType) :
    MeetsNoCycle (fun cs => p.Announces bound cs ∧ cs.length ≤ 1 + bound.size)
      (p.boundCalls bound) := by
  refine (p.meetsNoCycle_isInterface bound).bind fun isInterface hi _ =>
    (p.meetsNoCycle_typeCalls bound).bind fun written hw h =>
      .ok ⟨⟨isInterface, written, hi, hw, rfl⟩, ?_⟩
  rw [List.length_cons, Nat.add_comm]
  exact Nat.add_le_add_left h.length_le 1

/-- Bounds are written one after another. -/
theorem meetsNoCycle_bounds (bounds : List JavaType) :
    MeetsNoCycle
      (fun css => List.Forall₂ p.Announces bounds css
        ∧ css.flatten.length ≤ JavaType.sizeOfAll bounds)
      (bounds.mapM p.boundCalls) := by
  refine (MeetsNoCycle.mapM p.meetsNoCycle_boundCalls bounds).mono fun css h =>
    ⟨h.imp fun _ _ hcs => hcs.1, ?_⟩
  induction h with
  | nil => exact Nat.zero_le _
  | cons h _ ih =>
    rw [List.flatten_cons, List.length_append, JavaType.sizeOfAll]
    exact Nat.add_le_add h.2 ih

/-- **Declaring a type parameter meets no cycle,** and takes no more calls than
its bounds are large. -/
theorem meetsNoCycle_formalCalls (id : TypeParameterId) :
    MeetsNoCycle (fun d => p.Declares id d ∧ d.length ≤ 1 + JavaType.sizeOfAll (p.boundsOf id))
      (p.formalCalls [] id) := by
  unfold formalCalls
  refine (p.meetsNoCycle_typeParameterOf id).bind fun parameter hparameter _ => ?_
  have hbounds : p.boundsOf id = parameter.bounds := by rw [boundsOf, hparameter]
  rw [if_neg List.not_mem_nil, hbounds]
  split
  · exact .error fun _ h => nomatch h
  · refine (p.meetsNoCycle_bounds parameter.bounds).bind fun css _ h =>
      .ok ⟨⟨parameter, css, hparameter, h.1, rfl⟩, ?_⟩
    rw [List.length_cons, Nat.add_comm]
    exact Nat.add_le_add_left h.2 1

/-- **Declaring a list of type parameters meets no cycle,** and declares each
of them once: by induction on the list, for whatever has been declared before
it. -/
theorem meetsNoCycle_formalsCalls (ids : List TypeParameterId) :
    ∀ declared : List TypeParameterId,
      MeetsNoCycle
        (fun cs => ∃ distinct declarations, p.DeclaresOnce declared ids 0 cs distinct declarations)
        (p.formalsCalls declared (ids.map JavaType.ofParameter)) := by
  induction ids with
  | nil => exact fun _ => .ok ⟨[], [], .nil⟩
  | cons id ids ih =>
    intro declared
    rw [List.map_cons, JavaType.ofParameter, formalsCalls]
    -- in both cases `id` is handed along, so it may be in the list of the declared ones twice
    by_cases hid : id ∈ declared
    · have hnamed : MeetsNoCycle (Mentions 1) (p.formalCalls declared id) := by
        unfold formalCalls
        refine (p.meetsNoCycle_typeParameterOf id).bind fun _ _ _ => ?_
        rw [if_pos hid]
        exact .ok (.single rfl)
      refine hnamed.bind fun d _ hd => (ih (id :: declared)).bind fun cs _ hcs => .ok ?_
      obtain ⟨distinct, declarations, h⟩ := hcs
      exact ⟨distinct, declarations, h.named hid hd⟩
    · -- a declaration does not depend on what has been declared before
      have hfresh : p.formalCalls declared id = p.formalCalls [] id := by
        unfold formalCalls
        simp only [if_neg hid, List.not_mem_nil, if_false]
      rw [hfresh]
      refine (p.meetsNoCycle_formalCalls id).bind fun d _ hd =>
        (ih (id :: declared)).bind fun cs _ hcs => .ok ?_
      obtain ⟨distinct, declarations, h⟩ := hcs
      exact ⟨id :: distinct, d :: declarations, h.fresh hid hd.1 hd.2⟩

/-! ## Types, methods and classes

Behind the declarations there are types only, and these mention type
parameters without declaring any. So what is known of the list of type
parameters is known of the whole. -/

/-- **The calls declare some type parameters once** and mention no more than so
much. -/
def WritesBoundsOnce (ids : List TypeParameterId) (mentioned : Nat) (cs : List Call) : Prop :=
  ∃ distinct declarations, p.DeclaresOnce [] ids mentioned cs distinct declarations

/-- What only mentions things declares nothing. -/
theorem writesBoundsOnce_of_mentions {n : Nat} {cs : List Call} (h : Mentions n cs) :
    p.WritesBoundsOnce [] n cs :=
  ⟨[], [], (Nat.zero_add n) ▸ DeclaresOnce.nil.append h⟩

/-- **A type whose variable is declared** has it declared once, under whatever
arrays. -/
theorem meetsNoCycle_declaringCalls : ∀ t : JavaType,
    MeetsNoCycle (p.WritesBoundsOnce t.declaredVariables t.size) (p.declaringCalls t)
  | .array c => by
    rw [declaringCalls, JavaType.size]
    refine (meetsNoCycle_declaringCalls c).bind fun cs _ h => .ok ?_
    obtain ⟨distinct, declarations, h⟩ := h
    exact ⟨distinct, declarations, h.prepend (.single rfl)⟩
  | .typeVariable id annotations => by
    refine (p.meetsNoCycle_formalCalls id).mono fun d hd => ?_
    have h := DeclaresOnce.nil.fresh List.not_mem_nil hd.1 hd.2
    rw [List.append_nil] at h
    exact ⟨[id], [d], h.mono (Nat.zero_le 1)⟩
  | .primitive b => (p.meetsNoCycle_typeCalls (.primitive b)).mono fun _ =>
    p.writesBoundsOnce_of_mentions
  | .void => (p.meetsNoCycle_typeCalls .void).mono fun _ => p.writesBoundsOnce_of_mentions
  | .declared t => (p.meetsNoCycle_typeCalls (.declared t)).mono fun _ =>
    p.writesBoundsOnce_of_mentions
  | .wildcard => (p.meetsNoCycle_typeCalls .wildcard).mono fun _ => p.writesBoundsOnce_of_mentions
  | .wildcardExtends bound => (p.meetsNoCycle_typeCalls (.wildcardExtends bound)).mono fun _ =>
    p.writesBoundsOnce_of_mentions
  | .wildcardSuper bound => (p.meetsNoCycle_typeCalls (.wildcardSuper bound)).mono fun _ =>
    p.writesBoundsOnce_of_mentions
  | .intersection members => (p.meetsNoCycle_typeCalls (.intersection members)).mono fun _ =>
    p.writesBoundsOnce_of_mentions

/-- **Writing a type in a signature meets no cycle,** in whatever mode. -/
theorem meetsNoCycle_calls (t : JavaType) {mode : EncodingMode}
    (hmode : mode.isDescriptor = false) :
    MeetsNoCycle (p.WritesBoundsOnce (t.declaredIn mode) t.size) (p.calls t mode) := by
  cases mode with
  | descriptor => cases hmode
  | descriptorUnterminated => cases hmode
  | signature => exact (p.meetsNoCycle_typeCalls t).mono fun _ => p.writesBoundsOnce_of_mentions
  | signatureWithBounds => exact p.meetsNoCycle_declaringCalls t
  | signatureSimple =>
    exact (p.meetsNoCycle_segmentCalls t).mono fun _ => p.writesBoundsOnce_of_mentions

/-- **Types that are announced,** one after another, are mentioned. -/
theorem meetsNoCycle_announced (mark : Call) (hmark : mark.declares = false)
    (ts : List JavaType) :
    MeetsNoCycle (fun css => Mentions (JavaType.sizeOfAll ts) css.flatten)
      (ts.mapM fun t => do return mark :: (← p.typeCalls t)) := by
  have hone : ∀ t : JavaType, MeetsNoCycle (Mentions (1 + t.size))
      (do return mark :: (← p.typeCalls t)) := fun t =>
    (p.meetsNoCycle_typeCalls t).bind fun _ _ h => .ok (h.cons hmark)
  refine (MeetsNoCycle.mapM hone ts).mono fun css h => ?_
  induction h with
  | nil => exact .nil
  | cons hc _ ih =>
    rw [List.flatten_cons, JavaType.sizeOfAll]
    exact hc.append ih

/-- The calls that write the signature of a method. -/
def methodSignatureCalls (m : MethodDeclaration) : Except Error (List Call) := do
  let shape ← p.methodCalls (m.typeParameters.map .ofParameter) m.parameterTypes m.result .signature
  return shape ++ (← p.thrownCalls m)

theorem methodSignature_eq_map (m : MethodDeclaration) :
    p.methodSignature m = (p.methodSignatureCalls m).map Signature.textOf := by
  unfold methodSignature methodSignatureCalls
  dsimp only
  cases p.methodCalls (m.typeParameters.map .ofParameter) m.parameterTypes m.result .signature with
  | error e => rfl
  | ok shape =>
    show (p.thrownCalls m >>= _) = ((p.thrownCalls m >>= _) : Except _ _).map _
    cases p.thrownCalls m <;> rfl

/-- **Writing a method meets no cycle.** -/
theorem meetsNoCycle_methodSignatureCalls (m : MethodDeclaration) :
    MeetsNoCycle
      (p.WritesBoundsOnce m.typeParameters
        (JavaType.sizeOfAll (m.parameterTypes ++ m.result :: m.thrown)))
      (p.methodSignatureCalls m) := by
  have hshape : MeetsNoCycle (Mentions (JavaType.sizeOfAll m.parameterTypes + (1 + m.result.size)))
      (p.shapeCalls m.parameterTypes m.result .signature) :=
    (p.meetsNoCycle_announced _ rfl m.parameterTypes).bind fun _ _ hp =>
      (p.meetsNoCycle_typeCalls m.result).bind fun _ _ hr => .ok (hp.append (hr.cons rfl))
  have hmethod : MeetsNoCycle
      (p.WritesBoundsOnce m.typeParameters
        (JavaType.sizeOfAll m.parameterTypes + (1 + m.result.size)))
      (p.methodCalls (m.typeParameters.map .ofParameter) m.parameterTypes m.result .signature) := by
    refine (p.meetsNoCycle_formalsCalls m.typeParameters []).bind fun formals _ hf =>
      hshape.bind fun shape _ hs => .ok ?_
    obtain ⟨distinct, declarations, hf⟩ := hf
    exact ⟨distinct, declarations, (hf.append hs).mono (by omega)⟩
  -- without a type variable among them the thrown types are not written at all
  have hthrown : MeetsNoCycle (Mentions (JavaType.sizeOfAll m.thrown)) (p.thrownCalls m) := by
    unfold thrownCalls
    split
    · exact (p.meetsNoCycle_announced _ rfl m.thrown).bind fun _ _ h => .ok h
    · exact .ok (Mentions.nil.mono (Nat.zero_le _))
  refine hmethod.bind fun shape _ hs => hthrown.bind fun thrown _ ht => .ok ?_
  obtain ⟨distinct, declarations, hs⟩ := hs
  refine ⟨distinct, declarations, (hs.append ht).mono ?_⟩
  rw [JavaType.sizeOfAll_append, JavaType.sizeOfAll]
  omega

/-- **Writing a class meets no cycle.** -/
theorem meetsNoCycle_declarationCalls (c : ClassDeclaration) :
    MeetsNoCycle
      (p.WritesBoundsOnce c.typeParameters
        (JavaType.sizeOfAll (((c.superclass.getD .object) :: c.interfaces).map .declared)))
      (p.declarationCalls c) := by
  have hinterfaces : MeetsNoCycle
      (fun css => Mentions (JavaType.sizeOfAll (c.interfaces.map .declared)) css.flatten)
      (c.interfaces.mapM fun t => do return Call.interface :: (← p.typeCalls (.declared t))) := by
    have h := p.meetsNoCycle_announced .interface rfl (c.interfaces.map .declared)
    rwa [List.mapM_map] at h
  refine (p.meetsNoCycle_formalsCalls c.typeParameters []).bind fun formals _ hf =>
    (p.meetsNoCycle_typeCalls _).bind fun superclass _ hs =>
      hinterfaces.bind fun interfaces _ hi => .ok ?_
  obtain ⟨distinct, declarations, hf⟩ := hf
  refine ⟨distinct, declarations, ((hf.append (hs.cons rfl)).append hi).mono ?_⟩
  rw [List.map_cons, JavaType.sizeOfAll]
  omega

/-! ## What the undeclared ones are

The other half of the statement is about what is not written. It is said by
changing it: the bounds of the type parameters that are not declared are
exchanged for any others, and the signature stays the same. -/

/-- **Programs that differ in type parameters that are not declared:** the others
are the same in both, and these have the same names. -/
structure SameButUndeclared (p q : Program) (declared : List TypeParameterId) : Prop where
  classes : p.classes = q.classes
  names : ∀ id, Agree (fun s t => s.name = t.name) (p.typeParameterOf id) (q.typeParameterOf id)
  same : ∀ id ∈ declared, p.typeParameterOf id = q.typeParameterOf id

namespace SameButUndeclared

variable {p q : Program} {declared : List TypeParameterId}

theorem classOf_eq (h : SameButUndeclared p q declared) (id : ClassId) :
    p.classOf id = q.classOf id := by
  unfold classOf
  rw [h.classes]

theorem namesAlike (h : SameButUndeclared p q declared) : NamesAlike p q where
  size := by rw [h.classes]
  classOf id := by
    rw [h.classOf_eq]
    exact (Agree.refl (q.classOf id)).mono fun _ _ hcd => hcd ▸ ⟨rfl, rfl, rfl, rfl⟩
  typeParameterOf := h.names

theorem declaresAlike (h : SameButUndeclared p q declared) :
    ∀ id ∈ declared, DeclaresAlike p q id :=
  fun id hid => h.namesAlike.declaresAlike (h.same id hid)

/-- Changing anything but the name of a type parameter that is not declared. -/
theorem of_modifyTypeParameter (id : TypeParameterId) (f : TypeParameter → TypeParameter)
    (h : p.modifyTypeParameter id f = .ok q) (hname : ∀ t, (f t).name = t.name)
    (hid : id ∉ declared) : SameButUndeclared p q declared := by
  obtain ⟨_, _, rfl⟩ := map_eq_ok h
  have hother : ∀ i, id ≠ i → p.typeParameterOf i
      = { p with typeParameters := p.typeParameters.modify id.index f }.typeParameterOf i := by
    intro i hi
    have hindex : id.index ≠ i.index := fun heq => hi (congrArg TypeParameterId.mk heq)
    unfold typeParameterOf
    rw [Array.getElem?_modify, if_neg hindex]
  refine ⟨rfl, fun i => ?_, fun i hi => hother i fun heq => hid (heq ▸ hi)⟩
  -- the changed one keeps its name, and the others stay what they were
  by_cases hi : id = i
  · subst hi
    unfold typeParameterOf
    rw [Array.getElem?_modify, if_pos rfl]
    cases p.typeParameters[id.index]? with
    | none => exact .error _
    | some t => exact .ok (hname t).symm
  · rw [← hother i hi]
    exact (Agree.refl _).mono fun _ _ => congrArg _

end SameButUndeclared

/-- The type parameters of a class, if it is known. -/
def typeParametersOf (id : ClassId) : List TypeParameterId :=
  match p.classOf id with
  | .ok c => c.typeParameters
  | .error _ => []

/-- **The text that calls write,** if they declare type parameters once. -/
def WrittenOnce (ids : List TypeParameterId) (mentioned : Nat) (calls : Except Error (List Call))
    (s : String) : Prop :=
  ∃ cs, calls = .ok cs ∧ Signature.textOf cs = s ∧ p.WritesBoundsOnce ids mentioned cs

theorem meetsNoCycle_textOf {ids : List TypeParameterId} {n : Nat}
    {calls : Except Error (List Call)} (h : MeetsNoCycle (p.WritesBoundsOnce ids n) calls) :
    MeetsNoCycle (p.WrittenOnce ids n calls) (calls.map Signature.textOf) :=
  (h.of_ok fun cs hcs hw => ⟨cs, hcs, rfl, hw⟩ :
    MeetsNoCycle (fun cs => p.WrittenOnce ids n calls (Signature.textOf cs)) calls).map
      fun _ hs => hs

/-- **Signatures end where bounds run in circles.** The signature of a type, in
whatever mode, of a method and of a class never fails for a cycle. Where there is
one, it has been written by calls that declare each of the type parameters once,
with all its bounds, however often it is listed, and that are no more than the
bounds of the declared ones and the types of the declaration are large. A class
that is written without a signature has no type parameters whose bounds could have
been missed. And of all other type parameters a signature shows the names: two
programs that differ in these only have the same signatures. -/
theorem signatures_declare_once (p : Program) :
    (∀ (t : JavaType) (mode : EncodingMode), mode.isDescriptor = false →
      MeetsNoCycle (p.WrittenOnce (t.declaredIn mode) t.size (p.calls t mode)) (p.encode t mode)
      ∧ ∀ q, SameButUndeclared p q (t.declaredIn mode) → q.encode t mode = p.encode t mode)
    ∧ (∀ m : MethodDeclaration,
      MeetsNoCycle
        (p.WrittenOnce m.typeParameters
          (JavaType.sizeOfAll (m.parameterTypes ++ m.result :: m.thrown))
          (p.methodSignatureCalls m))
        (p.methodSignature m)
      ∧ ∀ q, SameButUndeclared p q m.typeParameters → q.methodSignature m = p.methodSignature m)
    ∧ ∀ id : ClassId,
      MeetsNoCycle
        (fun signature => ∃ c, p.classOf id = .ok c
          ∧ (signature = none → c.typeParameters = [])
          ∧ ∀ s ∈ signature, p.WrittenOnce c.typeParameters
            (JavaType.sizeOfAll (((c.superclass.getD .object) :: c.interfaces).map .declared))
            (p.declarationCalls c) s)
        (p.classSignature? id)
      ∧ ∀ q, SameButUndeclared p q (p.typeParametersOf id) →
        q.classSignature? id = p.classSignature? id := by
  refine ⟨fun t mode hmode => ⟨?_, fun q h => ?_⟩, fun m => ⟨?_, fun q h => ?_⟩,
    fun id => ⟨?_, fun q h => ?_⟩⟩
  · exact p.meetsNoCycle_textOf (p.meetsNoCycle_calls t hmode)
  · unfold encode
    rw [h.namesAlike.calls_eq t hmode h.declaresAlike]
  · rw [p.methodSignature_eq_map]
    exact p.meetsNoCycle_textOf (p.meetsNoCycle_methodSignatureCalls m)
  · exact (h.namesAlike.methodSignature_eq m h.declaresAlike).symm
  · refine (p.meetsNoCycle_classOf id).bind fun c hc _ => ?_
    cases hneeds : c.needsSignature with
    | true =>
      refine (p.meetsNoCycle_declarationCalls c).bind fun cs hcs hw => .ok ⟨c, hc, ?_, ?_⟩
      · exact fun hnone => nomatch hnone
      · exact fun s hs => ⟨cs, hcs, Option.some.inj hs, hw⟩
    | false =>
      have hnone := ClassDeclaration.typeParameters_eq_nil_of_needsSignature hneeds
      exact .ok ⟨c, hc, fun _ => hnone, fun s hs => nomatch hs⟩
  · unfold classSignature?
    rw [← h.classOf_eq]
    -- an unknown class declares nothing and fails alike in both programs
    cases hc : p.classOf id with
    | error e => rfl
    | ok c =>
      have hdeclared : p.typeParametersOf id = c.typeParameters := by rw [typeParametersOf, hc]
      rw [hdeclared] at h
      show (if c.needsSignature then _ else _) = (if c.needsSignature then _ else _ : Except _ _)
      rw [h.namesAlike.declarationCalls_eq c h.declaresAlike]

/-- Two type parameters that bound each other, one that stands in its own bound
and one listed twice, of a method and of a class. A fourth one, which bounds itself,
is mentioned only, and another bound in its place is not seen. -/
theorem signatures_declare_once_circles :
    let object (arguments : List JavaType) : ClassType := ⟨⟨.object, arguments, []⟩, []⟩
    let m : MethodDeclaration :=
      ⟨"m", false, [], false, [⟨0⟩, ⟨1⟩, ⟨0⟩, ⟨2⟩], [⟨"w", .typeVariable ⟨3⟩ [], []⟩], .void, [],
        []⟩
    let c : ClassDeclaration :=
      { ClassDeclaration.bare .ordinary "pkg" "C" with
        typeParameters := [⟨0⟩, ⟨1⟩, ⟨0⟩, ⟨2⟩]
        superclass := some (object [.typeVariable ⟨3⟩ []]) }
    let p : Program :=
      { classes := Program.initial.classes.push c
        typeParameters :=
          #[⟨"T", .typeVariable ⟨1⟩ [], none, []⟩, ⟨"U", .typeVariable ⟨0⟩ [], none, []⟩,
            ⟨"V", .declared (object [.typeVariable ⟨2⟩ []]), none, []⟩,
            ⟨"W", .typeVariable ⟨3⟩ [], none, []⟩] }
    let replaced (w : TypeParameter) : TypeParameter :=
      { w with upperBound := .declared (object []), lowerBound := some .void }
    EncodingMode.signatureWithBounds.isDescriptor = false
      ∧ (∀ name, p.encode (.typeVariable ⟨0⟩ []) .signatureWithBounds ≠ .error (.cyclicBound name))
      ∧ p.encode (.typeVariable ⟨0⟩ []) .signatureWithBounds = .ok "<T:TU;"
      ∧ p.methodSignature m = .ok "<T:TU;U:TT;TT;V:Ljava/lang/Object<TV;>;>(TW;)V"
      ∧ (∀ name, p.classSignature? ⟨6⟩ ≠ .error (.cyclicBound name))
      ∧ p.classSignature? ⟨6⟩
        = .ok (some "<T:TU;U:TT;TT;V:Ljava/lang/Object<TV;>;>Ljava/lang/Object<TW;>;")
      ∧ ∃ q, p.modifyTypeParameter ⟨3⟩ replaced = .ok q
        ∧ SameButUndeclared p q m.typeParameters
        ∧ q.methodSignature m = p.methodSignature m
        ∧ q.classSignature? ⟨6⟩ = p.classSignature? ⟨6⟩ := by
  intro object m c p replaced
  have h : SameButUndeclared p _ m.typeParameters :=
    .of_modifyTypeParameter ⟨3⟩ replaced rfl (fun _ => rfl) (by decide)
  obtain ⟨htypes, hmethods, hclasses⟩ := signatures_declare_once p
  exact ⟨rfl, (htypes _ .signatureWithBounds rfl).1.ne_cyclicBound, by decide +kernel,
    by decide +kernel, (hclasses ⟨6⟩).1.ne_cyclicBound, by decide +kernel, _, rfl, h,
    (hmethods m).2 _ h, (hclasses ⟨6⟩).2 _ h⟩

end Program

end ClassFile
