import ClassFile.Proofs.Signature.Text

/-!
# The text of a declaration, rule by rule

The signature of a method or of a class is written by one writer, which finds
the brackets between its parts. Here the parts are put together directly:
`Program.methodText` and `Program.declarationText` say where each bracket
stands, and they are what is written (`Program.methodSignature_eq`,
`Program.classSignature?_eq`). Sharing a writer has no other effect on the
parts than these brackets.

The descriptor of a method is the same shape with other texts in it.
-/

namespace ClassFile

open Signature

namespace Program

/-! ## Type parameters

Within one list of type parameters it matters what has come before, since one
that is listed again is named. The list of those declared so far is handed on
from one to the next; the first one has none before it. -/

/-- The text of a bound of a type parameter: an interface is marked. -/
def boundText (p : Program) (bound : JavaType) : Except Error String := do
  let mark := if ← p.isInterface bound then ":" else ""
  return mark ++ (← p.typeText bound)

/-- **The text of a type parameter** where those in `declared` have been
declared before: its declaration with all bounds, or its mere name. -/
def formalText (p : Program) (declared : List TypeParameterId) (id : TypeParameterId) :
    Except Error String := do
  let parameter ← p.typeParameterOf id
  if id ∈ declared then
    return "T" ++ parameter.name ++ ";"
  else if parameter.lowerBound.isSome then
    throw (.unsupported .lowerBound)
  else
    return parameter.name ++ ":" ++ String.join (← parameter.bounds.mapM p.boundText)

/-- The texts of a list of type parameters. -/
def formalTexts (p : Program) (declared : List TypeParameterId) :
    List TypeParameterId → Except Error (List String)
  | [] => return []
  | id :: ids => do
    let first ← p.formalText declared id
    return first :: (← p.formalTexts (id :: declared) ids)

theorem boundCalls_agree (p : Program) (bound : JavaType) :
    Agree Writes (p.boundCalls bound) (p.boundText bound) := by
  unfold boundCalls boundText
  refine (Agree.refl _).bind fun i j hij => ?_
  subst hij
  refine (p.typeCalls_agree bound).bind fun cs s h => .ok ?_
  cases i with
  | true => exact h.writes.interfaceBound
  | false =>
    rw [if_neg Bool.false_ne_true, if_neg Bool.false_ne_true, String.empty_append]
    exact h.writes.classBound

/-- A type parameter that has not been declared is declared. -/
theorem formalCalls_agree_fresh (p : Program) (declared : List TypeParameterId)
    (id : TypeParameterId) (h : id ∉ declared) :
    Agree WritesFormal (p.formalCalls declared id) (p.formalText declared id) := by
  unfold formalCalls formalText
  refine (Agree.refl _).bind fun parameter parameter' hp => ?_
  subst hp
  rw [if_neg h, if_neg h]
  split
  · exact .error _
  · exact (Agree.mapM p.boundCalls_agree _).bind fun _ _ hbounds =>
      .ok ((writes_flatten hbounds).formal _)

/-- Behind other type parameters, a declared one is named. -/
theorem formalCalls_agree (p : Program) (declared : List TypeParameterId)
    (id : TypeParameterId) :
    Agree ContinuesFormals (p.formalCalls declared id) (p.formalText declared id) := by
  by_cases h : id ∈ declared
  · unfold formalCalls formalText
    refine (Agree.refl _).bind fun parameter parameter' hp => ?_
    subst hp
    rw [if_pos h, if_pos h]
    exact .ok (writes_typeVariable _).continuesFormals
  · exact (p.formalCalls_agree_fresh declared id h).mono fun _ _ hf => hf.continuesFormals

/-- The calls of further type parameters write their texts, by induction on
the list. -/
theorem formalsCalls_agree (p : Program) (ids : List TypeParameterId) :
    ∀ declared : List TypeParameterId,
      Agree (fun cs texts => ContinuesFormals cs (String.join texts))
        (p.formalsCalls declared (ids.map JavaType.ofParameter)) (p.formalTexts declared ids) := by
  induction ids with
  | nil => exact fun _ => .ok fun w _ _ => w.put_nothing.symm
  | cons id ids ih =>
    intro declared
    refine (p.formalCalls_agree declared id).bind fun cs s h => ?_
    refine (ih (id :: declared)).bind fun ds texts hs => .ok ?_
    rw [String.join_cons]
    exact h.append hs

/-- **The calls of the type parameters of a declaration** write their texts in
angle brackets. The first one cannot have been declared before. -/
theorem formalsCalls_agree_all (p : Program) (ids : List TypeParameterId) :
    Agree WritesFormals (p.formalsCalls [] (ids.map JavaType.ofParameter))
      (p.formalTexts [] ids) := by
  cases ids with
  | nil => exact .ok writesFormals_nil
  | cons id ids =>
    refine (p.formalCalls_agree_fresh [] id List.not_mem_nil).bind fun cs s h => ?_
    exact (p.formalsCalls_agree ids [id]).bind fun ds texts hs =>
      .ok (h.append hs).writesFormals

/-! ## Methods

The shape of a method is its parameters in parentheses and its result. It is
the same for descriptors and signatures, and the texts of the types are a
parameter of it. -/

/-- The text of the shape of a method, with the texts of its types. -/
def shapeText (text : JavaType → Except Error String) (parameters : List JavaType)
    (result : JavaType) : Except Error String := do
  let parameters ← parameters.mapM text
  return "(" ++ String.join parameters ++ ")" ++ (← text result)

/-- The text of what a method throws. -/
def thrownText (p : Program) (m : MethodDeclaration) : Except Error String :=
  if m.throwsVariable then do
    return String.join (← m.thrown.mapM fun t => return "^" ++ (← p.typeText t))
  else return ""

/-- **The text of the signature of a method.** -/
def methodText (p : Program) (m : MethodDeclaration) : Except Error String := do
  let formals ← p.formalTexts [] m.typeParameters
  let shape ← shapeText p.typeText m.parameterTypes m.result
  return angled formals ++ shape ++ (← p.thrownText m)

/-- What the text of a shape consists of. -/
theorem shapeText_ok {text : JavaType → Except Error String} {parameters : List JavaType}
    {result : JavaType} {s : String} (h : shapeText text parameters result = .ok s) :
    ∃ texts, List.Forall₂ (fun t u => text t = .ok u) parameters texts ∧
      ∃ last, text result = .ok last ∧ "(" ++ String.join texts ++ ")" ++ last = s := by
  obtain ⟨texts, ht, h⟩ := bind_eq_ok h
  exact ⟨texts, mapM_eq_ok ht, bind_pure_eq_ok h⟩

/-- The calls of a shape write its text, whichever texts the types have. -/
theorem shapeCalls_agree (p : Program) {mode : EncodingMode}
    {text : JavaType → Except Error String} (h : ∀ t, Agree Writes (p.calls t mode) (text t))
    (parameters : List JavaType) (result : JavaType) :
    Agree WritesShape (p.shapeCalls parameters result mode) (shapeText text parameters result) := by
  unfold shapeCalls shapeText
  have hparameter : ∀ t, Agree WritesParameter
      (do return Call.parameterType :: (← p.calls t mode)) (text t) := by
    intro t
    rw [← bind_pure (text t)]
    exact (h t).bind fun _ _ ht => .ok ht.parameter
  exact (Agree.mapM hparameter parameters).bind fun _ _ hs =>
    (h result).bind fun _ _ hr => .ok (Writes.shape hs hr)

theorem thrownCalls_agree (p : Program) (m : MethodDeclaration) :
    Agree Writes (p.thrownCalls m) (p.thrownText m) := by
  unfold thrownCalls thrownText
  split
  · refine (Agree.mapM (fun t => ?_) m.thrown).bind fun _ _ hs => .ok (writes_flatten hs)
    exact (p.typeCalls_agree t).bind fun _ _ h => .ok h.writes.exceptionType
  · exact .ok fun w _ => w.put_nothing.symm

/-- **The signature of a method is its text.** -/
theorem methodSignature_eq (p : Program) (m : MethodDeclaration) :
    p.methodSignature m = p.methodText m := by
  -- the calls in one go, without the distinction of modes
  have hcalls : p.methodSignature m = do
      let formals ← p.formalsCalls [] (m.typeParameters.map JavaType.ofParameter)
      let shape ← p.shapeCalls m.parameterTypes m.result .signature
      let thrown ← p.thrownCalls m
      return textOf (formals ++ shape ++ thrown) := by
    unfold methodSignature methodCalls
    have hmode : ¬ (EncodingMode.signature.isDescriptor = true) := by decide
    simp only [if_neg hmode, bind_assoc, pure_bind]
  rw [hcalls]
  unfold methodText
  refine Agree.eq ((p.formalsCalls_agree_all _).bind fun _ _ hf => ?_)
  have htypes : ∀ t, Agree Writes (p.calls t .signature) (p.typeText t) :=
    fun t => (p.typeCalls_agree t).mono fun _ _ h => h.writes
  refine (p.shapeCalls_agree htypes _ _).bind fun _ _ hs => ?_
  exact (p.thrownCalls_agree m).bind fun _ _ ht => .ok (hf.textOf_method hs ht)

/-- **The descriptor of a method is a shape** with the descriptors of its
types in it. -/
theorem methodDescriptor_eq (p : Program) (m : MethodDeclaration) :
    p.methodDescriptor m = shapeText p.descriptorText m.parameterTypes m.result := by
  have htypes : ∀ t, Agree Writes (p.calls t .descriptor) (p.descriptorText t) :=
    p.descriptorCalls_agree
  show (p.shapeCalls m.parameterTypes m.result .descriptor).map textOf = _
  exact (p.shapeCalls_agree htypes _ _).map_eq fun cs s hs => hs.textOf_eq

/-! ## Classes

Behind the type parameters come the superclass and the interfaces, and nothing
stands between them, since each ends by itself. -/

/-- **The text of the signature of a class.** -/
def declarationText (p : Program) (c : ClassDeclaration) : Except Error String := do
  let formals ← p.formalTexts [] c.typeParameters
  let superclass ← p.typeText (.declared (c.superclass.getD .object))
  let interfaces ← c.interfaces.mapM fun t => p.typeText (.declared t)
  return angled formals ++ superclass ++ String.join interfaces

/-- **The signature of a class is its text,** where it needs one. -/
theorem classSignature?_eq (p : Program) (id : ClassId) :
    p.classSignature? id = do
      let c ← p.classOf id
      if c.needsSignature then return some (← p.declarationText c) else return none := by
  have hcalls : ∀ c, (do return some (textOf (← p.declarationCalls c)) : Except Error _) = do
      let formals ← p.formalsCalls [] (c.typeParameters.map JavaType.ofParameter)
      let superclass ← p.typeCalls (.declared (c.superclass.getD .object))
      let interfaces ← c.interfaces.mapM fun t =>
        return .interface :: (← p.typeCalls (.declared t))
      return some (textOf (formals ++ .superclass :: superclass ++ interfaces.flatten)) := by
    intro c
    unfold declarationCalls
    simp only [bind_assoc, pure_bind]
  unfold classSignature?
  refine congrArg (p.classOf id >>= ·) (funext fun c => ?_)
  split
  · rw [hcalls]
    unfold declarationText
    simp only [bind_assoc, pure_bind]
    refine Agree.eq ((p.formalsCalls_agree_all _).bind fun _ _ hf => ?_)
    refine (p.typeCalls_agree _).bind fun _ _ hs => ?_
    refine (Agree.mapM (fun t => ?_) c.interfaces).bind fun _ _ hi =>
      .ok (congrArg some (hf.textOf_class hs.writes (writes_flatten hi)))
    rw [← bind_pure (p.typeText _)]
    exact (p.typeCalls_agree _).bind fun _ _ h => .ok h.writes.interface
  · rfl

/-- **What a class signature consists of:** type parameters in angle brackets, the
superclass and the interfaces. -/
theorem classSignature?_eq_some {p : Program} {id : ClassId} {c : ClassDeclaration} {s : String}
    (hc : p.classOf id = .ok c) (h : p.classSignature? id = .ok (some s)) :
    ∃ formals superclass interfaces, p.formalTexts [] c.typeParameters = .ok formals
      ∧ p.typeText (.declared (c.superclass.getD .object)) = .ok superclass
      ∧ List.Forall₂ (fun t text => p.typeText (.declared t) = .ok text) c.interfaces interfaces
      ∧ s = angled formals ++ String.join (superclass :: interfaces) := by
  rw [p.classSignature?_eq, hc] at h
  change (if c.needsSignature then _ else _) = _ at h
  split at h
  · obtain ⟨text, ht, he⟩ := bind_pure_eq_ok h
    obtain rfl := Option.some.inj he
    obtain ⟨formals, hf, ht⟩ := bind_eq_ok ht
    obtain ⟨superclass, hs, ht⟩ := bind_eq_ok ht
    obtain ⟨interfaces, hi, rfl⟩ := bind_pure_eq_ok ht
    refine ⟨formals, superclass, interfaces, hf, hs, mapM_eq_ok hi, ?_⟩
    rw [String.join_cons, String.append_assoc]
  · cases h

end Program

end ClassFile
