import Mathlib
import ClassFile.Proofs.Signature.DeclarationText
import ClassFile.Proofs.Signature.Splitting

/-!
# When a signature is left out

Whether something needs a signature is decided by looking at it, before
anything is written: a type is generic, or a method mentions something that
is. What is decided there is whether the signature would say more than the
descriptor. If none is needed, the two are the same text or fail for the same
reason; if one is needed and both can be written, they are different texts
(`Program.needsSignature_correct`).

That they are the same is a matter of rules: those for signatures are those
for descriptors where nothing is generic. That they differ is shown by a
character for a type – a bracket, or the letter of a type variable – and for
a method by taking the two texts apart (`join_append_inj`).
-/

namespace ClassFile.Program

open Signature

variable {p : Program}

/-! ## The same text

Both texts are found by recursion on the type. Without type arguments and type
variables they follow the same rules, and then also fail alike. -/

/-- **A type that is not generic is written as its descriptor.** -/
theorem typeText_eq_descriptorText :
    ∀ t : JavaType, t.isGeneric = false → p.typeText t = p.descriptorText t
  | .primitive _, _ | .void, _ => rfl
  | .array c, h => by rw [typeText, descriptorText, typeText_eq_descriptorText c h]
  | .declared ⟨⟨id, arguments, annotations⟩, outer⟩, h => by
    have hparts : ((ClassPart.mk id arguments annotations).hasArguments
        || outer.any ClassPart.hasArguments) = false := h
    obtain ⟨hown, houter⟩ := Bool.or_eq_false_iff.mp hparts
    have harguments : arguments = [] := by simpa [ClassPart.hasArguments] using hown
    subst harguments
    rw [typeText, headText_plain houter, argumentTexts]
    show _ = p.erasedText ⟨0, .declared id⟩
    unfold erasedText elementText
    dsimp only
    cases p.internalName id with
    | error e => rfl
    | ok name =>
      show Except.ok ("L" ++ name ++ angled [] ++ ";") = Except.ok ("" ++ ("L" ++ name ++ ";"))
      rw [String.empty_append]
      exact congrArg (fun s => Except.ok (s ++ ";")) String.append_empty
  | .typeVariable _ _, h | .wildcard, h | .wildcardExtends _, h | .wildcardSuper _, h
  | .intersection _, h => absurd h Bool.noConfusion

/-- The shapes of a method are the same if the texts of all its types are. -/
theorem shapeText_congr {text text' : JavaType → Except Error String}
    {parameters : List JavaType} {result : JavaType}
    (h : ∀ t ∈ parameters, text t = text' t) (hr : text result = text' result) :
    shapeText text parameters result = shapeText text' parameters result := by
  have hparameters : parameters.mapM text = parameters.mapM text' := by
    induction parameters with
    | nil => rfl
    | cons t ts ih =>
      rw [List.mapM_cons, List.mapM_cons, h t List.mem_cons_self,
        ih fun u hu => h u (List.mem_cons_of_mem _ hu)]
  unfold shapeText
  rw [hparameters, hr]

/-- **A method that needs no signature is written as its descriptor.** -/
theorem methodText_eq_shapeText {m : MethodDeclaration} (h : m.needsSignature = false) :
    p.methodText m = shapeText p.descriptorText m.parameterTypes m.result := by
  unfold MethodDeclaration.needsSignature at h
  simp only [Bool.or_eq_false_iff, Bool.not_eq_false', List.isEmpty_iff,
    List.any_eq_false, Bool.not_eq_true] at h
  obtain ⟨⟨⟨hformals, hparameters⟩, hresult⟩, hthrown⟩ := h
  have hshape : shapeText p.typeText m.parameterTypes m.result
      = shapeText p.descriptorText m.parameterTypes m.result :=
    shapeText_congr (fun t ht => typeText_eq_descriptorText t (hparameters t ht))
      (typeText_eq_descriptorText _ hresult)
  unfold methodText thrownText
  rw [hformals, hshape, hthrown]
  cases shapeText p.descriptorText m.parameterTypes m.result with
  | error e => rfl
  | ok s =>
    show Except.ok ("" ++ s ++ "") = Except.ok s
    rw [String.empty_append, String.append_empty]

/-! ## A different text

What is different is looked for at the first place where something is generic.
In the text of a parameterized class that is an angle bracket, which no
descriptor has under clean names. In that of a type variable it is the first
character, under arrays the first behind their brackets. -/

/-- Type arguments leave a bracket. -/
theorem mem_angled_of_argumentTexts {ts : List JavaType} {texts : List String} (hne : ts ≠ [])
    (h : p.argumentTexts ts = .ok texts) : '<' ∈ (angled texts).toList := by
  obtain ⟨t, ts, rfl⟩ := List.exists_cons_of_ne_nil hne
  obtain ⟨first, _, others, _, rfl⟩ := argumentTexts_cons_ok h
  show '<' ∈ ("<" ++ String.join (first :: others) ++ ">").toList
  rw [String.append_assoc, String.toList_append]
  exact List.mem_cons_self

/-- A bracket is left by a parameterized class around another one. -/
theorem mem_headText {id : ClassId} : ∀ {outer : List ClassPart} {s : String},
    outer.any ClassPart.hasArguments = true → p.headText id outer = .ok s → '<' ∈ s.toList
  | part :: further, s, hp, h => by
    obtain ⟨head, hh, texts, ht, c, _, rfl⟩ := headText_cons_ok hp h
    simp only [String.toList_append, List.mem_append]
    by_cases hfurther : further.any ClassPart.hasArguments = true
    · exact .inl (.inl (.inl (mem_headText hfurther hh)))
    · have hown : part.arguments ≠ [] := by
        simpa [ClassPart.hasArguments, List.any_cons, hfurther] using hp
      exact .inl (.inl (.inr (mem_angled_of_argumentTexts hown ht)))

/-- **A parameterized class has a bracket in its text.** -/
theorem mem_typeText {t : ClassType} {s : String} (ht : t.isParameterized = true)
    (h : p.typeText (.declared t) = .ok s) : '<' ∈ s.toList := by
  obtain ⟨⟨id, arguments, annotations⟩, outer⟩ := t
  obtain ⟨head, hh, texts, hx, rfl⟩ := typeText_declared_ok h
  simp only [String.toList_append, List.mem_append]
  by_cases houter : outer.any ClassPart.hasArguments = true
  · exact .inl (.inl (mem_headText houter hh))
  · have hown : arguments ≠ [] := by
      unfold ClassType.isParameterized ClassType.parts at ht
      simpa [ClassPart.hasArguments, List.any_cons, houter] using ht
    exact .inl (.inr (mem_angled_of_argumentTexts hown hx))

/-- The descriptor of a class has no bracket. -/
theorem HasCleanNames.notMem_descriptorText (names : p.HasCleanNames) {t : ClassType}
    {d : String} (h : p.descriptorText (.declared t) = .ok d) : '<' ∉ d.toList := by
  obtain ⟨element, he, rfl⟩ := bind_pure_eq_ok h
  obtain ⟨name, hn, rfl⟩ := bind_pure_eq_ok he
  show '<' ∉ ("" ++ ("L" ++ name ++ ";")).toList
  simp only [String.toList_append, List.mem_append, not_or]
  refine ⟨by decide, ⟨by decide, fun hmem => ?_⟩, by decide⟩
  rcases (names.isPath_internalName hn).eq_or_notMem hmem with hc | hc
  · exact absurd hc (by decide)
  · exact hc (by decide)

/-- What is erased is not written as a type variable. -/
theorem head?_erasedText {e : ErasedType} {d : String} (h : p.erasedText e = .ok d) :
    d.toList.head? ≠ some 'T' := by
  obtain ⟨layers, element⟩ := e
  obtain ⟨s, hs, rfl⟩ := bind_pure_eq_ok h
  -- with layers in front the first character is a bracket, otherwise that of the element
  cases layers with
  | succ n =>
    rw [List.replicate_succ, String.join_cons, String.append_assoc, String.toList_append]
    show some '[' ≠ some 'T'
    decide
  | zero =>
    rw [show String.join (List.replicate 0 "[") ++ s = s from String.empty_append]
    cases element with
    | primitive b =>
      cases hs
      cases b <;> decide
    | void =>
      cases hs
      decide
    | declared id =>
      obtain ⟨name, _, rfl⟩ := bind_pure_eq_ok hs
      rw [String.append_assoc, String.toList_append]
      show some 'L' ≠ some 'T'
      decide

/-- **A generic type is not written as its descriptor.** -/
theorem HasCleanNames.typeText_ne (names : p.HasCleanNames) : ∀ (t : JavaType) {s d : String},
    t.isGeneric = true → p.typeText t = .ok s → p.descriptorText t = .ok d → s ≠ d
  | .array c, _, _, h, hs, hd => by
    rw [typeText] at hs
    rw [descriptorText] at hd
    obtain ⟨s, hs', rfl⟩ := bind_pure_eq_ok hs
    obtain ⟨d, hd', rfl⟩ := bind_pure_eq_ok hd
    exact fun e => names.typeText_ne c h hs' hd' ((String.append_right_inj "[").mp e)
  | .declared t, _, _, h, hs, hd => by
    rintro rfl
    exact names.notMem_descriptorText hd (mem_typeText h hs)
  | .typeVariable id _, _, _, _, hs, hd => by
    rintro rfl
    obtain ⟨parameter, _, rfl⟩ := typeText_typeVariable_ok hs
    rw [descriptorText] at hd
    obtain ⟨e, _, hd⟩ := bind_eq_ok hd
    refine head?_erasedText hd ?_
    rw [String.append_assoc, String.toList_append]
    rfl
  | .wildcard, _, _, _, _, hd | .wildcardExtends _, _, _, _, _, hd
  | .wildcardSuper _, _, _, _, _, hd => by cases hd
  | .intersection _, _, _, _, hs, _ => by cases hs

/-! ### Methods

Nothing separates the parameters of a method, so that two texts are the same
does not say by itself that they have the same parts. It does because every
text of a type ends by itself: none is the beginning of another one. -/

/-- Texts of types end by themselves if the text of each type does. -/
theorem ends_of_forall₂ {text : JavaType → Except Error String}
    (h : ∀ (t : JavaType) {s : String}, text t = .ok s → EndsItself s) {ts : List JavaType}
    {texts : List String} (ht : List.Forall₂ (fun t s => text t = .ok s) ts texts) :
    ∀ s ∈ texts, EndsItself s := by
  induction ht with
  | nil => exact fun s hs => absurd hs List.not_mem_nil
  | cons hs _ ih => exact List.forall_mem_cons.mpr ⟨h _ hs, ih⟩

/-- **Types that have the same texts in both ways are not generic.** -/
theorem HasCleanNames.isGeneric_eq_false (names : p.HasCleanNames) {ts : List JavaType}
    {texts : List String} (hs : List.Forall₂ (fun t s => p.typeText t = .ok s) ts texts)
    (hd : List.Forall₂ (fun t d => p.descriptorText t = .ok d) ts texts) :
    ∀ t ∈ ts, t.isGeneric = false := by
  induction hs with
  | nil => exact fun t ht => absurd ht List.not_mem_nil
  | cons hs _ ih =>
    cases hd with
    | cons hd hothers =>
      refine List.forall_mem_cons.mpr ⟨?_, ih hothers⟩
      exact Bool.eq_false_iff.mpr fun hg => names.typeText_ne _ hg hs hd rfl

/-- What is thrown shows if it needs a signature. -/
theorem thrownText_ne_empty {m : MethodDeclaration} {s : String} (hm : m.throwsVariable = true)
    (h : p.thrownText m = .ok s) : s ≠ "" := by
  unfold thrownText at h
  rw [if_pos hm] at h
  obtain ⟨texts, ht, rfl⟩ := bind_pure_eq_ok h
  unfold MethodDeclaration.throwsVariable at hm
  cases hthrown : m.thrown with
  | nil =>
    rw [hthrown] at hm
    exact absurd hm Bool.noConfusion
  | cons t ts =>
    rw [hthrown] at ht
    cases mapM_eq_ok ht with
    | cons hfirst _ =>
      obtain ⟨u, _, rfl⟩ := bind_pure_eq_ok hfirst
      rw [String.join_cons, String.append_assoc]
      exact fun e => absurd (String.append_eq_empty_iff.mp e).1 (by decide)

/-- **The two texts of a method without type parameters have the same parts,**
if they are the same: they have equally many parameters, and every part ends
by itself. -/
theorem HasCleanNames.parts_eq (names : p.HasCleanNames) {ts : List JavaType}
    {result : JavaType} {texts texts' : List String} {last last' thrown : String}
    (ht : List.Forall₂ (fun t s => p.typeText t = .ok s) ts texts)
    (ht' : List.Forall₂ (fun t d => p.descriptorText t = .ok d) ts texts')
    (hlast : p.typeText result = .ok last) (hlast' : p.descriptorText result = .ok last')
    (e : "(" ++ String.join texts ++ ")" ++ last ++ thrown
      = "(" ++ String.join texts' ++ ")" ++ last') :
    texts = texts' ∧ last = last' ∧ thrown = "" := by
  simp only [String.append_assoc] at e
  obtain ⟨rfl, hclose⟩ := join_append_inj (ends_of_forall₂ names.typeText_ends ht)
    (ends_of_forall₂ names.descriptorText_ends ht') (ht.length_eq.symm.trans ht'.length_eq)
    ((String.append_right_inj "(").mp e)
  have hresults : last ++ thrown = last' ++ "" := by
    rw [String.append_empty]
    exact (String.append_right_inj ")").mp hclose
  obtain ⟨rfl, hthrown⟩ := (names.typeText_ends _ hlast).append_inj
    (names.descriptorText_ends _ hlast') hresults
  exact ⟨rfl, rfl, hthrown⟩

/-- **A method that needs a signature is not written as its descriptor.** With
type parameters the first characters differ. Otherwise the texts have the same
parts in the same places, so no part is generic; and what is thrown is in the
signature only. -/
theorem HasCleanNames.methodText_ne (names : p.HasCleanNames) {m : MethodDeclaration}
    {s d : String} (h : m.needsSignature = true) (hs : p.methodText m = .ok s)
    (hd : shapeText p.descriptorText m.parameterTypes m.result = .ok d) : s ≠ d := by
  obtain ⟨formals, hf, hs⟩ := bind_eq_ok hs
  obtain ⟨shape, hshape, hs⟩ := bind_eq_ok hs
  obtain ⟨thrown, hthrown, rfl⟩ := bind_pure_eq_ok hs
  obtain ⟨texts, ht, last, hlast, rfl⟩ := shapeText_ok hshape
  obtain ⟨texts', ht', last', hlast', rfl⟩ := shapeText_ok hd
  intro e
  by_cases hformals : m.typeParameters = []
  · -- nothing stands in front of the parameters
    rw [hformals] at hf
    cases hf
    rw [show angled [] = "" from rfl, String.empty_append] at e
    obtain ⟨rfl, rfl, hnothing⟩ := names.parts_eq ht ht' hlast hlast' e
    -- what needs the signature is one of these parts
    have hparameters := names.isGeneric_eq_false ht ht'
    have hresult : m.result.isGeneric = false :=
      Bool.eq_false_iff.mpr fun hg => names.typeText_ne _ hg hlast hlast' rfl
    have hthrows : m.throwsVariable = false :=
      Bool.eq_false_iff.mpr fun hv => thrownText_ne_empty hv hthrown hnothing
    unfold MethodDeclaration.needsSignature at h
    rw [hformals, hresult, hthrows, List.any_eq_false.mpr fun t ht => by
      rw [hparameters t ht]; exact Bool.false_ne_true] at h
    exact absurd h Bool.noConfusion
  · obtain ⟨id, ids, hids⟩ := List.exists_cons_of_ne_nil hformals
    rw [hids] at hf
    obtain ⟨first, _, hf⟩ := bind_eq_ok hf
    obtain ⟨others, _, rfl⟩ := bind_pure_eq_ok hf
    have hhead := congrArg (fun text => text.toList.head?) e
    simp only [angled, List.isEmpty_cons, Bool.false_eq_true, if_false, String.append_assoc,
      String.toList_append] at hhead
    exact absurd hhead (show some '<' ≠ some '(' by decide)

/-! ## The decision

The first half holds for all programs, the second under clean names: with a
bracket in the name of a class, a descriptor could look like a signature. -/

/-- **A signature is left out where it would say nothing more.** What needs
none has the same text as its descriptor, or fails for the same reason. What
needs one has another text wherever it has both, if names are clean. -/
theorem needsSignature_correct (p : Program) :
    (∀ t : JavaType, t.isGeneric = false → p.typeSignature t = p.typeDescriptor t)
      ∧ (∀ m : MethodDeclaration, m.needsSignature = false →
        p.methodSignature m = p.methodDescriptor m)
      ∧ (p.HasCleanNames →
        (∀ (t : JavaType) (s d : String), t.isGeneric = true → p.typeSignature t = .ok s →
          p.typeDescriptor t = .ok d → s ≠ d)
        ∧ ∀ (m : MethodDeclaration) (s d : String), m.needsSignature = true →
          p.methodSignature m = .ok s → p.methodDescriptor m = .ok d → s ≠ d) := by
  refine ⟨fun t h => ?_, fun m h => ?_, fun names => ⟨fun t s d h hs hd => ?_,
    fun m s d h hs hd => ?_⟩⟩
  · rw [p.typeSignature_eq, p.typeDescriptor_eq, typeText_eq_descriptorText t h]
  · rw [p.methodSignature_eq, p.methodDescriptor_eq, methodText_eq_shapeText h]
  · rw [p.typeSignature_eq] at hs
    rw [p.typeDescriptor_eq] at hd
    exact names.typeText_ne t h hs hd
  · rw [p.methodSignature_eq] at hs
    rw [p.methodDescriptor_eq] at hd
    exact names.methodText_ne h hs hd

/-- A method that needs its signature only for what it throws, and a type that
has the descriptor of its bound. -/
theorem needsSignature_correct_thrown :
    let p : Program := { Program.initial with
      typeParameters := #[⟨"X", .declared (.plain .object), none, []⟩] }
    let t : JavaType := .array (.typeVariable ⟨0⟩ [])
    let plain : JavaType := .array (.declared (.plain .string))
    let m : MethodDeclaration :=
      { name := "m", isConstructor := false, modifiers := [], isVarargs := false,
        typeParameters := [], parameters := [⟨"a", plain, []⟩], result := .void,
        thrown := [.typeVariable ⟨0⟩ []], annotations := [] }
    let quiet : MethodDeclaration := { m with thrown := [] }
    p.HasCleanNames
      ∧ (t.isGeneric = true ∧ p.typeSignature t = .ok "[TX;"
        ∧ p.typeDescriptor t = .ok "[Ljava/lang/Object;" ∧ "[TX;" ≠ "[Ljava/lang/Object;")
      ∧ (m.needsSignature = true ∧ p.methodSignature m = .ok "([Ljava/lang/String;)V^TX;"
        ∧ p.methodDescriptor m = .ok "([Ljava/lang/String;)V"
        ∧ "([Ljava/lang/String;)V^TX;" ≠ "([Ljava/lang/String;)V")
      ∧ (plain.isGeneric = false ∧ p.typeSignature plain = p.typeDescriptor plain)
      ∧ (quiet.needsSignature = false ∧ p.methodSignature quiet = p.methodDescriptor quiet) := by
  intro p t plain m quiet
  have names : p.HasCleanNames := ⟨by decide, by decide, by decide⟩
  have ht : t.isGeneric = true := rfl
  have hts : p.typeSignature t = .ok "[TX;" := by cbv
  have htd : p.typeDescriptor t = .ok "[Ljava/lang/Object;" := by cbv
  have hm : m.needsSignature = true := rfl
  have hms : p.methodSignature m = .ok "([Ljava/lang/String;)V^TX;" := by cbv
  have hmd : p.methodDescriptor m = .ok "([Ljava/lang/String;)V" := by cbv
  obtain ⟨htypes, hmethods, hdiffer⟩ := needsSignature_correct p
  exact ⟨names, ⟨ht, hts, htd, (hdiffer names).1 t _ _ ht hts htd⟩,
    ⟨hm, hms, hmd, (hdiffer names).2 m _ _ hm hms hmd⟩,
    ⟨rfl, htypes plain rfl⟩, ⟨rfl, hmethods quiet rfl⟩⟩

end ClassFile.Program
