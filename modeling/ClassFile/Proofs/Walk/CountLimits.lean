import ClassFile.Proofs.Walk.Unbroken

/-!
# How many a class file can hold

Parameters, type parameters, bounds and type arguments are numbered with one byte, and
the numbers begin with 0. So there is room for 256 of them, and for one bound less if the
first is an interface, because the number 0 is kept for a class. What goes beyond is an
error, and nothing else is (`Program.count_limits`): where everything can be told that is
to be told, the outcome is decided by these counts.

The errors speak of more than 255, and where a class file counts parameters it has one
byte for the count. So 256 parameters are one too many, but their numbers all fit
(`Program.count_limits_at_256`).

The lists are told one item after another, each under its number, and what a list comes
to is settled once for all of them (`Script.endsIn_forEach_numbered`).
-/

namespace ClassFile

namespace Script

variable {a b c : Script} {r : Except Error Unit} {e : Error}

/-! ## Scripts with one outcome

Whether a number is too large is nothing that a visitor has a say in, so such
scripts come to the same for all visitors. -/

/-- **A script that ends in one way,** whoever is told it. -/
def EndsIn (c : Script) (r : Except Error Unit) : Prop :=
  ∀ (State : Type) (v : Visitor State) (s : State), (v.run c s).2 = r

theorem Unbroken.endsIn (h : c.Unbroken) : c.EndsIn (.ok ()) := fun _ v s => h.run v s

theorem endsIn_done : done.EndsIn (.ok ()) := fun _ _ _ => rfl

theorem endsIn_fail (e : Error) : (fail e).EndsIn (.error e) := fun _ _ _ => rfl

/-- Behind a script that does not break off comes the outcome of the next one. -/
theorem EndsIn.append (ha : a.EndsIn (.ok ())) (hb : b.EndsIn r) : (a ++ b).EndsIn r := by
  intro State v s
  have hfirst := ha State v s
  rw [v.run_append]
  generalize v.run a s = told at hfirst
  obtain ⟨t, outcome⟩ := told
  cases hfirst
  exact hb State v t

/-- What follows an error is not reached. -/
theorem EndsIn.append_error (ha : a.EndsIn (.error e)) (b : Script) :
    (a ++ b).EndsIn (.error e) := by
  intro State v s
  have hfirst := ha State v s
  rw [v.run_append]
  generalize v.run a s = told at hfirst
  obtain ⟨t, outcome⟩ := told
  cases hfirst
  rfl

/-- A script behind one does not change its outcome if it does not break off. -/
theorem EndsIn.followed (ha : a.EndsIn r) (hb : b.EndsIn (.ok ())) : (a ++ b).EndsIn r := by
  cases r with
  | ok => exact ha.append hb
  | error e => exact ha.append_error b

/-! ## Numbered lists

An item that breaks off is reported before a later one that has no number,
since the items are told in their order. So both kinds of errors are settled
in one induction. -/

/-- The outcome where only so many can be told. The limit is the number of
numbers, which is one more than the largest. -/
def limited (limit count : Nat) (tooMany : Unsupported) : Except Error Unit :=
  if count ≤ limit then .ok () else .error (.unsupported tooMany)

theorem limited_of_le {limit count : Nat} (h : count ≤ limit) (tooMany : Unsupported) :
    limited limit count tooMany = .ok () := if_pos h

theorem limited_of_lt {limit count : Nat} (h : limit < count) (tooMany : Unsupported) :
    limited limit count tooMany = .error (.unsupported tooMany) := if_neg (Nat.not_le_of_lt h)

/-- **Things that are told under their numbers,** some of which break off with an error
of their own. If one does among those that have a number within the limit, that is the
outcome, and if none does, it is whether the numbers suffice. By induction on the list:
what is first either breaks off, or has the number that is one too many, or leaves the
others to be told from the next number on. -/
theorem endsIn_forEach_numbered {α : Type} {limit : Nat} {tooMany : Unsupported}
    {f : α × Nat → Script} (breaks : α → Prop) (e : Error)
    (hlimit : ∀ x, (f (x, limit)).EndsIn (.error (.unsupported tooMany))) :
    ∀ (xs : List α) (start : Nat), start ≤ limit →
      (∀ x ∈ xs, ∀ number < limit, (breaks x → (f (x, number)).EndsIn (.error e))
        ∧ (¬ breaks x → (f (x, number)).EndsIn (.ok ()))) →
      ((∃ x ∈ xs.take (limit - start), breaks x) →
          (forEach (xs.zipIdx start) f).EndsIn (.error e))
        ∧ ((∀ x ∈ xs.take (limit - start), ¬ breaks x) →
          (forEach (xs.zipIdx start) f).EndsIn (limited limit (start + xs.length) tooMany))
  | [], start, hstart, _ => by
    rw [List.take_nil]
    refine ⟨fun ⟨x, hx, _⟩ => absurd hx List.not_mem_nil, fun _ => ?_⟩
    rw [List.length_nil, Nat.add_zero, limited_of_le hstart]
    exact endsIn_done
  | x :: xs, start, hstart, hall => by
    show (_ → (f (x, start) ++ forEach (xs.zipIdx (start + 1)) f).EndsIn _)
      ∧ (_ → (f (x, start) ++ forEach (xs.zipIdx (start + 1)) f).EndsIn _)
    rw [List.length_cons]
    rcases Nat.eq_or_lt_of_le hstart with rfl | hlt
    · rw [Nat.sub_self, List.take_zero, limited_of_lt (by omega)]
      exact ⟨fun ⟨y, hy, _⟩ => absurd hy List.not_mem_nil,
        fun _ => (hlimit x).append_error _⟩
    · obtain ⟨hbreaks, hgoes⟩ := hall x List.mem_cons_self start hlt
      obtain ⟨hsome, hnone⟩ := endsIn_forEach_numbered breaks e hlimit xs (start + 1) hlt
        fun y hy => hall y (List.mem_cons_of_mem x hy)
      rw [show limit - start = (limit - (start + 1)) + 1 by omega, List.take_succ_cons,
        show start + (xs.length + 1) = start + 1 + xs.length by omega]
      by_cases hx : breaks x
      · exact ⟨fun _ => (hbreaks hx).append_error _,
          fun h => absurd hx (h x List.mem_cons_self)⟩
      · refine ⟨fun ⟨y, hy, hby⟩ => (hgoes hx).append (hsome ⟨y, ?_, hby⟩),
          fun h => (hgoes hx).append (hnone fun y hy => h y (List.mem_cons_of_mem x hy))⟩
        exact (List.mem_cons.mp hy).resolve_left fun heq => hx (heq ▸ hby)

/-- Numbered things that do not break off. -/
theorem endsIn_forEach_limited {α : Type} {limit : Nat} {tooMany : Unsupported}
    {f : α × Nat → Script} (hlimit : ∀ x, (f (x, limit)).EndsIn (.error (.unsupported tooMany)))
    {xs : List α} {start : Nat} (hstart : start ≤ limit)
    (hall : ∀ x ∈ xs, ∀ number < limit, (f (x, number)).Unbroken) :
    (forEach (xs.zipIdx start) f).EndsIn (limited limit (start + xs.length) tooMany) :=
  (endsIn_forEach_numbered (fun _ => False) (.unsupported tooMany) hlimit xs start hstart
    fun x hx number hnumber =>
      ⟨False.elim, fun _ => (hall x hx number hnumber).endsIn⟩).2 fun _ _ => id

end Script

namespace Program

open Script

variable {p : Program}

/-- What needs a number of one byte has none behind them. -/
theorem endsIn_given_byteIndex (tooMany : Unsupported) (f : UInt8 → Script) :
    (given (byteIndex 256 tooMany) f).EndsIn (.error (.unsupported tooMany)) :=
  endsIn_fail _

/-! ## Type parameters

The bounds of a type parameter are a numbered list inside a numbered list.
Here the numbers begin with 0 or with 1, so it is the number behind the last
bound that counts. -/

/-- **The number behind that of the last bound** of a type parameter. -/
def boundEnd (p : Program) (id : TypeParameterId) : Except Error Nat := do
  let parameter ← p.typeParameterOf id
  let start ← p.firstBoundIndex parameter.bounds
  return start + parameter.bounds.length

/-- **A type parameter of which everything can be told,** if there are not too many bounds
of it: it and what comes first among its bounds are known, and the annotations on it and
on its bounds can be told. -/
structure CanTellParameter (p : Program) (id : TypeParameterId) : Prop where
  boundEnd : Succeeds (p.boundEnd id)
  annotations : ∀ t, p.typeParameterOf id = .ok t → p.CanTellAll t.annotations
  bounds : ∀ t, p.typeParameterOf id = .ok t → ∀ bound ∈ t.bounds,
    p.CanTellType bound ∧ bound.start.Fits

/-- Whether a type parameter has more bounds than there are numbers for. -/
def HasManyBounds (p : Program) (id : TypeParameterId) : Prop :=
  ∃ count, p.boundEnd id = .ok count ∧ 256 < count

theorem hasManyBounds_iff {id : TypeParameterId} {count : Nat} (h : p.boundEnd id = .ok count) :
    p.HasManyBounds id ↔ 256 < count := by
  refine ⟨fun ⟨many, hmany, hlt⟩ => ?_, fun hlt => ⟨count, h, hlt⟩⟩
  cases Except.ok.inj (h.symm.trans hmany)
  exact hlt

/-- **One type parameter comes to what its bounds come to.** -/
theorem CanTellParameter.endsIn {id : TypeParameterId} (h : p.CanTellParameter id)
    (sort : UInt8) {position count : Nat} (hposition : position < 256)
    (hcount : p.boundEnd id = .ok count) :
    (p.typeParameterScript sort position id).EndsIn (limited 256 count .boundCount) := by
  obtain ⟨parameter, hparameter, hcount⟩ := bind_eq_ok hcount
  obtain ⟨start, hstart, rfl⟩ := bind_pure_eq_ok hcount
  have hfirst := firstBoundIndex_le hstart
  unfold typeParameterScript
  rw [byteIndex_of_lt hposition, hparameter]
  show (_ ++ given (p.firstBoundIndex parameter.bounds) _).EndsIn _
  rw [hstart]
  refine ((h.annotations parameter hparameter).groupScript_unbroken _).endsIn.append
    (endsIn_forEach_limited (fun _ => endsIn_given_byteIndex _ _) (by omega)
      fun bound hbound number hnumber => ?_)
  obtain ⟨htell, hfits⟩ := h.bounds parameter hparameter bound hbound
  exact unbroken_given ⟨_, byteIndex_of_lt hnumber _⟩ fun _ _ => htell.typeScript_unbroken hfits _

/-- **Type parameters come to an error** if one that has a number has too many bounds, or
else if there are too many of them. -/
theorem typeParametersScript_endsIn (sort : UInt8) {ids : List TypeParameterId}
    (h : ∀ id ∈ ids, p.CanTellParameter id) :
    ((∃ id ∈ ids.take 256, p.HasManyBounds id) →
        (p.typeParametersScript sort ids).EndsIn (.error (.unsupported .boundCount)))
      ∧ ((∀ id ∈ ids.take 256, ¬ p.HasManyBounds id) →
        (p.typeParametersScript sort ids).EndsIn
          (limited 256 ids.length .typeParameterCount)) := by
  have hnumbered := endsIn_forEach_numbered p.HasManyBounds (.unsupported .boundCount)
    (f := fun x => p.typeParameterScript sort x.2 x.1)
    (fun _ => endsIn_given_byteIndex .typeParameterCount _) ids 0 (Nat.zero_le 256)
    fun id hid position hposition => ?_
  · rw [Nat.sub_zero, Nat.zero_add] at hnumbered
    exact hnumbered
  · obtain ⟨count, hcount⟩ := (h id hid).boundEnd
    have hends := (h id hid).endsIn sort hposition hcount
    rw [hasManyBounds_iff hcount]
    constructor
    · intro hmany
      rwa [limited_of_lt hmany] at hends
    · intro hfew
      rwa [limited_of_le (Nat.le_of_not_lt hfew)] at hends

/-- Where there are numbers for all bounds, only the type parameters are counted. -/
theorem typeParametersScript_endsIn_limited (sort : UInt8) {ids : List TypeParameterId}
    (h : ∀ id ∈ ids, p.CanTellParameter id ∧ ¬ p.HasManyBounds id) :
    (p.typeParametersScript sort ids).EndsIn (limited 256 ids.length .typeParameterCount) :=
  (typeParametersScript_endsIn sort fun id hid => (h id hid).1).2 fun id hid =>
    (h id (List.mem_of_mem_take hid)).2

/-! ## Methods

Only the parameters are left to be counted, since the other lists are assumed
to be within their limits. -/

/-- **A method of which everything can be told,** if it does not have too many
parameters. Its other lists are within the limits. -/
structure CanTellMethod (p : Program) (m : MethodDeclaration) : Prop where
  header : Succeeds (p.methodHeader m)
  annotations : p.CanTellAll m.annotations
  targets : m.isConstructor = true → ∀ a ∈ m.annotations, Succeeds (p.targets a)
  types : ∀ t ∈ m.types, p.CanTellType t ∧ t.start.Fits
  typeParameters : m.typeParameters.length ≤ 256
  bounds : ∀ id ∈ m.typeParameters, p.CanTellParameter id ∧ ¬ p.HasManyBounds id
  parameters : ∀ q ∈ m.parameters, p.CanTellAll q.annotations
  thrown : m.thrown.length ≤ 65536

namespace CanTellMethod

variable {m : MethodDeclaration}

theorem typeParameters_endsIn (h : p.CanTellMethod m) :
    (p.typeParametersScript TypeReference.methodTypeParameter m.typeParameters).EndsIn
      (.ok ()) := by
  have hends := typeParametersScript_endsIn_limited TypeReference.methodTypeParameter h.bounds
  rwa [limited_of_le h.typeParameters] at hends

theorem parameters_endsIn (h : p.CanTellMethod m) :
    (forEach m.parameters.zipIdx fun x => p.parameterScript x.1 x.2).EndsIn
      (limited 256 m.parameters.length .parameterCount) := by
  rw [← Nat.zero_add m.parameters.length]
  refine endsIn_forEach_limited (fun _ => endsIn_given_byteIndex _ _) (Nat.zero_le 256)
    fun q hq position hposition => ?_
  have hmem : q.type ∈ m.types :=
    List.mem_append_left _ (List.mem_cons_of_mem _ (List.mem_map_of_mem hq))
  obtain ⟨htell, hfits⟩ := h.types q.type hmem
  exact unbroken_given ⟨_, byteIndex_of_lt hposition _⟩ fun _ _ =>
    (htell.typeScript_unbroken hfits _).append ((h.parameters q hq).groupScript_unbroken _)

theorem thrown_unbroken (h : p.CanTellMethod m) :
    (forEach m.thrown.zipIdx fun x => p.thrownScript x.1 x.2).Unbroken := by
  refine unbroken_forEach_wideIndex (f := fun t index => p.typeScript (.ofThrown index) t)
    h.thrown fun t ht index => ?_
  obtain ⟨htell, hfits⟩ := h.types t (List.mem_append_right _ ht)
  exact htell.typeScript_unbroken hfits _

/-- **A method comes to what its parameters come to.** -/
theorem methodContent_endsIn (h : p.CanTellMethod m) :
    (p.methodContent m).EndsIn (limited 256 m.parameters.length .parameterCount) := by
  obtain ⟨hresult, hfits⟩ := h.types m.result (List.mem_append_left _ List.mem_cons_self)
  have hconstructed := constructedTypeScript_unbroken_of_told h.annotations h.targets
  have hfront := ((h.annotations.groupScript_unbroken .annotated).append hconstructed).append
    (hresult.typeScript_unbroken hfits (.ofSort TypeReference.methodReturn))
  have hend : (tell (.finish .method) done).Unbroken := trivial
  exact (((hfront.endsIn.append h.typeParameters_endsIn).append h.parameters_endsIn).followed
    h.thrown_unbroken.endsIn).followed hend.endsIn

/-- So does the whole method, for a visitor that accepts it. -/
theorem run_methodScript (h : p.CanTellMethod m) {State : Type} {v : Visitor State} {s : State}
    (hwants : ∀ header, v.wants s (.method header) = true) :
    (v.run (p.methodScript m) s).2 = limited 256 m.parameters.length .parameterCount := by
  obtain ⟨header, hheader⟩ := h.header
  have hscript : p.methodScript m = .scope (.method header) (p.methodContent m) .done := by
    unfold methodScript
    rw [hheader]
    rfl
  rw [hscript, v.run_scope, if_pos (hwants header)]
  exact h.methodContent_endsIn.followed endsIn_done State v _

end CanTellMethod

/-! ## So many of everything

These are declarations with any number of items, as plain as they can be: the
witnesses for every limit are made of them, and nothing in them fails for
another reason. -/

/-- A method with so many parameters. -/
def manyParameters (count : Nat) : MethodDeclaration :=
  { name := "m", isConstructor := false, modifiers := [], isVarargs := false,
    typeParameters := [], parameters := List.replicate count ⟨"a", .primitive .int, []⟩,
    result := .void, thrown := [], annotations := [] }

/-- A type parameter that is bounded so many times by a class. -/
def manyBounds (count : Nat) : TypeParameter :=
  ⟨"T", .intersection (List.replicate count (.declared .object)), none, []⟩

/-- A program with a type parameter that has one bound, and with one that has so many. -/
def withManyBounds (count : Nat) : Program :=
  { Program.initial with typeParameters := #[manyBounds 1, manyBounds count] }

/-- A class with so many type arguments. -/
def manyArguments (count : Nat) : JavaType :=
  .declared ⟨⟨.object, List.replicate count .wildcard, []⟩, []⟩

/-- Nothing can go wrong with a method that has parameters of type `int` only,
but for their number. -/
theorem canTellMethod_manyParameters (p : Program) (count : Nat) :
    p.CanTellMethod (manyParameters count) where
  header := by
    -- its descriptor is that of so many `int`
    have hshape : Succeeds
        (p.shapeCalls (manyParameters count).parameterTypes .void .descriptor) := by
      refine IsWellFormed.shapeCalls_succeeds .descriptor (fun t ht => ?_) ⟨_, rfl⟩
      obtain ⟨q, hq, rfl⟩ := List.mem_map.mp ht
      rw [List.eq_of_mem_replicate hq]
      exact ⟨_, rfl⟩
    have hsignature : p.methodSignature? (manyParameters count) = .ok none := by
      have hneeds : (manyParameters count).needsSignature = false := by
        simp [manyParameters, MethodDeclaration.needsSignature, MethodDeclaration.parameterTypes,
          MethodDeclaration.throwsVariable, JavaType.isGeneric]
      unfold methodSignature?
      rw [hneeds]
      rfl
    exact hshape.map.bind fun _ _ => Succeeds.bind ⟨_, hsignature⟩ fun _ _ => .ok _
  annotations := canTellAll_nil
  targets h := absurd h Bool.false_ne_true
  types t ht := by
    rcases List.mem_append.mp ht with ht | ht
    · rcases List.mem_cons.mp ht with rfl | ht
      · exact canTellType_of_nil rfl
      · obtain ⟨q, hq, rfl⟩ := List.mem_map.mp ht
        rw [List.eq_of_mem_replicate hq]
        exact canTellType_of_nil rfl
    · exact absurd ht List.not_mem_nil
  typeParameters := Nat.zero_le 256
  bounds id hid := absurd hid List.not_mem_nil
  parameters q hq := by
    rw [List.eq_of_mem_replicate hq]
    exact canTellAll_nil
  thrown := Nat.zero_le 65536

/-- A class does not begin behind a number that is kept. -/
theorem canTellParameter_manyBounds {id : TypeParameterId} {count : Nat}
    (h : p.typeParameterOf id = .ok (manyBounds count))
    (hobject : p.isInterface (.declared .object) = .ok false) :
    p.CanTellParameter id ∧ p.boundEnd id = .ok count := by
  have hstart : p.firstBoundIndex (List.replicate count (.declared .object)) = .ok 0 := by
    cases count with
    | zero => rfl
    | succ n =>
      show (p.isInterface (.declared .object)).map _ = _
      rw [hobject]
      rfl
  have hend : p.boundEnd id = .ok count := by
    unfold boundEnd
    rw [h]
    show (p.firstBoundIndex (List.replicate count (.declared .object)) >>= _) = _
    rw [hstart]
    show Except.ok (0 + (List.replicate count (JavaType.declared .object)).length) = _
    rw [Nat.zero_add, List.length_replicate]
  refine ⟨⟨⟨count, hend⟩, fun t ht => ?_, fun t ht bound hbound => ?_⟩, hend⟩
  · cases Except.ok.inj (h.symm.trans ht)
    exact canTellAll_nil
  · cases Except.ok.inj (h.symm.trans ht)
    rw [List.eq_of_mem_replicate hbound]
    exact canTellType_of_nil rfl

/-- The first type parameter of the program has one bound, however many the second has. -/
theorem canTellParameter_first {count many : Nat} {id : TypeParameterId}
    (h : id ∈ List.replicate count (⟨0⟩ : TypeParameterId)) :
    (withManyBounds many).CanTellParameter id ∧ ¬ (withManyBounds many).HasManyBounds id := by
  rw [List.eq_of_mem_replicate h]
  obtain ⟨htell, hend⟩ : (withManyBounds many).CanTellParameter ⟨0⟩
      ∧ (withManyBounds many).boundEnd ⟨0⟩ = .ok 1 := canTellParameter_manyBounds rfl rfl
  exact ⟨htell, fun hmany => absurd ((hasManyBounds_iff hend).mp hmany) (by decide)⟩

/-- Wildcards without bounds carry nothing, as long as they have numbers. -/
theorem annotatedArguments_wildcards : ∀ (count index : Nat),
    index + count ≤ TypePath.argumentLimit →
      annotatedArguments index (List.replicate count .wildcard) = .ok []
  | 0, _, _ => rfl
  | count + 1, index, h => by
    rw [List.replicate_succ, annotatedArguments, if_pos (by omega),
      annotatedArguments_wildcards count (index + 1) (by omega)]
    rfl

theorem canTellType_manyArguments {count : Nat} (h : count ≤ 256) :
    p.CanTellType (manyArguments count) ∧ (manyArguments count).start.Fits := by
  refine canTellType_of_nil ?_
  have harguments := annotatedArguments_wildcards count 0 (by rwa [Nat.zero_add])
  unfold manyArguments
  rw [JavaType.annotatedParts, harguments]
  rfl

theorem typeScript_manyArguments_endsIn {count : Nat} (h : count ≤ 256) (place : TypeReference) :
    (p.typeScript place (manyArguments count)).EndsIn (.ok ()) :=
  have ⟨htells, hfits⟩ := canTellType_manyArguments h
  (htells.typeScript_unbroken hfits place).endsIn

theorem length_manyParameters (count : Nat) :
    (manyParameters count).parameters.length = count := List.length_replicate

theorem length_manyArguments (count : Nat) :
    (manyArguments count).start.arguments.length = count := List.length_replicate

/-! ## The limits

The outcomes are equations. Nothing is said there of what has been told before
a limit is reached. -/

/-- **How many can be told.** A visitor that accepts a method of which everything can be
told is told it to the end, or the error is that there are more than 256 parameters.
Type parameters are told to the end, or the error is that one of the first 256 has more
bounds than there are numbers for, or else that there are more than 256 type parameters.
The annotations on a type are told to the end unless a part that can be followed to has
more than 256 type arguments. -/
theorem count_limits (p : Program) {State : Type} (v : Visitor State) (s : State) :
    (∀ m, p.CanTellMethod m → (∀ header, v.wants s (.method header) = true) →
        (v.run (p.methodScript m) s).2 = limited 256 m.parameters.length .parameterCount)
      ∧ (∀ sort ids, (∀ id ∈ ids, p.CanTellParameter id) →
        ((∃ id ∈ ids.take 256, p.HasManyBounds id) →
            (v.run (p.typeParametersScript sort ids) s).2 = .error (.unsupported .boundCount))
          ∧ ((∀ id ∈ ids.take 256, ¬ p.HasManyBounds id) →
            (v.run (p.typeParametersScript sort ids) s).2
              = limited 256 ids.length .typeParameterCount))
      ∧ ∀ place t,
        ((∃ path x, t.follow path = some x ∧ 256 < x.arguments.length) →
            (v.run (p.typeScript place t) s).2 = .error (.unsupported .typeArgumentCount))
          ∧ (p.CanTellType t → (∀ path x, t.follow path = some x → x.arguments.length ≤ 256) →
            (v.run (p.typeScript place t) s).2 = .ok ()) := by
  refine ⟨fun m h => h.run_methodScript, fun sort ids h => ?_,
    fun place t => ⟨?_, fun h hfits => ?_⟩⟩
  · obtain ⟨hmany, hfew⟩ := typeParametersScript_endsIn sort h
    exact ⟨fun hover => hmany hover State v s, fun hwithin => hfew hwithin State v s⟩
  · rintro ⟨path, x, hx, hlt⟩
    have hfits : ¬ t.start.Fits := fun hfits => absurd (hfits path x hx) (Nat.not_le_of_lt hlt)
    rw [typeScript_of_not_fits hfits]
    rfl
  · exact (h.typeScript_unbroken hfits place).run v s

/-- **One more than there are numbers for:** a method with 257 parameters, 257 type
parameters, a type parameter with 257 bounds and a class with 257 type arguments, told to
somebody who wants everything. -/
theorem count_limits_exceeded :
    let p := withManyBounds 257
    let v := recorder fun _ => .record
    let start : Recording := ⟨[], false⟩
    let ids : List TypeParameterId := List.replicate 257 ⟨0⟩
    let sort := TypeReference.methodTypeParameter
    let place := TypeReference.ofSort TypeReference.field
    (p.CanTellMethod (manyParameters 257) ∧ (∀ header, v.wants start (.method header) = true)
        ∧ (v.run (p.methodScript (manyParameters 257)) start).2
          = .error (.unsupported .parameterCount))
      ∧ ((∀ id ∈ ids, p.CanTellParameter id)
        ∧ (v.run (p.typeParametersScript sort ids) start).2
          = .error (.unsupported .typeParameterCount))
      ∧ (p.CanTellParameter ⟨1⟩
        ∧ (v.run (p.typeParametersScript sort [⟨1⟩]) start).2 = .error (.unsupported .boundCount))
      ∧ (v.run (p.typeScript place (manyArguments 257)) start).2
        = .error (.unsupported .typeArgumentCount)
      ∧ (p.CanTellType (manyArguments 256) ∧ (manyArguments 256).start.Fits
        ∧ (v.run (p.typeScript place (manyArguments 256)) start).2 = .ok ()) := by
  intro p v start ids sort place
  obtain ⟨hmethod, hparameters, htype⟩ := count_limits p v start
  have hwants : ∀ header, v.wants start (.method header) = true := fun _ => rfl
  have hmethodTells := p.canTellMethod_manyParameters 257
  obtain ⟨hother, hmany⟩ : p.CanTellParameter ⟨1⟩ ∧ p.boundEnd ⟨1⟩ = .ok 257 :=
    canTellParameter_manyBounds rfl rfl
  have hids : ∀ id ∈ ids, p.CanTellParameter id := fun id hid => (canTellParameter_first hid).1
  have hfew : ∀ id ∈ ids.take 256, ¬ p.HasManyBounds id := fun id hid =>
    (canTellParameter_first (List.mem_of_mem_take hid)).2
  have hlengths : (manyParameters 257).parameters.length = 257 ∧ ids.length = 257
      ∧ (manyArguments 257).start.arguments.length = 257 :=
    ⟨length_manyParameters 257, List.length_replicate, length_manyArguments 257⟩
  obtain ⟨htells, hfits⟩ := canTellType_manyArguments (p := p) (Nat.le_refl 256)
  exact ⟨⟨hmethodTells, hwants,
      (hmethod _ hmethodTells hwants).trans (limited_of_lt (by omega) _)⟩,
    ⟨hids, ((hparameters sort ids hids).2 hfew).trans (limited_of_lt (by omega) _)⟩,
    ⟨hother, (hparameters sort [⟨1⟩] (List.forall_mem_singleton.mpr hother)).1
      ⟨⟨1⟩, List.mem_cons_self, (hasManyBounds_iff hmany).mpr (by decide)⟩⟩,
    (htype place _).1 ⟨[], _, rfl, by omega⟩, htells, hfits, (htype place _).2 htells hfits⟩

/-- **One more than a class file can count:** there are 256 of everything, and it is told
to the end. -/
theorem count_limits_at_256 :
    let p := withManyBounds 256
    let v := recorder fun _ => .record
    let start : Recording := ⟨[], false⟩
    let ids : List TypeParameterId := List.replicate 256 ⟨0⟩
    let sort := TypeReference.methodTypeParameter
    let place := TypeReference.ofSort TypeReference.field
    (255 < (manyParameters 256).parameters.length
        ∧ (∀ header, v.wants start (.method header) = true)
        ∧ (v.run (p.methodScript (manyParameters 256)) start).2 = .ok ())
      ∧ (255 < ids.length ∧ (v.run (p.typeParametersScript sort ids) start).2 = .ok ())
      ∧ (p.typeParameterOf ⟨1⟩ = .ok (manyBounds 256) ∧ 255 < (manyBounds 256).bounds.length
        ∧ (v.run (p.typeParametersScript sort [⟨1⟩]) start).2 = .ok ())
      ∧ (255 < (manyArguments 256).start.arguments.length
        ∧ (v.run (p.typeScript place (manyArguments 256)) start).2 = .ok ()) := by
  intro p v start ids sort place
  have hwants : ∀ header, v.wants start (.method header) = true := fun _ => rfl
  obtain ⟨hother, hmany⟩ : p.CanTellParameter ⟨1⟩ ∧ p.boundEnd ⟨1⟩ = .ok 256 :=
    canTellParameter_manyBounds rfl rfl
  have hfew : ¬ p.HasManyBounds ⟨1⟩ := fun h =>
    absurd ((hasManyBounds_iff hmany).mp h) (by decide)
  have hids : (p.typeParametersScript sort ids).EndsIn
      (limited 256 ids.length .typeParameterCount) :=
    typeParametersScript_endsIn_limited sort fun _ => canTellParameter_first
  have hbounds :=
    typeParametersScript_endsIn_limited sort (List.forall_mem_singleton.mpr ⟨hother, hfew⟩)
  have hlengths : (manyParameters 256).parameters.length = 256 ∧ ids.length = 256
      ∧ (manyArguments 256).start.arguments.length = 256
      ∧ (manyBounds 256).bounds.length = 256 :=
    ⟨length_manyParameters 256, List.length_replicate, length_manyArguments 256,
      List.length_replicate⟩
  exact ⟨⟨by omega, hwants, ((p.canTellMethod_manyParameters 256).run_methodScript hwants).trans
      (limited_of_le (by omega) _)⟩,
    ⟨by omega, (hids _ v start).trans (limited_of_le (by omega) _)⟩,
    ⟨rfl, by omega, (hbounds _ v start).trans (limited_of_le (by decide) _)⟩,
    by omega, typeScript_manyArguments_endsIn (Nat.le_refl 256) place _ v start⟩

end Program

end ClassFile
