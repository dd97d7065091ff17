import ClassFile.Proofs.DescriptorErasure
import ClassFile.Proofs.Growth
import ClassFile.Proofs.WellFormed

/-!
# The way that an erasure goes

Where an erasure comes out is told by going to the left step by step: from an array
to its component, from a type variable to its upper bound, from a wildcard to what
it extends, from an intersection to its first member. `Program.Way` is this walk, with the
type parameters that it passes and the array layers that it goes through.

An erasure is what its way yields (`Program.erasure_eq_iff`), and there are two sides
to it. One is what is found where a way stops: a way moves an erasure to its last type,
with what it passed no longer to be met (`Program.Way.erasureAmong_eq`). What has been
seen is never forgotten, not even behind a wildcard or an intersection. That does no harm
because the way does not branch, so what was seen is what was passed.

The other side is that every way stops, whatever the bounds (`Program.exists_way`). Inside
a type it comes to an end or to a type variable, by recursion on the type. From one
type variable to the next it passes a type parameter, none of them twice, and
there are only so many.
-/

namespace ClassFile

/-! ## Layers -/

@[simp] theorem ErasedType.under_zero (e : ErasedType) : e.under 0 = e := by
  unfold under
  rw [Nat.zero_add]

theorem JavaType.isGeneric_arrays (t : JavaType) (n : Nat) :
    (t.arrays n).isGeneric = t.isGeneric := by
  induction n with
  | zero => rfl
  | succ n ih => rw [arrays, isGeneric, ih]

/-- An erased type mentions nothing that erasure takes away. -/
theorem ErasedType.isGeneric_toType (e : ErasedType) : e.toType.isGeneric = false := by
  unfold toType
  cases e.element <;> exact JavaType.isGeneric_arrays _ _

namespace Program

variable {p : Program} {t last : JavaType} {passed unseen : List TypeParameterId} {layers : Nat}

/-! ## Ways

A way may stop anywhere; it is a list of steps and nothing is said of where
they lead in the end. What is at the end is for `EndsWith` and `Dangles`,
which between them cover every type that no step leads on from. -/

/-- **The way to the left** from a type to another one, with the type parameters
that it passes, in this order, and the number of array layers that it goes
through. -/
inductive Way (p : Program) : JavaType → List TypeParameterId → Nat → JavaType → Prop
  /-- Every way begins where it is. -/
  | start (t : JavaType) : Way p t [] 0 t
  | component {c last : JavaType} {passed : List TypeParameterId} {layers : Nat}
      (h : Way p c passed layers last) : Way p (.array c) passed (layers + 1) last
  | upperBound {id : TypeParameterId} {annotations : List Annotation} {parameter : TypeParameter}
      {last : JavaType} {passed : List TypeParameterId} {layers : Nat}
      (hparameter : p.typeParameterOf id = .ok parameter)
      (h : Way p parameter.upperBound passed layers last) :
      Way p (.typeVariable id annotations) (id :: passed) layers last
  | extended {bound last : JavaType} {passed : List TypeParameterId} {layers : Nat}
      (h : Way p bound passed layers last) : Way p (.wildcardExtends bound) passed layers last
  | firstMember {first last : JavaType} {others : List JavaType} {passed : List TypeParameterId}
      {layers : Nat} (h : Way p first passed layers last) :
      Way p (.intersection (first :: others)) passed layers last

/-- **A type at which a way comes to its end,** and what is found there. Where nothing
is above a type but `java.lang.Object`, it is that. -/
inductive EndsWith (p : Program) : JavaType → ErasedElement → Prop
  | primitive (b : Primitive) : EndsWith p (.primitive b) (.primitive b)
  | void : EndsWith p .void .void
  | declared {t : ClassType} (h : p.knows t.id = true) : EndsWith p (.declared t) (.declared t.id)
  | wildcard : EndsWith p .wildcard (.declared .object)
  | wildcardSuper (bound : JavaType) : EndsWith p (.wildcardSuper bound) (.declared .object)
  | noMembers : EndsWith p (.intersection []) (.declared .object)

/-- **A type whose handle names nothing,** and the error that says so. -/
inductive Dangles (p : Program) : JavaType → Error → Prop
  | declared {t : ClassType} (h : p.knows t.id = false) :
      Dangles p (.declared t) (.unresolvedClass t.id)
  | typeVariable {id : TypeParameterId} {annotations : List Annotation}
      (h : p.knowsParameter id = false) :
      Dangles p (.typeVariable id annotations) (.unresolvedTypeParameter id)

/-- What is passed is known. -/
theorem Way.mem_typeParameterIds (h : p.Way t passed layers last) :
    ∀ id ∈ passed, id ∈ p.typeParameterIds := by
  induction h with
  | start => exact fun _ hid => absurd hid List.not_mem_nil
  | upperBound hparameter _ ih =>
    exact List.forall_mem_cons.mpr
      ⟨Program.mem_typeParameterIds.mpr (index_lt_of_typeParameterOf hparameter), ih⟩
  | component _ ih | extended _ ih | firstMember _ ih => exact ih

/-- A way can be gone on: what is passed on the first part is passed first,
and the layers of both parts add up. -/
theorem Way.trans {u : JavaType} {further : List TypeParameterId} {m : Nat}
    (h : p.Way t passed layers u) (hu : p.Way u further m last) :
    p.Way t (passed ++ further) (m + layers) last := by
  induction h with
  | start => exact hu
  | component _ ih => exact (ih hu).component
  | upperBound hparameter _ ih => exact (ih hu).upperBound hparameter
  | extended _ ih => exact (ih hu).extended
  | firstMember _ ih => exact (ih hu).firstMember

/-- Layers around the start of a way are layers on it. -/
theorem Way.arrays (h : p.Way t passed layers last) (n : Nat) :
    p.Way (t.arrays n) passed (layers + n) last := by
  induction n with
  | zero => exact h
  | succ n ih => exact ih.component

/-! ## Erasure along a way

An erasure is carried along the way step by step. The type parameters that it
may still meet shrink by those that are passed, so it is asked of the way that
none of them comes twice; the step that would be the second is not part of
it. -/

/-- A type variable is erased like its upper bound, where it may still be met. -/
theorem erasureAmong_typeVariable {id : TypeParameterId} {parameter : TypeParameter}
    (annotations : List Annotation) (hparameter : p.typeParameterOf id = .ok parameter)
    (hid : id ∈ unseen) :
    p.erasureAmong unseen (.typeVariable id annotations)
      = p.erasureAmong (unseen.erase id) parameter.upperBound := by
  rw [erasureAmong_eq]
  show (p.erasureAt unseen (.typeVariable id)).map (·.under 0) = _
  rw [erasureAt, hparameter]
  dsimp only
  rw [if_pos hid]
  cases p.erasureAmong (unseen.erase id) parameter.upperBound with
  | error e => rfl
  | ok e => exact congrArg Except.ok e.under_zero

/-- A type variable that may no longer be met has no erasure. -/
theorem erasureAmong_of_notMem {id : TypeParameterId} {parameter : TypeParameter}
    (annotations : List Annotation) (hparameter : p.typeParameterOf id = .ok parameter)
    (hid : id ∉ unseen) :
    p.erasureAmong unseen (.typeVariable id annotations)
      = .error (.cyclicBound parameter.name) := by
  rw [erasureAmong_eq]
  show (p.erasureAt unseen (.typeVariable id)).map _ = _
  rw [erasureAt, hparameter]
  dsimp only
  rw [if_neg hid]
  rfl

/-- **An erasure goes its way:** it is that of the last type, under the layers of the
way, and with all that was passed no longer to be met. -/
theorem Way.erasureAmong_eq (h : p.Way t passed layers last) (hnodup : passed.Nodup)
    (hunseen : passed ⊆ unseen) :
    p.erasureAmong unseen t
      = (p.erasureAmong (unseen.diff passed) last).map (·.under layers) := by
  induction h generalizing unseen with
  | start t =>
    rw [List.diff_nil]
    cases p.erasureAmong unseen t with
    | error e => rfl
    | ok e => exact congrArg Except.ok e.under_zero.symm
  | @component c last passed layers _ ih =>
    rw [erasureAmong_array, ih hnodup hunseen]
    cases p.erasureAmong (unseen.diff passed) last with
    | error e => rfl
    | ok e =>
      show Except.ok ((e.under layers).under 1) = .ok (e.under (layers + 1))
      rw [e.under_under, Nat.add_comm]
  | @upperBound id annotations parameter last passed layers hparameter _ ih =>
    -- the type parameter is struck off, and the rest of the way does not need it
    obtain ⟨hid, hnodup⟩ := List.nodup_cons.mp hnodup
    obtain ⟨hmem, hunseen⟩ := List.cons_subset.mp hunseen
    have hothers : passed ⊆ unseen.erase id := fun i hi =>
      (List.mem_erase_of_ne fun e : i = id => hid (e ▸ hi)).mpr (hunseen hi)
    rw [erasureAmong_typeVariable annotations hparameter hmem, ih hnodup hothers, List.diff_cons]
  -- nothing is passed inside of a type, and no layer but that of an array
  | @extended bound last passed layers _ ih =>
    rw [← ih hnodup hunseen, Program.erasureAmong_eq, p.erasureAmong_eq unseen bound]
    rfl
  | @firstMember first last others passed layers _ ih =>
    rw [← ih hnodup hunseen, Program.erasureAmong_eq, p.erasureAmong_eq unseen first]
    rfl

/-- At the start of its way an erasure may meet all type parameters. -/
theorem Way.erasure_eq (h : p.Way t passed layers last) (hnodup : passed.Nodup) :
    p.erasure t
      = (p.erasureAmong (p.typeParameterIds.diff passed) last).map (·.under layers) :=
  h.erasureAmong_eq hnodup h.mem_typeParameterIds

/-- **A way that comes to its end** yields what is found there. -/
theorem Way.erasure_of_endsWith {element : ErasedElement} (h : p.Way t passed layers last)
    (hnodup : passed.Nodup) (hend : p.EndsWith last element) :
    p.erasure t = .ok ⟨layers, element⟩ := by
  have hlast : p.erasureAmong (p.typeParameterIds.diff passed) last = .ok ⟨0, element⟩ := by
    rw [Program.erasureAmong_eq]
    cases hend with
    | declared hknown =>
      obtain ⟨c, hc⟩ := classOf_succeeds hknown
      show ((p.classOf _).map _).map _ = _
      rw [hc]
      rfl
    | primitive | void | wildcard | wildcardSuper | noMembers => rfl
  rw [h.erasure_eq hnodup, hlast]
  rfl

/-- **A way that meets a handle that names nothing** yields the error that says so. -/
theorem Way.erasure_of_dangles {e : Error} (h : p.Way t passed layers last)
    (hnodup : passed.Nodup) (hend : p.Dangles last e) : p.erasure t = .error e := by
  have hlast : p.erasureAmong (p.typeParameterIds.diff passed) last = .error e := by
    rw [Program.erasureAmong_eq]
    -- at the last type nothing has been struck off that matters to a handle
    cases hend with
    | declared hunknown =>
      show ((p.classOf _).map _).map _ = _
      rw [classOf_of_not_knows hunknown]
      rfl
    | typeVariable hunknown =>
      show (p.erasureAt _ (.typeVariable _)).map _ = _
      rw [erasureAt, typeParameterOf_of_not_knows hunknown]
      rfl
  rw [h.erasure_eq hnodup, hlast]
  rfl

/-- **A way that returns to a type parameter** yields the error that names it. -/
theorem Way.erasure_of_return {id : TypeParameterId} {annotations : List Annotation}
    {parameter : TypeParameter} (h : p.Way t passed layers (.typeVariable id annotations))
    (hnodup : passed.Nodup) (hparameter : p.typeParameterOf id = .ok parameter)
    (hid : id ∈ passed) : p.erasure t = .error (.cyclicBound parameter.name) := by
  have hpassed : id ∉ p.typeParameterIds.diff passed := fun hmem =>
    (p.nodup_typeParameterIds.mem_sdiff_iff.mp hmem).2 hid
  rw [h.erasure_eq hnodup, erasureAmong_of_notMem annotations hparameter hpassed]
  rfl

/-! ## Every way stops -/

/-- **Where a way stops** that has passed these type parameters. -/
inductive StopsAt (p : Program) (passed : List TypeParameterId) : JavaType → Prop
  | ends {t : JavaType} {element : ErasedElement} (h : p.EndsWith t element) : StopsAt p passed t
  | dangles {t : JavaType} {e : Error} (h : p.Dangles t e) : StopsAt p passed t
  | returns {id : TypeParameterId} {annotations : List Annotation} {parameter : TypeParameter}
      (hparameter : p.typeParameterOf id = .ok parameter) (h : id ∈ passed) :
      StopsAt p passed (.typeVariable id annotations)

/-- Inside a type the way stops or comes to a type variable, by recursion on the
type. -/
theorem exists_way_inside (p : Program) :
    ∀ t : JavaType, ∃ layers last, p.Way t [] layers last
      ∧ ((∀ passed, p.StopsAt passed last)
        ∨ ∃ id annotations parameter, last = .typeVariable id annotations
          ∧ p.typeParameterOf id = .ok parameter)
  | .primitive b => ⟨0, _, .start _, .inl fun _ => .ends (.primitive b)⟩
  | .void => ⟨0, _, .start _, .inl fun _ => .ends .void⟩
  | .array c => by
    obtain ⟨layers, last, hway, hlast⟩ := p.exists_way_inside c
    exact ⟨layers + 1, last, hway.component, hlast⟩
  | .declared t => by
    refine ⟨0, _, .start _, .inl fun _ => ?_⟩
    cases hknown : p.knows t.id with
    | true => exact .ends (.declared hknown)
    | false => exact .dangles (.declared hknown)
  | .typeVariable id annotations => by
    refine ⟨0, _, .start _, ?_⟩
    cases hparameter : p.typeParameterOf id with
    | error e =>
      exact .inl fun _ => .dangles (.typeVariable (not_knows_of_typeParameterOf hparameter))
    | ok parameter => exact .inr ⟨id, annotations, parameter, rfl, hparameter⟩
  | .wildcard => ⟨0, _, .start _, .inl fun _ => .ends .wildcard⟩
  | .wildcardExtends bound => by
    obtain ⟨layers, last, hway, hlast⟩ := p.exists_way_inside bound
    exact ⟨layers, last, hway.extended, hlast⟩
  | .wildcardSuper bound => ⟨0, _, .start _, .inl fun _ => .ends (.wildcardSuper bound)⟩
  | .intersection [] => ⟨0, _, .start _, .inl fun _ => .ends .noMembers⟩
  | .intersection (first :: others) => by
    obtain ⟨layers, last, hway, hlast⟩ := p.exists_way_inside first
    exact ⟨layers, last, hway.firstMember, hlast⟩

/-- **Every way stops,** whatever the bounds and whatever has been passed before. By
recursion on the type parameters that have not been passed. -/
theorem exists_way (p : Program) (before : List TypeParameterId) (hbefore : before.Nodup)
    (t : JavaType) :
    ∃ passed layers last, p.Way t passed layers last ∧ (before ++ passed).Nodup
      ∧ p.StopsAt (before ++ passed) last := by
  obtain ⟨layers, last, hway, hstops | ⟨id, annotations, parameter, rfl, hparameter⟩⟩ :=
    p.exists_way_inside t
  · -- the way ends inside of the type
    refine ⟨[], layers, last, hway, ?_, hstops _⟩
    rwa [List.append_nil]
  by_cases hid : id ∈ before
  · -- the type parameter was passed before, so the way returns to it
    refine ⟨[], layers, _, hway, ?_, .returns hparameter ?_⟩ <;> rwa [List.append_nil]
  · -- from its upper bound on one type parameter fewer is left to be passed
    have hfresh : (before ++ [id]).Nodup := List.concat_eq_append ▸ hbefore.concat hid
    obtain ⟨passed, further, last, hbound, hnodup, hstops⟩ :=
      p.exists_way (before ++ [id]) hfresh parameter.upperBound
    rw [List.append_assoc] at hnodup hstops
    exact ⟨id :: passed, _, last, hway.trans (hbound.upperBound hparameter), hnodup, hstops⟩
termination_by (p.typeParameterIds.diff before).length
decreasing_by
  have hmem : id ∈ p.typeParameterIds.diff before :=
    p.nodup_typeParameterIds.mem_sdiff_iff.mpr
      ⟨Program.mem_typeParameterIds.mpr (index_lt_of_typeParameterOf hparameter), hid⟩
  rw [List.diff_append, List.diff_cons, List.diff_nil, List.length_erase_of_mem hmem]
  exact Nat.sub_lt (List.length_pos_of_mem hmem) Nat.one_pos

/-! ## The erasure of a type -/

/-- **What a way yields,** by the place where it stops. -/
inductive WayYields (p : Program) (t : JavaType) : Except Error ErasedType → Prop
  | ends {passed : List TypeParameterId} {layers : Nat} {last : JavaType}
      {element : ErasedElement} (hway : p.Way t passed layers last) (hnodup : passed.Nodup)
      (hend : p.EndsWith last element) : WayYields p t (.ok ⟨layers, element⟩)
  | dangles {passed : List TypeParameterId} {layers : Nat} {last : JavaType} {e : Error}
      (hway : p.Way t passed layers last) (hnodup : passed.Nodup) (hend : p.Dangles last e) :
      WayYields p t (.error e)
  | returns {passed : List TypeParameterId} {layers : Nat} {id : TypeParameterId}
      {annotations : List Annotation} {parameter : TypeParameter}
      (hway : p.Way t passed layers (.typeVariable id annotations)) (hnodup : passed.Nodup)
      (hparameter : p.typeParameterOf id = .ok parameter) (hid : id ∈ passed) :
      WayYields p t (.error (.cyclicBound parameter.name))

/-- **An erasure is what its way yields.** There is a way that stops, and the
erasure is what it yields; and whatever another way yields would have to be
the erasure as well. -/
theorem erasure_eq_iff {r : Except Error ErasedType} : p.erasure t = r ↔ p.WayYields t r := by
  constructor
  · rintro rfl
    obtain ⟨passed, layers, last, hway, hnodup, hstops⟩ := p.exists_way [] List.nodup_nil t
    rw [List.nil_append] at hnodup hstops
    cases hstops with
    | ends hend =>
      rw [hway.erasure_of_endsWith hnodup hend]
      exact .ends hway hnodup hend
    | dangles hend =>
      rw [hway.erasure_of_dangles hnodup hend]
      exact .dangles hway hnodup hend
    | returns hparameter hid =>
      rw [hway.erasure_of_return hnodup hparameter hid]
      exact .returns hway hnodup hparameter hid
  · intro h
    cases h with
    | ends hway hnodup hend => exact hway.erasure_of_endsWith hnodup hend
    | dangles hway hnodup hend => exact hway.erasure_of_dangles hnodup hend
    | returns hway hnodup hparameter hid => exact hway.erasure_of_return hnodup hparameter hid

/-- What is found at the end of a way is erased already. -/
theorem EndsWith.erasure_toType {element : ErasedElement} (h : p.EndsWith t element)
    (hobject : p.knows .object = true) (layers : Nat) :
    p.erasure (⟨layers, element⟩ : ErasedType).toType = .ok ⟨layers, element⟩ := by
  -- from the erased type the way goes through its layers and no further
  have hway : ∀ u, p.EndsWith u element → p.erasure (u.arrays layers) = .ok ⟨layers, element⟩ := by
    intro u hu
    have harrays := (Way.start (p := p) u).arrays layers
    rw [Nat.zero_add] at harrays
    exact harrays.erasure_of_endsWith List.nodup_nil hu
  cases h with
  | primitive b => exact hway _ (.primitive b)
  | void => exact hway _ .void
  | declared hknown => exact hway _ (.declared (t := .plain _) hknown)
  | wildcard | wildcardSuper | noMembers => exact hway _ (.declared (t := .plain .object) hobject)

/-- `java.lang.Object` is known to every program that can be built. -/
theorem IsBuilt.knows_object (h : p.IsBuilt) : p.knows .object = true :=
  decide_eq_true (Nat.lt_of_lt_of_le (by decide) h.size_initial_le)

/-- **Erasure is the way to the left.** There is an erasure exactly where the way ends
without passing a type parameter twice, and it is what is found there under the layers
of the way. The bounds are circular exactly where the way returns to a type parameter
that it has passed, and the first of these is named. In all other cases the way meets a
handle that names nothing, and the error says which. What is erased is its own erasure
and mentions nothing that erasure takes away. For that `java.lang.Object` has to be
known, which stands in for what has no bound; it is, in whatever can be built
(`Program.IsBuilt.knows_object`). -/
theorem erasure_goes_its_way (p : Program) (t : JavaType) :
    (∀ e, p.erasure t = .ok e ↔
        ∃ passed last, p.Way t passed e.layers last ∧ passed.Nodup ∧ p.EndsWith last e.element)
      ∧ (∀ name, p.erasure t = .error (.cyclicBound name) ↔
        ∃ passed layers id annotations parameter,
          p.Way t passed layers (.typeVariable id annotations) ∧ passed.Nodup ∧ id ∈ passed
            ∧ p.typeParameterOf id = .ok parameter ∧ parameter.name = name)
      ∧ (∀ e, (∀ name, e ≠ .cyclicBound name) → (p.erasure t = .error e ↔
        ∃ passed layers last, p.Way t passed layers last ∧ passed.Nodup ∧ p.Dangles last e))
      ∧ (p.knows .object = true → ∀ e, p.erasure t = .ok e →
        p.erasure e.toType = .ok e ∧ e.toType.isGeneric = false) := by
  -- from here on it is all about what ways yield
  simp only [erasure_eq_iff]
  refine ⟨fun e => ⟨?_, ?_⟩, fun name => ⟨?_, ?_⟩, fun e hcircle => ⟨?_, ?_⟩,
    fun hobject e h => ⟨?_, e.isGeneric_toType⟩⟩
  · rintro ⟨hway, hnodup, hend⟩
    exact ⟨_, _, hway, hnodup, hend⟩
  · rintro ⟨passed, last, hway, hnodup, hend⟩
    exact .ends hway hnodup hend
  · intro h
    cases h with
    | dangles _ _ hend => cases hend
    | returns hway hnodup hparameter hid =>
      exact ⟨_, _, _, _, _, hway, hnodup, hid, hparameter, rfl⟩
  · rintro ⟨passed, layers, id, annotations, parameter, hway, hnodup, hid, hparameter, rfl⟩
    exact .returns hway hnodup hparameter hid
  · intro h
    cases h with
    | dangles hway hnodup hend => exact ⟨_, _, _, hway, hnodup, hend⟩
    | returns => exact absurd rfl (hcircle _)
  · rintro ⟨passed, layers, last, hway, hnodup, hend⟩
    exact .dangles hway hnodup hend
  · cases h with
    | ends _ _ hend => exact erasure_eq_iff.mp (hend.erasure_toType hobject _)

/-- Three type parameters in a circle that is entered through an array: the one that
comes again first is named, not the one where the way began. Beside them a type whose
way ends behind two layers and a wildcard. Type parameters are added one by one, so the
bounds of the first two refer to what is not there yet. -/
theorem erasure_goes_its_way_round :
    let p : Program := { Program.initial with
      typeParameters :=
        #[⟨"T", .array (.typeVariable ⟨1⟩ []), none, []⟩,
          ⟨"U", .intersection [.typeVariable ⟨2⟩ []], none, []⟩,
          ⟨"V", .wildcardExtends (.typeVariable ⟨1⟩ []), none, []⟩] }
    let t : JavaType := .array (.wildcardExtends (.array (.declared .string)))
    p.IsBuilt
      ∧ p.knows .object = true
      ∧ p.erasure (.typeVariable ⟨0⟩ []) = .error (.cyclicBound "U")
      ∧ (∃ passed layers id annotations parameter,
        p.Way (.typeVariable ⟨0⟩ []) passed layers (.typeVariable id annotations)
          ∧ passed.Nodup ∧ id ∈ passed ∧ p.typeParameterOf id = .ok parameter
          ∧ parameter.name = "U")
      ∧ p.erasure t = .ok ⟨2, .declared .string⟩
      ∧ p.erasure (ErasedType.toType ⟨2, .declared .string⟩) = .ok ⟨2, .declared .string⟩ := by
  intro p t
  have hbuilt : p.IsBuilt :=
    ((IsBuilt.initial.addTypeParameter "T" (.array (.typeVariable ⟨1⟩ []))).addTypeParameter "U"
      (.intersection [.typeVariable ⟨2⟩ []])).addTypeParameter "V"
        (.wildcardExtends (.typeVariable ⟨1⟩ []))
  have hcircle : p.erasure (.typeVariable ⟨0⟩ []) = .error (.cyclicBound "U") := by cbv
  have ht : p.erasure t = .ok ⟨2, .declared .string⟩ := by cbv
  exact ⟨hbuilt, hbuilt.knows_object, hcircle,
    ((erasure_goes_its_way p _).2.1 "U").mp hcircle, ht,
    ((erasure_goes_its_way p t).2.2.2 hbuilt.knows_object _ ht).1⟩

end Program

end ClassFile
