import Mathlib
import ClassFile.Proofs.NamesAlike
import ClassFile.Proofs.Nesting
import ClassFile.Signature.Encoding

/-!
# Descriptors factor through erasure

There are two ways from a type to its erased form. Erasure goes to the left
through everything – arrays, variables, bounds, intersections – with one list
of the type parameters that it may still meet. A descriptor is written from
the outside: array brackets first, and only at the first type variable or
intersection is anything erased, with all type parameters still to be met.
The two come to the same: the descriptor of a type is the descriptor of its
erasure, and where there is no erasure the reason is the same
(`Program.typeDescriptor_eq_erasure_bind`).

An erased type has no type arguments, no enclosing types and no annotations,
so none of these can matter; but they stand in the bounds of type parameters
as well. `Program.unadorned` takes them away everywhere at once.

Wildcards are left out. They have an erasure and no descriptor.
-/

namespace ClassFile

/-- Whether a type is a wildcard under any number of array layers. -/
def JavaType.isWildcardArray : JavaType → Bool
  | array c => c.isWildcardArray
  | wildcard | wildcardExtends _ | wildcardSuper _ => true
  | _ => false

/-! ## Layers of arrays

An erased type is an element under a number of layers, and it is also a type.
Both ways of adding layers come to the same, for the type and for the calls
that write it. -/

theorem JavaType.arrays_add (t : JavaType) (m n : Nat) :
    t.arrays (m + n) = (t.arrays n).arrays m := by
  induction m with
  | zero => rw [Nat.zero_add, arrays]
  | succ m ih => rw [Nat.succ_add, arrays, arrays, ih]

theorem ErasedType.under_under (e : ErasedType) (m n : Nat) :
    (e.under m).under n = e.under (n + m) := by
  unfold under
  rw [Nat.add_assoc]

/-- Layers around an erased type are layers around the type. -/
theorem ErasedType.toType_under (e : ErasedType) (n : Nat) :
    (e.under n).toType = e.toType.arrays n := by
  unfold toType under
  cases e.element <;> exact JavaType.arrays_add _ _ _

namespace Program

variable (p : Program)

/-- An array bracket goes ahead of what is erased. -/
theorem erasedCalls_under_one (terminated : Bool) (e : ErasedType) :
    p.erasedCalls terminated (e.under 1)
      = (p.erasedCalls terminated e).map (.arrayType :: ·) := by
  unfold erasedCalls ErasedType.under
  rw [Nat.add_comm 1, List.replicate_succ]
  cases e.element with
  | primitive b => rfl
  | void => rfl
  | declared id =>
    dsimp only
    cases p.internalName id <;> rfl

/-- **An erased type is written as the type it stands for.** By induction on
the layers: each is a bracket in front, and under them is something that is
its own erasure. -/
theorem descriptorCalls_toType (terminated : Bool) (e : ErasedType) :
    p.descriptorCalls terminated e.toType = p.erasedCalls terminated e := by
  obtain ⟨layers, element⟩ := e
  induction layers with
  | zero => cases element <;> rfl
  | succ n ih =>
    have hunder : (⟨n + 1, element⟩ : ErasedType) = (⟨n, element⟩ : ErasedType).under 1 := by
      unfold ErasedType.under
      rw [Nat.add_comm 1]
    rw [hunder, p.erasedCalls_under_one, ErasedType.toType_under, ← ih]
    show p.descriptorCalls terminated (.array _) = _
    rw [descriptorCalls]
    rfl

/-! ## Erasure goes through arrays

The definition of erasure takes the way inside a type in one go. `erasureAt`
is what it does at the end of that way, so that the equation `erasureAmong_eq`
is all that is needed of the definition in what follows. -/

/-- What is erased where the way to the left inside a type ends. -/
def erasureAt (unseen : List TypeParameterId) : Leftmost → Except Error ErasedType
  | .erased e => .ok ⟨0, e⟩
  | .declared id => (p.classOf id).map fun _ => ⟨0, .declared id⟩
  | .typeVariable id =>
    match p.typeParameterOf id with
    | .error e => .error e
    | .ok parameter =>
      if id ∈ unseen then p.erasureAmong (unseen.erase id) parameter.upperBound
      else .error (.cyclicBound parameter.name)

/-- **Erasure splits at the end of the way to the left:** what is found there
goes under the layers that were passed inside the type. -/
theorem erasureAmong_eq (unseen : List TypeParameterId) (t : JavaType) :
    p.erasureAmong unseen t
      = (p.erasureAt unseen t.leftmost.2).map (·.under t.leftmost.1) := by
  rw [erasureAmong]
  obtain ⟨layers, l⟩ := t.leftmost
  cases l with
  | erased e => rfl
  | declared id =>
    show (p.classOf id).map _ = ((p.classOf id).map _).map _
    cases p.classOf id <;> rfl
  | typeVariable id =>
    dsimp only [erasureAt]
    cases p.typeParameterOf id with
    | error e => rfl
    | ok parameter => dsimp only; split <;> rfl

/-- **Erasure depends on the ways to the left:** programs that know the same
classes, and the bounds of whose type parameters lead to the left alike, erase
types alike that do. By recursion on the type parameters that may still be
met. Whatever stands beside the way – arguments, annotations, further bounds –
is in no hypothesis. -/
theorem erasureAmong_congr {p q : Program}
    (hclass : ∀ id, Agree (fun _ _ => True) (p.classOf id) (q.classOf id))
    (hparameter : ∀ id,
      Agree (fun s t => s.name = t.name ∧ s.upperBound.leftmost = t.upperBound.leftmost)
        (p.typeParameterOf id) (q.typeParameterOf id))
    (unseen : List TypeParameterId) {t u : JavaType} (htu : t.leftmost = u.leftmost) :
    p.erasureAmong unseen t = q.erasureAmong unseen u := by
  rw [erasureAmong_eq, erasureAmong_eq, htu]
  refine congrArg (Except.map _) ?_
  cases u.leftmost.2 with
  | erased e => rfl
  | declared id => exact ((hclass id).map fun _ _ _ => rfl).eq
  | typeVariable id =>
    unfold erasureAt
    dsimp only
    -- the type parameter is known to both programs or to neither
    have hid := hparameter id
    generalize p.typeParameterOf id = x at hid ⊢
    generalize q.typeParameterOf id = y at hid ⊢
    cases hid with
    | error e => rfl
    | ok hst =>
      dsimp only
      by_cases h : id ∈ unseen
      · -- one type parameter less may be met from here on
        rw [if_pos h, if_pos h, erasureAmong_congr hclass hparameter (unseen.erase id) hst.2]
      · rw [if_neg h, if_neg h, hst.1]
termination_by unseen.length
decreasing_by
  rw [List.length_erase_of_mem h]
  exact Nat.sub_lt (List.length_pos_of_mem h) Nat.one_pos

/-- **The erasure of an array** is that of its component under one more
layer, and the type parameters met on the way are the same. -/
theorem erasureAmong_array (unseen : List TypeParameterId) (c : JavaType) :
    p.erasureAmong unseen (.array c) = (p.erasureAmong unseen c).map (·.under 1) := by
  rw [erasureAmong_eq, p.erasureAmong_eq unseen c]
  show (p.erasureAt unseen c.leftmost.2).map (·.under (c.leftmost.1 + 1)) = _
  cases p.erasureAt unseen c.leftmost.2 with
  | error e => rfl
  | ok e =>
    show Except.ok (e.under (c.leftmost.1 + 1)) = .ok ((e.under c.leftmost.1).under 1)
    rw [e.under_under, Nat.add_comm]

theorem erasure_array (c : JavaType) :
    p.erasure (.array c) = (p.erasure c).map (·.under 1) :=
  p.erasureAmong_array p.typeParameterIds c

theorem erasure_primitive (b : Primitive) :
    p.erasure (.primitive b) = .ok ⟨0, .primitive b⟩ := by
  unfold erasure
  rw [erasureAmong_eq]
  rfl

theorem erasure_void : p.erasure .void = .ok ⟨0, .void⟩ := by
  unfold erasure
  rw [erasureAmong_eq]
  rfl

theorem erasure_declared (t : ClassType) :
    p.erasure (.declared t) = (p.classOf t.id).map fun _ => ⟨0, .declared t.id⟩ := by
  unfold erasure
  rw [erasureAmong_eq]
  show ((p.classOf t.id).map _).map _ = _
  cases p.classOf t.id <;> rfl

/-! ## Descriptors by way of the erasure

A descriptor is written without asking whether the class is known, only what
it is called. An unknown class is called nothing, for the same reason for
which it has no erasure, so the question makes no difference
(`erasedCalls_declared`). -/

/-- An unknown class has no name, for the same reason. -/
theorem internalName_of_classOf_error {id : ClassId} {e : Error} (h : p.classOf id = .error e) :
    p.internalName id = .error e := by
  unfold internalName nameOf nesting
  rw [outwards_of_unknown h]
  rfl

/-- A class is written as its erasure, even where it has none. -/
theorem erasedCalls_declared (terminated : Bool) (id : ClassId) :
    p.erasedCalls terminated ⟨0, .declared id⟩
      = (p.classOf id).bind fun _ => p.erasedCalls terminated ⟨0, .declared id⟩ := by
  cases h : p.classOf id with
  | error e =>
    unfold erasedCalls
    dsimp only
    rw [p.internalName_of_classOf_error h]
    rfl
  | ok c => rfl

/-- **The calls of a descriptor are those of the erasure,** by recursion on
the array layers. Under them, variables and intersections are erased before
anything is written, so nothing is left to show but for primitive types and
classes. -/
theorem descriptorCalls_eq (terminated : Bool) :
    ∀ t : JavaType, t.isWildcardArray = false →
      p.descriptorCalls terminated t = (p.erasure t).bind (p.erasedCalls terminated)
  | .primitive b, _ => by rw [p.erasure_primitive]; rfl
  | .void, _ => by rw [p.erasure_void]; rfl
  | .array c, h => by
    rw [descriptorCalls, descriptorCalls_eq terminated c h, p.erasure_array]
    cases p.erasure c with
    | error e => rfl
    | ok e => exact (p.erasedCalls_under_one terminated e).symm
  | .declared t, _ => by
    rw [descriptorCalls, p.erasedCalls_declared, p.erasure_declared]
    cases p.classOf t.id <;> rfl
  | .typeVariable _ _, _ => rfl
  | .wildcard, h | .wildcardExtends _, h | .wildcardSuper _, h => absurd h Bool.noConfusion
  | .intersection _, _ => rfl

/-- A wildcard has no descriptor, under whatever layers. -/
theorem descriptorCalls_wildcardArray (terminated : Bool) :
    ∀ t : JavaType, t.isWildcardArray = true →
      p.descriptorCalls terminated t = .error (.unsupported .wildcardOutsideArgument)
  | .array c, h => by
    rw [descriptorCalls, descriptorCalls_wildcardArray terminated c h]
    rfl
  | .wildcard, _ | .wildcardExtends _, _ | .wildcardSuper _, _ => rfl
  | .primitive _, h | .void, h | .declared _, h | .typeVariable _ _, h | .intersection _, h =>
    absurd h Bool.noConfusion

/-- An erased type shows the name of a class at most. -/
theorem NamesAlike.erasedCalls_eq {p q : Program} (h : NamesAlike p q) (terminated : Bool)
    (e : ErasedType) : p.erasedCalls terminated e = q.erasedCalls terminated e := by
  unfold erasedCalls
  simp only [h.internalName_eq]

/-- **Descriptors depend on erasures:** in programs that name things alike,
types of one erasure have one descriptor, wildcards apart. This is how
statements about erasures become statements about descriptors. -/
theorem NamesAlike.descriptorCalls_congr {p q : Program} (h : NamesAlike p q) (terminated : Bool)
    {t u : JavaType} (hwildcard : t.isWildcardArray = u.isWildcardArray)
    (herasure : p.erasure t = q.erasure u) :
    p.descriptorCalls terminated t = q.descriptorCalls terminated u := by
  cases hu : u.isWildcardArray with
  | true =>
    rw [p.descriptorCalls_wildcardArray _ t (hwildcard.trans hu),
      q.descriptorCalls_wildcardArray _ u hu]
  | false =>
    rw [p.descriptorCalls_eq _ t (hwildcard.trans hu), q.descriptorCalls_eq _ u hu, herasure]
    exact congrArg (Except.bind _) (funext fun e => h.erasedCalls_eq terminated e)

end Program

/-! ## Types without adornments

Adornments are whatever erasure does not look at: arguments, enclosing types
and annotations. They are taken away in a whole program at once, since the way
of an erasure passes through bounds, and a program without them erases types
to the same. -/

mutual

/-- **A type without adornments:** every use of a class is a mere class, and
nothing is annotated. -/
def JavaType.unadorned : JavaType → JavaType
  | .primitive b => .primitive b
  | .void => .void
  | .array c => .array c.unadorned
  | .declared t => .declared (.plain t.id)
  | .typeVariable id _ => .typeVariable id []
  | .wildcard => .wildcard
  | .wildcardExtends bound => .wildcardExtends bound.unadorned
  | .wildcardSuper bound => .wildcardSuper bound.unadorned
  | .intersection members => .intersection (JavaType.allUnadorned members)

/-- Types without adornments. -/
def JavaType.allUnadorned : List JavaType → List JavaType
  | [] => []
  | t :: ts => t.unadorned :: JavaType.allUnadorned ts

end

/-- A type parameter whose bounds are without adornments. -/
def TypeParameter.unadorned (t : TypeParameter) : TypeParameter :=
  { t with
    upperBound := t.upperBound.unadorned
    lowerBound := t.lowerBound.map JavaType.unadorned
    annotations := [] }

/-- A program in which no bound has an adornment. -/
def Program.unadorned (p : Program) : Program :=
  { p with typeParameters := p.typeParameters.map TypeParameter.unadorned }

/-- The way to the left passes no adornment. -/
theorem JavaType.leftmost_unadorned : ∀ t : JavaType, t.unadorned.leftmost = t.leftmost
  | .primitive _ | .void | .declared _ | .typeVariable _ _ => rfl
  | .array c => by rw [unadorned, leftmost, leftmost, leftmost_unadorned c]
  | .wildcard | .wildcardSuper _ | .intersection [] => rfl
  | .wildcardExtends bound => by rw [unadorned, leftmost, leftmost, leftmost_unadorned bound]
  | .intersection (first :: others) => by
    rw [unadorned, allUnadorned, leftmost, leftmost, leftmost_unadorned first]

theorem JavaType.isWildcardArray_unadorned :
    ∀ t : JavaType, t.unadorned.isWildcardArray = t.isWildcardArray
  | .array c => by
    rw [unadorned, isWildcardArray, isWildcardArray, isWildcardArray_unadorned c]
  | .primitive _ | .void | .declared _ | .typeVariable _ _ | .wildcard | .wildcardExtends _
  | .wildcardSuper _ | .intersection _ => rfl

namespace Program

variable (p : Program)

theorem typeParameterIds_unadorned : p.unadorned.typeParameterIds = p.typeParameterIds := by
  unfold typeParameterIds unadorned
  rw [Array.size_map]

theorem typeParameterOf_unadorned (id : TypeParameterId) :
    p.unadorned.typeParameterOf id = (p.typeParameterOf id).map TypeParameter.unadorned := by
  unfold typeParameterOf unadorned
  rw [Array.getElem?_map]
  cases p.typeParameters[id.index]? <;> rfl

/-- Adornments have nothing to do with names. -/
theorem namesAlike_unadorned : NamesAlike p.unadorned p where
  size := rfl
  classOf id := (Agree.refl (p.classOf id)).mono fun _ _ h => h ▸ ⟨rfl, rfl, rfl, rfl⟩
  typeParameterOf id := by
    rw [p.typeParameterOf_unadorned]
    cases p.typeParameterOf id with
    | error e => exact .error e
    | ok parameter => exact .ok rfl

/-- **Erasure sees no adornment,** neither on the type nor on the bounds that
it passes: the ways to the left are the same with them and without. -/
theorem erasureAmong_unadorned (unseen : List TypeParameterId) (t : JavaType) :
    p.unadorned.erasureAmong unseen t.unadorned = p.erasureAmong unseen t := by
  refine erasureAmong_congr (fun id => ?_) (fun id => ?_) unseen t.leftmost_unadorned
  · exact (Agree.refl (p.classOf id)).mono fun _ _ _ => trivial
  · rw [p.typeParameterOf_unadorned]
    cases p.typeParameterOf id with
    | error e => exact .error e
    | ok parameter => exact .ok ⟨rfl, parameter.upperBound.leftmost_unadorned⟩

theorem erasure_unadorned (t : JavaType) : p.unadorned.erasure t.unadorned = p.erasure t := by
  unfold erasure
  rw [p.typeParameterIds_unadorned, p.erasureAmong_unadorned]

/-- **A descriptor shows no adornment.** -/
theorem descriptorCalls_unadorned (terminated : Bool) (t : JavaType) :
    p.unadorned.descriptorCalls terminated t.unadorned = p.descriptorCalls terminated t :=
  p.namesAlike_unadorned.descriptorCalls_congr terminated t.isWildcardArray_unadorned
    (p.erasure_unadorned t)

/-! ## The descriptor of a type -/

/-- **Descriptors factor through erasure.** The descriptor of a type that is
no wildcard is the descriptor of its erasure, or there is none because there
is no erasure. Hence type arguments, enclosing types and annotations, on the
type or on a bound, are never seen in it. -/
theorem typeDescriptor_eq_erasure_bind (t : JavaType) (h : t.isWildcardArray = false) :
    p.typeDescriptor t = (p.erasure t).bind (fun e => p.typeDescriptor e.toType)
      ∧ p.typeDescriptor t = p.unadorned.typeDescriptor t.unadorned := by
  constructor
  · show (p.descriptorCalls true t).map Signature.textOf = _
    rw [p.descriptorCalls_eq true t h]
    cases p.erasure t with
    | error e => rfl
    | ok e =>
      show (p.erasedCalls true e).map _ = (p.descriptorCalls true e.toType).map _
      rw [p.descriptorCalls_toType]
  · show (p.descriptorCalls true t).map _ = (p.unadorned.descriptorCalls true _).map _
    rw [p.descriptorCalls_unadorned]

/-- An array of a variable whose bound is a variable whose bound is an array:
three ways of going on, and the layers add up. -/
theorem typeDescriptor_eq_erasure_bind_arrays :
    let p : Program := { Program.initial with
      typeParameters :=
        #[⟨"T", .typeVariable ⟨1⟩ [], none, []⟩,
          ⟨"U", .intersection [.array (.declared ⟨⟨.string, [.wildcard], []⟩, []⟩)], none, []⟩] }
    let t : JavaType := .array (.typeVariable ⟨0⟩ [])
    t.isWildcardArray = false
      ∧ (p.typeDescriptor t = (p.erasure t).bind (fun e => p.typeDescriptor e.toType)
        ∧ p.typeDescriptor t = p.unadorned.typeDescriptor t.unadorned)
      ∧ p.typeDescriptor t = .ok "[[Ljava/lang/String;" :=
  ⟨rfl, typeDescriptor_eq_erasure_bind _ _ rfl, by cbv⟩

end Program

end ClassFile
