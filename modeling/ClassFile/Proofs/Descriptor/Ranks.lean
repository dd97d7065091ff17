import ClassFile.Descriptor.Order
import ClassFile.Proofs.Descriptor.MethodText
import Mathlib.Data.List.Lex
import Mathlib.Data.Prod.Lex
import Mathlib.Data.Sum.Order
import Mathlib.Order.WithBot

/-!
# The order of descriptors is lexicographic

Descriptors are compared constructor by constructor, and what comes of that is not
said anywhere in the definition: that the number of array layers decides before
anything else. Here it is said by a rank. The rank of a field descriptor is the
number of its layers and the rank of the element under them; that of an element is
its position among the primitive types or, behind all of these, the bytes of its
name. The rank of a method is the list of the ranks of its parameters and the rank
of what it returns, behind all of which there is that of nothing.

Ranks are ordered as pairs, sums and lists are, lexicographically, so they are
totally ordered. Descriptors are compared as their ranks are
(`FieldDescriptor.compare_compares_rank`, `MethodDescriptor.compare_compares_rank`), and
different descriptors have different ranks.
-/

namespace ClassFile

/-! ## Comparing lexicographically

`Ordering.Compares` joins what comparing yields with how two ranks are
ordered. It is kept by pairs and lists, which is all that ranks are made of;
and where comparing is comparing ranks, it inherits that their order is
total. -/

section

variable {α β ι : Type} [LT α] [LT β] {o o' : Ordering}

/-- Pairs are compared by what is first in them, and else by what is second. -/
theorem compares_toLex {a c : α} {b d : β} (h : o.Compares a c) (h' : o'.Compares b d) :
    (o.then o').Compares (toLex (a, b)) (toLex (c, d)) := by
  cases o with
  | lt => exact Prod.Lex.toLex_lt_toLex.mpr (.inl h)
  | gt => exact Prod.Lex.toLex_lt_toLex.mpr (.inl h)
  | eq =>
    obtain rfl : a = c := h
    cases o' with
    | lt => exact Prod.Lex.toLex_lt_toLex.mpr (.inr ⟨rfl, h'⟩)
    | eq => exact congrArg (fun x => toLex (a, x)) h'
    | gt => exact Prod.Lex.toLex_lt_toLex.mpr (.inr ⟨rfl, h'⟩)

/-- Lists are compared by what is first in them, and else by what follows. -/
theorem compares_cons {a c : α} {as cs : List α} (h : o.Compares a c) (h' : o'.Compares as cs) :
    (o.then o').Compares (a :: as) (c :: cs) := by
  cases o with
  | lt => exact List.Lex.rel h
  | gt => exact List.Lex.rel h
  | eq =>
    obtain rfl : a = c := h
    cases o' with
    | lt => exact List.Lex.cons h'
    | eq => exact congrArg (List.cons a) h'
    | gt => exact List.Lex.cons h'

/-- **Lists are compared as the lists of ranks are** where their items are compared
as the ranks are. -/
theorem compares_map {compareItems : ι → ι → Ordering} {rank : ι → α}
    (h : ∀ x y, (compareItems x y).Compares (rank x) (rank y)) (xs ys : List ι) :
    (List.compareLex compareItems xs ys).Compares (xs.map rank) (ys.map rank) := by
  induction xs generalizing ys with
  | nil =>
    cases ys with
    | nil => exact (rfl : ([] : List α) = [])
    | cons y ys => exact (List.Lex.nil : ([] : List α) < rank y :: ys.map rank)
  | cons x xs ih =>
    cases ys with
    | nil => exact (List.Lex.nil : ([] : List α) < rank x :: xs.map rank)
    | cons y ys =>
      rw [List.compareLex_cons_cons]
      exact compares_cons (h x y) (ih ys)

end

section

variable {α β : Type} [Ord α] [LinearOrder β] {rank : α → β}

/-- **What is compared as ranks are is compared in a total order.** -/
theorem transOrd_of_compares (h : ∀ x y, (compare x y).Compares (rank x) (rank y)) :
    Std.TransOrd α where
  eq_swap {x y} := (h x y).inj (Ordering.compares_swap.mpr (h y x))
  isLE_trans {x y z} hxy hyz := by
    rw [← Ordering.ne_gt_iff_isLE] at hxy hyz ⊢
    exact (h x z).ne_gt.mpr (((h x y).ne_gt.mp hxy).trans ((h y z).ne_gt.mp hyz))

/-- If different things have different ranks, a thing is equal only to itself. -/
theorem lawfulEqOrd_of_compares (h : ∀ x y, (compare x y).Compares (rank x) (rank y))
    (hrank : Function.Injective rank) : Std.LawfulEqOrd α where
  compare_self {x} := (h x x).eq_eq.mpr rfl
  eq_of_compare {x y} hxy := hrank ((h x y).eq_eq.mp hxy)

end

/-! ## Ranks of elements

The order of the primitive types is the one in which they are declared, and
not that of their letters. Names are compared by their bytes. -/

namespace Primitive

/-- The primitive types in the order in which they are declared. -/
def declared : List Primitive := [boolean, char, float, double, byte, short, int, long]

/-- The position of a primitive type. -/
def position (p : Primitive) : ℕ := declared.idxOf p

theorem position_injective : Function.Injective position := by
  intro p q h
  have hmem : p ∈ declared := by cases p <;> decide
  exact (List.idxOf_inj hmem).mp h

theorem compare_compares_position (p q : Primitive) :
    (compare p q).Compares p.position q.position := by
  have h : compare p q = cmp p.position q.position := by cases p <;> cases q <;> rfl
  rw [h]
  exact cmp_compares _ _

end Primitive

/-- The bytes of a name. -/
def nameBytes (name : String) : List ℕ := name.toUTF8.data.toList.map UInt8.toNat

/-- Bytes are compared as the numbers that they stand for. -/
theorem compare_compares_toNat (x y : UInt8) : (compare x y).Compares x.toNat y.toNat := by
  show (compareOfLessAndEq x y).Compares x.toNat y.toNat
  unfold compareOfLessAndEq
  split
  · next hlt => exact UInt8.lt_iff_toNat_lt.mp hlt
  · next hlt =>
    split
    · next heq => exact congrArg UInt8.toNat heq
    · next hne =>
      rw [UInt8.lt_iff_toNat_lt] at hlt
      rw [← UInt8.toNat_inj] at hne
      exact lt_of_le_of_ne (Nat.le_of_not_lt hlt) (Ne.symm hne)

/-- **Names are compared by their bytes.** -/
theorem compareNames_compares (m n : String) :
    (compareNames m n).Compares (nameBytes m) (nameBytes n) :=
  compares_map compare_compares_toNat _ _

theorem nameBytes_injective : Function.Injective nameBytes := by
  intro m n h
  have hlist := List.map_injective_iff.mpr (fun _ _ => UInt8.toNat_inj.mp) h
  exact String.toByteArray_inj.mp (ByteArray.ext (Array.toList_inj.mp hlist))

/-- The rank of an element: primitive types come before all names. -/
abbrev ElementRank := ℕ ⊕ₗ List ℕ

/-- **The rank of an element:** the position of a primitive type or the bytes of the
name of a class. -/
def elementRank (e : Primitive ⊕ String) : ElementRank :=
  toLex (e.map Primitive.position nameBytes)

theorem elementRank_injective : Function.Injective elementRank :=
  toLex.injective.comp
    (Sum.map_injective.mpr ⟨Primitive.position_injective, nameBytes_injective⟩)

/-! ## Ranks of fields

Two descriptors with different numbers of layers are compared where the first
of them has no layer left: an element comes before an array. So the number
decides first, and the rank says so by having it in front. -/

/-- The rank of a field descriptor. -/
abbrev FieldRank := ℕ ×ₗ ElementRank

namespace FieldDescriptor

/-- A primitive type or a class as a descriptor. -/
def ofElement : Primitive ⊕ String → FieldDescriptor := Sum.elim base object

/-- How many array types there are around the element. -/
def layers : FieldDescriptor → ℕ
  | base _ | object _ => 0
  | array c => c.layers + 1

/-- What is under all array types. -/
def element : FieldDescriptor → Primitive ⊕ String
  | base p => .inl p
  | object name => .inr name
  | array c => c.element

/-- **A descriptor is its layers around its element.** -/
theorem arrays_element (t : FieldDescriptor) : (ofElement t.element).arrays t.layers = t := by
  induction t with
  | base p => rfl
  | object name => rfl
  | array c ih => exact congrArg array ih

theorem layers_arrays (e : Primitive ⊕ String) (n : ℕ) : ((ofElement e).arrays n).layers = n := by
  induction n with
  | zero => cases e <;> rfl
  | succ n ih => exact congrArg (· + 1) ih

theorem element_arrays (e : Primitive ⊕ String) (n : ℕ) :
    ((ofElement e).arrays n).element = e := by
  induction n with
  | zero => cases e <;> rfl
  | succ n ih => exact ih

/-- **The rank of a field descriptor:** the number of its layers and the rank of its
element. -/
def rank (t : FieldDescriptor) : FieldRank := toLex (t.layers, elementRank t.element)

theorem rank_injective : Function.Injective rank := by
  intro t u h
  obtain ⟨hlayers, helement⟩ := Prod.mk.inj (toLex.injective h)
  rw [← t.arrays_element, ← u.arrays_element, hlayers, elementRank_injective helement]

theorem rank_arrays (e : Primitive ⊕ String) (n : ℕ) :
    ((ofElement e).arrays n).rank = toLex (n, elementRank e) := by
  unfold rank
  rw [layers_arrays, element_arrays]

/-- Fewer layers come first. -/
theorem rank_lt_rank_of_layers_lt {t u : FieldDescriptor} (h : t.layers < u.layers) :
    t.rank < u.rank :=
  Prod.Lex.toLex_lt_toLex.mpr (.inl h)

/-- With as many layers the elements decide. -/
theorem compares_rank_of_layers_eq {o : Ordering} {t u : FieldDescriptor}
    (hlayers : t.layers = u.layers)
    (h : o.Compares (elementRank t.element) (elementRank u.element)) :
    o.Compares t.rank u.rank :=
  compares_toLex (o := .eq) hlayers h

/-- One more layer around both changes nothing. -/
theorem compares_rank_array {o : Ordering} {t u : FieldDescriptor}
    (h : o.Compares t.rank u.rank) : o.Compares (array t).rank (array u).rank := by
  -- one layer more is a strictly monotone function of ranks, and these keep comparisons
  have hlayer : StrictMono fun x : FieldRank =>
      (toLex ((ofLex x).1 + 1, (ofLex x).2) : FieldRank) := by
    intro x y hxy
    rw [Prod.Lex.toLex_lt_toLex]
    rcases Prod.Lex.lt_iff.mp hxy with hlt | ⟨heq, hlt⟩
    · exact .inl (Nat.succ_lt_succ hlt)
    · exact .inr ⟨congrArg (· + 1) heq, hlt⟩
  exact hlayer.compares.mpr h

/-- **Fields are compared as their ranks are,** by induction on the layers: where both
have one it does not matter, and a layer comes behind all elements. -/
theorem compare_compares_rank (t u : FieldDescriptor) : (compare t u).Compares t.rank u.rank := by
  induction t generalizing u with
  | base p =>
    cases u with
    | base q =>
      have helement := (Sum.Lex.inl_strictMono (β := List ℕ)).compares.mpr
        (p.compare_compares_position q)
      exact compares_rank_of_layers_eq rfl helement
    | object n => exact compares_rank_of_layers_eq (o := .lt) rfl (Sum.Lex.inl_lt_inr _ _)
    -- whatever is in the array, it has more layers than an element
    | array d => exact rank_lt_rank_of_layers_lt d.layers.succ_pos
  | object m =>
    cases u with
    | base q => exact compares_rank_of_layers_eq (o := .gt) rfl (Sum.Lex.inl_lt_inr _ _)
    | object n =>
      have helement := (Sum.Lex.inr_strictMono (α := ℕ)).compares.mpr (compareNames_compares m n)
      exact compares_rank_of_layers_eq rfl helement
    | array d => exact rank_lt_rank_of_layers_lt d.layers.succ_pos
  | array c ih =>
    cases u with
    | base q => exact rank_lt_rank_of_layers_lt (t := base q) c.layers.succ_pos
    | object n => exact rank_lt_rank_of_layers_lt (t := object n) c.layers.succ_pos
    | array d => exact compares_rank_array (ih d)

end FieldDescriptor

/-! ## Ranks of methods -/

/-- **The rank of what a method returns:** nothing comes behind every value. -/
def ReturnDescriptor.rank : ReturnDescriptor → WithTop FieldRank
  | value t => t.rank
  | void => ⊤

/-- The rank of a method. -/
abbrev MethodRank := List FieldRank ×ₗ WithTop FieldRank

/-- **The rank of a method:** those of its parameters and of what it returns. -/
def MethodDescriptor.rank (d : MethodDescriptor) : MethodRank :=
  toLex (d.parameters.map FieldDescriptor.rank, d.result.rank)

theorem ReturnDescriptor.rank_injective : Function.Injective ReturnDescriptor.rank := by
  intro r s h
  cases r with
  | void =>
    cases s with
    | void => rfl
    | value u => exact absurd h WithTop.top_ne_coe
  | value t =>
    cases s with
    | void => exact absurd h WithTop.coe_ne_top
    | value u => exact congrArg value (FieldDescriptor.rank_injective (WithTop.coe_injective h))

/-- What is returned is compared as ranks are, and nothing comes behind every
value. -/
theorem ReturnDescriptor.compare_compares_rank (r s : ReturnDescriptor) :
    (compare r s).Compares r.rank s.rank := by
  cases r with
  | void =>
    cases s with
    | void => exact (rfl : (⊤ : WithTop FieldRank) = ⊤)
    | value u => exact WithTop.coe_lt_top u.rank
  | value t =>
    cases s with
    | void => exact WithTop.coe_lt_top t.rank
    | value u => exact WithTop.coe_strictMono.compares.mpr (t.compare_compares_rank u)

theorem MethodDescriptor.rank_injective : Function.Injective MethodDescriptor.rank := by
  intro d e h
  obtain ⟨hparameters, hresult⟩ := Prod.mk.inj (toLex.injective h)
  obtain ⟨ps, r⟩ := d
  obtain ⟨qs, s⟩ := e
  obtain rfl := List.map_injective_iff.mpr FieldDescriptor.rank_injective hparameters
  obtain rfl := ReturnDescriptor.rank_injective hresult
  rfl

/-- **Methods are compared as their ranks are.** -/
theorem MethodDescriptor.compare_compares_rank (d e : MethodDescriptor) :
    (compare d e).Compares d.rank e.rank :=
  compares_toLex (compares_map FieldDescriptor.compare_compares_rank _ _)
    (d.result.compare_compares_rank e.result)

/-! ## A total order

That comparing is transitive, and yields equality of a descriptor with itself
only, is inherited from the ranks: they are totally ordered, and distinct. -/

instance : Std.TransOrd FieldDescriptor :=
  transOrd_of_compares FieldDescriptor.compare_compares_rank

instance : Std.LawfulEqOrd FieldDescriptor :=
  lawfulEqOrd_of_compares FieldDescriptor.compare_compares_rank FieldDescriptor.rank_injective

instance : Std.TransOrd MethodDescriptor :=
  transOrd_of_compares MethodDescriptor.compare_compares_rank

instance : Std.LawfulEqOrd MethodDescriptor :=
  lawfulEqOrd_of_compares MethodDescriptor.compare_compares_rank MethodDescriptor.rank_injective

/-- Well-named descriptors are told apart by their texts. -/
theorem FieldDescriptor.text_inj {t u : FieldDescriptor} (ht : t.IsWellNamed)
    (hu : u.IsWellNamed) : t.text = u.text ↔ t = u := by
  refine ⟨fun h => ?_, congrArg text⟩
  exact Except.ok.inj ((read_eq_ok_iff.mpr ⟨h, ht⟩).symm.trans (read_eq_ok_iff.mpr ⟨rfl, hu⟩))

/-- So are methods. -/
theorem MethodDescriptor.text_inj {d e : MethodDescriptor} (hd : d.IsWellNamed)
    (he : e.IsWellNamed) : d.text = e.text ↔ d = e := by
  refine ⟨fun h => ?_, congrArg text⟩
  exact Except.ok.inj ((read_eq_ok_iff.mpr ⟨h, hd⟩).symm.trans (read_eq_ok_iff.mpr ⟨rfl, he⟩))

open FieldDescriptor (ofElement) in
/-- **Descriptors are ordered lexicographically.** A field descriptor is in one way an
element under some layers. Fields are compared by the number of layers and then by
the element, so fewer layers come first, whatever the elements are; methods are
compared by their parameters, of which a proper initial part comes first, and then by
what they return, of which nothing comes last. Both are total orders in which only a
descriptor itself is equal to it, and if its classes have names that a descriptor can
hold, only a descriptor of the same text. -/
theorem descriptors_ordered_lexicographically :
    (∀ t : FieldDescriptor,
        ∃! x : ℕ × (Primitive ⊕ String), t = (ofElement x.2).arrays x.1)
      ∧ (∀ (m n : ℕ) (e f : Primitive ⊕ String),
        (compare ((ofElement e).arrays m) ((ofElement f).arrays n)).Compares
          (toLex (m, elementRank e)) (toLex (n, elementRank f)))
      ∧ (∀ (m n : ℕ) (e f : Primitive ⊕ String), m < n →
        compare ((ofElement e).arrays m) ((ofElement f).arrays n) = .lt)
      ∧ (∀ d e : MethodDescriptor, (compare d e).Compares
        (toLex (d.parameters.map FieldDescriptor.rank, d.result.rank))
        (toLex (e.parameters.map FieldDescriptor.rank, e.result.rank)))
      ∧ (Std.TransOrd FieldDescriptor ∧ Std.LawfulEqOrd FieldDescriptor)
      ∧ (Std.TransOrd MethodDescriptor ∧ Std.LawfulEqOrd MethodDescriptor)
      ∧ (∀ t u : FieldDescriptor, t.IsWellNamed → u.IsWellNamed →
        (compare t u = .eq ↔ t.text = u.text))
      ∧ ∀ d e : MethodDescriptor, d.IsWellNamed → e.IsWellNamed →
        (compare d e = .eq ↔ d.text = e.text) := by
  -- the third part is a case of this one, so it comes first
  have hfields : ∀ (m n : ℕ) (e f : Primitive ⊕ String),
      (compare ((ofElement e).arrays m) ((ofElement f).arrays n)).Compares
        (toLex (m, elementRank e)) (toLex (n, elementRank f)) := by
    intro m n e f
    rw [← FieldDescriptor.rank_arrays, ← FieldDescriptor.rank_arrays]
    exact FieldDescriptor.compare_compares_rank _ _
  refine ⟨fun t => ⟨(t.layers, t.element), t.arrays_element.symm, fun x hx => ?_⟩, hfields,
    fun m n e f hlt => ?_, MethodDescriptor.compare_compares_rank,
    ⟨inferInstance, inferInstance⟩, ⟨inferInstance, inferInstance⟩, fun t u ht hu => ?_,
    fun d e hd he => ?_⟩
  · rw [hx, FieldDescriptor.layers_arrays, FieldDescriptor.element_arrays]
  · exact (hfields m n e f).eq_lt.mpr (Prod.Lex.toLex_lt_toLex.mpr (.inl hlt))
  · rw [Std.LawfulEqOrd.compare_eq_iff_eq, FieldDescriptor.text_inj ht hu]
  · rw [Std.LawfulEqOrd.compare_eq_iff_eq, MethodDescriptor.text_inj hd he]

/-- A class in an array comes before an array of arrays of a primitive type, and a
method that returns nothing before one that has one more parameter. -/
theorem descriptors_ordered_lexicographically_layers :
    let t : FieldDescriptor := .array (.object "é")
    let u : FieldDescriptor := .array (.array (.base .boolean))
    let d : MethodDescriptor := ⟨[t], .void⟩
    let e : MethodDescriptor := ⟨[t, u], .value t⟩
    t.IsWellNamed ∧ u.IsWellNamed ∧ d.IsWellNamed ∧ e.IsWellNamed
      ∧ compare t u = .lt ∧ t.text ≠ u.text
      ∧ compare d e = .lt ∧ d.text ≠ e.text := by
  intro t u d e
  obtain ⟨-, -, hlayers, -, -, -, htext, htext'⟩ := descriptors_ordered_lexicographically
  have ht : t.IsWellNamed := by decide
  have hu : u.IsWellNamed := by decide
  have hd : d.IsWellNamed := ⟨List.forall_mem_singleton.mpr ht, trivial⟩
  have he : e.IsWellNamed := ⟨List.forall_mem_cons.mpr ⟨ht, List.forall_mem_singleton.mpr hu⟩, ht⟩
  have hlt : compare t u = .lt := hlayers 1 2 (.inr "é") (.inl .boolean) (by decide)
  have hlt' : compare d e = .lt := by decide +kernel
  refine ⟨ht, hu, hd, he, hlt, fun h => ?_, hlt', fun h => ?_⟩
  · exact absurd (hlt.symm.trans ((htext t u ht hu).mpr h)) (by decide)
  · exact absurd (hlt'.symm.trans ((htext' d e hd he).mpr h)) (by decide)

end ClassFile
