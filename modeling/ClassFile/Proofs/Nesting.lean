import Mathlib.Data.List.Nodup
import Mathlib.Data.List.Perm.Subperm
import Mathlib.Logic.Relation
import ClassFile.Proofs.Names

/-!
# The names of nested classes

A climb from a class to the ones around it is given as many steps as the
program has classes. That is always enough for a climb that ends, because such
a climb meets no class twice: each class that it passes lies at a height of its
own, the number of classes from there outwards. So the climb collects no more
classes than there are, whatever number of steps it was given
(`Program.length_le_of_outwards`).

A climb that runs out of so many steps has passed more classes than there are, so
one of them twice: it leads to a class that lies within itself
(`Program.exists_circle_of_selfNesting`), and would run out of any number of steps.

It follows that a class has a name as soon as the class that it is nested in
has one, and that the one name continues the other
(`Program.nameOf_of_enclosing`). Without the count this could fail for the last
class of a program that uses all its classes in a single chain.
-/

namespace ClassFile

/-- **A further class continues a name.** -/
theorem NameStyle.spell_concat (style : NameStyle) {chain : List ClassDeclaration}
    (hne : chain ≠ []) (c : ClassDeclaration) :
    style.spell (chain ++ [c]) = style.spell chain ++ style.nestingSeparator ++ c.simpleName := by
  obtain ⟨outermost, inner, rfl⟩ := List.exists_cons_of_ne_nil hne
  have hnames : style.nestingSeparator.intercalate ((outermost :: inner ++ [c]).map (·.simpleName))
      = style.nestingSeparator.intercalate ((outermost :: inner).map (·.simpleName))
        ++ style.nestingSeparator ++ c.simpleName := by
    rw [List.map_append, String.intercalate_append_of_ne_nil (by simp) (by simp)]
    exact congrArg _ String.intercalate_singleton
  rw [List.cons_append, spell_cons, spell_cons, ← List.cons_append, hnames]
  simp only [String.append_assoc]

namespace Program

variable {p : Program} {m n : Nat} {id outer : ClassId} {c : ClassDeclaration}
variable {chain : List ClassDeclaration}

/-! ## Climbing

A climb has three ways to end: the class is unknown, the class is an outermost
one, or the steps are used up. How many steps it was given is in every fact
below, and they come to this: for a climb that ends, the number of classes is
enough. -/

/-- From an unknown class nothing climbs. -/
theorem outwards_of_unknown {e : Error} (h : p.classOf id = .error e) :
    p.outwards n id = .error e := by
  cases n <;> · rw [outwards, h]; rfl

/-- A climb from a nested class goes on from the class around it. -/
theorem outwards_of_enclosing (hc : p.classOf id = .ok c) (ho : c.enclosing = some outer) :
    p.outwards (n + 1) id = do return c :: (← p.outwards n outer) := by
  simp only [outwards, hc, ho, bind, Except.bind]

/-- What a climb that ends consists of. -/
theorem outwards_succ_ok (h : p.outwards (n + 1) id = .ok chain) :
    ∃ c, p.classOf id = .ok c ∧ (c.enclosing = none ∧ chain = [c]
      ∨ ∃ outer further, c.enclosing = some outer ∧ p.outwards n outer = .ok further
        ∧ chain = c :: further) := by
  obtain ⟨c, hc, h⟩ := bind_eq_ok h
  refine ⟨c, hc, ?_⟩
  cases ho : c.enclosing with
  | none =>
    rw [ho] at h
    exact .inl ⟨rfl, (Except.ok.inj h).symm⟩
  | some outer =>
    rw [ho] at h
    obtain ⟨further, hf, h⟩ := bind_pure_eq_ok h
    exact .inr ⟨outer, further, rfl, hf, h.symm⟩

theorem outwards_zero_ne_ok : p.outwards 0 id ≠ .ok chain := by
  intro h
  obtain ⟨_, _, h⟩ := bind_eq_ok h
  cases h

/-- **A climb that ends needs as many steps as it collects classes,** and more
steps change nothing. By induction on the steps that it was given; the number
of them in the end may be more or fewer than that. -/
theorem outwards_of_length_le (h : p.outwards m id = .ok chain) (hn : chain.length ≤ n) :
    p.outwards n id = .ok chain := by
  induction m generalizing n id chain with
  | zero => exact absurd h outwards_zero_ne_ok
  | succ m ih =>
    obtain ⟨c, hc, ⟨ho, rfl⟩ | ⟨outer, further, ho, hf, rfl⟩⟩ := outwards_succ_ok h
    · obtain ⟨k, rfl⟩ := Nat.exists_eq_succ_of_ne_zero (Nat.one_le_iff_ne_zero.mp hn)
      simp only [outwards, hc, ho, bind, Except.bind]
      rfl
    · obtain ⟨k, rfl⟩ := Nat.exists_eq_succ_of_ne_zero (Nat.ne_zero_of_lt hn)
      rw [outwards_of_enclosing hc ho, ih hf (Nat.le_of_succ_le_succ hn)]
      rfl

/-- Two climbs from one class that both end are the same. -/
theorem outwards_unique {further : List ClassDeclaration} (h : p.outwards m id = .ok chain)
    (h' : p.outwards n id = .ok further) : chain = further := by
  have hm := outwards_of_length_le h (Nat.le_max_left chain.length further.length)
  have hn := outwards_of_length_le h' (Nat.le_max_right chain.length further.length)
  exact Except.ok.inj (hm.symm.trans hn)

/-- **A climb that ends passes different classes.** From each of them the
climb ends too, and none but the first lies as high as that one. -/
theorem exists_ids_of_outwards (h : p.outwards m id = .ok chain) :
    ∃ ids : List ClassId, ids.length = chain.length ∧ ids.Nodup ∧
      ∀ i ∈ ids, i.index < p.classes.size ∧
        ∃ n further, p.outwards n i = .ok further ∧ further.length ≤ chain.length := by
  induction m generalizing id chain with
  | zero => exact absurd h outwards_zero_ne_ok
  | succ m ih =>
    obtain ⟨c, hc, ⟨ho, rfl⟩ | ⟨outer, further, ho, hf, rfl⟩⟩ := outwards_succ_ok h
    · refine ⟨[id], rfl, List.nodup_singleton id, fun i hi => ?_⟩
      rw [List.mem_singleton.mp hi]
      exact ⟨index_lt_of_classOf hc, m + 1, [c], h, Nat.le_refl _⟩
    · obtain ⟨ids, hlength, hnodup, hids⟩ := ih hf
      refine ⟨id :: ids, congrArg (· + 1) hlength, List.nodup_cons.mpr ⟨fun hid => ?_, hnodup⟩,
        List.forall_mem_cons.mpr ⟨⟨index_lt_of_classOf hc, m + 1, _, h, Nat.le_refl _⟩,
          fun i hi => ?_⟩⟩
      · -- met again further out, the class would be at two heights
        obtain ⟨_, n, lower, hlower, hle⟩ := hids id hid
        rw [← outwards_unique h hlower] at hle
        exact absurd hle (Nat.not_succ_le_self _)
      · obtain ⟨hi, n, lower, hlower, hle⟩ := hids i hi
        exact ⟨hi, n, lower, hlower, Nat.le_succ_of_le hle⟩

/-- Different classes are no more than there are. Handles are compared by
their indices, which are below the number of classes. -/
theorem length_le_of_nodup {ids : List ClassId} (hnodup : ids.Nodup)
    (h : ∀ i ∈ ids, i.index < p.classes.size) : ids.length ≤ p.classes.size := by
  have hinjective : Function.Injective ClassId.index := fun i j e => by
    cases i
    cases j
    exact congrArg ClassId.mk e
  have hsubset : ids.map ClassId.index ⊆ List.range p.classes.size := by
    intro k hk
    obtain ⟨i, hi, rfl⟩ := List.mem_map.mp hk
    exact List.mem_range.mpr (h i hi)
  have hle := (List.subperm_of_subset (hnodup.map hinjective) hsubset).length_le
  rwa [List.length_map, List.length_range] at hle

/-- **A climb that ends collects no more classes than there are.** -/
theorem length_le_of_outwards (h : p.outwards m id = .ok chain) :
    chain.length ≤ p.classes.size := by
  obtain ⟨ids, hlength, hnodup, hids⟩ := exists_ids_of_outwards h
  rw [← hlength]
  exact length_le_of_nodup hnodup fun i hi => (hids i hi).1

/-! ## Climbs that run out of steps

`NestedIn` goes from a class to the one that it is declared to lie in, and a
circle in it is what a climb can run into. The climb does not notice the
circle, it only runs out of steps, so both directions go by way of their
number. -/

/-- A class is declared to lie in another one. -/
def NestedIn (p : Program) (id outer : ClassId) : Prop :=
  ∃ c, p.classOf id = .ok c ∧ c.enclosing = some outer

/-- Without steps a climb runs out of them at once. -/
theorem outwards_zero_of_known (h : p.classOf id = .ok c) :
    p.outwards 0 id = .error (.unsupported .selfNesting) := by
  rw [outwards, h]
  rfl

/-- A climb that runs out of steps starts at a known class. -/
theorem exists_classOf_of_selfNesting
    (h : p.outwards n id = .error (.unsupported .selfNesting)) : ∃ c, p.classOf id = .ok c := by
  cases hc : p.classOf id with
  | error e =>
    rw [outwards_of_unknown hc, eq_unresolved_of_classOf hc] at h
    cases h
  | ok c => exact ⟨c, rfl⟩

/-- A climb that runs out of steps goes through a nested class. -/
theorem outwards_succ_selfNesting
    (h : p.outwards (n + 1) id = .error (.unsupported .selfNesting)) :
    ∃ c outer, p.classOf id = .ok c ∧ c.enclosing = some outer
      ∧ p.outwards n outer = .error (.unsupported .selfNesting) := by
  obtain ⟨c, hc⟩ := exists_classOf_of_selfNesting h
  cases ho : c.enclosing with
  | none =>
    simp only [outwards, hc, ho, bind, Except.bind] at h
    cases h
  | some outer =>
    rw [outwards_of_enclosing hc ho] at h
    refine ⟨c, outer, hc, ho, ?_⟩
    cases hr : p.outwards n outer with
    | error e =>
      rw [hr] at h
      exact h
    | ok further =>
      rw [hr] at h
      cases h

/-- **More steps change nothing** for a climb that does not run out of them, by
induction on the steps. -/
theorem outwards_of_ne_selfNesting (h : p.outwards m id ≠ .error (.unsupported .selfNesting))
    (hmn : m ≤ n) : p.outwards n id = p.outwards m id := by
  cases hc : p.classOf id with
  | error e => rw [outwards_of_unknown hc, outwards_of_unknown hc]
  | ok c =>
    induction m generalizing n id c with
    | zero => exact absurd (outwards_zero_of_known hc) h
    | succ m ih =>
      obtain ⟨k, rfl⟩ := Nat.exists_eq_succ_of_ne_zero (Nat.ne_zero_of_lt hmn)
      cases ho : c.enclosing with
      | none => simp only [outwards, hc, ho, bind, Except.bind]
      | some outer =>
        rw [outwards_of_enclosing hc ho] at h
        have hne : p.outwards m outer ≠ .error (.unsupported .selfNesting) := fun hself =>
          h (by rw [hself]; rfl)
        -- the climb from the class around it has one step fewer in both
        have houter : p.outwards k outer = p.outwards m outer := by
          cases hd : p.classOf outer with
          | error e => rw [outwards_of_unknown hd, outwards_of_unknown hd]
          | ok d => exact ih hne (Nat.le_of_succ_le_succ hmn) d hd
        rw [outwards_of_enclosing hc ho, outwards_of_enclosing hc ho, houter]

/-- **A climb that runs out of steps has passed one class more,** each of
which lies within those behind it. By induction on the steps: the class from
which the climb starts goes in front of those that the climb from the next one
has passed. -/
theorem exists_chain_of_selfNesting
    (h : p.outwards n id = .error (.unsupported .selfNesting)) :
    ∃ ids : List ClassId, ids.length = n + 1 ∧ ids.Pairwise (Relation.TransGen p.NestedIn)
      ∧ ∀ i ∈ ids, i.index < p.classes.size ∧ Relation.ReflTransGen p.NestedIn id i := by
  induction n generalizing id with
  | zero =>
    obtain ⟨c, hc⟩ := exists_classOf_of_selfNesting h
    refine ⟨[id], rfl, List.pairwise_singleton _ _, fun i hi => ?_⟩
    rw [List.mem_singleton.mp hi]
    exact ⟨index_lt_of_classOf hc, .refl⟩
  | succ n ih =>
    obtain ⟨c, outer, hc, ho, hself⟩ := outwards_succ_selfNesting h
    obtain ⟨ids, hlength, hpairwise, hids⟩ := ih hself
    have hstep : p.NestedIn id outer := ⟨c, hc, ho⟩
    refine ⟨id :: ids, congrArg (· + 1) hlength, List.pairwise_cons.mpr
      ⟨fun i hi => .head' hstep (hids i hi).2, hpairwise⟩,
      List.forall_mem_cons.mpr ⟨⟨index_lt_of_classOf hc, .refl⟩, fun i hi => ?_⟩⟩
    exact ⟨(hids i hi).1, .head hstep (hids i hi).2⟩

/-- **A climb that runs out of as many steps as there are classes** leads to
one that lies within itself. It has passed more classes than there are, so one
of them twice, and from the first time one comes to the second. -/
theorem exists_circle_of_selfNesting
    (h : p.outwards n id = .error (.unsupported .selfNesting)) (hn : p.classes.size ≤ n) :
    ∃ i, Relation.ReflTransGen p.NestedIn id i ∧ Relation.TransGen p.NestedIn i i := by
  obtain ⟨ids, hlength, hpairwise, hids⟩ := exists_chain_of_selfNesting h
  by_contra hnone
  have hnodup : ids.Nodup := hpairwise.imp_of_mem fun {i j} hi _ hij he => by
    rw [← he] at hij
    exact hnone ⟨i, (hids i hi).2, hij⟩
  have hle := length_le_of_nodup hnodup fun i hi => (hids i hi).1
  rw [hlength] at hle
  exact absurd hn (Nat.not_le_of_lt hle)

/-- **A climb that leads to a class that lies within itself** never ends, by
induction on the steps. -/
theorem outwards_of_circle {i : ClassId} (hi : Relation.ReflTransGen p.NestedIn id i)
    (hcircle : Relation.TransGen p.NestedIn i i) :
    p.outwards n id = .error (.unsupported .selfNesting) := by
  -- neither on the way to the circle nor on it is there a class that lies in none
  have hon : ∀ id, Relation.ReflTransGen p.NestedIn id i →
      ∃ outer, p.NestedIn id outer ∧ Relation.ReflTransGen p.NestedIn outer i := fun id hi =>
    Relation.TransGen.head'_iff.mp (Relation.TransGen.trans_right hi hcircle)
  induction n generalizing id with
  | zero =>
    obtain ⟨_, ⟨c, hc, _⟩, _⟩ := hon id hi
    exact outwards_zero_of_known hc
  | succ n ih =>
    obtain ⟨outer, ⟨c, hc, ho⟩, houter⟩ := hon id hi
    rw [outwards_of_enclosing hc ho, ih houter]
    rfl

/-- **As many steps as there are classes are as good as any more.** -/
theorem outwards_of_size_le (hn : p.classes.size ≤ n) :
    p.outwards n id = p.outwards p.classes.size id := by
  by_cases h : p.outwards p.classes.size id = .error (.unsupported .selfNesting)
  · obtain ⟨i, hi, hcircle⟩ := exists_circle_of_selfNesting h (Nat.le_refl _)
    rw [h, outwards_of_circle hi hcircle]
  · exact outwards_of_ne_selfNesting h hn

/-! ## Names -/

/-- **The classes around a nested class** are those around the class that it lies in, and
itself. If there is a reason why there are none it is the same. -/
theorem nesting_eq_of_enclosing (hc : p.classOf id = .ok c) (ho : c.enclosing = some outer) :
    p.nesting id = (p.nesting outer).map (· ++ [c]) := by
  have hstep : p.outwards p.classes.size id
      = do return c :: (← p.outwards p.classes.size outer) := by
    rw [← outwards_of_size_le (Nat.le_succ _), outwards_of_enclosing hc ho]
  unfold nesting
  rw [hstep]
  cases p.outwards p.classes.size outer with
  | error e => rfl
  | ok climb => exact congrArg Except.ok List.reverse_cons

theorem nesting_of_enclosing (hc : p.classOf id = .ok c) (ho : c.enclosing = some outer)
    (h : p.nesting outer = .ok chain) : p.nesting id = .ok (chain ++ [c]) := by
  rw [nesting_eq_of_enclosing hc ho, h]
  rfl

/-- **A nested class is named after the class around it.** If this one has a
name, so has the other, in whichever way names are spelled. -/
theorem nameOf_of_enclosing {style : NameStyle} {name : String} (hc : p.classOf id = .ok c)
    (ho : c.enclosing = some outer) (h : p.nameOf style outer = .ok name) :
    p.nameOf style id = .ok (name ++ style.nestingSeparator ++ c.simpleName) := by
  obtain ⟨chain, hchain, rfl⟩ := map_eq_ok h
  unfold nameOf
  rw [nesting_of_enclosing hc ho hchain, ← style.spell_concat (mem_of_nesting hchain).1 c]
  rfl

end Program

end ClassFile
