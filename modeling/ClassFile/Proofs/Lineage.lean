import Mathlib
import ClassFile.Proofs.WellFormed

/-!
# The classes around a class

Whether a class has a name is a matter of where one comes to by going from each
class to the one that it lies in: to a class that lies in none, to a handle that
names nothing, or into a circle. One of these always happens, only one can, and
`Program.names_follow_nesting` says that a name, or the reason why there is none,
tells which.

The climb that looks for the name counts its steps, and so do the facts about it. The
count is taken out first. As many steps as there are classes are as good as any more,
hence the classes around a class are those around the next one and itself, whatever
comes of it (`Program.nesting_eq_of_enclosing`). From there on everything is an induction on
the chain of classes, and no steps occur.

The handles of the classes around a class, from the outermost one to the class
itself, are its lineage (`Program.IsLineage`): each of the classes that one comes to, once,
in the order in which their names are spelled out.
-/

namespace ClassFile

namespace Program

variable {p : Program} {id outer x : ClassId} {c : ClassDeclaration} {e : Error}

/-! ## One step of a climb

What a climb finds from a class and what it finds from the class around it
differ in no more than the class itself, so an end or a circle that is met
further out is met from here. -/

/-- An outermost class has no other around it. -/
theorem nesting_of_outermost (hc : p.classOf id = .ok c) (ho : c.enclosing = none) :
    p.nesting id = .ok [c] := by
  have hone : p.outwards 1 id = .ok [c] := by
    simp only [outwards, hc, ho, bind, Except.bind]
    rfl
  unfold nesting
  rw [outwards_of_length_le hone (length_le_of_outwards hone)]
  rfl

theorem nesting_of_unknown (h : p.classOf id = .error e) : p.nesting id = .error e := by
  unfold nesting
  rw [outwards_of_unknown h]
  rfl

/-- **A reason why there are no classes around a class** is one for all classes inside, by
induction on the chain between them. -/
theorem nesting_error_of_reflTransGen (h : Relation.ReflTransGen p.NestedIn id x)
    (hx : p.nesting x = .error e) : p.nesting id = .error e := by
  induction h using Relation.ReflTransGen.head_induction_on with
  | refl => exact hx
  | head hstep _ ih =>
    obtain ⟨c, hc, ho⟩ := hstep
    rw [nesting_eq_of_enclosing hc ho, ih]
    rfl

/-- From a class that leads into a circle the climb finds none. -/
theorem nesting_of_circle (hx : Relation.ReflTransGen p.NestedIn id x)
    (hcircle : Relation.TransGen p.NestedIn x x) :
    p.nesting id = .error (.unsupported .selfNesting) := by
  unfold nesting
  rw [outwards_of_circle hx hcircle]
  rfl

/-! ## Where a climb comes to

Nothing is claimed yet of the third outcome but that the steps ran out. With
as many steps as there are classes it means a circle, which is only used
further down. -/

/-- A class that is known and lies in no other. -/
def IsOutermost (p : Program) (id : ClassId) : Prop :=
  ∃ c, p.classOf id = .ok c ∧ c.enclosing = none

/-- A class lies in one other at most. -/
theorem NestedIn.unique {other : ClassId} (h : p.NestedIn id outer) (h' : p.NestedIn id other) :
    outer = other := by
  obtain ⟨c, hc, ho⟩ := h
  obtain ⟨d, hd, ho'⟩ := h'
  rw [hc] at hd
  cases hd
  rw [ho] at ho'
  exact Option.some.inj ho'

/-- **A climb comes to an outermost class, comes to a handle that names nothing, or runs
out of steps,** by induction on the steps. -/
theorem outwards_comes_to (p : Program) (n : Nat) (id : ClassId) :
    (∃ i, Relation.ReflTransGen p.NestedIn id i ∧ p.IsOutermost i)
      ∨ (∃ i, Relation.ReflTransGen p.NestedIn id i ∧ p.knows i = false)
      ∨ p.outwards n id = .error (.unsupported .selfNesting) := by
  cases hc : p.classOf id with
  | error e => exact .inr (.inl ⟨id, .refl, not_knows_of_classOf hc⟩)
  | ok c =>
    cases ho : c.enclosing with
    | none => exact .inl ⟨id, .refl, c, hc, ho⟩
    | some outer =>
      cases n with
      | zero => exact .inr (.inr (outwards_zero_of_known hc))
      | succ n =>
        have hstep : p.NestedIn id outer := ⟨c, hc, ho⟩
        -- whatever is come to from the class around this one is come to from here
        obtain ⟨i, hi, hend⟩ | ⟨i, hi, hend⟩ | hself := p.outwards_comes_to n outer
        · exact .inl ⟨i, .head hstep hi, hend⟩
        · exact .inr (.inl ⟨i, .head hstep hi, hend⟩)
        · refine .inr (.inr ?_)
          rw [outwards_of_enclosing hc ho, hself]
          rfl

/-- A handle that names nothing is what the climb reports. -/
theorem nesting_of_not_knows (hx : Relation.ReflTransGen p.NestedIn id x)
    (h : p.knows x = false) : p.nesting id = .error (.unresolvedClass x) :=
  nesting_error_of_reflTransGen hx (nesting_of_unknown (classOf_of_not_knows h))

/-! ## Lineages -/

/-- **The lineage of a class:** the handles from its outermost class to the
class itself. That `ids` has no repeats and consists of what one comes to
leaves only the order open, which `nested` says is the one from the outside
inwards. -/
structure IsLineage (p : Program) (ids : List ClassId) (id : ClassId) : Prop where
  outermost : ∃ i, ids.head? = some i ∧ p.IsOutermost i
  /-- Each lies in the one before it. -/
  nested : ids.IsChain fun outer inner => p.NestedIn inner outer
  itself : ids.getLast? = some id
  /-- None occurs twice. -/
  nodup : ids.Nodup
  /-- They are all that one comes to. -/
  mem_iff : ∀ i, i ∈ ids ↔ Relation.ReflTransGen p.NestedIn id i

/-- The lineage of an outermost class is itself. -/
theorem IsOutermost.isLineage (h : p.IsOutermost id) : p.IsLineage [id] id where
  outermost := ⟨id, rfl, h⟩
  nested := .singleton id
  itself := rfl
  nodup := List.nodup_singleton id
  mem_iff i := by
    rw [List.mem_singleton]
    constructor
    · rintro rfl
      exact .refl
    · intro hi
      obtain rfl | ⟨outer, ⟨c, hc, ho⟩, _⟩ := hi.cases_head
      · rfl
      · obtain ⟨d, hd, hnone⟩ := h
        rw [hc] at hd
        cases hd
        rw [hnone] at ho
        cases ho

/-- **The lineage of a nested class** is that of the class that it lies in, and itself,
unless it lies within itself. -/
theorem IsLineage.concat {ids : List ClassId} (h : p.IsLineage ids outer)
    (hstep : p.NestedIn id outer) (hcircle : ¬ Relation.TransGen p.NestedIn id id) :
    p.IsLineage (ids ++ [id]) id where
  outermost := by
    obtain ⟨i, hi, hend⟩ := h.outermost
    exact ⟨i, by rw [List.head?_append, hi, Option.some_or], hend⟩
  nested := by
    refine h.nested.append (.singleton id) ?_
    rw [h.itself]
    rintro _ ⟨⟩ _ ⟨⟩
    exact hstep
  itself := List.getLast?_concat
  nodup := by
    refine List.concat_eq_append ▸ h.nodup.concat fun hid => hcircle ?_
    exact .head' hstep ((h.mem_iff id).mp hid)
  mem_iff i := by
    rw [List.mem_append, List.mem_singleton, h.mem_iff]
    constructor
    · rintro (hi | rfl)
      · exact .head hstep hi
      · exact .refl
    · intro hi
      -- the first step out of a class can only lead to the one class that it lies in
      obtain rfl | ⟨other, hother, hi⟩ := hi.cases_head
      · exact .inr rfl
      · exact .inl (hstep.unique hother ▸ hi)

/-- **A class from which one comes to an outermost one has a lineage,** and
the classes around it are those of the lineage. By induction on the chain,
from the outermost class inwards. No class of the chain lies within itself,
since the classes around it have been found. -/
theorem exists_lineage (h : Relation.ReflTransGen p.NestedIn id x) (hx : p.IsOutermost x) :
    ∃ ids chain, p.IsLineage ids id ∧ ids.mapM p.classOf = .ok chain
      ∧ p.nesting id = .ok chain := by
  induction h using Relation.ReflTransGen.head_induction_on with
  | refl =>
    obtain ⟨c, hc, ho⟩ := hx
    refine ⟨[x], [c], IsOutermost.isLineage ⟨c, hc, ho⟩, ?_, nesting_of_outermost hc ho⟩
    rw [List.mapM_cons, hc]
    rfl
  | @head id outer hstep _ ih =>
    obtain ⟨ids, chain, hids, hchain, hnesting⟩ := ih
    obtain ⟨c, hc, ho⟩ := hstep
    have hid : p.nesting id = .ok (chain ++ [c]) := nesting_of_enclosing hc ho hnesting
    refine ⟨ids ++ [id], chain ++ [c], hids.concat ⟨c, hc, ho⟩ fun hcircle => ?_, ?_, hid⟩
    · rw [nesting_of_circle .refl hcircle] at hid
      cases hid
    · rw [List.mapM_append, List.mapM_cons, hchain, hc]
      rfl

/-! ## What the climb says

There are three cases for where one comes to and three for what is found, and
the cases of one kind exclude each other. So each of the three equivalences
below takes one direction from `nesting_comes_to` and the other from the
lemmas on single cases. -/

/-- **From every class one comes to an end or into a circle,** and what the climb finds
says which. -/
theorem nesting_comes_to (p : Program) (id : ClassId) :
    (∃ i, Relation.ReflTransGen p.NestedIn id i ∧ p.IsOutermost i ∧ Succeeds (p.nesting id))
      ∨ (∃ x, Relation.ReflTransGen p.NestedIn id x ∧ p.knows x = false
        ∧ p.nesting id = .error (.unresolvedClass x))
      ∨ ∃ i, Relation.ReflTransGen p.NestedIn id i ∧ Relation.TransGen p.NestedIn i i
        ∧ p.nesting id = .error (.unsupported .selfNesting) := by
  obtain ⟨i, hi, hend⟩ | ⟨x, hx, hunknown⟩ | hself := p.outwards_comes_to p.classes.size id
  · obtain ⟨_, chain, _, _, hchain⟩ := exists_lineage hi hend
    exact .inl ⟨i, hi, hend, chain, hchain⟩
  · exact .inr (.inl ⟨x, hx, hunknown, nesting_of_not_knows hx hunknown⟩)
  · obtain ⟨i, hi, hcircle⟩ := exists_circle_of_selfNesting hself (Nat.le_refl _)
    exact .inr (.inr ⟨i, hi, hcircle, nesting_of_circle hi hcircle⟩)

/-- There are classes around a class exactly if one comes to an outermost
one. -/
theorem nesting_succeeds_iff :
    Succeeds (p.nesting id) ↔ ∃ i, Relation.ReflTransGen p.NestedIn id i ∧ p.IsOutermost i := by
  constructor
  · rintro ⟨chain, h⟩
    obtain ⟨i, hi, hend, _⟩ | ⟨_, _, _, he⟩ | ⟨_, _, _, he⟩ := p.nesting_comes_to id
    · exact ⟨i, hi, hend⟩
    all_goals rw [h] at he; cases he
  · rintro ⟨i, hi, hend⟩
    obtain ⟨_, chain, _, _, hchain⟩ := exists_lineage hi hend
    exact ⟨chain, hchain⟩

theorem nesting_eq_unresolved_iff :
    p.nesting id = .error (.unresolvedClass x)
      ↔ Relation.ReflTransGen p.NestedIn id x ∧ p.knows x = false := by
  refine ⟨fun h => ?_, fun h => nesting_of_not_knows h.1 h.2⟩
  obtain ⟨_, _, _, _, he⟩ | ⟨y, hy, hunknown, he⟩ | ⟨_, _, _, he⟩ := p.nesting_comes_to id
  all_goals rw [h] at he; cases he
  exact ⟨hy, hunknown⟩

theorem nesting_eq_selfNesting_iff :
    p.nesting id = .error (.unsupported .selfNesting)
      ↔ ∃ i, Relation.ReflTransGen p.NestedIn id i ∧ Relation.TransGen p.NestedIn i i := by
  refine ⟨fun h => ?_, fun ⟨i, hi, hcircle⟩ => nesting_of_circle hi hcircle⟩
  obtain ⟨_, _, _, _, he⟩ | ⟨_, _, _, he⟩ | ⟨i, hi, hcircle, _⟩ := p.nesting_comes_to id
  · rw [h] at he; cases he
  · rw [h] at he; cases he
  · exact ⟨i, hi, hcircle⟩

/-! ## Names -/

/-- **Names follow the nesting.** Both names of a class exist exactly if one comes to an
outermost class from it. They do not exist for the reason that a handle names nothing
exactly if one comes to that handle, and for the reason that a class lies within itself
exactly if one comes into a circle. There is no other reason. Where they exist they
consist of the package of the outermost class and of the simple names of the lineage.

That a climb is given as many steps as there are classes cuts none short, not even one
that goes through all classes: any more steps would change nothing. -/
theorem names_follow_nesting (p : Program) (id : ClassId) :
    (∀ name ∈ [p.internalName id, p.qualifiedName id],
        (Succeeds name ↔ ∃ i, Relation.ReflTransGen p.NestedIn id i ∧ p.IsOutermost i)
          ∧ (∀ x, name = .error (.unresolvedClass x) ↔
            Relation.ReflTransGen p.NestedIn id x ∧ p.knows x = false)
          ∧ (name = .error (.unsupported .selfNesting) ↔
            ∃ i, Relation.ReflTransGen p.NestedIn id i ∧ Relation.TransGen p.NestedIn i i)
          ∧ (Succeeds name ∨ (∃ x, name = .error (.unresolvedClass x))
            ∨ name = .error (.unsupported .selfNesting)))
      ∧ (∀ name, p.internalName id = .ok name → ∃ ids outermost inner,
        p.IsLineage ids id ∧ ids.mapM p.classOf = .ok (outermost :: inner)
          ∧ name = (if outermost.package = "" then ""
              else (outermost.package.map fun c => if c = '.' then '/' else c) ++ "/")
            ++ "$".intercalate ((outermost :: inner).map (·.simpleName))
          ∧ p.qualifiedName id = .ok ((if outermost.package = "" then ""
              else outermost.package ++ ".")
            ++ ".".intercalate ((outermost :: inner).map (·.simpleName))))
      ∧ ∀ n, p.classes.size ≤ n → p.outwards n id = p.outwards p.classes.size id := by
  refine ⟨fun name hname => ?_, fun name hname => ?_, fun n hn => outwards_of_size_le hn⟩
  · -- either name is there where there is a chain to be spelled, and fails as that does
    obtain ⟨style, rfl⟩ : ∃ style : NameStyle, name = p.nameOf style id := by
      rcases List.mem_pair.mp hname with rfl | rfl
      · exact ⟨.internal, rfl⟩
      · exact ⟨.qualified, rfl⟩
    have hsucceeds : Succeeds (p.nameOf style id) ↔ Succeeds (p.nesting id) :=
      Succeeds.map_iff
    have herror : ∀ e, p.nameOf style id = .error e ↔ p.nesting id = .error e := fun e =>
      map_eq_error_iff
    rw [hsucceeds, nesting_succeeds_iff, herror, nesting_eq_selfNesting_iff]
    refine ⟨Iff.rfl, fun x => (herror _).trans nesting_eq_unresolved_iff, Iff.rfl, ?_⟩
    obtain ⟨i, hi, hend, _⟩ | ⟨x, _, _, he⟩ | ⟨i, hi, hcircle, _⟩ := p.nesting_comes_to id
    · exact .inl ⟨i, hi, hend⟩
    · exact .inr (.inl ⟨x, (herror _).mpr he⟩)
    · exact .inr (.inr ⟨i, hi, hcircle⟩)
  · obtain ⟨chain, hchain, rfl⟩ := map_eq_ok hname
    obtain ⟨i, hi, hend⟩ := nesting_succeeds_iff.mp ⟨chain, hchain⟩
    obtain ⟨ids, chain', hids, hmap, hnesting⟩ := exists_lineage hi hend
    rw [hchain] at hnesting
    cases hnesting
    obtain ⟨outermost, inner, rfl⟩ := List.exists_cons_of_ne_nil (mem_of_nesting hchain).1
    refine ⟨ids, outermost, inner, hids, hmap, NameStyle.spell_internal_cons outermost inner, ?_⟩
    unfold qualifiedName nameOf
    rw [hchain, ← NameStyle.spell_qualified_cons]
    rfl

/-- A chain that goes through all classes there are, and a circle with a way into it. -/
theorem names_follow_nesting_throughout :
    let nested (f : Nat → Option ClassId) : Program := { Program.initial with
      classes := Program.initial.classes.mapIdx fun i c => { c with enclosing := f i } }
    let p := nested fun i => if i = 0 then none else some ⟨i - 1⟩
    let q := nested fun i => if i = 0 then some ⟨2⟩ else some ⟨i - 1⟩
    p.internalName ⟨5⟩
        = .ok "java/lang/Object$String$Retention$Target$RetentionPolicy$ElementType"
      ∧ (∃ ids, p.IsLineage ids ⟨5⟩)
      ∧ q.qualifiedName ⟨5⟩ = .error (.unsupported .selfNesting)
      ∧ ∃ i, Relation.ReflTransGen q.NestedIn ⟨5⟩ i ∧ Relation.TransGen q.NestedIn i i := by
  intro nested p q
  have hp : p.internalName ⟨5⟩
      = .ok "java/lang/Object$String$Retention$Target$RetentionPolicy$ElementType" := by cbv
  have hq : q.qualifiedName ⟨5⟩ = .error (.unsupported .selfNesting) := by cbv
  obtain ⟨ids, _, _, hids, _⟩ := (names_follow_nesting p ⟨5⟩).2.1 _ hp
  exact ⟨hp, ⟨ids, hids⟩, hq,
    ((names_follow_nesting q ⟨5⟩).1 _ (List.mem_pair.mpr (.inr rfl))).2.2.1.mp hq⟩

end Program

end ClassFile
