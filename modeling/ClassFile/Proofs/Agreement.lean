import ClassFile.Error
import Mathlib.Data.List.Forall2

/-!
# Computations that agree

Two ways of computing something agree when they fail with the same error or
both succeed with results that are related. This is how a function that
yields one kind of data is compared with one that yields another – calls to a
writer with a text, a type with its erasure – without saying of every step
anew which error comes first: agreement is kept by whatever is built from
agreeing steps in the same order.
-/

namespace ClassFile

variable {α β γ δ : Type}

/-- A success comes from successes. -/
theorem bind_eq_ok {x : Except Error α} {f : α → Except Error β} {b : β}
    (h : x >>= f = .ok b) : ∃ a, x = .ok a ∧ f a = .ok b := by
  cases x with
  | error e => cases h
  | ok a => exact ⟨a, rfl, h⟩

/-- A success that is a function of a result comes from a success. -/
theorem bind_pure_eq_ok {x : Except Error α} {f : α → β} {b : β}
    (h : (do return f (← x)) = Except.ok b) : ∃ a, x = .ok a ∧ f a = b := by
  obtain ⟨a, ha, h⟩ := bind_eq_ok h
  exact ⟨a, ha, Except.ok.inj h⟩

/-- A success of a function of a result comes from a success. -/
theorem map_eq_ok {x : Except Error α} {f : α → β} {b : β} (h : x.map f = .ok b) :
    ∃ a, x = .ok a ∧ f a = b := by
  cases x with
  | error e => cases h
  | ok a => exact ⟨a, rfl, Except.ok.inj h⟩

/-- A function of a result fails where the result does. -/
theorem map_eq_error_iff {x : Except Error α} {f : α → β} {e : Error} :
    x.map f = .error e ↔ x = .error e := by
  cases x <;> simp [Except.map]

/-- The results of computations on a list, one by one. -/
theorem mapM_eq_ok {f : α → Except Error β} {l : List α} {bs : List β}
    (h : l.mapM f = .ok bs) : List.Forall₂ (fun a b => f a = .ok b) l bs := by
  induction l generalizing bs with
  | nil =>
    cases h
    exact .nil
  | cons a l ih =>
    rw [List.mapM_cons] at h
    obtain ⟨b, hb, h⟩ := bind_eq_ok h
    obtain ⟨others, ho, rfl⟩ := bind_pure_eq_ok h
    exact .cons hb (ih ho)

/-- Each of the results is that of an item. Nothing is said of which one, so
this is for properties that all items share. -/
theorem exists_of_mem_mapM {f : α → Except Error β} {l : List α} {bs : List β}
    (h : l.mapM f = .ok bs) {b : β} (hb : b ∈ bs) : ∃ a ∈ l, f a = .ok b := by
  have hall := mapM_eq_ok h
  clear h
  induction hall with
  | nil => exact absurd hb List.not_mem_nil
  | cons hfirst _ ih =>
    rcases List.mem_cons.mp hb with rfl | hb
    · exact ⟨_, List.mem_cons_self, hfirst⟩
    · obtain ⟨a, ha, hab⟩ := ih hb
      exact ⟨a, List.mem_cons_of_mem _ ha, hab⟩

/-! ## Success

Success is proved along the definition, in the order in which a function calls
others: a predicate with a rule for each way of going on. What a computation
comes to may be used in the rest of it, so the rule for going on gives the
result with its equation. -/

/-- **A computation that succeeds.** -/
def Succeeds (x : Except Error α) : Prop := ∃ a, x = .ok a

namespace Succeeds

variable {x : Except Error α}

theorem ok (a : α) : Succeeds (.ok a) := ⟨a, rfl⟩

/-- What goes on from a success and succeeds is a success. -/
theorem bind {f : α → Except Error β} (h : Succeeds x)
    (k : ∀ a, x = .ok a → Succeeds (f a)) : Succeeds (x >>= f) := by
  obtain ⟨a, rfl⟩ := h
  exact k a rfl

theorem map {f : α → β} (h : Succeeds x) : Succeeds (x.map f) := by
  obtain ⟨a, rfl⟩ := h
  exact ⟨f a, rfl⟩

theorem map_iff {f : α → β} : Succeeds (x.map f) ↔ Succeeds x := by
  refine ⟨fun ⟨b, h⟩ => ?_, map⟩
  obtain ⟨a, ha, _⟩ := map_eq_ok h
  exact ⟨a, ha⟩

/-- **A list of computations succeeds** where each of them does. -/
theorem mapM {f : α → Except Error β} {l : List α} (h : ∀ a ∈ l, Succeeds (f a)) :
    Succeeds (l.mapM f) := by
  induction l with
  | nil => exact ok []
  | cons a l ih =>
    rw [List.mapM_cons]
    exact (h a List.mem_cons_self).bind fun b _ =>
      (ih fun c hc => h c (List.mem_cons_of_mem _ hc)).bind fun bs _ => ok (b :: bs)

/-- A list can be sifted where each item can be looked at. What was kept before
stays in front, in reverse. -/
theorem filterAuxM {f : α → Except Error Bool} {l : List α} (h : ∀ a ∈ l, Succeeds (f a))
    (acc : List α) : ∃ kept, l.filterAuxM f acc = .ok kept ∧ ∀ a ∈ kept, a ∈ acc ∨ a ∈ l := by
  -- what is kept is collected in front, so the items kept so far are generalized
  induction l generalizing acc with
  | nil => exact ⟨acc, rfl, fun _ => .inl⟩
  | cons a l ih =>
    obtain ⟨b, hb⟩ := h a List.mem_cons_self
    obtain ⟨kept, hkept, hmem⟩ := ih (fun c hc => h c (List.mem_cons_of_mem _ hc))
      (bif b then a :: acc else acc)
    refine ⟨kept, ?_, fun c hc => ?_⟩
    · rw [List.filterAuxM, hb]
      exact hkept
    · rcases hmem c hc with hc | hc
      · cases b with
        | true =>
          rcases List.mem_cons.mp hc with rfl | hc
          · exact .inr List.mem_cons_self
          · exact .inl hc
        | false => exact .inl hc
      · exact .inr (List.mem_cons_of_mem _ hc)

/-- **A list can be sifted** where each item can be looked at. -/
theorem filterM {f : α → Except Error Bool} {l : List α} (h : ∀ a ∈ l, Succeeds (f a)) :
    ∃ kept, l.filterM f = .ok kept ∧ ∀ a ∈ kept, a ∈ l := by
  obtain ⟨kept, hkept, hmem⟩ := filterAuxM h []
  refine ⟨kept.reverse, ?_, fun a ha => ?_⟩
  · rw [List.filterM, hkept]
    rfl
  · exact (hmem a (List.mem_reverse.mp ha)).resolve_left List.not_mem_nil

end Succeeds

/-! ## Agreement

The relation is between results, and it may be anything: equality, a text
written by some calls, a class with its erasure. What matters is that an error
is on neither side without being on the other, and is the same. -/

/-- **Agreement of two computations:** the same error, or related results. -/
inductive Agree (R : α → β → Prop) : Except Error α → Except Error β → Prop
  | error (e : Error) : Agree R (.error e) (.error e)
  | ok {a : α} {b : β} (h : R a b) : Agree R (.ok a) (.ok b)

namespace Agree

variable {R : α → β → Prop} {S : γ → δ → Prop}
variable {x : Except Error α} {y : Except Error β}

/-- **Going on from agreeing computations in agreeing ways is agreement.** The
ways have to agree only where the results do, which is how a relation found
for one step is used in the next. -/
theorem bind {f : α → Except Error γ} {g : β → Except Error δ} (h : Agree R x y)
    (k : ∀ a b, R a b → Agree S (f a) (g b)) : Agree S (x >>= f) (y >>= g) := by
  cases h with
  | error e => exact .error e
  | ok h => exact k _ _ h

/-- Functions that keep results related keep computations in agreement. -/
theorem map {f : α → γ} {g : β → δ} (h : Agree R x y) (k : ∀ a b, R a b → S (f a) (g b)) :
    Agree S (x.map f) (y.map g) := by
  cases h with
  | error e => exact .error e
  | ok h => exact .ok (k _ _ h)

/-- Results that are related are related in a wider sense. -/
theorem mono {R' : α → β → Prop} (h : Agree R x y) (k : ∀ a b, R a b → R' a b) :
    Agree R' x y := by
  cases h with
  | error e => exact .error e
  | ok h => exact .ok (k _ _ h)

/-- Every computation agrees with itself. -/
theorem refl (x : Except Error α) : Agree (fun a b => a = b) x x := by
  cases x with
  | error e => exact .error e
  | ok a => exact .ok rfl

/-- Agreement up to equality is equality. -/
theorem eq {x y : Except Error α} (h : Agree (fun a b => a = b) x y) : x = y := by
  cases h with
  | error e => rfl
  | ok h => exact congrArg Except.ok h

/-- Agreement up to a function is an equation. -/
theorem map_eq {f : α → β} (h : Agree R x y) (k : ∀ a b, R a b → f a = b) : x.map f = y := by
  cases h with
  | error e => rfl
  | ok h => exact congrArg Except.ok (k _ _ h)

/-- **Agreement of lists of computations** that agree one by one. -/
theorem mapM {ι : Type} {f : ι → Except Error α} {g : ι → Except Error β}
    (h : ∀ i, Agree R (f i) (g i)) (l : List ι) :
    Agree (List.Forall₂ R) (l.mapM f) (l.mapM g) := by
  induction l with
  | nil => exact .ok .nil
  | cons i l ih =>
    rw [List.mapM_cons, List.mapM_cons]
    exact (h i).bind fun a b hab => ih.bind fun as bs habs => .ok (.cons hab habs)

end Agree

end ClassFile
