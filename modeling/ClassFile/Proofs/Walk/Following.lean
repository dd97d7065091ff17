import Mathlib.Computability.Language
import Mathlib.Order.CompletePartialOrder
import ClassFile.Proofs.Walk.Telling

/-!
# Scripts and the languages they follow

What may be told of a declaration is a language whose words are lists of
visits. A script follows a language (`Script.Follows`) if every conversation
about it that comes to the end is a word, and one that breaks off can be
completed to a word. Scripts are put together in a few ways – one after
another, one for each of several things, a scope around one – and for each of
them there is a rule that puts the languages together. So what language a
script follows can be read off its definition.

Along with it goes that scopes nest (`Script.IsNested`): each scope ends with
the one event that ends it, and no event opens or ends a scope anywhere else.
-/

namespace ClassFile

open Computability

/-- Whether an event ends a scope. -/
def Event.endsScope : Event → Bool
  | .finish _ => true
  | _ => false

namespace Script

/-- **A script in which scopes nest.** The end of the class file is not the
end of such a scope. -/
inductive IsNested : Script → Prop
  | done : IsNested .done
  | fail (e : Error) : IsNested (.fail e)
  | tell {e : Event} {next : Script} :
    e.opensScope = false → e.endsScope = false → IsNested next → IsNested (.tell e next)
  | scope {o : Event} {k : Scope} {inner next : Script} :
    o.opensScope = true → k ≠ .classFile → IsNested inner → IsNested next →
      IsNested (.scope o (inner ++ .tell (.finish k) .done) next)

variable {a b c : Script} {w : List Visit} {r : Except Error Unit}

theorem IsNested.append (ha : a.IsNested) (hb : b.IsNested) : (a ++ b).IsNested := by
  induction ha with
  | done => exact hb
  | fail e => exact .fail e
  | tell hopen hend _ ih => exact .tell hopen hend ih
  | scope hopen hk hinner _ _ ih => exact .scope hopen hk hinner ih

/-- What is told of a scope that ends is told of its inside. -/
theorem Tells.of_closed {k : Scope} (h : (a ++ .tell (.finish k) .done).Tells w r) :
    (∃ e, a.Tells w (.error e) ∧ r = .error e)
      ∨ ∃ u, a.Tells u (.ok ()) ∧ r = .ok () ∧ w = u ++ [.finish k] := by
  rcases h.of_append with he | ⟨u, u', hu, hu', rfl⟩
  · exact .inl he
  · cases hu' with
    | tell _ hdone =>
      cases hdone
      exact .inr ⟨u, hu, rfl, rfl⟩

/-- **The class file does not end inside.** -/
theorem IsNested.finish_notMem (hc : c.IsNested) (h : c.Tells w r) :
    Visit.finish .classFile ∉ w := by
  induction hc generalizing w r with
  | done =>
    cases h
    exact List.not_mem_nil
  | fail e =>
    cases h
    exact List.not_mem_nil
  | tell hopen hend _ ih =>
    cases h with
    | tell _ h =>
      refine List.not_mem_cons_of_ne_of_not_mem (fun heq => ?_) (ih h)
      cases heq
      cases hend
  | @scope o _ _ _ hopen hk _ _ ihc ihn =>
    -- the event that opens a scope is no end
    have hopening : ∀ accepted, Visit.finish .classFile ≠ ⟨o, accepted⟩ := by
      intro accepted heq
      cases heq
      cases hopen
    cases h with
    | declined _ _ h => exact List.not_mem_cons_of_ne_of_not_mem (hopening _) (ihn h)
    | accepted _ hcontent h =>
      refine List.not_mem_cons_of_ne_of_not_mem (hopening _) fun hmem => ?_
      rcases hcontent.of_closed with ⟨_, _, he⟩ | ⟨u, hu, _, rfl⟩
      · cases he
      rcases List.mem_append.mp hmem with hmem | hmem
      · rcases List.mem_append.mp hmem with hmem | hmem
        · exact ihc hu hmem
        · cases List.mem_singleton.mp hmem
          exact hk rfl
      · exact ihn h hmem
    | broken _ _ hcontent =>
      refine List.not_mem_cons_of_ne_of_not_mem (hopening _) fun hmem => ?_
      rcases hcontent.of_closed with ⟨_, hu, _⟩ | ⟨_, _, he, _⟩
      · exact ihc hu hmem
      · cases he

/-- An end is not for the visitor to accept. -/
theorem answers_finish {State : Type} (v : Visitor State) (k : Scope) (s : State) :
    v.Answers s (v.visits (tell (.finish k) done) s) := ⟨rfl, trivial⟩

/-- **The visitor gives the answers** in what it is told. -/
theorem IsNested.answers (hc : c.IsNested) {State : Type} (v : Visitor State) :
    ∀ s, v.Answers s (v.visits c s) := by
  induction hc with
  | done => exact fun _ => trivial
  | fail e => exact fun _ => trivial
  | tell hopen _ _ ih => exact fun s => ⟨by rw [hopen]; rfl, ih _⟩
  | @scope o k inner next hopen _ _ _ ihc ihn =>
    intro s
    have hinside := v.answers_visits_append (v.answers_visits_append ihc (answers_finish v k)) ihn
    rw [v.visits_scope]
    cases hw : v.wants s o with
    | true => exact ⟨by rw [hopen, hw]; rfl, hinside _⟩
    | false => exact ⟨by rw [hopen, hw]; rfl, ihn _⟩

/-- **A script follows a language:** its scopes nest, what is told to the end
is a word, and whatever is told is the beginning of a word. -/
structure Follows (c : Script) (L : Language Visit) : Prop where
  nested : c.IsNested
  complete : ∀ {w}, c.Tells w (.ok ()) → w ∈ L
  completable : ∀ {w r}, c.Tells w r → ∃ rest, w ++ rest ∈ L

variable {L M : Language Visit}

/-- A language that is followed has a word. -/
theorem Follows.nonempty (h : c.Follows L) : ∃ w, w ∈ L :=
  have ⟨_, _, hw⟩ := exists_tells c
  have ⟨_, hrest⟩ := h.completable hw
  ⟨_, hrest⟩

theorem Follows.mono (h : c.Follows L) (hLM : L ≤ M) : c.Follows M where
  nested := h.nested
  complete hw := hLM (h.complete hw)
  completable hw := (h.completable hw).imp fun _ hrest => hLM hrest

theorem follows_done : done.Follows 1 where
  nested := .done
  complete hw := by
    cases hw
    exact Language.nil_mem_one
  completable hw := by
    cases hw
    exact ⟨[], Language.nil_mem_one⟩

/-- What breaks off at once follows every language that has a word. -/
theorem follows_fail (e : Error) (hL : ∃ w, w ∈ L) : (fail e).Follows L where
  nested := .fail e
  complete hw := by cases hw
  completable hw := by
    cases hw
    exact hL

/-- An event is told in front of what follows it. -/
theorem follows_tell {e : Event} (hopen : e.opensScope = false) (hend : e.endsScope = false)
    (h : c.Follows L) : (tell e c).Follows ({[⟨e, false⟩]} * L) where
  nested := .tell hopen hend h.nested
  complete hw := by
    cases hw with
    | tell _ hw => exact Language.append_mem_mul (Set.mem_singleton [_]) (h.complete hw)
  completable hw := by
    cases hw with
    | tell _ hw =>
      obtain ⟨rest, hrest⟩ := h.completable hw
      have hword := Language.append_mem_mul (Set.mem_singleton [Visit.mk e false]) hrest
      exact ⟨rest, hword⟩

/-- **One script after another.** -/
theorem Follows.append (ha : a.Follows L) (hb : b.Follows M) : (a ++ b).Follows (L * M) where
  nested := ha.nested.append hb.nested
  complete hw := by
    rcases hw.of_append with ⟨_, _, he⟩ | ⟨u, u', hu, hu', rfl⟩
    · cases he
    · exact Language.append_mem_mul (ha.complete hu) (hb.complete hu')
  completable hw := by
    rcases hw.of_append with ⟨_, hu, rfl⟩ | ⟨u, u', hu, hu', rfl⟩
    · -- the second script was not begun, so any of its words will do
      obtain ⟨rest, hrest⟩ := ha.completable hu
      obtain ⟨word, hword⟩ := hb.nonempty
      refine ⟨rest ++ word, ?_⟩
      rw [← List.append_assoc]
      exact Language.append_mem_mul hrest hword
    · obtain ⟨rest, hrest⟩ := hb.completable hu'
      refine ⟨rest, ?_⟩
      rw [List.append_assoc]
      exact Language.append_mem_mul (ha.complete hu) hrest

/-- **A script that needs a value first.** -/
theorem follows_given {α : Type} {x : Except Error α} {f : α → Script}
    (h : ∀ y, x = .ok y → (f y).Follows L) (hL : ∃ w, w ∈ L) : (given x f).Follows L := by
  cases x with
  | ok y => exact h y rfl
  | error e => exact follows_fail e hL

/-- **A script for each of several things,** each with its own language. -/
theorem follows_forEach_prod {α : Type} {xs : List α} {f : α → Script} {L : α → Language Visit}
    (h : ∀ x ∈ xs, (f x).Follows (L x)) : (forEach xs f).Follows (xs.map L).prod := by
  induction xs with
  | nil => exact follows_done
  | cons x xs ih =>
    rw [List.map_cons, List.prod_cons]
    exact (h x List.mem_cons_self).append (ih fun y hy => h y (List.mem_cons_of_mem _ hy))

/-- **A script for each of several things,** all with the same language. -/
theorem follows_forEach {α : Type} {xs : List α} {f : α → Script}
    (h : ∀ x ∈ xs, (f x).Follows L) : (forEach xs f).Follows L∗ := by
  induction xs with
  | nil => exact follows_done.mono one_le_kstar
  | cons x xs ih =>
    have hothers := ih fun y hy => h y (List.mem_cons_of_mem _ hy)
    exact ((h x List.mem_cons_self).append hothers).mono mul_kstar_le_kstar

/-- **A script for each of several things,** which itself goes through several
things of a language. -/
theorem follows_forEach_kstar {α : Type} {xs : List α} {f : α → Script}
    (h : ∀ x ∈ xs, (f x).Follows L∗) : (forEach xs f).Follows L∗ := by
  rw [← kstar_idem]
  exact follows_forEach h

end Script

/-! ## Scopes

What a scope may be told as depends on the answer: with a content and an end,
or alone. Both are words, so a visitor that declines keeps to the same
language. -/

/-- **A scope:** the event that opens it, and if it was accepted, a content and
the end. -/
def scopeLanguage (opens : Event → Prop) (content : Language Visit) (k : Scope) :
    Language Visit :=
  {w | ∃ o, opens o ∧ (w = [⟨o, false⟩] ∨ ∃ u ∈ content, w = ⟨o, true⟩ :: (u ++ [.finish k]))}

namespace Script

variable {c : Script} {L : Language Visit} {o : Event} {k : Scope}

/-- **A scope around a script.** -/
theorem Follows.scope (h : c.Follows L) (opens : Event → Prop) (ho : opens o)
    (hopen : o.opensScope = true) (hk : k ≠ .classFile) :
    (scope o (c ++ tell (.finish k) .done) .done).Follows (scopeLanguage opens L k) where
  nested := .scope hopen hk h.nested .done
  complete hw := by
    cases hw with
    | declined _ _ hw =>
      cases hw
      exact ⟨o, ho, .inl rfl⟩
    | accepted _ hcontent hw =>
      cases hw
      rcases hcontent.of_closed with ⟨_, _, he⟩ | ⟨u, hu, _, rfl⟩
      · cases he
      · exact ⟨o, ho, .inr ⟨u, h.complete hu, by rw [List.append_nil]⟩⟩
  completable hw := by
    cases hw with
    | declined _ _ hw =>
      cases hw
      exact ⟨[], o, ho, .inl rfl⟩
    | accepted _ hcontent hw =>
      cases hw
      rcases hcontent.of_closed with ⟨_, _, he⟩ | ⟨u, hu, _, rfl⟩
      · cases he
      · refine ⟨[], o, ho, .inr ⟨u, h.complete hu, ?_⟩⟩
        rw [List.append_nil, List.append_nil]
    | broken _ _ hcontent =>
      rcases hcontent.of_closed with ⟨_, hu, _⟩ | ⟨_, _, he, _⟩
      · obtain ⟨rest, hrest⟩ := h.completable hu
        refine ⟨rest ++ [.finish k], o, ho, .inr ⟨_, hrest, ?_⟩⟩
        rw [List.cons_append, List.append_assoc]
      · cases he

end Script

end ClassFile
