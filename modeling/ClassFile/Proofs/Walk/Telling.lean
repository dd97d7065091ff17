import ClassFile.Walk.Script

/-!
# What is told

Telling a script to a visitor is a conversation: the visitor is told events,
and for each event that opens a scope it answers whether it wants the content.
`Visitor.visits` lists what a visitor is told, with its answers, and the state
in which the visitor is left is the one that this list leads to
(`Visitor.run_fst`).

Which conversations there can be is a matter of the script alone.
`Script.Tells` says it without a visitor: the content of a scope is told if the
answer was yes, what follows is told if nothing has failed, and a failure ends
everything that has begun. Every visitor has one of these conversations
(`Visitor.tells`), so what holds of all of them holds for whatever rule a
visitor goes by.
-/

namespace ClassFile

/-- **Something that a visitor was told,** and whether it opened a scope the
content of which was wanted. -/
structure Visit where
  event : Event
  accepted : Bool
  deriving DecidableEq, Repr

/-- The end of a scope. It is not for the visitor to accept. -/
def Visit.finish (scope : Scope) : Visit := ⟨.finish scope, false⟩

namespace Visitor

variable {State : Type}

/-- **What a visitor is told of a script,** with its answers. -/
def visits (v : Visitor State) : Script → State → List Visit
  | .done, _ | .fail _, _ => []
  | .tell e next, s => ⟨e, false⟩ :: v.visits next (v.visit s e)
  | .scope o content next, s =>
    if v.wants s o then
      ⟨o, true⟩ :: (v.visits content (v.visit s o) ++
        match v.run content (v.visit s o) with
        | (s, .ok ()) => v.visits next s
        | (_, .error _) => [])
    else ⟨o, false⟩ :: v.visits next (v.visit s o)

/-- **The events it is told make the visitor what it is in the end.** -/
theorem run_fst (v : Visitor State) (c : Script) (s : State) :
    (v.run c s).1 = ((v.visits c s).map Visit.event).foldl v.visit s := by
  induction c generalizing s with
  | done => rfl
  | fail e => rfl
  | tell e next ih => exact ih _
  | scope o content next ihc ihn =>
    simp only [run, visits]
    split
    · have hcontent := ihc (v.visit s o)
      cases h : v.run content (v.visit s o) with
      | mk t r =>
        rw [h] at hcontent
        simp only [List.map_cons, List.foldl_cons, List.map_append, List.foldl_append,
          ← hcontent]
        cases r with
        | ok => exact ihn t
        | error e => rfl
    · exact ihn _

/-- Of two scripts the second is told if the first did not break off. -/
theorem visits_append (v : Visitor State) (a b : Script) (s : State) :
    v.visits (a ++ b) s = v.visits a s ++
      match v.run a s with
      | (s, .ok ()) => v.visits b s
      | (_, .error _) => [] := by
  show v.visits (a.append b) s = _
  induction a generalizing s with
  | done => rfl
  | fail e => rfl
  | tell e next ih => exact congrArg (_ :: ·) (ih _)
  | scope o content next _ ih =>
    simp only [Script.append, run, visits]
    split
    · cases v.run content (v.visit s o) with
      | mk t r =>
        cases r with
        | ok =>
          show _ :: (_ ++ v.visits (next.append b) t) = _
          rw [ih t, List.cons_append, List.append_assoc]
        | error e =>
          show _ :: (_ ++ []) = _ :: (_ ++ []) ++ []
          rw [List.append_nil, List.append_nil]
    · exact congrArg (_ :: ·) (ih _)

/-- The content of a scope that is wanted is told like a script in front of
what follows the scope. -/
theorem run_scope (v : Visitor State) (o : Event) (content next : Script) (s : State) :
    v.run (.scope o content next) s =
      if v.wants s o then v.run (content ++ next) (v.visit s o)
      else v.run next (v.visit s o) := by
  rw [run_append]
  rfl

/-- What a visitor is told of a scope that it wants. -/
theorem visits_scope (v : Visitor State) (o : Event) (content next : Script) (s : State) :
    v.visits (.scope o content next) s =
      if v.wants s o then ⟨o, true⟩ :: v.visits (content ++ next) (v.visit s o)
      else ⟨o, false⟩ :: v.visits next (v.visit s o) := by
  rw [visits_append]
  rfl

/-- **The answers are those of the visitor:** it has accepted what opens a scope
and what it wanted when it was told. -/
def Answers (v : Visitor State) : State → List Visit → Prop
  | _, [] => True
  | s, x :: w =>
    x.accepted = (x.event.opensScope && v.wants s x.event) ∧ v.Answers (v.visit s x.event) w

theorem answers_append (v : Visitor State) (u w : List Visit) (s : State) :
    v.Answers s (u ++ w) ↔ v.Answers s u ∧ v.Answers ((u.map Visit.event).foldl v.visit s) w := by
  induction u generalizing s with
  | nil => exact (and_iff_right trivial).symm
  | cons x u ih => exact (and_congr_right fun _ => ih _).trans and_assoc.symm

/-- What is told of two scripts is answered by the visitor if what is told of
each of them is. -/
theorem answers_visits_append (v : Visitor State) {a b : Script}
    (ha : ∀ s, v.Answers s (v.visits a s)) (hb : ∀ s, v.Answers s (v.visits b s)) (s : State) :
    v.Answers s (v.visits (a ++ b) s) := by
  rw [visits_append, answers_append, ← run_fst]
  refine ⟨ha s, ?_⟩
  cases v.run a s with
  | mk t r =>
    cases r with
    | ok => exact hb t
    | error e => trivial

end Visitor

namespace Script

/-! ## Conversations

A conversation may be longer than what a single visitor would be told, since
its answers may be any. Statements about all of them need no induction on
visitors. -/

/-- **The conversations about a script** and how they end. -/
inductive Tells : Script → List Visit → Except Error Unit → Prop
  | done : Tells .done [] (.ok ())
  | fail (e : Error) : Tells (.fail e) [] (.error e)
  | tell (e : Event) {next : Script} {w : List Visit} {r : Except Error Unit} :
    Tells next w r → Tells (.tell e next) (⟨e, false⟩ :: w) r
  | declined (o : Event) (content : Script) {next : Script} {w : List Visit}
      {r : Except Error Unit} :
    Tells next w r → Tells (.scope o content next) (⟨o, false⟩ :: w) r
  | accepted (o : Event) {content next : Script} {w w' : List Visit} {r : Except Error Unit} :
    Tells content w (.ok ()) → Tells next w' r →
      Tells (.scope o content next) (⟨o, true⟩ :: (w ++ w')) r
  /-- Nothing that was begun around a failure is finished. -/
  | broken (o : Event) {content : Script} (next : Script) {w : List Visit} {e : Error} :
    Tells content w (.error e) → Tells (.scope o content next) (⟨o, true⟩ :: w) (.error e)

end Script

/-- **Every visitor has one of the conversations.** -/
theorem Visitor.tells {State : Type} (v : Visitor State) (c : Script) (s : State) :
    c.Tells (v.visits c s) (v.run c s).2 := by
  induction c generalizing s with
  | done => exact .done
  | fail e => exact .fail e
  | tell e next ih => exact .tell e (ih _)
  | scope o content next ihc ihn =>
    simp only [run, visits]
    split
    · have hcontent := ihc (v.visit s o)
      cases h : v.run content (v.visit s o) with
      | mk t r =>
        rw [h] at hcontent
        cases r with
        | ok => exact .accepted o hcontent (ihn t)
        | error e =>
          show Script.Tells _ (_ :: (_ ++ [])) _
          rw [List.append_nil]
          exact .broken o next hcontent
    · exact .declined o content (ihn _)

namespace Script

variable {a b c : Script} {w w' : List Visit} {r r' : Except Error Unit}

/-- There is always something to tell: whatever is opened can be declined. -/
theorem exists_tells : ∀ c : Script, ∃ w r, c.Tells w r
  | .done => ⟨_, _, .done⟩
  | .fail e => ⟨_, _, .fail e⟩
  | .tell e next =>
    have ⟨_, _, h⟩ := exists_tells next
    ⟨_, _, .tell e h⟩
  | .scope o content next =>
    have ⟨_, _, h⟩ := exists_tells next
    ⟨_, _, .declined o content h⟩

/-- **A conversation about two scripts** breaks off in the first, or is one
about each. -/
theorem Tells.of_append (h : (a ++ b).Tells w r) :
    (∃ e, a.Tells w (.error e) ∧ r = .error e)
      ∨ ∃ u u', a.Tells u (.ok ()) ∧ b.Tells u' r ∧ w = u ++ u' := by
  induction a generalizing w with
  | done => exact .inr ⟨[], w, .done, h, rfl⟩
  | fail e =>
    change (Script.fail e).Tells w r at h
    cases h
    exact .inl ⟨e, .fail e, rfl⟩
  | tell e next ih =>
    change (Script.tell e (next ++ b)).Tells w r at h
    -- the scope was declined, told to the end, or the conversation broke off in it
    cases h with
    | tell _ h =>
      rcases ih h with ⟨e', he, rfl⟩ | ⟨u, u', hu, hu', rfl⟩
      · exact .inl ⟨e', .tell e he, rfl⟩
      · exact .inr ⟨_ :: u, u', .tell e hu, hu', rfl⟩
  | scope o content next _ ih =>
    change (Script.scope o content (next ++ b)).Tells w r at h
    cases h with
    | declined _ _ h =>
      rcases ih h with ⟨e', he, rfl⟩ | ⟨u, u', hu, hu', rfl⟩
      · exact .inl ⟨e', .declined o content he, rfl⟩
      · exact .inr ⟨_ :: u, u', .declined o content hu, hu', rfl⟩
    | accepted _ hcontent h =>
      rcases ih h with ⟨e', he, rfl⟩ | ⟨u, u', hu, hu', rfl⟩
      · exact .inl ⟨e', .accepted o hcontent he, rfl⟩
      · refine .inr ⟨_, u', .accepted o hcontent hu, hu', ?_⟩
        rw [List.cons_append, List.append_assoc]
    | broken _ _ hcontent => exact .inl ⟨_, .broken o next hcontent, rfl⟩

end Script

end ClassFile
