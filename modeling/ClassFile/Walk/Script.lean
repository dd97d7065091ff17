import ClassFile.Walk.Event

/-!
# Scripts and visitors

What there is to tell about a declaration does not depend on who listens:
it is a `Script`, a sequence of events in which a scope stands together with
its content, and which may break off with an error. What depends on the
listener is how much of it is told. A `Visitor` is asked about every scope
that is opened, and the content of a declined scope is left out – including
the error it may break off with.

A visitor is a state that changes with every event. So it may decide by
anything it has been told before.
-/

namespace ClassFile

/-- All there is to tell. -/
inductive Script where
  | done
  /-- It breaks off here. -/
  | fail (error : Error)
  | tell (event : Event) (next : Script)
  /-- An event that opens a scope, what belongs to the scope up to its end,
  and what follows it. -/
  | scope (opening : Event) (content next : Script)
  deriving DecidableEq, Repr

namespace Script

/-- One script after another. What follows an error is not reached. -/
def append : Script → Script → Script
  | done, t => t
  | fail e, _ => fail e
  | tell e next, t => tell e (next.append t)
  | scope o content next, t => scope o content (next.append t)

instance : Append Script := ⟨append⟩

/-- A script that needs a value first: what the value leads to if it could be
found, or the error. -/
def given {α : Type} (value : Except Error α) (f : α → Script) : Script :=
  match value with
  | .ok a => f a
  | .error e => fail e

/-- The scripts of several things, one after another. -/
def forEach {α : Type} (xs : List α) (f : α → Script) : Script :=
  xs.foldr (fun x rest => f x ++ rest) done

/-- Some events, one after another. -/
def tellAll (events : List Event) : Script := events.foldr tell done

end Script

/-- Somebody who is told a script. -/
structure Visitor (State : Type) where
  /-- How an event changes the visitor. -/
  visit : State → Event → State
  /-- Whether the visitor wants the content of the scope that an event opens,
  asked before the event has changed anything. -/
  wants : State → Event → Bool

namespace Visitor

variable {State : Type}

/-- **Telling a script to a visitor.** The result is the state the visitor is
left in, and the error if the script broke off where it was told. -/
def run (v : Visitor State) : Script → State → State × Except Error Unit
  | .done, s => (s, .ok ())
  | .fail e, s => (s, .error e)
  | .tell e next, s => v.run next (v.visit s e)
  | .scope o content next, s =>
    if v.wants s o then
      match v.run content (v.visit s o) with
      | (s, .ok ()) => v.run next s
      -- an error inside the scope ends the whole
      | (s, .error e) => (s, .error e)
    else v.run next (v.visit s o)

/-- Telling two scripts is telling the first and, if it did not break off,
the second. -/
theorem run_append (v : Visitor State) (a b : Script) (s : State) :
    v.run (a ++ b) s =
      match v.run a s with
      | (s, .ok ()) => v.run b s
      | (s, .error e) => (s, .error e) := by
  show v.run (a.append b) s = _
  induction a generalizing s with
  | done => rfl
  | fail e => rfl
  | tell e next ih => exact ih _
  | scope o content next _ ih =>
    simp only [Script.append, run]
    split
    · split
      · exact ih _
      · rfl
    · exact ih _

end Visitor

/-! ## Recording what was told -/

/-- What a recorder does with a scope. -/
inductive Reception where
  /-- The content is not wanted. -/
  | decline
  /-- The content is wanted but not recorded, and scopes inside it are
  declined. -/
  | ignore
  | record
  deriving DecidableEq, Repr

/-- What a recorder has been told, the last event first, and whether it is
inside a scope that it ignores. -/
structure Recording where
  reversed : List Event
  ignoring : Bool

/-- The events in the order in which they were told. -/
def Recording.events (r : Recording) : List Event := r.reversed.reverse

/-- **A visitor that records,** treating each scope as `policy` says. The
event that opens a scope is recorded whatever becomes of the scope. -/
def recorder (policy : Event → Reception) : Visitor Recording where
  visit r e :=
    if r.ignoring then
      match e with
      -- scopes inside an ignored one are declined, so the first end told is its own
      | .finish _ => { r with ignoring := false }
      | _ => r
    else { reversed := e :: r.reversed, ignoring := e.opensScope && policy e == .ignore }
  wants r e := !r.ignoring && policy e != .decline

end ClassFile
