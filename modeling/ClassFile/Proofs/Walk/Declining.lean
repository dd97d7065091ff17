import ClassFile.Proofs.Walk.Protocol

/-!
# Declining a scope

A visitor may decline any scope. Declining removes the content of the scope and
its end, and nothing else: what a visitor is told that declines some scopes is
what one is told that accepts them all, with this cut out (`Visitor.prune`).

What is cut out is found by counting. Behind the opening of a declined scope,
events are left out until as many scopes have ended as have been opened. That
this stops at the right place is what scopes that nest are for
(`Script.IsNested.prune_skipped`). Whether a visitor wants a scope may depend on
all it has been told before, so cutting out carries the state of the visitor
along, and the visitor is not asked about what it has not been told.
-/

namespace ClassFile

namespace Visitor

variable {State : Type}

/-- **Cutting out what a visitor declines.** The count is of the scopes that are
open from a declined one on; nothing is left out where it is zero. -/
def prune (v : Visitor State) : Nat → State → List Event → List Event
  | _, _, [] => []
  | 0, s, e :: t =>
    e :: v.prune (if e.opensScope && !v.wants s e then 1 else 0) (v.visit s e) t
  | depth + 1, s, e :: t =>
    if e.opensScope then v.prune (depth + 2) s t
    else if e.endsScope then v.prune depth s t
    else v.prune (depth + 1) s t

/-- What opens no scope is kept where nothing is left out. -/
theorem prune_tell (v : Visitor State) {e : Event} (hopen : e.opensScope = false) (s : State)
    (t : List Event) : v.prune 0 s (e :: t) = e :: v.prune 0 (v.visit s e) t := by
  rw [prune, hopen]
  rfl

end Visitor

/-! ## Telling everything

The visitor that accepts everything is another one, with states of its own.
What it has in common with the one that declines is only what each of them was
told. -/

/-- **Nothing was declined.** -/
def AllAccepted (w : List Visit) : Prop := ∀ x ∈ w, x.accepted = x.event.opensScope

theorem AllAccepted.of_cons {x : Visit} {w : List Visit} (h : AllAccepted (x :: w)) :
    x.accepted = x.event.opensScope ∧ AllAccepted w :=
  List.forall_mem_cons.mp h

theorem AllAccepted.of_append {u w : List Visit} (h : AllAccepted (u ++ w)) :
    AllAccepted u ∧ AllAccepted w :=
  List.forall_mem_append.mp h

/-- A visitor that wants every scope declines nothing. -/
theorem Visitor.Answers.allAccepted {State : Type} {v : Visitor State}
    (hv : ∀ s e, e.opensScope = true → v.wants s e = true) {s : State} {w : List Visit}
    (hw : v.Answers s w) : AllAccepted w := by
  induction w generalizing s with
  | nil => exact List.forall_mem_nil _
  | cons x w ih =>
    refine List.forall_mem_cons.mpr ⟨hw.1.trans ?_, ih hw.2⟩
    cases hopen : x.event.opensScope with
    | false => rfl
    | true => exact hv s _ hopen

namespace Script

variable {a b c : Script} {u w : List Visit} {State : Type}

/-- **A declined scope is left out up to its end:** where scopes nest, the count
is the same in front of a script and behind it. -/
theorem IsNested.prune_skipped (hc : c.IsNested) (h : c.Tells w (.ok ())) (hw : AllAccepted w)
    (v : Visitor State) (depth : Nat) (s : State) (t : List Event) :
    v.prune (depth + 1) s (w.map Visit.event ++ t) = v.prune (depth + 1) s t := by
  induction hc generalizing w depth t with
  | done =>
    cases h
    rfl
  | fail e => cases h
  | tell hopen hend _ ih =>
    cases h with
    | tell _ h =>
      rw [List.map_cons, List.cons_append, Visitor.prune, hopen, hend]
      exact ih h hw.of_cons.2 depth t
  | @scope o k inner next hopen _ _ _ ihc ihn =>
    cases h with
    | declined _ _ _ => cases hw.of_cons.1.trans hopen
    | @accepted _ _ _ u w' _ hcontent h =>
      obtain ⟨hu, hw'⟩ := hw.of_cons.2.of_append
      -- the scope inside is left out from its opening to its end, and the count is back where it
      -- was
      rcases hcontent.of_closed with ⟨_, _, he⟩ | ⟨u, hinner, _, rfl⟩
      · cases he
      calc v.prune (depth + 1) s
            ((⟨o, true⟩ :: ((u ++ [.finish k]) ++ w') : List Visit).map Visit.event ++ t)
          = v.prune (depth + 2) s
              (u.map Visit.event ++ .finish k :: (w'.map Visit.event ++ t)) := by
            rw [List.map_cons, List.cons_append, Visitor.prune, if_pos hopen, List.map_append,
              List.map_append, List.append_assoc, List.append_assoc]
            rfl
        _ = v.prune (depth + 2) s (.finish k :: (w'.map Visit.event ++ t)) :=
            ihc hinner hu.of_append.1 (depth + 1) _
        _ = v.prune (depth + 1) s (w'.map Visit.event ++ t) := rfl
        _ = v.prune (depth + 1) s t := ihn h hw' depth t

/-- **What is left of a list of visits is what the visitor is told,** without a
failure. -/
def PrunesTo (v : Visitor State) (c : Script) (w : List Visit) : Prop :=
  ∀ s t, (v.run c s).2 = .ok () ∧
    v.prune 0 s (w.map Visit.event ++ t) =
      (v.visits c s).map Visit.event ++ v.prune 0 (v.run c s).1 t

/-- **What is left of two scripts** is what is left of each, the second one in
the state that the first has left the visitor in. -/
theorem PrunesTo.append {v : Visitor State} (ha : PrunesTo v a u) (hb : PrunesTo v b w) :
    PrunesTo v (a ++ b) (u ++ w) := by
  intro s t
  obtain ⟨hrun, hprune⟩ := ha s (w.map Visit.event ++ t)
  rw [v.run_append, v.visits_append, List.map_append, List.append_assoc, hprune]
  cases hs : v.run a s with
  | mk s' r =>
    rw [hs] at hrun
    cases hrun
    obtain ⟨hrun', hprune'⟩ := hb s' t
    refine ⟨hrun', ?_⟩
    rw [hprune', List.map_append, List.append_assoc]

theorem prunesTo_tell {v : Visitor State} {e : Event} (hopen : e.opensScope = false)
    (h : PrunesTo v c w) : PrunesTo v (tell e c) (⟨e, false⟩ :: w) := by
  intro s t
  obtain ⟨hrun, hprune⟩ := h (v.visit s e) t
  refine ⟨hrun, ?_⟩
  rw [List.map_cons, List.cons_append, v.prune_tell hopen, hprune]
  rfl

theorem prunesTo_done (v : Visitor State) : PrunesTo v done [] := fun _ _ => ⟨rfl, rfl⟩

/-- **Cutting out leaves what the visitor is told.** At a declined scope the
count starts, and it is back at zero behind the end of the scope. -/
theorem IsNested.prunesTo (hc : c.IsNested) (h : c.Tells w (.ok ())) (hw : AllAccepted w)
    (v : Visitor State) : PrunesTo v c w := by
  induction hc generalizing w with
  | done =>
    cases h
    exact prunesTo_done v
  | fail e => cases h
  | tell hopen _ _ ih =>
    cases h with
    | tell _ h => exact prunesTo_tell hopen (ih h hw.of_cons.2)
  | @scope o k inner next hopen _ hnested _ ihc ihn =>
    cases h with
    | declined _ _ _ => cases hw.of_cons.1.trans hopen
    | @accepted _ _ _ u w' _ hcontent h =>
      obtain ⟨hu, hw'⟩ := hw.of_cons.2.of_append
      rcases hcontent.of_closed with ⟨_, _, he⟩ | ⟨u, hinner, _, rfl⟩
      · cases he
      have hu := hu.of_append.1
      have hnext := ihn h hw'
      have hinside := ((ihc hinner hu).append (prunesTo_tell (e := .finish k) rfl
        (prunesTo_done v))).append hnext
      intro s t
      rw [v.run_scope, v.visits_scope, List.map_cons, List.cons_append, Visitor.prune, hopen]
      cases hwants : v.wants s o with
      | true =>
        -- the content and the end are told, and the count stays at zero
        obtain ⟨hrun, hprune⟩ := hinside (v.visit s o) t
        exact ⟨hrun, congrArg (o :: ·) hprune⟩
      | false =>
        -- what is left out ends where the scope does, and what follows is told
        obtain ⟨hrun, hprune⟩ := hnext (v.visit s o) t
        refine ⟨hrun, congrArg (o :: ·) (Eq.trans ?_ hprune)⟩
        rw [List.map_append, List.map_append, List.append_assoc, List.append_assoc]
        exact hnested.prune_skipped hinner hu v 0 _ _

end Script

namespace Program

open Script

variable (p : Program)

/-- Cutting out leaves of a class what the visitor is told of it. -/
theorem classTelling_prunesTo {id : ClassId} {c : ClassDeclaration} {options : WriteOptions}
    {w : List Visit} (h : (p.classTelling id c options).Tells w (.ok ())) (hw : AllAccepted w)
    {State : Type} (v : Visitor State) : PrunesTo v (p.classTelling id c options) w := by
  unfold classTelling at h ⊢
  cases hheader : p.classHeader id c options with
  | error e =>
    rw [hheader] at h
    cases h
  | ok header =>
    rw [hheader, classContent_eq] at h
    cases h with
    | tell _ h =>
      rcases h.of_closed with ⟨_, _, he⟩ | ⟨u, hu, _, rfl⟩
      · cases he
      have hinside := (p.classInside_follows c).nested.prunesTo hu hw.of_cons.2.of_append.1 v
      exact prunesTo_tell rfl (hinside.append (prunesTo_tell rfl (prunesTo_done v)))

/-- **Declining scopes only removes their contents.** If a class can be told to a
visitor that accepts every scope, it can be told to every visitor, and what that
one is told is the same with the content and the end of each scope cut out that
it declines. -/
theorem visits_eq_prune {id : ClassId} {options : WriteOptions} {script : Script}
    (h : p.classScript id options = .ok script) {Accepting : Type} (u : Visitor Accepting)
    (hu : ∀ s e, e.opensScope = true → u.wants s e = true) (s₀ : Accepting)
    (hok : (u.run script s₀).2 = .ok ()) {State : Type} (v : Visitor State) (s : State) :
    (v.run script s).2 = .ok () ∧
      (v.visits script s).map Visit.event =
        v.prune 0 s ((u.visits script s₀).map Visit.event) := by
  obtain ⟨c, hc, rfl⟩ := map_eq_ok h
  have htells : (p.classTelling id c options).Tells _ (.ok ()) := hok ▸ u.tells _ s₀
  obtain ⟨hrun, hprune⟩ := p.classTelling_prunesTo htells
    ((p.classTelling_answers u s₀).allAccepted hu) v s []
  refine ⟨hrun, ?_⟩
  rw [List.append_nil, Visitor.prune, List.append_nil] at hprune
  exact hprune.symm

/-- Of two annotated fields one is declined, and of the other one the array in
its annotation. -/
theorem visits_eq_prune_fields :
    let f (name : String) : Member :=
      .field { name, modifiers := [.static], type := .declared .string, initializer := none,
               annotations := [.target [.field]] }
    let c : ClassDeclaration :=
      { ClassDeclaration.bare .ordinary "pkg" "C" with members := [f "f", f "g"] }
    let p : Program := { Program.initial with classes := Program.initial.classes.push c }
    let u : Visitor Unit := ⟨fun s _ => s, fun _ _ => true⟩
    let v := recorder fun e => match e with
      | .field h => if h.name = "f" then .decline else .record
      | .array _ => .decline
      | _ => .record
    let start : Recording := ⟨[], false⟩
    let header : Event := .header ⟨.default, .super, "pkg/C", none, some "java/lang/Object", []⟩
    let field (name : String) : Event :=
      .field ⟨.ofModifiers [.static], name, "Ljava/lang/String;", none, none⟩
    let target : Event := .annotated ⟨"Ljava/lang/annotation/Target;", true⟩
    let value : Event := .enumConstant none "Ljava/lang/annotation/ElementType;" "FIELD"
    ∃ script, p.classScript ⟨6⟩ .default = .ok script
      ∧ (u.run script ()).2 = .ok ()
      ∧ (u.visits script ()).map Visit.event =
        [header,
          field "f", target, .array (some "value"), value, .finish .array, .finish .annotated,
          .finish .field,
          field "g", target, .array (some "value"), value, .finish .array, .finish .annotated,
          .finish .field,
          .finish .classFile]
      ∧ (v.run script start).2 = .ok ()
      ∧ (v.visits script start).map Visit.event =
        [header,
          field "f",
          field "g", target, .array (some "value"), .finish .annotated, .finish .field,
          .finish .classFile] := by
  intro f c p u v start header field target value
  have hscript : p.classScript ⟨6⟩ .default = .ok (p.classTelling ⟨6⟩ c .default) :=
    p.classScript_of_classOf rfl .default
  have hok : (u.run (p.classTelling ⟨6⟩ c .default) ()).2 = .ok () := by decide +kernel
  -- what is cut out is found from the events of the visitor that accepts everything
  have hall : (u.visits (p.classTelling ⟨6⟩ c .default) ()).map Visit.event = [header,
      field "f", target, .array (some "value"), value, .finish .array, .finish .annotated,
      .finish .field,
      field "g", target, .array (some "value"), value, .finish .array, .finish .annotated,
      .finish .field,
      .finish .classFile] := by decide +kernel
  obtain ⟨hrun, hpruned⟩ := p.visits_eq_prune hscript u (fun _ _ _ => rfl) () hok v start
  refine ⟨_, hscript, hok, hall, hrun, hpruned.trans ?_⟩
  rw [hall]
  decide +kernel

end Program

end ClassFile
