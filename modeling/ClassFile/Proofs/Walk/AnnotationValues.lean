import ClassFile.Proofs.Agreement
import ClassFile.Proofs.Walk.Telling
import ClassFile.Proofs.Walk.ToldValues

/-!
# How an annotation is told

A visitor that accepts every scope hears the events of what the annotation says,
as long as its types have descriptors. Where a descriptor cannot be found, the
annotation breaks off. To say where, the events are listed in the order in which
they are written, each with the error if there is one (`Program.annotationSteps`).
What is told is what stands before the first error (`Script.GoesThrough`), and the
ends of the scopes around it stand behind it. If there is no error, the steps are
the events of what is said (`LeadTo`).

Both cases together are `Program.annotation_survives_telling`.
-/

namespace ClassFile

/-! ## Steps

Steps are a list, while a script may go on in different ways. For a visitor
that accepts every scope there is one way only, and the list is what it is
told. -/

/-- **The events that steps lead to,** up to the first step that fails. -/
def takeSteps : List (Except Error Event) → List Event × Except Error Unit
  | [] => ([], .ok ())
  | .error e :: _ => ([], .error e)
  | .ok x :: steps => (x :: (takeSteps steps).1, (takeSteps steps).2)

/-- Steps behind others are reached if none of those fails. -/
theorem takeSteps_append (xs ys : List (Except Error Event)) :
    takeSteps (xs ++ ys) =
      match takeSteps xs with
      | (told, .ok ()) => (told ++ (takeSteps ys).1, (takeSteps ys).2)
      | (told, .error e) => (told, .error e) := by
  induction xs with
  | nil => rfl
  | cons x xs ih =>
    cases x with
    | error e => rfl
    | ok x =>
      rw [List.cons_append, takeSteps, takeSteps, ih]
      rcases takeSteps xs with ⟨told, _ | _⟩ <;> rfl

theorem takeSteps_map_ok (told : List Event) : takeSteps (told.map .ok) = (told, .ok ()) := by
  induction told with
  | nil => rfl
  | cons x told ih => rw [List.map_cons, takeSteps, ih]

theorem takeSteps_error (told : List Event) (e : Error) (after : List (Except Error Event)) :
    takeSteps (told.map .ok ++ .error e :: after) = (told, .error e) := by
  rw [takeSteps_append, takeSteps_map_ok]
  exact congrArg (·, Except.error e) (List.append_nil told)

namespace Visitor

variable {State : Type}

/-- **A visitor that accepts every scope** from a state on, whatever it is told. -/
def AcceptsAll (v : Visitor State) (s : State) : Prop :=
  ∀ (told : List Event) (e : Event), e.opensScope = true → v.wants (told.foldl v.visit s) e = true

theorem AcceptsAll.visit {v : Visitor State} {s : State} (h : v.AcceptsAll s) (e : Event) :
    v.AcceptsAll (v.visit s e) :=
  fun told => h (e :: told)

theorem AcceptsAll.run {v : Visitor State} {s : State} (h : v.AcceptsAll s) (c : Script) :
    v.AcceptsAll (v.run c s).1 := by
  intro told e he
  rw [v.run_fst, ← List.foldl_append]
  exact h _ e he

/-- **What a visitor hears of a script:** the events it is told, and the error
if the script broke off. -/
def hears (v : Visitor State) (c : Script) (s : State) : List Event × Except Error Unit :=
  ((v.visits c s).map Visit.event, (v.run c s).2)

/-- Of two scripts the second one is heard behind the first, if that did not
break off. -/
theorem hears_append (v : Visitor State) (a b : Script) (s : State) :
    v.hears (a ++ b) s =
      match v.hears a s with
      | (told, .ok ()) =>
        (told ++ (v.hears b (v.run a s).1).1, (v.hears b (v.run a s).1).2)
      | (told, .error e) => (told, .error e) := by
  unfold hears
  rw [v.visits_append, v.run_append, List.map_append]
  rcases v.run a s with ⟨t, _ | _⟩
  · rw [List.map_nil, List.append_nil]
  · rfl

end Visitor

section

variable {policy : Event → Reception}

/-- A recorder that records everything has recorded everything. -/
theorem foldl_recorder (h : ∀ e, policy e = .record) (told reversed : List Event) :
    told.foldl (recorder policy).visit ⟨reversed, false⟩ = ⟨told.reverse ++ reversed, false⟩ := by
  induction told generalizing reversed with
  | nil => rfl
  | cons e told ih =>
    have hvisit : (recorder policy).visit ⟨reversed, false⟩ e = ⟨e :: reversed, false⟩ := by
      show Recording.mk _ (e.opensScope && policy e == .ignore) = _
      rw [h e]
      exact congrArg _ (Bool.and_false _)
    rw [List.foldl_cons, hvisit, ih, List.reverse_cons, List.append_assoc, List.singleton_append]

/-- **A recorder that records everything** accepts every scope. -/
theorem recorder_acceptsAll (h : ∀ e, policy e = .record) :
    (recorder policy).AcceptsAll ⟨[], false⟩ := by
  intro told e _
  rw [foldl_recorder h]
  show (true && policy e != .decline) = true
  rw [h e]
  rfl

/-- What it has recorded in the end is what it heard. -/
theorem events_recorder (h : ∀ e, policy e = .record) (c : Script) :
    ((recorder policy).run c ⟨[], false⟩).1.events
      = ((recorder policy).hears c ⟨[], false⟩).1 := by
  rw [Visitor.run_fst, foldl_recorder h]
  show ((_ ++ [] : List Event)).reverse = _
  rw [List.append_nil, List.reverse_reverse]
  rfl

end

namespace Script

/-- **A script that goes through some steps** if nothing is declined. The
steps behind the first that fails may be any: nothing is told of them. -/
def GoesThrough (c : Script) (steps : List (Except Error Event)) : Prop :=
  ∀ (State : Type) (v : Visitor State) (s : State), v.AcceptsAll s → v.hears c s = takeSteps steps

variable {a b c : Script} {xs ys : List (Except Error Event)}

theorem goesThrough_done : done.GoesThrough [] := fun _ _ _ _ => rfl

theorem goesThrough_fail (e : Error) : (fail e).GoesThrough (.error e :: xs) :=
  fun _ _ _ _ => rfl

theorem GoesThrough.tell (h : c.GoesThrough xs) (e : Event) :
    (tell e c).GoesThrough (.ok e :: xs) := by
  intro State v s hv
  rw [takeSteps, ← h State v _ (hv.visit e)]
  rfl

theorem GoesThrough.append (ha : a.GoesThrough xs) (hb : b.GoesThrough ys) :
    (a ++ b).GoesThrough (xs ++ ys) := by
  intro State v s hv
  rw [takeSteps_append, v.hears_append, ha State v s hv, hb State v _ (hv.run a)]

/-- A scope is gone through like its content, behind the event that opens it. -/
theorem GoesThrough.scope (ha : a.GoesThrough xs) (hb : b.GoesThrough ys) {o : Event}
    (ho : o.opensScope = true) : (scope o a b).GoesThrough (.ok o :: (xs ++ ys)) := by
  intro State v s hv
  have hwants : v.wants s o = true := hv [] o ho
  rw [takeSteps, ← ha.append hb State v _ (hv.visit o)]
  unfold Visitor.hears
  rw [v.visits_scope, v.run_scope, if_pos hwants, if_pos hwants]
  rfl

/-- A value that is needed first is a step that may fail. -/
theorem goesThrough_given {α : Type} {value : Except Error α} {f : α → Script} {g : α → Event}
    (h : ∀ a, (f a).GoesThrough (.ok (g a) :: xs)) :
    (given value f).GoesThrough (value.map g :: xs) := by
  cases value with
  | error e => exact goesThrough_fail e
  | ok a => exact h a

theorem goesThrough_tellAll (events : List Event) :
    (tellAll events).GoesThrough (events.map .ok) := by
  induction events with
  | nil => exact goesThrough_done
  | cons e events ih => exact ih.tell e

end Script

namespace Program

mutual

/-- **The steps of telling an element value,** in the order in which it is
written: an event, or the error of a type that has no descriptor. -/
def valueSteps (p : Program) (name : Option String) : ElementValue → List (Except Error Event)
  | .constant c => [.ok (.scalar name (.constant c))]
  | .classLiteral t => [(p.typeDescriptor t).map fun d => .scalar name (.classLiteral d)]
  | .enumConstant id constant =>
    [(p.classDescriptor (.plain id)).map fun d => .enumConstant name d constant]
  | .nested ⟨type, elements⟩ =>
    (p.classDescriptor type).map (.nested name ·) ::
      (p.elementsSteps elements ++ [.ok (.finish .nested)])
  | .array values => .ok (.array name) :: (p.valuesSteps values ++ [.ok (.finish .array)])
  | .primitiveArray values =>
    .ok (.array name) ::
      ((values.elements.map fun c => .scalar none (.constant c)).map .ok ++ [.ok (.finish .array)])

/-- The steps of telling the values of an array. -/
def valuesSteps (p : Program) : List ElementValue → List (Except Error Event)
  | [] => []
  | v :: vs => p.valueSteps none v ++ p.valuesSteps vs

/-- The steps of telling named values. -/
def elementsSteps (p : Program) : List Element → List (Except Error Event)
  | [] => []
  | ⟨name, v⟩ :: es => p.valueSteps (some name) v ++ p.elementsSteps es

end

/-- **The steps of telling an annotation.** -/
def annotationSteps (p : Program) (a : Annotation) : List (Except Error Event) :=
  p.elementsSteps a.elements ++ [.ok (.finish .annotated)]

open Script

mutual

/-- **An element value is told step by step.** -/
theorem valueScript_goesThrough (p : Program) (name : Option String) :
    ∀ v : ElementValue, (p.valueScript name v).GoesThrough (p.valueSteps name v)
  | .constant _ => goesThrough_done.tell _
  | .classLiteral _ => goesThrough_given fun _ => goesThrough_done.tell _
  | .enumConstant _ _ => goesThrough_given fun _ => goesThrough_done.tell _
  | .nested ⟨_, elements⟩ => by
    -- nothing is told behind a scope by the value itself
    rw [valueScript, valueSteps, ← List.append_nil (_ ++ _)]
    refine goesThrough_given fun _ => GoesThrough.scope ?_ goesThrough_done rfl
    exact (p.elementsScript_goesThrough elements).append (goesThrough_done.tell _)
  | .array vs => by
    rw [valueScript, valueSteps, ← List.append_nil (_ ++ _)]
    refine GoesThrough.scope ?_ goesThrough_done rfl
    exact (p.valuesScript_goesThrough vs).append (goesThrough_done.tell _)
  | .primitiveArray cs => by
    rw [valueScript, valueSteps, ← List.append_nil (_ ++ _)]
    refine GoesThrough.scope ?_ goesThrough_done rfl
    exact (goesThrough_tellAll _).append (goesThrough_done.tell _)

/-- So are the values of an array. -/
theorem valuesScript_goesThrough (p : Program) :
    ∀ vs : List ElementValue, (p.valuesScript vs).GoesThrough (p.valuesSteps vs)
  | [] => goesThrough_done
  | v :: vs => (p.valueScript_goesThrough none v).append (p.valuesScript_goesThrough vs)

/-- So are named values. -/
theorem elementsScript_goesThrough (p : Program) :
    ∀ es : List Element, (p.elementsScript es).GoesThrough (p.elementsSteps es)
  | [] => goesThrough_done
  | ⟨name, v⟩ :: es =>
    (p.valueScript_goesThrough (some name) v).append (p.elementsScript_goesThrough es)

end

theorem annotationScript_goesThrough (p : Program) (a : Annotation) :
    (p.annotationScript a).GoesThrough (p.annotationSteps a) :=
  (p.elementsScript_goesThrough a.elements).append (goesThrough_done.tell _)

end Program

/-! ## Steps and values

What an annotation says is found without a visitor, and fails where a
descriptor cannot be found. The recursion is the same as that of the steps, so
the first error is the same. -/

/-- **Steps that lead to a value:** its events if there is a value, and otherwise
some events and the error that came first. -/
inductive LeadTo {α : Type} (events : α → List Event) :
    Except Error α → List (Except Error Event) → Prop
  | ok (a : α) : LeadTo events (.ok a) ((events a).map .ok)
  | error (e : Error) (told : List Event) (after : List (Except Error Event)) :
    LeadTo events (.error e) (told.map .ok ++ .error e :: after)

namespace LeadTo

variable {α β γ : Type} {f : α → List Event} {g : β → List Event} {h : γ → List Event}
variable {x : Except Error α} {y : Except Error β} {xs ys : List (Except Error Event)}

/-- One step. -/
theorem step (x : Except Error α) (event : α → Event) :
    LeadTo (fun a => [event a]) x [x.map event] := by
  cases x with
  | error e => exact .error e [] []
  | ok a => exact .ok a

/-- The same steps lead to what is made of a value. -/
theorem map (hx : LeadTo f x xs) {F : α → γ} (hF : ∀ a, h (F a) = f a) :
    LeadTo h (do return F (← x)) xs := by
  cases hx with
  | error e told after => exact .error e told after
  | ok a =>
    rw [← hF a]
    exact .ok (F a)

/-- **Steps to one value and then to another one** lead to what is made of
both. If the first value has an error, the steps to the second are among those
that are not reached. -/
theorem both (hx : LeadTo f x xs) (hy : LeadTo g y ys) {F : α → β → γ}
    (hF : ∀ a b, h (F a b) = f a ++ g b) : LeadTo h (do return F (← x) (← y)) (xs ++ ys) := by
  cases hx with
  | error e told after =>
    -- the steps to the other value are never taken
    rw [List.append_assoc]
    exact .error e told _
  | ok a =>
    cases hy with
    | error e told after =>
      rw [← List.append_assoc, ← List.map_append]
      exact .error e (f a ++ told) after
    | ok b =>
      rw [← List.map_append, ← hF a b]
      exact .ok (F a b)

/-- An event in front. -/
theorem cons (hx : LeadTo f x xs) (e : Event) : LeadTo (fun a => e :: f a) x (.ok e :: xs) := by
  cases hx with
  | error e' told after => exact .error e' (e :: told) after
  | ok a => exact .ok a

/-- An event at the end. -/
theorem concat (hx : LeadTo f x xs) (e : Event) :
    LeadTo (fun a => f a ++ [e]) x (xs ++ [.ok e]) := by
  cases hx with
  | error e' told after =>
    rw [List.append_assoc]
    exact .error e' told _
  | ok a =>
    rw [← List.map_singleton (f := Except.ok), ← List.map_append]
    exact .ok a

end LeadTo

/-- An array of constants is told constant by constant. -/
theorem ToldValue.allEvents_constants (cs : List Constant) :
    ToldValue.allEvents (cs.map fun c => .scalar (.constant c))
      = cs.map fun c => .scalar none (.constant c) := by
  induction cs with
  | nil => rfl
  | cons c cs ih =>
    rw [List.map_cons, ToldValue.allEvents, ih]
    rfl

namespace Program

mutual

/-- **The steps of an element value lead to what it says.** -/
theorem valueSteps_leadTo (p : Program) (name : Option String) :
    ∀ v : ElementValue, LeadTo (ToldValue.events name) (p.toldValue v) (p.valueSteps name v)
  | .constant c => .ok (ToldValue.scalar (.constant c))
  | .classLiteral _ => (LeadTo.step _ _).map fun _ => rfl
  | .enumConstant _ _ => (LeadTo.step _ _).map fun _ => rfl
  | .nested ⟨_, elements⟩ =>
    (LeadTo.step _ _).both ((p.elementsSteps_leadTo elements).concat _) fun _ _ => rfl
  | .array vs => (((p.valuesSteps_leadTo vs).concat _).cons _).map fun _ => rfl
  | .primitiveArray cs => by
    have hevents : ((cs.elements.map fun c => Event.scalar none (.constant c)) ++ [.finish .array])
        = ToldValue.allEvents (cs.elements.map fun c => .scalar (.constant c))
          ++ [.finish .array] := by
      rw [ToldValue.allEvents_constants]
    rw [valueSteps, ← List.map_singleton (f := Except.ok), ← List.map_append, hevents]
    exact .ok (ToldValue.array _)

/-- So do those of the values of an array. -/
theorem valuesSteps_leadTo (p : Program) :
    ∀ vs : List ElementValue, LeadTo ToldValue.allEvents (p.toldValues vs) (p.valuesSteps vs)
  | [] => .ok []
  | v :: vs => (p.valueSteps_leadTo none v).both (p.valuesSteps_leadTo vs) fun _ _ => rfl

/-- So do those of named values. -/
theorem elementsSteps_leadTo (p : Program) :
    ∀ es : List Element,
      LeadTo ToldElement.allEvents (p.toldElements es) (p.elementsSteps es)
  | [] => .ok []
  | ⟨name, v⟩ :: es =>
    (p.valueSteps_leadTo (some name) v).both (p.elementsSteps_leadTo es) fun _ _ => rfl

end

theorem annotationSteps_leadTo (p : Program) (a : Annotation) :
    LeadTo ToldElement.annotationEvents (p.toldElements a.elements) (p.annotationSteps a) :=
  (p.elementsSteps_leadTo a.elements).concat _

end Program

section

variable {State α : Type} {v : Visitor State} {s : State} {c : Script}
  {steps : List (Except Error Event)} {events : α → List Event}

/-- If there is a value, its events are heard. -/
theorem Script.GoesThrough.hears_ok (hc : c.GoesThrough steps) (hv : v.AcceptsAll s) {a : α}
    (h : LeadTo events (.ok a) steps) : v.hears c s = (events a, .ok ()) := by
  rw [hc State v s hv]
  cases h
  exact takeSteps_map_ok _

/-- If there is none, what is heard are the steps before the one that fails. -/
theorem Script.GoesThrough.hears_error (hc : c.GoesThrough steps) (hv : v.AcceptsAll s) {e : Error}
    (h : LeadTo events (.error e) steps) :
    (v.hears c s).2 = .error e
      ∧ ∃ after, steps = (v.hears c s).1.map .ok ++ .error e :: after := by
  rw [hc State v s hv]
  cases h with
  | error _ told after =>
    rw [takeSteps_error]
    exact ⟨rfl, after, rfl⟩

end

namespace Program

/-- **What an annotation says survives telling it.** If all types in it have
descriptors, the events that a visitor hears that accepts every scope are read
back as what the annotation says, whatever follows them, and annotations that
say the same are told alike, by whatever program. If not, the visitor hears what
comes before the first type without a descriptor, and its error. The same goes
for a single value. -/
theorem annotation_survives_telling (p : Program) {State : Type} {v : Visitor State} {s : State}
    (hv : v.AcceptsAll s) :
    (∀ a : Annotation,
      let heard := v.hears (p.annotationScript a) s
      match p.toldElements a.elements with
      | .ok es =>
        heard.2 = .ok ()
          ∧ (∀ rest, ToldElement.read? (heard.1 ++ rest) = some (es, rest))
          ∧ ∀ (q : Program) (b : Annotation), q.toldElements b.elements = .ok es →
            ∀ {State' : Type} (w : Visitor State') (t : State'), w.AcceptsAll t →
              w.hears (q.annotationScript b) t = heard
      | .error e =>
        heard.2 = .error e
          ∧ ∃ after, p.annotationSteps a = heard.1.map .ok ++ .error e :: after)
    ∧ ∀ (name : Option String) (x : ElementValue),
      let heard := v.hears (p.valueScript name x) s
      match p.toldValue x with
      | .ok told =>
        heard.2 = .ok ()
          ∧ ∀ (q : Program) (y : ElementValue), q.toldValue y = .ok told →
            ∀ {State' : Type} (w : Visitor State') (t : State'), w.AcceptsAll t →
              w.hears (q.valueScript name y) t = heard
      | .error e =>
        heard.2 = .error e
          ∧ ∃ after, p.valueSteps name x = heard.1.map .ok ++ .error e :: after := by
  constructor
  · intro a
    have hsteps := p.annotationSteps_leadTo a
    have hthrough := p.annotationScript_goesThrough a
    dsimp only
    cases h : p.toldElements a.elements with
    | error e => exact hthrough.hears_error hv (h ▸ hsteps)
    | ok es =>
      have heard := hthrough.hears_ok hv (h ▸ hsteps)
      refine ⟨by rw [heard], fun rest => ?_, fun q b hb State' w t hw => ?_⟩
      · rw [heard]
        exact ToldElement.read?_annotationEvents es rest
      · rw [heard]
        exact (q.annotationScript_goesThrough b).hears_ok hw (hb ▸ q.annotationSteps_leadTo b)
  · intro name x
    have hsteps := p.valueSteps_leadTo name x
    have hthrough := p.valueScript_goesThrough name x
    dsimp only
    cases h : p.toldValue x with
    | error e => exact hthrough.hears_error hv (h ▸ hsteps)
    | ok told =>
      have heard := hthrough.hears_ok hv (h ▸ hsteps)
      refine ⟨by rw [heard], fun q y hy State' w t hw => ?_⟩
      rw [heard]
      exact (q.valueScript_goesThrough name y).hears_ok hw (hy ▸ q.valueSteps_leadTo name y)

/-- An array of two bytes and an array that holds the two as constants say the
same, and so do two class literals that differ in type arguments. A class
literal of an unknown class breaks off inside its array. -/
theorem annotation_survives_telling_recorded :
    let p := Program.initial
    let v := recorder fun _ => .record
    let start : Recording := ⟨[], false⟩
    let holding (bytes : ElementValue) (arguments : List JavaType) : Annotation :=
      ⟨.plain .target,
        [⟨"value", bytes⟩,
          ⟨"next", .nested ⟨.plain .retention,
            [⟨"value", .classLiteral (.declared ⟨⟨.string, arguments, []⟩, []⟩)⟩]⟩⟩]⟩
    let a := holding (.primitiveArray (.bytes [1, 2])) []
    let b := holding (.array [.constant (.byte 1), .constant (.byte 2)]) [.wildcard]
    let broken := holding
      (.array [.constant (.byte 1), .classLiteral (.declared (.plain ⟨9⟩)), .constant (.byte 2)]) []
    let said : List ToldElement :=
      [⟨"value", .array [.scalar (.constant (.byte 1)), .scalar (.constant (.byte 2))]⟩,
        ⟨"next", .nested "Ljava/lang/annotation/Retention;"
          [⟨"value", .scalar (.classLiteral "Ljava/lang/String;")⟩]⟩]
    let heard := v.hears (p.annotationScript a) start
    v.AcceptsAll start
      ∧ heard =
        ([.array (some "value"), .scalar none (.constant (.byte 1)),
            .scalar none (.constant (.byte 2)), .finish .array,
            .nested (some "next") "Ljava/lang/annotation/Retention;",
            .scalar (some "value") (.classLiteral "Ljava/lang/String;"), .finish .nested,
            .finish .annotated],
          .ok ())
      ∧ (v.run (p.annotationScript a) start).1.events = heard.1
      ∧ (∀ rest, ToldElement.read? (heard.1 ++ rest) = some (said, rest))
      ∧ v.hears (p.annotationScript b) start = heard
      ∧ v.hears (p.annotationScript broken) start =
        ([.array (some "value"), .scalar none (.constant (.byte 1))],
          .error (.unresolvedClass ⟨9⟩)) := by
  intro p v start holding a b broken said heard
  have hv : v.AcceptsAll start := recorder_acceptsAll fun _ => rfl
  have hretention : p.classDescriptor (.plain .retention)
      = .ok "Ljava/lang/annotation/Retention;" := by decide +kernel
  have hsaid : ∀ bytes arguments,
      p.toldValue bytes
        = .ok (.array [.scalar (.constant (.byte 1)), .scalar (.constant (.byte 2))]) →
      p.typeDescriptor (.declared ⟨⟨.string, arguments, []⟩, []⟩) = .ok "Ljava/lang/String;" →
      p.toldElements (holding bytes arguments).elements = .ok said := by
    intro bytes arguments hbytes hstring
    show p.toldElements [_, _] = _
    simp only [toldElements, hbytes, toldValue, hretention, hstring]
    rfl
  have ha := hsaid (.primitiveArray (.bytes [1, 2])) [] rfl (by decide +kernel)
  have hb := hsaid (.array [.constant (.byte 1), .constant (.byte 2)]) [.wildcard] rfl
    (by decide +kernel)
  have hsurvives := (annotation_survives_telling p hv).1 a
  dsimp only at hsurvives
  rw [show p.toldElements a.elements = .ok said from ha] at hsurvives
  obtain ⟨-, hread, hsame⟩ := hsurvives
  refine ⟨hv, by decide +kernel, events_recorder (fun _ => rfl) _, hread,
    hsame p b hb v start hv, ?_⟩
  decide +kernel

end Program

end ClassFile
