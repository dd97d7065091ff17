import ClassFile.Walk.Class
import ClassFile.Proofs.Walk.Telling

/-!
# The steps of a walk

A walk over a class goes from step to step: the header, the annotations on the class,
those on one type parameter after another, those on its supertypes, its members, the end.
Some of the steps are stretches with steps of their own – the annotations of a type, the
content of a scope – down to the values of an annotation. `Stretch.steps` lists the steps
of each stretch, in terms of what is declared, and a stretch is its steps one after
another (`Stretch.script_eq_sequence`). To find a value that cannot be found is a step
as well, and nothing but a failure.

So a walk can be cut between any two steps, on whatever level, and what lies before the
cut is a beginning of the walk (`Program.Beginning`). If a beginning ends in an error,
the whole walk ends with it: nothing is told that lies behind the cut, and the visitor
keeps the state in which the beginning has left it (`Program.Beginning.stops`). That
takes three rules, for a beginning goes into the next step, into the content of a scope,
or no further.
-/

namespace ClassFile

variable {α State : Type}

namespace Script

/-! ## Scripts one after another

Scripts that follow one another can be put together in any grouping. So the
steps of a walk may be nested lists in its definition and one list here. -/

theorem append_done (a : Script) : a ++ done = a := by
  show a.append done = a
  induction a with
  | done => rfl
  | fail e => rfl
  | tell e next ih => exact congrArg (tell e) ih
  | scope o content next _ ih => exact congrArg (scope o content) ih

theorem append_assoc (a b c : Script) : a ++ b ++ c = a ++ (b ++ c) := by
  show (a.append b).append c = a.append (b.append c)
  induction a with
  | done => rfl
  | fail e => rfl
  | tell e next ih => exact congrArg (tell e) ih
  | scope o content next _ ih => exact congrArg (scope o content) ih

theorem forEach_append (xs ys : List α) (f : α → Script) :
    forEach (xs ++ ys) f = forEach xs f ++ forEach ys f := by
  induction xs with
  | nil => rfl
  | cons x xs ih =>
    show f x ++ forEach (xs ++ ys) f = f x ++ forEach xs f ++ forEach ys f
    rw [ih, append_assoc]

theorem given_append (x : Except Error α) (f : α → Script) (b : Script) :
    given x f ++ b = given x fun y => f y ++ b := by
  cases x <;> rfl

/-- Some scripts, one after another. -/
def sequence (steps : List Script) : Script := forEach steps id

/-- Steps that follow others are told behind them. -/
theorem sequence_append (first others : List Script) :
    sequence (first ++ others) = sequence first ++ sequence others := forEach_append _ _ _

theorem sequence_nil : sequence [] = done := rfl

theorem sequence_cons (step : Script) (steps : List Script) :
    sequence (step :: steps) = step ++ sequence steps := rfl

theorem sequence_singleton (step : Script) : sequence [step] = step := append_done step

theorem sequence_map (xs : List α) (f : α → Script) : sequence (xs.map f) = forEach xs f :=
  List.foldr_map

/-- A script for each of several things, each of which has steps of its
own. -/
theorem sequence_flatMap (xs : List α) (f : α → List Script) :
    sequence (xs.flatMap f) = forEach xs fun x => sequence (f x) := by
  induction xs with
  | nil => rfl
  | cons x xs ih =>
    rw [List.flatMap_cons, sequence_append, ih]
    rfl

/-- **The steps of what needs a value first.** If there is none, the one step is to
break off. -/
def stepsGiven (x : Except Error α) (f : α → List Script) : List Script :=
  match x with
  | .ok y => f y
  | .error e => [fail e]

/-- Needing a value in front of some steps is needing it in front of what they
tell. -/
theorem sequence_stepsGiven (x : Except Error α) (f : α → List Script) :
    sequence (stepsGiven x f) = given x fun y => sequence (f y) := by
  cases x <;> rfl

/-! ## Where a script stops

A visitor that is told a script is compared with the same visitor that is told
only the beginning of it. Only what the two are told and where it leaves them
is compared, so the rules below do not look into the scripts. -/

/-- **A script stops with a beginning of it** that ends in an error, as if the beginning
were all there is: whoever is told the script is told no more than the beginning, and is
left in the same state with the same error. -/
def StopsWith (script begun : Script) : Prop :=
  ∀ (State : Type) (v : Visitor State) (s t : State) (e : Error),
    v.run begun s = (t, .error e) →
      v.visits script s = v.visits begun s ∧ v.run script s = (t, .error e)

namespace StopsWith

variable {script begun : Script}

/-- What would follow is not told. -/
theorem append (begun rest : Script) : (begun ++ rest).StopsWith begun := by
  intro State v s t e h
  constructor
  · rw [v.visits_append, h]
    exact List.append_nil _
  · rw [v.run_append, h]

/-- Of two scripts the second stops the whole. -/
theorem append_left (h : script.StopsWith begun) (first : Script) :
    (first ++ script).StopsWith (first ++ begun) := by
  intro State v s t e hrun
  rw [v.run_append] at hrun
  rw [v.visits_append, v.visits_append, v.run_append]
  -- either the first has failed, or the second is told in the state it has left
  cases hfirst : v.run first s with
  | mk t' r =>
    rw [hfirst] at hrun
    cases r with
    | ok =>
      obtain ⟨hvisits, hend⟩ := h State v t' t e hrun
      exact ⟨congrArg (v.visits first s ++ ·) hvisits, hend⟩
    | error e' => exact ⟨rfl, hrun⟩

/-- It stops so as well if it is only a beginning of what there is. -/
theorem append_right (h : script.StopsWith begun) (rest : Script) :
    (script ++ rest).StopsWith begun := by
  intro State v s t e hrun
  obtain ⟨hvisits, hend⟩ := h State v s t e hrun
  obtain ⟨hvisits', hend'⟩ := append script rest State v s t e hend
  exact ⟨hvisits'.trans hvisits, hend'⟩

/-- A failure in the content of a scope stops what is around it. A visitor that declines
the scope does not come to the failure. -/
theorem scope (h : script.StopsWith begun) (o : Event) :
    (Script.scope o script .done).StopsWith (.scope o begun .done) := by
  intro State v s t e hrun
  rw [v.run_scope, append_done] at hrun
  rw [v.visits_scope, v.visits_scope, v.run_scope, append_done, append_done]
  cases hwants : v.wants s o with
  | true =>
    rw [hwants] at hrun
    obtain ⟨hvisits, hend⟩ := h State v _ t e hrun
    exact ⟨congrArg (List.cons (⟨o, true⟩ : Visit)) hvisits, hend⟩
  | false =>
    rw [hwants] at hrun
    cases hrun

end StopsWith

end Script

/-! ## Stretches and their steps

Not everything that is told is a stretch: to tell an event or to find a value
is a single step, and there is nowhere to cut inside of it. -/

/-- **A stretch of the walk** over a class, on one level. Members, annotations and arrays
are stretches from behind the event that opens them to the one that ends them. -/
inductive Stretch where
  | classFile (id : ClassId) (c : ClassDeclaration) (options : WriteOptions)
  | field (f : FieldDeclaration)
  | method (m : MethodDeclaration)
  | type (place : TypeReference) (t : JavaType)
  | group (opening : AnnotationHeader → Event) (annotations : List Annotation)
  | elements (elements : List Element) (scope : Scope)
  | values (values : List ElementValue)

namespace Program

open Script

variable (p : Program)

/-- All there is to tell of a class that is declared like this. -/
def classTelling (id : ClassId) (c : ClassDeclaration) (options : WriteOptions) : Script :=
  .given (p.classHeader id c options) fun header => .tell (.header header) (p.classContent c)

theorem classScript_of_classOf {id : ClassId} {c : ClassDeclaration} (hc : p.classOf id = .ok c)
    (options : WriteOptions) : p.classScript id options = .ok (p.classTelling id c options) := by
  rw [classScript, hc]
  rfl

/-- The step that tells an element value. -/
def valueScripts (name : Option String) : ElementValue → List Script
  | .constant c => [.tell (.scalar name (.constant c)) .done]
  | .classLiteral t =>
    stepsGiven (p.typeDescriptor t) fun descriptor =>
      [.tell (.scalar name (.classLiteral descriptor)) .done]
  | .enumConstant id constant =>
    stepsGiven (p.classDescriptor (.plain id)) fun descriptor =>
      [.tell (.enumConstant name descriptor constant) .done]
  | .nested ⟨type, elements⟩ =>
    stepsGiven (p.classDescriptor type) fun descriptor =>
      [.scope (.nested name descriptor)
        (p.elementsScript elements ++ .tell (.finish .nested) .done) .done]
  | .array values =>
    [.scope (.array name) (p.valuesScript values ++ .tell (.finish .array) .done) .done]
  | .primitiveArray values =>
    [.scope (.array name)
      (.tellAll (values.elements.map fun c => .scalar none (.constant c))
        ++ .tell (.finish .array) .done) .done]

/-- The steps of a type parameter: the annotations on it, and those on each bound. -/
def typeParameterSteps (sort : UInt8) (position : Nat) (id : TypeParameterId) : List Script :=
  stepsGiven (byteIndex position .typeParameterCount) fun index =>
  stepsGiven (p.typeParameterOf id) fun parameter =>
    p.typeGroup (.ofTypeParameter sort index) [] parameter.annotations ::
      stepsGiven (p.firstBoundIndex parameter.bounds) fun start =>
        (parameter.bounds.zipIdx start).flatMap fun (bound, position) =>
          stepsGiven (byteIndex position .boundCount) fun boundIndex =>
            [p.typeScript (.ofBound (boundSort sort) index boundIndex) bound]

/-- The step that tells a member, as a scope with its content. -/
def memberSteps : Member → List Script
  | .field f =>
    stepsGiven (p.fieldHeader f) fun header => [.scope (.field header) (p.fieldContent f) .done]
  | .method m =>
    stepsGiven (p.methodHeader m) fun header => [.scope (.method header) (p.methodContent m) .done]
  | .nested _ => []

/-- The steps of a class, from its header to its end. -/
def classSteps (id : ClassId) (c : ClassDeclaration) (options : WriteOptions) : List Script :=
  stepsGiven (p.classHeader id c options) (fun header => [.tell (.header header) .done])
    ++ [p.declarationGroup c.annotations]
    ++ c.typeParameters.zipIdx.flatMap (fun (id, position) =>
      p.typeParameterSteps TypeReference.classTypeParameter position id)
    ++ c.superclass.toList.map (fun t => p.typeScript (.ofSupertype none) (.declared t))
    ++ c.interfaces.zipIdx.flatMap (fun (t, position) =>
      stepsGiven (wideIndex position .interfaceCount) fun index =>
        [p.typeScript (.ofSupertype (some index)) (.declared t)])
    ++ c.members.flatMap p.memberSteps
    ++ [.tell (.finish .classFile) .done]

/-- The steps of a method, from behind the event that opens it to its end. -/
def methodSteps (m : MethodDeclaration) : List Script :=
  [p.declarationGroup m.annotations]
    ++ (if m.isConstructor then
      stepsGiven (p.typeUseAnnotations m.annotations) fun group =>
        [p.typeGroup (.ofSort TypeReference.methodReturn) [] group]
    else [])
    ++ [p.typeScript (.ofSort TypeReference.methodReturn) m.result]
    ++ m.typeParameters.zipIdx.flatMap (fun (id, position) =>
      p.typeParameterSteps TypeReference.methodTypeParameter position id)
    ++ m.parameters.zipIdx.flatMap (fun (q, position) =>
      stepsGiven (byteIndex position .parameterCount) fun index =>
        [p.typeScript (.ofFormalParameter index) q.type, p.parameterGroup index q.annotations])
    ++ m.thrown.zipIdx.flatMap (fun (t, position) =>
      stepsGiven (wideIndex position .thrownCount) fun index =>
        [p.typeScript (.ofThrown index) t])
    ++ [.tell (.finish .method) .done]

/-- What is told of a stretch. -/
def stretchScript : Stretch → Script
  | .classFile id c options => p.classTelling id c options
  | .field f => p.fieldContent f
  | .method m => p.methodContent m
  | .type place t => p.typeScript place t
  | .group opening annotations => p.groupScript opening annotations
  | .elements es k => p.elementsScript es ++ .tell (.finish k) .done
  | .values vs => p.valuesScript vs ++ .tell (.finish .array) .done

/-- **The steps of a stretch,** in the order in which they are taken. -/
def stretchSteps : Stretch → List Script
  | .classFile id c options => p.classSteps id c options
  | .field f =>
    [p.declarationGroup f.annotations, p.typeScript (.ofSort TypeReference.field) f.type,
      .tell (.finish .field) .done]
  | .method m => p.methodSteps m
  | .type place t =>
    stepsGiven t.annotatedParts fun parts =>
      parts.map fun part => p.typeGroup place part.path part.annotations
  | .group opening annotations =>
    stepsGiven (p.retained annotations) fun kept =>
      kept.map fun r => .scope (opening r.header) (p.annotationScript r.source) .done
  | .elements es k =>
    es.flatMap (fun x => p.valueScripts (some x.name) x.value) ++ [.tell (.finish k) .done]
  | .values vs => vs.flatMap (p.valueScripts none) ++ [.tell (.finish .array) .done]

/-! ## A stretch is its steps

The definitions of the walk are unfolded once, here, one script at a time.
What follows does not depend on how they put their steps together. -/

/-- A value is one step, whatever kind of value it is. -/
theorem valueScript_eq_sequence (name : Option String) (v : ElementValue) :
    p.valueScript name v = sequence (p.valueScripts name v) := by
  cases v with
  | classLiteral t => simp only [valueScript, valueScripts, sequence_stepsGiven, sequence_singleton]
  | enumConstant id constant =>
    simp only [valueScript, valueScripts, sequence_stepsGiven, sequence_singleton]
  | nested a =>
    obtain ⟨type, elements⟩ := a
    simp only [valueScript, valueScripts, sequence_stepsGiven, sequence_singleton]
  | constant c => rfl
  | array vs => rfl
  | primitiveArray cs => rfl

/-- Named values are told as their steps, by recursion on the list. -/
theorem elementsScript_eq_sequence (es : List Element) :
    p.elementsScript es = sequence (es.flatMap fun x => p.valueScripts (some x.name) x.value) := by
  induction es with
  | nil => rfl
  | cons x es ih =>
    obtain ⟨name, v⟩ := x
    show p.valueScript (some name) v ++ p.elementsScript es = _
    rw [ih, valueScript_eq_sequence, List.flatMap_cons, sequence_append]

theorem valuesScript_eq_sequence (vs : List ElementValue) :
    p.valuesScript vs = sequence (vs.flatMap (p.valueScripts none)) := by
  induction vs with
  | nil => rfl
  | cons v vs ih =>
    show p.valueScript none v ++ p.valuesScript vs = _
    rw [ih, valueScript_eq_sequence, List.flatMap_cons, sequence_append]

/-- A type parameter has the annotations on it for a first step and then its
bounds. -/
theorem typeParameterScript_eq_sequence (sort : UInt8) (position : Nat) (id : TypeParameterId) :
    p.typeParameterScript sort position id
      = sequence (p.typeParameterSteps sort position id) := by
  simp only [typeParameterScript, typeParameterSteps, sequence_stepsGiven, sequence_cons,
    sequence_flatMap, sequence_nil, append_done]

/-- A member is one step, or none if it is a nested class. -/
theorem memberScript_eq_sequence (x : Member) :
    p.memberScript x = sequence (p.memberSteps x) := by
  cases x with
  | field f =>
    simp only [memberScript, memberSteps, fieldScript, sequence_stepsGiven, sequence_singleton]
  | method m =>
    simp only [memberScript, memberSteps, methodScript, sequence_stepsGiven, sequence_singleton]
  | nested id => rfl

theorem superclassScript_eq_sequence (c : ClassDeclaration) :
    p.superclassScript c
      = sequence (c.superclass.toList.map fun t =>
        p.typeScript (.ofSupertype none) (.declared t)) := by
  rw [superclassScript]
  cases c.superclass with
  | none => rfl
  | some t => exact (sequence_singleton _).symm

/-- The annotations on a constructor that count as annotations on its result
are one group, which has to be found. -/
theorem constructedTypeScript_eq_sequence (m : MethodDeclaration) :
    p.constructedTypeScript m
      = sequence (if m.isConstructor then
        stepsGiven (p.typeUseAnnotations m.annotations) fun group =>
          [p.typeGroup (.ofSort TypeReference.methodReturn) [] group]
      else []) := by
  rw [constructedTypeScript]
  split
  · simp only [sequence_stepsGiven, sequence_singleton]
  · rfl

/-- **What is told of a stretch is its steps,** one after another. -/
theorem stretchScript_eq_sequence (stretch : Stretch) :
    p.stretchScript stretch = sequence (p.stretchSteps stretch) := by
  cases stretch with
  | classFile id c options =>
    have hmembers : p.memberScript = fun x => sequence (p.memberSteps x) :=
      funext p.memberScript_eq_sequence
    simp only [stretchScript, stretchSteps, classTelling, classContent, classSteps,
      typeParametersScript, interfaceScript, superclassScript_eq_sequence,
      typeParameterScript_eq_sequence, hmembers, sequence_append, sequence_stepsGiven,
      sequence_flatMap, sequence_singleton, given_append, append_assoc]
    rfl
  | field f =>
    simp only [stretchScript, stretchSteps, fieldContent, sequence_cons, sequence_nil,
      append_done, append_assoc]
  | method m =>
    simp only [stretchScript, stretchSteps, methodContent, methodSteps, typeParametersScript,
      parameterScript, thrownScript, constructedTypeScript_eq_sequence,
      typeParameterScript_eq_sequence, sequence_append, sequence_stepsGiven, sequence_flatMap,
      sequence_cons, sequence_nil, append_done, append_assoc]
  | type place t =>
    simp only [stretchScript, stretchSteps, typeScript, sequence_stepsGiven, sequence_map]
  | group opening annotations =>
    simp only [stretchScript, stretchSteps, groupScript, sequence_stepsGiven, sequence_map]
  | elements es k =>
    simp only [stretchScript, stretchSteps, sequence_append, sequence_singleton,
      elementsScript_eq_sequence]
  | values vs =>
    simp only [stretchScript, stretchSteps, sequence_append, sequence_singleton,
      valuesScript_eq_sequence]

/-! ## Beginnings

The rules say how far a beginning may go. Along with the one for whole steps
there are two that go into the step behind the last whole one. -/

/-- **A beginning of a stretch:** some of its steps, and then perhaps a beginning of the
next one, if that is a stretch or a scope with a stretch for content. -/
inductive Beginning : Stretch → Script → Prop
  | steps {stretch : Stretch} {begun rest : List Script} :
    p.stretchSteps stretch = begun ++ rest → Beginning stretch (sequence begun)
  | into {stretch next : Stretch} {begun rest : List Script} {b : Script} :
    p.stretchSteps stretch = begun ++ p.stretchScript next :: rest → Beginning next b →
      Beginning stretch (sequence begun ++ b)
  | inside {stretch content : Stretch} {begun rest : List Script} {o : Event} {b : Script} :
    p.stretchSteps stretch = begun ++ .scope o (p.stretchScript content) .done :: rest →
      Beginning content b → Beginning stretch (sequence begun ++ .scope o b .done)

variable {p : Program} {stretch : Stretch} {begun : Script}

/-- **A walk stops where it fails:** a beginning of it that ends in an error ends the
whole, by induction on how deep the beginning goes. -/
theorem Beginning.stops (h : p.Beginning stretch begun) :
    (p.stretchScript stretch).StopsWith begun := by
  induction h with
  | steps hsteps =>
    rw [stretchScript_eq_sequence, hsteps, sequence_append]
    exact .append _ _
  | into hsteps _ ih =>
    rw [stretchScript_eq_sequence, hsteps, sequence_append, sequence_cons]
    exact (ih.append_right _).append_left _
  | @inside _ _ _ _ o _ hsteps _ ih =>
    rw [stretchScript_eq_sequence, hsteps, sequence_append, sequence_cons]
    exact ((ih.scope o).append_right _).append_left _

end Program

end ClassFile
