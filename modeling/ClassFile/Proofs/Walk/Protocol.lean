import ClassFile.Proofs.Agreement
import ClassFile.Proofs.Walk.Following
import ClassFile.Proofs.Walk.Steps

/-!
# The protocol of a class file

What a visitor is told of a class keeps to a protocol: the header, the
annotations on the class, those on its types, one member after another in the
order of their declaration, and the end. Members, annotations and arrays are
scopes, with a content if the visitor wanted it and with nothing if it did not.
The protocol is a language over visits (`Protocol.classFile`), put together from
the languages of its parts as a grammar is from its rules.

The script of each part follows the language of the part, and so the script of
a class follows the protocol, whoever listens. A word is complete exactly if
nothing failed, and then and only then the visitor is told that the class ends.
Where something fails, the walk stops: a beginning of it that ends in an error
is all that is told, wherever in the class it breaks off.
-/

namespace ClassFile

open Computability

namespace Protocol

/-! ## Values

Values are told inside each other to any depth, so their language is an
inductive predicate. All languages above it are put together from it without
recursion. -/

/-- **What is told of values,** one after another: named ones, as the elements
of an annotation are, or nameless ones, as those of an array are. -/
inductive Values : Bool → List Visit → Prop
  | nil (named : Bool) : Values named []
  | scalar (name : Option String) (value : Scalar) {w : List Visit} :
    Values name.isSome w → Values name.isSome (⟨.scalar name value, false⟩ :: w)
  | enumConstant (name : Option String) (descriptor constant : String) {w : List Visit} :
    Values name.isSome w →
      Values name.isSome (⟨.enumConstant name descriptor constant, false⟩ :: w)
  | nestedDeclined (name : Option String) (descriptor : String) {w : List Visit} :
    Values name.isSome w → Values name.isSome (⟨.nested name descriptor, false⟩ :: w)
  | nested (name : Option String) (descriptor : String) {u w : List Visit} :
    Values true u → Values name.isSome w →
      Values name.isSome (⟨.nested name descriptor, true⟩ :: (u ++ .finish .nested :: w))
  | arrayDeclined (name : Option String) {w : List Visit} :
    Values name.isSome w → Values name.isSome (⟨.array name, false⟩ :: w)
  | array (name : Option String) {u w : List Visit} :
    Values false u → Values name.isSome w →
      Values name.isSome (⟨.array name, true⟩ :: (u ++ .finish .array :: w))

/-- Values can be told behind others. -/
theorem Values.append {named : Bool} {u w : List Visit} (hu : Values named u)
    (hw : Values named w) : Values named (u ++ w) := by
  induction hu with
  | nil named => exact hw
  | scalar name value _ ih => exact .scalar name value (ih hw)
  | enumConstant name descriptor constant _ ih =>
    exact .enumConstant name descriptor constant (ih hw)
  | nestedDeclined name descriptor _ ih => exact .nestedDeclined name descriptor (ih hw)
  | nested name descriptor hinner _ _ ih =>
    rw [List.cons_append, List.append_assoc]
    exact .nested name descriptor hinner (ih hw)
  | arrayDeclined name _ ih => exact .arrayDeclined name (ih hw)
  | array name hinner _ _ ih =>
    rw [List.cons_append, List.append_assoc]
    exact .array name hinner (ih hw)

/-- The language of values. -/
def values (named : Bool) : Language Visit := {w | Values named w}

theorem values_mul (named : Bool) : values named * values named ≤ values named := by
  intro w hw
  obtain ⟨u, hu, u', hu', rfl⟩ := Language.mem_mul.mp hw
  exact Values.append hu hu'

/-! ## Annotations

An annotation is a scope of named values, and the three kinds of it differ in
the event that opens it. -/

/-- An annotation that is opened in one of some ways, with its elements. -/
def annotationScope (opens : Event → Prop) : Language Visit :=
  scopeLanguage opens (values true) .annotated

/-- An annotation on a declaration. -/
def annotated : Language Visit := annotationScope fun e => ∃ h, e = .annotated h

/-- An annotation on a type. -/
def typeAnnotated : Language Visit :=
  annotationScope fun e => ∃ place path h, e = .typeAnnotated place path h

/-- An annotation on the parameter of a method at a position. -/
def parameterAnnotated (position : Nat) : Language Visit :=
  annotationScope fun e => ∃ h, e = .parameterAnnotated (UInt8.ofNat position) h

/-! ## Members and classes

The order of what is told is the order of the factors. A star stands for what
is told any number of times, and a product over a list for one thing after
another. -/

/-- **A field:** the annotations on it, and those on its type. -/
def field (f : FieldDeclaration) : Language Visit :=
  scopeLanguage (fun e => ∃ h, e = .field h ∧ h.name = f.name ∧ h.access = f.access)
    (annotated∗ * typeAnnotated∗) .field

/-- The annotations on the type of a parameter, and those on the parameter. -/
def parameter (position : Nat) : Language Visit :=
  typeAnnotated∗ * (parameterAnnotated position)∗

/-- **A method:** the annotations on it, those on its result and its type
parameters, those of one parameter after another, and those on what it
throws. -/
def method (m : MethodDeclaration) : Language Visit :=
  scopeLanguage (fun e => ∃ h, e = .method h ∧ h.name = m.name ∧ h.access = m.access)
    (annotated∗ * typeAnnotated∗ * (m.parameters.zipIdx.map fun x => parameter x.2).prod
      * typeAnnotated∗) .method

/-- **A member.** A nested class is passed over. -/
def member : Member → Language Visit
  | .field f => field f
  | .method m => method m
  | .nested _ => 1

/-- The header of a class. -/
def header (c : ClassDeclaration) (options : WriteOptions) : Language Visit :=
  {w | ∃ h : Header, w = [⟨.header h, false⟩] ∧ h.version = options.version
    ∧ h.access = c.access options}

/-- What stands between the header of a class and its end. -/
def inside (c : ClassDeclaration) : Language Visit :=
  annotated∗ * typeAnnotated∗ * (c.members.map member).prod

/-- **The protocol of a class file.** -/
def classFile (c : ClassDeclaration) (options : WriteOptions) : Language Visit :=
  header c options * inside c * {[.finish .classFile]}

variable {c : ClassDeclaration} {options : WriteOptions} {w : List Visit}

theorem mem_classFile_of_inside {h : Header} {u : List Visit} (hv : h.version = options.version)
    (ha : h.access = c.access options) (hu : u ∈ inside c) :
    ⟨.header h, false⟩ :: (u ++ [.finish .classFile]) ∈ classFile c options :=
  have hheader : [⟨.header h, false⟩] ∈ header c options := ⟨h, rfl, hv, ha⟩
  Language.append_mem_mul (Language.append_mem_mul hheader hu) (Set.mem_singleton [_])

/-- A complete word ends the class. -/
theorem finish_mem_of_mem_classFile (hw : w ∈ classFile c options) :
    Visit.finish .classFile ∈ w := by
  obtain ⟨u, _, u', hu', rfl⟩ := Language.mem_mul.mp hw
  rw [Set.mem_singleton_iff.mp hu']
  exact List.mem_append_right u List.mem_cons_self

end Protocol

namespace Program

open Script Protocol

/-! ## Values and annotations follow their languages

There is one lemma for each script, and it has the shape of the definition of
the script: the rules for putting scripts together are those for putting
languages together. -/

/-- A value that is told by itself. -/
theorem follows_value {named : Bool} {e : Event} (hopen : e.opensScope = false)
    (hend : e.endsScope = false) (h : Values named [⟨e, false⟩]) :
    (Script.tell e .done).Follows (values named) := by
  refine (follows_tell hopen hend follows_done).mono fun w hw => ?_
  rw [mul_one] at hw
  rw [Set.mem_singleton_iff.mp hw]
  exact h

theorem follows_nested {name : Option String} {descriptor : String} {c : Script}
    (h : c.Follows (values true)) :
    (Script.scope (.nested name descriptor) (c ++ .tell (.finish .nested) .done) .done).Follows
      (values name.isSome) := by
  refine (h.scope (· = .nested name descriptor) rfl rfl (by decide)).mono ?_
  rintro w ⟨_, rfl, rfl | ⟨u, hu, rfl⟩⟩
  · exact .nestedDeclined name descriptor (.nil _)
  · exact .nested name descriptor hu (.nil _)

theorem follows_array {name : Option String} {c : Script} (h : c.Follows (values false)) :
    (Script.scope (.array name) (c ++ .tell (.finish .array) .done) .done).Follows
      (values name.isSome) := by
  refine (h.scope (· = .array name) rfl rfl (by decide)).mono ?_
  rintro w ⟨_, rfl, rfl | ⟨u, hu, rfl⟩⟩
  · exact .arrayDeclined name (.nil _)
  · exact .array name hu (.nil _)

/-- The elements of an array of constants. -/
theorem follows_tellAll_constants (cs : List Constant) :
    (tellAll (cs.map fun c => .scalar none (.constant c))).Follows (values false) := by
  induction cs with
  | nil => exact follows_done.mono fun w hw => (show w = [] from hw) ▸ Values.nil false
  | cons c cs ih =>
    have hfirst : (Script.tell (.scalar none (.constant c)) .done).Follows (values false) :=
      follows_value rfl rfl (.scalar none _ (.nil _))
    exact (hfirst.append ih).mono (values_mul false)

mutual

/-- **An element value follows the language of values,** by recursion on the
value. -/
theorem valueScript_follows (p : Program) (name : Option String) :
    ∀ v : ElementValue, (p.valueScript name v).Follows (values name.isSome)
  | .constant _ => follows_value rfl rfl (.scalar name _ (.nil _))
  | .classLiteral _ =>
    follows_given (fun _ _ => follows_value rfl rfl (.scalar name _ (.nil _))) ⟨[], .nil _⟩
  | .enumConstant _ constant =>
    follows_given (fun _ _ => follows_value rfl rfl (.enumConstant name _ constant (.nil _)))
      ⟨[], .nil _⟩
  | .nested ⟨_, elements⟩ =>
    follows_given (fun _ _ => follows_nested (p.elementsScript_follows elements)) ⟨[], .nil _⟩
  | .array vs => follows_array (p.valuesScript_follows vs)
  | .primitiveArray cs => follows_array (follows_tellAll_constants cs.elements)

/-- So do the values of an array. -/
theorem valuesScript_follows (p : Program) :
    ∀ vs : List ElementValue, (p.valuesScript vs).Follows (values false)
  | [] => follows_done.mono fun w hw => (show w = [] from hw) ▸ Values.nil false
  | v :: vs =>
    ((p.valueScript_follows none v).append (p.valuesScript_follows vs)).mono (values_mul false)

/-- So do named values. -/
theorem elementsScript_follows (p : Program) :
    ∀ es : List Element, (p.elementsScript es).Follows (values true)
  | [] => follows_done.mono fun w hw => (show w = [] from hw) ▸ Values.nil true
  | ⟨name, v⟩ :: es =>
    ((p.valueScript_follows (some name) v).append (p.elementsScript_follows es)).mono
      (values_mul true)

end

variable (p : Program)

/-- A language with a star has a word. -/
theorem exists_mem_kstar (L : Language Visit) : ∃ w, w ∈ L∗ := ⟨[], Language.nil_mem_kstar L⟩

/-- **A group of annotations.** -/
theorem groupScript_follows {opening : AnnotationHeader → Event} {opens : Event → Prop}
    (hopen : ∀ h, (opening h).opensScope = true) (ho : ∀ h, opens (opening h))
    (group : List Annotation) : (p.groupScript opening group).Follows (annotationScope opens)∗ :=
  follows_given
    (fun _ _ => follows_forEach fun r _ =>
      (p.elementsScript_follows r.source.elements).scope opens (ho r.header) (hopen r.header)
        (by decide))
    (exists_mem_kstar _)

theorem declarationGroup_follows (group : List Annotation) :
    (p.declarationGroup group).Follows annotated∗ :=
  p.groupScript_follows (fun _ => rfl) (fun h => ⟨h, rfl⟩) group

theorem typeGroup_follows (place : TypeReference) (path : TypePath) (group : List Annotation) :
    (p.typeGroup place path group).Follows typeAnnotated∗ :=
  p.groupScript_follows (fun _ => rfl) (fun h => ⟨place, _, h, rfl⟩) group

theorem parameterGroup_follows (position : Nat) (group : List Annotation) :
    (p.parameterGroup (UInt8.ofNat position) group).Follows (parameterAnnotated position)∗ :=
  p.groupScript_follows (fun _ => rfl) (fun h => ⟨h, rfl⟩) group

/-- **The annotations on a type.** -/
theorem typeScript_follows (place : TypeReference) (t : JavaType) :
    (p.typeScript place t).Follows typeAnnotated∗ := by
  refine follows_given (fun parts _ => ?_) (exists_mem_kstar _)
  exact follows_forEach_kstar fun part _ => p.typeGroup_follows place part.path part.annotations

theorem typeParameterScript_follows (sort : UInt8) (position : Nat) (id : TypeParameterId) :
    (p.typeParameterScript sort position id).Follows typeAnnotated∗ := by
  refine follows_given (fun index _ => follows_given (fun parameter _ => ?_)
    (exists_mem_kstar _)) (exists_mem_kstar _)
  rw [← kstar_mul_kstar]
  refine (p.typeGroup_follows _ _ _).append (follows_given (fun start _ => ?_)
    (exists_mem_kstar _))
  exact follows_forEach_kstar fun bound _ =>
    follows_given (fun _ _ => p.typeScript_follows _ _) (exists_mem_kstar _)

theorem typeParametersScript_follows (sort : UInt8) (ids : List TypeParameterId) :
    (p.typeParametersScript sort ids).Follows typeAnnotated∗ :=
  follows_forEach_kstar fun x _ => p.typeParameterScript_follows sort x.2 x.1

/-! ## Members follow theirs

What is announced of a member is found before anything is told of it. If it is
not found, the empty list of visits is the beginning of a word; there has to
be a word for that. -/

/-- What a scope may be told as is told when it is declined. -/
theorem exists_mem_scopeLanguage {opens : Event → Prop} {content : Language Visit} {k : Scope}
    {o : Event} (ho : opens o) : ∃ w, w ∈ scopeLanguage opens content k :=
  ⟨[⟨o, false⟩], o, ho, .inl rfl⟩

theorem name_access_of_fieldHeader {f : FieldDeclaration} {h : FieldHeader}
    (hh : p.fieldHeader f = .ok h) : h.name = f.name ∧ h.access = f.access := by
  obtain ⟨_, _, hh⟩ := bind_eq_ok hh
  obtain ⟨_, _, hh⟩ := bind_eq_ok hh
  obtain ⟨_, _, rfl⟩ := bind_pure_eq_ok hh
  exact ⟨rfl, rfl⟩

theorem name_access_of_methodHeader {m : MethodDeclaration} {h : MethodHeader}
    (hh : p.methodHeader m = .ok h) : h.name = m.name ∧ h.access = m.access := by
  obtain ⟨_, _, hh⟩ := bind_eq_ok hh
  obtain ⟨_, _, hh⟩ := bind_eq_ok hh
  obtain ⟨_, _, rfl⟩ := bind_pure_eq_ok hh
  exact ⟨rfl, rfl⟩

/-- **The script of a field follows the language of the field.** -/
theorem fieldScript_follows (f : FieldDeclaration) : (p.fieldScript f).Follows (field f) := by
  have hcontent := (p.declarationGroup_follows f.annotations).append
    (p.typeScript_follows (.ofSort TypeReference.field) f.type)
  exact follows_given
    (fun h hh => hcontent.scope _ ⟨h, rfl, p.name_access_of_fieldHeader hh⟩ rfl (by decide))
    (exists_mem_scopeLanguage ⟨⟨f.access, f.name, "", none, none⟩, rfl, rfl, rfl⟩)

theorem parameterScript_follows (q : Parameter) (position : Nat) :
    (p.parameterScript q position).Follows (parameter position) := by
  refine follows_given (fun index hindex => ?_)
    ⟨[], Language.append_mem_mul (Language.nil_mem_kstar _) (Language.nil_mem_kstar _)⟩
  unfold byteIndex at hindex
  split at hindex
  · cases hindex
    exact (p.typeScript_follows _ _).append (p.parameterGroup_follows position q.annotations)
  · cases hindex

theorem constructedTypeScript_follows (m : MethodDeclaration) :
    (p.constructedTypeScript m).Follows typeAnnotated∗ := by
  unfold constructedTypeScript
  split
  · exact follows_given (fun _ _ => p.typeGroup_follows _ _ _) (exists_mem_kstar _)
  · exact follows_done.mono one_le_kstar

/-- What is told of a method up to its end. -/
theorem methodContent_follows (m : MethodDeclaration) :
    (p.declarationGroup m.annotations
      ++ p.constructedTypeScript m
      ++ p.typeScript (.ofSort TypeReference.methodReturn) m.result
      ++ p.typeParametersScript TypeReference.methodTypeParameter m.typeParameters
      ++ .forEach m.parameters.zipIdx (fun (q, position) => p.parameterScript q position)
      ++ .forEach m.thrown.zipIdx (fun (t, position) => p.thrownScript t position)).Follows
      (annotated∗ * typeAnnotated∗ * (m.parameters.zipIdx.map fun x => parameter x.2).prod
        * typeAnnotated∗) := by
  have htypes := ((((p.declarationGroup_follows m.annotations).append
    (p.constructedTypeScript_follows m)).append
    (p.typeScript_follows (.ofSort TypeReference.methodReturn) m.result)).append
    (p.typeParametersScript_follows TypeReference.methodTypeParameter m.typeParameters))
  rw [mul_assoc, mul_assoc, kstar_mul_kstar, kstar_mul_kstar] at htypes
  have hparameters : (Script.forEach m.parameters.zipIdx
      (fun (q, position) => p.parameterScript q position)).Follows
      (m.parameters.zipIdx.map fun x => parameter x.2).prod :=
    follows_forEach_prod fun x _ => p.parameterScript_follows x.1 x.2
  have hthrown : (Script.forEach m.thrown.zipIdx
      (fun (t, position) => p.thrownScript t position)).Follows typeAnnotated∗ :=
    follows_forEach_kstar fun x _ =>
      follows_given (fun _ _ => p.typeScript_follows _ _) (exists_mem_kstar _)
  exact (htypes.append hparameters).append hthrown

/-- **The script of a method follows the language of the method.** -/
theorem methodScript_follows (m : MethodDeclaration) : (p.methodScript m).Follows (method m) :=
  follows_given
    (fun h hh => (p.methodContent_follows m).scope _
      ⟨h, rfl, p.name_access_of_methodHeader hh⟩ rfl (by decide))
    (exists_mem_scopeLanguage ⟨⟨m.access, m.name, "", none, []⟩, rfl, rfl, rfl⟩)

theorem memberScript_follows : ∀ x : Member, (p.memberScript x).Follows (member x)
  | .field f => p.fieldScript_follows f
  | .method m => p.methodScript_follows m
  | .nested _ => follows_done

/-! ## A class follows the protocol

The end of a class file is told last and nowhere else, since inside of a class
it is the end of no scope. So it tells whether the walk has come to the
end. -/

/-- What is told of a class behind its header and before its end. -/
def classInside (c : ClassDeclaration) : Script :=
  p.declarationGroup c.annotations
    ++ p.typeParametersScript TypeReference.classTypeParameter c.typeParameters
    ++ p.superclassScript c
    ++ .forEach c.interfaces.zipIdx (fun (t, position) => p.interfaceScript t position)
    ++ .forEach c.members p.memberScript

/-- **What is told of a class up to its end** follows the rules for
annotations and members, in their order. -/
theorem classInside_follows (c : ClassDeclaration) : (p.classInside c).Follows (inside c) := by
  have hsuperclass : (p.superclassScript c).Follows typeAnnotated∗ := by
    unfold superclassScript
    split
    · exact p.typeScript_follows _ _
    · exact follows_done.mono one_le_kstar
  have hinterfaces : (Script.forEach c.interfaces.zipIdx
      (fun (t, position) => p.interfaceScript t position)).Follows typeAnnotated∗ :=
    follows_forEach_kstar fun x _ =>
      follows_given (fun _ _ => p.typeScript_follows _ _) (exists_mem_kstar _)
  have htypes := ((((p.declarationGroup_follows c.annotations).append
    (p.typeParametersScript_follows TypeReference.classTypeParameter c.typeParameters)).append
    hsuperclass).append hinterfaces)
  rw [mul_assoc, mul_assoc, kstar_mul_kstar, kstar_mul_kstar] at htypes
  exact htypes.append (follows_forEach_prod fun x _ => p.memberScript_follows x)

/-- The end of the class is told last. -/
theorem classContent_eq (c : ClassDeclaration) :
    p.classContent c = p.classInside c ++ .tell (.finish .classFile) .done := rfl

theorem version_access_of_classHeader {id : ClassId} {c : ClassDeclaration}
    {options : WriteOptions} {header : Header} (h : p.classHeader id c options = .ok header) :
    header.version = options.version ∧ header.access = c.access options := by
  obtain ⟨_, _, h⟩ := bind_eq_ok h
  obtain ⟨_, _, h⟩ := bind_eq_ok h
  obtain ⟨_, _, h⟩ := bind_eq_ok h
  obtain ⟨_, _, rfl⟩ := bind_pure_eq_ok h
  exact ⟨rfl, rfl⟩

/-- **A conversation about a class** is the beginning of a word of the protocol.
It is a word if nothing fails, and then and only then it ends the class. -/
theorem classTelling_tells {id : ClassId} {c : ClassDeclaration} {options : WriteOptions}
    {w : List Visit} {r : Except Error Unit} (h : (p.classTelling id c options).Tells w r) :
    (∃ rest, w ++ rest ∈ classFile c options)
      ∧ (r = .ok () → w ∈ classFile c options)
      ∧ (Visit.finish .classFile ∈ w → r = .ok ()) := by
  unfold classTelling at h
  have hinside := p.classInside_follows c
  cases hheader : p.classHeader id c options with
  | error e =>
    -- nothing is told, and there is a word that begins with nothing
    rw [hheader] at h
    cases h
    obtain ⟨u, hu⟩ := hinside.nonempty
    let header : Header := ⟨options.version, c.access options, "", none, none, []⟩
    have hword := mem_classFile_of_inside (c := c) (h := header) rfl rfl hu
    exact ⟨⟨_, hword⟩, fun he => (by cases he), fun hmem => (by cases hmem)⟩
  | ok header =>
    rw [hheader] at h
    obtain ⟨hversion, haccess⟩ := p.version_access_of_classHeader hheader
    cases h with
    | tell _ h =>
      rw [classContent_eq] at h
      rcases h.of_closed with ⟨e, hu, rfl⟩ | ⟨u, hu, rfl, rfl⟩
      · obtain ⟨rest, hrest⟩ := hinside.completable hu
        refine ⟨⟨rest ++ [.finish .classFile], ?_⟩, fun he => (by cases he), fun hmem => ?_⟩
        · have hword := mem_classFile_of_inside hversion haccess hrest
          rwa [List.append_assoc] at hword
        · rcases List.mem_cons.mp hmem with hmem | hmem
          · cases hmem
          · exact absurd hmem (hinside.nested.finish_notMem hu)
      · have hword := mem_classFile_of_inside hversion haccess (hinside.complete hu)
        exact ⟨⟨[], by rwa [List.append_nil]⟩, fun _ => hword, fun _ => rfl⟩

/-- The visitor gives the answers in what it is told of a class. -/
theorem classTelling_answers {id : ClassId} {c : ClassDeclaration} {options : WriteOptions}
    {State : Type} (v : Visitor State) (s : State) :
    v.Answers s (v.visits (p.classTelling id c options) s) := by
  unfold classTelling
  cases p.classHeader id c options with
  | error e => trivial
  | ok header =>
    rw [classContent_eq]
    exact ⟨rfl, v.answers_visits_append ((p.classInside_follows c).nested.answers v)
      (answers_finish v .classFile) _⟩

/-- **What any visitor is told of a class keeps to the protocol.** It is the
beginning of a word, and the word is complete exactly if nothing failed, which
is exactly if the visitor is told that the class ends. Where something fails,
the walk stops. Cut it behind any of its steps – the header, the annotations on
the class, on one of its type parameters or supertypes, a member – or inside of
one, in the middle of a member, an annotation or an array: if what lies before
the cut ends in an error, the visitor is told that much and no more, and the
whole ends with that error and in that state. -/
theorem classScript_keeps_protocol {id : ClassId} {c : ClassDeclaration}
    (hc : p.classOf id = .ok c) (options : WriteOptions) :
    ∃ script, p.classScript id options = .ok script ∧
      ∀ {State : Type} (v : Visitor State) (s : State),
        let told := v.visits script s
        let outcome := (v.run script s).2
        (v.run script s).1 = (told.map Visit.event).foldl v.visit s
          ∧ v.Answers s told
          ∧ (∃ rest, told ++ rest ∈ classFile c options)
          ∧ (outcome = .ok () ↔ told ∈ classFile c options)
          ∧ (outcome = .ok () ↔ Visit.finish .classFile ∈ told)
          ∧ ∀ begun, p.Beginning (.classFile id c options) begun →
            ∀ t e, v.run begun s = (t, .error e) →
              told = v.visits begun s ∧ v.run script s = (t, .error e) := by
  refine ⟨_, p.classScript_of_classOf hc options, fun v s => ?_⟩
  obtain ⟨hrest, hword, hend⟩ := p.classTelling_tells (v.tells (p.classTelling id c options) s)
  exact ⟨v.run_fst _ s, p.classTelling_answers v s, hrest,
    ⟨hword, fun h => hend (finish_mem_of_mem_classFile h)⟩,
    ⟨fun h => finish_mem_of_mem_classFile (hword h), hend⟩,
    fun _ hbegun t e hrun => hbegun.stops _ v s t e hrun⟩

/-- Two classes that are broken off. In one a method is announced and declined, a
field is told with what is written on it, and the next field is of an unknown type.
In the other the value of an annotation on the class is of an unknown type: the
walk has come as far as the opening of that annotation, and nothing of what the
class extends or contains is told any more. -/
theorem classScript_keeps_protocol_broken :
    let m : MethodDeclaration :=
      { name := "m", isConstructor := false, modifiers := [], isVarargs := false,
        typeParameters := [], parameters := [], result := .void, thrown := [],
        annotations := [.retention .source] }
    let f (name : String) (type : JavaType) : Member :=
      .field { name, modifiers := [.static], type, initializer := none,
               annotations := [.target [.field]] }
    let c : ClassDeclaration :=
      { ClassDeclaration.bare .ordinary "pkg" "C" with
        members := [.method m, f "f" (.declared .string), f "g" (.declared (.plain ⟨9⟩))] }
    let a (elements : List Element) : Annotation := ⟨.plain ⟨7⟩, elements⟩
    let d : ClassDeclaration :=
      { ClassDeclaration.bare .ordinary "pkg" "D" with
        superclass := some ⟨⟨⟨0⟩, [], [a []]⟩, []⟩
        annotations := [a [⟨"type", .classLiteral (.declared (.plain ⟨9⟩))⟩]]
        members := [.method m] }
    let p : Program :=
      { Program.initial with
        classes := ((Program.initial.classes.push c).push
          (.bare .annotationType "pkg" "A")).push d }
    let wants : Event → Bool
      | .method _ => false
      | _ => true
    let v : Visitor (List Event) := ⟨fun told e => e :: told, fun _ e => wants e⟩
    let told : List Visit :=
      [⟨.header ⟨.default, .super, "pkg/C", none, some "java/lang/Object", []⟩, false⟩,
        ⟨.method ⟨.ofModifiers [], "m", "()V", none, []⟩, false⟩,
        ⟨.field ⟨.ofModifiers [.static], "f", "Ljava/lang/String;", none, none⟩, true⟩,
        ⟨.annotated ⟨"Ljava/lang/annotation/Target;", true⟩, true⟩,
        ⟨.array (some "value"), true⟩,
        ⟨.enumConstant none "Ljava/lang/annotation/ElementType;" "FIELD", false⟩,
        .finish .array, .finish .annotated, .finish .field]
    let toldOther : List Visit :=
      [⟨.header ⟨.default, .super, "pkg/D", none, some "java/lang/Object", []⟩, false⟩,
        ⟨.annotated ⟨"Lpkg/A;", false⟩, true⟩]
    p.classOf ⟨6⟩ = .ok c
      ∧ p.classOf ⟨8⟩ = .ok d
      ∧ (∃ script, p.classScript ⟨6⟩ .default = .ok script
        ∧ v.visits script [] = told
        ∧ (v.run script []).2 = .error (.unresolvedClass ⟨9⟩)
        ∧ (∃ rest, told ++ rest ∈ classFile c .default)
        ∧ Visit.finish .classFile ∉ told)
      ∧ ∃ script, p.classScript ⟨8⟩ .default = .ok script
        ∧ v.visits script [] = toldOther
        ∧ (v.run script []).2 = .error (.unresolvedClass ⟨9⟩) := by
  intro m f c a d p wants v told toldOther
  have hc : p.classOf ⟨6⟩ = .ok c := rfl
  have hd : p.classOf ⟨8⟩ = .ok d := rfl
  refine ⟨hc, hd, ?_, ?_⟩
  · obtain ⟨script, hscript, hkeeps⟩ := p.classScript_keeps_protocol hc .default
    obtain ⟨-, -, hrest, -, hend, -⟩ := hkeeps v []
    cases Except.ok.inj ((p.classScript_of_classOf hc .default).symm.trans hscript)
    have htold : v.visits (p.classTelling ⟨6⟩ c .default) [] = told := by decide +kernel
    have herror : (v.run (p.classTelling ⟨6⟩ c .default) []).2
        = .error (.unresolvedClass ⟨9⟩) := by decide +kernel
    refine ⟨_, hscript, htold, herror, htold ▸ hrest, fun hmem => ?_⟩
    cases herror.symm.trans (hend.mpr (htold ▸ hmem))
  · -- the walk is cut behind its second step, the annotations on the class
    obtain ⟨script, hscript, hkeeps⟩ := p.classScript_keeps_protocol hd .default
    obtain ⟨-, -, -, -, -, hstops⟩ := hkeeps v []
    let begun := sequence ((p.classSteps ⟨8⟩ d .default).take 2)
    have hbegun : p.Beginning (.classFile ⟨8⟩ d .default) begun :=
      .steps (List.take_append_drop 2 _).symm
    have hrun : v.run begun []
        = ((toldOther.map Visit.event).reverse, .error (.unresolvedClass ⟨9⟩)) := by
      decide +kernel
    obtain ⟨htold, herror⟩ := hstops begun hbegun _ _ hrun
    have hvisits : v.visits begun [] = toldOther := by decide +kernel
    exact ⟨script, hscript, htold.trans hvisits, congrArg Prod.snd herror⟩

end Program

end ClassFile
