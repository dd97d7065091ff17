import ClassFile.Proofs.Walk.Protocol

/-!
# Nothing is announced that cannot be encoded

A class, a field and a method are each announced by one event, and what that event
says has to be found first: names, descriptors, signatures, a constant. Some of it may
fail. The errors that it fails with, in the order in which the values are found, are a
list (`Program.classFailures` and its like), and the list decides what becomes of the
announcement (`Visitor.Announces`). If it is empty, the visitor is told the event with
exactly these values. If it is not, the visitor is told nothing and left as it was, and
the error is the first in the list.

That holds of a member by itself and of one in the middle of a class, where the visitor
has been told of the class and of earlier members already. The script of a class is cut
in front of the member (`Program.classTelling_eq_begun_append`): the visitor either does
not get as far, or comes to the member in the state in which the first part has left it.
-/

namespace ClassFile

variable {α β State : Type}

/-! ## What is found, and what fails

The failures of a computation are listed in the order in which they would be
met, also those that are not met because there is one before them. So the list
can be put together from those of the parts, and the first in it is what the
computation fails with. -/

/-- The error that a computation fails with, as a list. -/
def failureOf : Except Error α → List Error
  | .ok _ => []
  | .error e => [e]

/-- **What a computation comes to** that can fail in several ways: the first failure,
or a result of which something is known if there is none. -/
def Finds (x : Except Error α) (failures : List Error) (known : α → Prop) : Prop :=
  match failures with
  | e :: _ => x = .error e
  | [] => ∃ a, x = .ok a ∧ known a

namespace Finds

variable {x : Except Error α} {failures others : List Error} {known : α → Prop}

/-- A computation by itself. -/
theorem of (x : Except Error α) : Finds x (failureOf x) fun a => x = .ok a := by
  cases x with
  | ok a => exact ⟨a, rfl, rfl⟩
  | error e => rfl

theorem pure {a : α} (h : known a) : Finds (.ok a) [] known := ⟨a, rfl, h⟩

/-- What goes on from a result fails where the first computation does, or where the
second does. -/
theorem bind {f : α → Except Error β} {known' : β → Prop} (h : Finds x failures known)
    (k : ∀ a, known a → Finds (f a) others known') :
    Finds (x >>= f) (failures ++ others) known' := by
  cases failures with
  | nil =>
    obtain ⟨a, rfl, ha⟩ := h
    exact k a ha
  | cons e failures =>
    cases h
    rfl

/-- The failures of the last computation are the last ones. -/
theorem bind_pure {f : α → β} {known' : β → Prop} (h : Finds x failures known)
    (k : ∀ a, known a → known' (f a)) : Finds (do return f (← x)) failures known' := by
  have hbind : Finds (do return f (← x)) (failures ++ []) known' := h.bind fun a ha => pure (k a ha)
  rwa [List.append_nil] at hbind

/-- A computation that is only made if its result is needed. -/
theorem ofNeeded (needed : Bool) (x : Except Error α) :
    Finds (if needed then x.map some else .ok none) (if needed then failureOf x else [])
      fun o => if needed then ∃ a, x = .ok a ∧ o = some a else o = none := by
  cases needed with
  | false => exact pure rfl
  | true =>
    cases x with
    | ok a => exact pure ⟨a, rfl, rfl⟩
    | error e => rfl

/-- **The results of computations on a list,** by induction on the list: the failures
are those of the items, in their order. -/
theorem mapM (f : α → Except Error β) (l : List α) :
    Finds (l.mapM f) (l.flatMap fun a => failureOf (f a))
      fun bs => List.Forall₂ (fun a b => f a = .ok b) l bs := by
  induction l with
  | nil => exact pure .nil
  | cons a l ih =>
    rw [List.mapM_cons]
    exact (of (f a)).bind fun b hb => ih.bind_pure fun bs hbs => .cons hb hbs

end Finds

/-! ## Headers

What is said about a class, a field or a method is compared with what is found
for it, value by value. A signature is left out where none is needed, and then
it cannot fail. -/

/-- **What is said about a class** is what is found for it. -/
structure Header.Describes (h : Header) (p : Program) (id : ClassId) (c : ClassDeclaration)
    (options : WriteOptions) : Prop where
  version : h.version = options.version
  access : h.access = c.access options
  name : p.internalName id = .ok h.name
  signature : p.classSignature? id = .ok h.signature
  superName : p.superName id c = .ok h.superName
  interfaces : List.Forall₂ (fun t name => p.internalName t.id = .ok name) c.interfaces h.interfaces

/-- What is said about a field is what is found for it. There is a signature exactly if the
type is generic, and then it is that of the type. -/
structure FieldHeader.Describes (h : FieldHeader) (p : Program) (f : FieldDeclaration) :
    Prop where
  access : h.access = f.access
  name : h.name = f.name
  descriptor : p.typeDescriptor f.type = .ok h.descriptor
  signature : if f.type.isGeneric then
      ∃ s, p.typeSignature f.type = .ok s ∧ h.signature = some s
    else h.signature = none
  constant : p.fieldConstant f.isStaticFinal f.type f.initializer = .ok h.constant

/-- What is said about a method is what is found for it. There is a signature exactly if the
method needs one. -/
structure MethodHeader.Describes (h : MethodHeader) (p : Program) (m : MethodDeclaration) :
    Prop where
  access : h.access = m.access
  name : h.name = m.name
  descriptor : p.methodDescriptor m = .ok h.descriptor
  signature : if m.needsSignature then
      ∃ s, p.methodSignature m = .ok s ∧ h.signature = some s
    else h.signature = none
  thrown : List.Forall₂ (fun t name => p.thrownName t = .ok name) m.thrown h.thrown

namespace Program

variable (p : Program)

/-- **What fails about a class:** its name, its signature, the name of its superclass
and the names of its interfaces. -/
def classFailures (id : ClassId) (c : ClassDeclaration) : List Error :=
  failureOf (p.internalName id) ++ (failureOf (p.classSignature? id)
    ++ (failureOf (p.superName id c)
      ++ c.interfaces.flatMap fun t => failureOf (p.internalName t.id)))

/-- What fails about a field: its descriptor, its signature if its type is generic, and its
constant. -/
def fieldFailures (f : FieldDeclaration) : List Error :=
  failureOf (p.typeDescriptor f.type)
    ++ ((if f.type.isGeneric then failureOf (p.typeSignature f.type) else [])
      ++ failureOf (p.fieldConstant f.isStaticFinal f.type f.initializer))

/-- What fails about a method: its descriptor, its signature if it needs one, and the names
of the types that it throws. -/
def methodFailures (m : MethodDeclaration) : List Error :=
  failureOf (p.methodDescriptor m)
    ++ ((if m.needsSignature then failureOf (p.methodSignature m) else [])
      ++ m.thrown.flatMap fun t => failureOf (p.thrownName t))

theorem classHeader_finds (id : ClassId) (c : ClassDeclaration) (options : WriteOptions) :
    Finds (p.classHeader id c options) (p.classFailures id c)
      fun h => h.Describes p id c options :=
  (Finds.of _).bind fun _ hname => (Finds.of _).bind fun _ hsignature =>
    (Finds.of _).bind fun _ hsuper => (Finds.mapM _ _).bind_pure fun _ hinterfaces =>
      ⟨rfl, rfl, hname, hsignature, hsuper, hinterfaces⟩

theorem fieldHeader_finds (f : FieldDeclaration) :
    Finds (p.fieldHeader f) (p.fieldFailures f) fun h => h.Describes p f :=
  (Finds.of _).bind fun _ hdescriptor => (Finds.ofNeeded _ _).bind fun _ hsignature =>
    (Finds.of _).bind_pure fun _ hconstant => ⟨rfl, rfl, hdescriptor, hsignature, hconstant⟩

theorem methodHeader_finds (m : MethodDeclaration) :
    Finds (p.methodHeader m) (p.methodFailures m) fun h => h.Describes p m :=
  (Finds.of _).bind fun _ hdescriptor => (Finds.ofNeeded _ _).bind fun _ hsignature =>
    (Finds.mapM _ _).bind_pure fun _ hthrown => ⟨rfl, rfl, hdescriptor, hsignature, hthrown⟩

end Program

/-! ## Announcements

Nothing is said of what is told after an announcement, and this makes it
possible to put any script behind one that announces something. -/

/-- **What becomes of an announcement.** A visitor is told a script and has been told
some of it, which has left it in a state. If something fails that is to be announced,
it is told nothing more, it stays in that state, and the outcome is the first failure.
If nothing fails, it is told next what is to be announced. -/
def Visitor.Announces (v : Visitor State) (script : Script) (s : State) (told : List Visit)
    (t : State) (failures : List Error) (opens : Event → Prop) : Prop :=
  match failures with
  | e :: _ => v.visits script s = told ∧ v.run script s = (t, .error e)
  | [] => ∃ opening rest, opens opening
    ∧ v.visits script s
      = told ++ ⟨opening, opening.opensScope && v.wants t opening⟩ :: rest

namespace Visitor

variable {v : Visitor State} {a b : Script} {s t t' : State} {told : List Visit}
  {failures : List Error} {opens : Event → Prop}

/-- **A script that needs something to announce,** and announces it. -/
theorem announces_given {x : Except Error α} {P : α → Prop} {f : α → Script} {opening : α → Event}
    (hx : Finds x failures P)
    (hf : ∀ y, ∃ rest, v.visits (f y) s
      = ⟨opening y, (opening y).opensScope && v.wants s (opening y)⟩ :: rest) :
    v.Announces (.given x f) s [] s failures fun o => ∃ y, P y ∧ o = opening y := by
  cases failures with
  | nil =>
    obtain ⟨y, rfl, hy⟩ := hx
    obtain ⟨rest, hrest⟩ := hf y
    exact ⟨opening y, rest, ⟨y, hy, rfl⟩, hrest⟩
  | cons e failures =>
    cases hx
    exact ⟨rfl, rfl⟩

/-- What follows an announcement does not matter to it. -/
theorem Announces.append_right (h : v.Announces a s told t failures opens) (b : Script) :
    v.Announces (a ++ b) s told t failures opens := by
  cases failures with
  | nil =>
    obtain ⟨opening, rest, hopens, hvisits⟩ := h
    have hboth := v.visits_append a b s
    rw [hvisits, List.append_assoc, List.cons_append] at hboth
    exact ⟨opening, _, hopens, hboth⟩
  | cons e failures =>
    obtain ⟨hvisits, hrun⟩ := h
    obtain ⟨htold, hend⟩ := Script.StopsWith.append a b State v s t e hrun
    exact ⟨htold.trans hvisits, hend⟩

/-- **An announcement behind what has been told already.** -/
theorem Announces.append_left (h : v.Announces b t [] t failures opens)
    (ha : v.run a s = (t, .ok ())) :
    v.Announces (a ++ b) s (v.visits a s) t failures opens := by
  have hvisits : v.visits (a ++ b) s = v.visits a s ++ v.visits b t := by
    rw [v.visits_append, ha]
  cases failures with
  | nil =>
    obtain ⟨opening, rest, hopens, hrest⟩ := h
    exact ⟨opening, rest, hopens, hvisits.trans (congrArg _ hrest)⟩
  | cons e failures =>
    obtain ⟨hnothing, hrun⟩ := h
    rw [hnothing, List.append_nil] at hvisits
    refine ⟨hvisits, ?_⟩
    rw [v.run_append, ha]
    exact hrun

/-- The event that opens a scope is told with the answer to it. -/
theorem visits_scope_eq_cons (v : Visitor State) {o : Event} (ho : o.opensScope = true)
    (content next : Script) (s : State) :
    ∃ rest, v.visits (.scope o content next) s = ⟨o, o.opensScope && v.wants s o⟩ :: rest := by
  rw [v.visits_scope, ho]
  cases v.wants s o with
  | true => exact ⟨_, rfl⟩
  | false => exact ⟨_, rfl⟩

end Visitor

/-! ## Classes that are cut in two

What stands in front of a member is told whether or not the member can be
announced. -/

namespace Program

open Script

variable (p : Program)

/-- **What is told of a class up to a member,** given the members in front of it. -/
def classBegun (id : ClassId) (c : ClassDeclaration) (options : WriteOptions)
    (before : List Member) : Script :=
  .given (p.classHeader id c options) fun header =>
    .tell (.header header) (p.classInside { c with members := before })

/-- **The script of a class is cut in front of a member.** -/
theorem classTelling_eq_begun_append (id : ClassId) {c : ClassDeclaration} (options : WriteOptions)
    {before after : List Member} {member : Member} (h : c.members = before ++ member :: after) :
    ∃ rest, p.classTelling id c options
      = p.classBegun id c options before ++ (p.memberScript member ++ rest) := by
  refine ⟨forEach after p.memberScript ++ .tell (.finish .classFile) .done, ?_⟩
  have hinside : p.classInside c
      = p.classInside { c with members := before }
        ++ (p.memberScript member ++ forEach after p.memberScript) := by
    show _ ++ forEach c.members p.memberScript = _ ++ forEach before p.memberScript ++ _
    rw [h, forEach_append]
    exact (append_assoc _ _ _).symm
  rw [classTelling, classBegun, given_append]
  refine congrArg _ (funext fun header => congrArg (tell (.header header)) ?_)
  show p.classInside c ++ .tell (.finish .classFile) .done = p.classInside _ ++ _
  rw [hinside, append_assoc, append_assoc]

/-! ## What is announced -/

/-- A field is announced by the visitor's being told what there is to say about it. -/
theorem fieldScript_announces (f : FieldDeclaration) (v : Visitor State) (s : State) :
    v.Announces (p.fieldScript f) s [] s (p.fieldFailures f)
      fun o => ∃ h : FieldHeader, h.Describes p f ∧ o = .field h :=
  Visitor.announces_given (p.fieldHeader_finds f) fun _ => v.visits_scope_eq_cons rfl _ _ s

theorem methodScript_announces (m : MethodDeclaration) (v : Visitor State) (s : State) :
    v.Announces (p.methodScript m) s [] s (p.methodFailures m)
      fun o => ∃ h : MethodHeader, h.Describes p m ∧ o = .method h :=
  Visitor.announces_given (p.methodHeader_finds m) fun _ => v.visits_scope_eq_cons rfl _ _ s

theorem classTelling_announces (id : ClassId) (c : ClassDeclaration) (options : WriteOptions)
    (v : Visitor State) (s : State) :
    v.Announces (p.classTelling id c options) s [] s (p.classFailures id c)
      fun o => ∃ h : Header, h.Describes p id c options ∧ o = .header h :=
  Visitor.announces_given (p.classHeader_finds id c options) fun _ => ⟨_, rfl⟩

/-- **Nothing is announced that cannot be encoded.** A class of which something fails
that is said in its header is not told at all; otherwise the header is told first, with
what was found. A walk over the class either breaks off before a member, or it comes to
the member, and then it is with the member as with a member by itself: the visitor is
told of the field or method next, with what was found, exactly if none of it fails, and
otherwise the walk ends there, with the first failure and with the visitor as it was. -/
theorem announced_iff_encodable (p : Program) {State : Type} (v : Visitor State) (s : State) :
    (∀ (id : ClassId) (options : WriteOptions),
      (∀ e, p.classOf id = .error e → p.classScript id options = .error e)
        ∧ ∀ c, p.classOf id = .ok c → ∃ script, p.classScript id options = .ok script
          ∧ v.Announces script s [] s (p.classFailures id c)
            (fun o => ∃ h : Header, h.Describes p id c options ∧ o = .header h)
          ∧ ∀ before member after, c.members = before ++ member :: after →
            let begun := p.classBegun id c options before
            (∀ t e, v.run begun s = (t, .error e) →
              v.visits script s = v.visits begun s ∧ v.run script s = (t, .error e))
            ∧ ∀ t, v.run begun s = (t, .ok ()) →
              (∀ f, member = .field f →
                v.Announces script s (v.visits begun s) t (p.fieldFailures f)
                  fun o => ∃ h : FieldHeader, h.Describes p f ∧ o = .field h)
              ∧ ∀ m, member = .method m →
                v.Announces script s (v.visits begun s) t (p.methodFailures m)
                  fun o => ∃ h : MethodHeader, h.Describes p m ∧ o = .method h)
      ∧ (∀ f, v.Announces (p.fieldScript f) s [] s (p.fieldFailures f)
        fun o => ∃ h : FieldHeader, h.Describes p f ∧ o = .field h)
      ∧ ∀ m, v.Announces (p.methodScript m) s [] s (p.methodFailures m)
        fun o => ∃ h : MethodHeader, h.Describes p m ∧ o = .method h := by
  refine ⟨fun id options => ⟨fun e he => ?_, fun c hc => ?_⟩,
    fun f => p.fieldScript_announces f v s, fun m => p.methodScript_announces m v s⟩
  · rw [classScript, he]
    rfl
  · refine ⟨_, p.classScript_of_classOf hc options, p.classTelling_announces id c options v s,
      fun before member after hmembers => ?_⟩
    obtain ⟨rest, hcut⟩ := p.classTelling_eq_begun_append id options hmembers
    rw [hcut]
    refine ⟨fun t e he => StopsWith.append _ _ _ v s t e he, fun t ht => ⟨?_, ?_⟩⟩
    · rintro f rfl
      exact ((p.fieldScript_announces f v t).append_right rest).append_left ht
    · rintro m rfl
      exact ((p.methodScript_announces m v t).append_right rest).append_left ht

/-- A class with a field and a method that need signatures, and a second method that throws
a primitive type and a type that is not known, told to somebody who declines everything.
The walk comes to the second method and ends there, with what is wrong about the first of
the two types. A field by itself that has a descriptor is not announced either if there is
no signature for it. -/
theorem announced_iff_encodable_second_method :
    let parameterized (argument : JavaType) : JavaType := .declared ⟨⟨.object, [argument], []⟩, []⟩
    let f (name : String) (type : JavaType) : FieldDeclaration :=
      { name, modifiers := [], type, initializer := none, annotations := [] }
    let g := f "g" (parameterized (.declared (.plain ⟨9⟩)))
    let m (name : String) (result : JavaType) (thrown : List JavaType) : MethodDeclaration :=
      { name, isConstructor := false, modifiers := [], isVarargs := false,
        typeParameters := [], parameters := [], result, thrown, annotations := [] }
    let first : List Member :=
      [.field (f "f" (parameterized .wildcard)), .method (m "first" (parameterized .wildcard) [])]
    let second := m "second" .void [.declared .object, .primitive .int, .declared (.plain ⟨9⟩)]
    let c : ClassDeclaration :=
      { ClassDeclaration.bare .ordinary "pkg" "C" with
        members := first ++ [.method second, .nested ⟨2⟩] }
    let p : Program := { Program.initial with classes := Program.initial.classes.push c }
    let v : Visitor (List Event) := ⟨fun told e => e :: told, fun _ _ => false⟩
    let begun : List Visit :=
      [⟨.header ⟨.default, .super, "pkg/C", none, some "java/lang/Object", []⟩, false⟩,
        ⟨.field ⟨.ofModifiers [], "f", "Ljava/lang/Object;", some "Ljava/lang/Object<*>;", none⟩,
          false⟩,
        ⟨.method ⟨.ofModifiers [], "first", "()Ljava/lang/Object;",
          some "()Ljava/lang/Object<*>;", []⟩, false⟩]
    p.classOf ⟨6⟩ = .ok c
      ∧ p.typeDescriptor g.type = .ok "Ljava/lang/Object;"
      ∧ p.fieldFailures g = [.unresolvedClass ⟨9⟩]
      ∧ (v.visits (p.fieldScript g) [] = []
        ∧ v.run (p.fieldScript g) [] = ([], .error (.unresolvedClass ⟨9⟩)))
      ∧ p.methodFailures second = [.unsupported .thrownNotClass, .unresolvedClass ⟨9⟩]
      ∧ (v.visits (p.methodScript second) [] = []
        ∧ v.run (p.methodScript second) [] = ([], .error (.unsupported .thrownNotClass)))
      ∧ ∃ script, p.classScript ⟨6⟩ .default = .ok script
        ∧ v.visits script [] = begun
        ∧ v.run script []
          = ((begun.map Visit.event).reverse, .error (.unsupported .thrownNotClass)) := by
  intro parameterized f g m first second c p v begun
  have hc : p.classOf ⟨6⟩ = .ok c := rfl
  have hfailures :
      p.methodFailures second = [.unsupported .thrownNotClass, .unresolvedClass ⟨9⟩] := by
    decide +kernel
  have hfield : p.fieldFailures g = [.unresolvedClass ⟨9⟩] := by decide +kernel
  obtain ⟨hclass, hfields, hmethods⟩ := announced_iff_encodable p v []
  obtain ⟨script, hscript, -, hmembers⟩ := (hclass ⟨6⟩ .default).2 c hc
  have hreached : v.run (p.classBegun ⟨6⟩ c .default first) []
      = ((begun.map Visit.event).reverse, .ok ()) := by decide +kernel
  have hbegun : v.visits (p.classBegun ⟨6⟩ c .default first) [] = begun := by decide +kernel
  -- the walk has come to the second method, where it goes on as with the method by itself
  have hannounces := ((hmembers first (.method second) [.nested ⟨2⟩] rfl).2 _ hreached).2 second rfl
  have halone := hmethods second
  have hunsigned := hfields g
  rw [hfailures] at hannounces halone
  rw [hfield] at hunsigned
  exact ⟨hc, by decide +kernel, hfield, hunsigned, hfailures, halone, script, hscript,
    hannounces.1.trans hbegun, hannounces.2⟩

end Program

end ClassFile
