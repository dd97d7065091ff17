import ClassFile.Proofs.Growth
import ClassFile.Signature.Declaration

/-!
# What was written stays written

Descriptors and signatures are found by recursion on types, through the names and
the erasure of classes and type parameters that may be added in any order. Each
of the functions that find them keeps its answers when the program grows, as soon
as the functions it calls do, and so all of them do
(`Program.Grows.keeps_answers`): a descriptor or a signature that could be
written is the same in the larger program, and what could not be written for a
reason that lies in the declarations themselves – bounds in a circle, a class
within itself, a wildcard where none may be – still cannot be.
-/

namespace ClassFile

namespace Program.Extends

variable {p q : Program}

theorem internalName (h : Extends p q) (id : ClassId) :
    Kept (p.internalName id) (q.internalName id) := h.nameOf .internal id

/-! ## Types

What a type is written with are names of classes and, in a descriptor,
erasures. Both are kept, and what is made of them is the same in both
programs, so that the proofs follow the definitions call by call. -/

mutual

/-- **The signature of a type is kept,** by recursion on the type. -/
theorem typeCalls (h : Extends p q) : ∀ t : JavaType, Kept (p.typeCalls t) (q.typeCalls t)
  | .array t | .wildcardExtends t | .wildcardSuper t => by
    rw [Program.typeCalls, Program.typeCalls]
    exact (h.typeCalls t).bind fun _ => .refl _
  | .declared ⟨⟨id, arguments, _⟩, outer⟩ => by
    rw [Program.typeCalls, Program.typeCalls]
    exact (h.headCalls id outer).bind fun _ => (h.argumentCalls arguments).bind fun _ => .refl _
  | .typeVariable id _ => by
    rw [Program.typeCalls, Program.typeCalls]
    exact (h.typeParameterOf id).bind fun _ => .refl _
  | .primitive _ | .void | .wildcard | .intersection _ => .refl _

theorem argumentCalls (h : Extends p q) :
    ∀ ts : List JavaType, Kept (p.argumentCalls ts) (q.argumentCalls ts)
  | [] => .refl _
  | t :: ts => by
    rw [Program.argumentCalls, Program.argumentCalls]
    exact (h.typeCalls t).bind fun _ => (h.argumentCalls ts).bind fun _ => .refl _

theorem headCalls (h : Extends p q) (id : ClassId) :
    ∀ outer : List ClassPart, Kept (p.headCalls id outer) (q.headCalls id outer)
  | [] => (h.internalName id).bind fun _ => .refl _
  | ⟨outerId, arguments, annotations⟩ :: further => by
    rw [Program.headCalls, Program.headCalls]
    split
    · exact (h.headCalls outerId further).bind fun _ => (h.argumentCalls arguments).bind fun _ =>
        (h.classOf id).bind fun _ => .refl _
    · exact (h.internalName id).bind fun _ => .refl _

end

theorem erasedCalls (h : Extends p q) (terminated : Bool) (e : ErasedType) :
    Kept (p.erasedCalls terminated e) (q.erasedCalls terminated e) := by
  unfold Program.erasedCalls
  cases e.element with
  | primitive b => exact .refl _
  | void => exact .refl _
  | declared id => exact (h.internalName id).bind fun _ => .refl _

/-- **The descriptor of a type is kept.** -/
theorem descriptorCalls (h : Extends p q) (terminated : Bool) :
    ∀ t : JavaType, Kept (p.descriptorCalls terminated t) (q.descriptorCalls terminated t)
  | .array t => (h.descriptorCalls terminated t).bind fun _ => .refl _
  | .declared _ => h.erasedCalls terminated _
  | .typeVariable id annotations => (h.erasure (.typeVariable id annotations)).bind fun e =>
      h.erasedCalls terminated e
  | .intersection members => (h.erasure (.intersection members)).bind fun e =>
      h.erasedCalls terminated e
  | .primitive _ | .void | .wildcard | .wildcardExtends _ | .wildcardSuper _ => .refl _

/-! ## Type parameters

Whether a bound is an interface is looked up in the program, too. An answer to
that is kept like any other. -/

theorem boundCalls (h : Extends p q) (bound : JavaType) :
    Kept (p.boundCalls bound) (q.boundCalls bound) :=
  (h.isInterface bound).bind fun _ => (h.typeCalls bound).bind fun _ => .refl _

/-- **The declaration of a type parameter is kept.** -/
theorem formalCalls (h : Extends p q) (declared : List TypeParameterId) (id : TypeParameterId) :
    Kept (p.formalCalls declared id) (q.formalCalls declared id) := by
  refine (h.typeParameterOf id).bind fun parameter => ?_
  split
  · exact .refl _
  · split
    · exact .refl _
    · exact (Kept.mapM h.boundCalls parameter.bounds).bind fun _ => .refl _

theorem formalsCalls (h : Extends p q) :
    ∀ (types : List JavaType) (declared : List TypeParameterId),
    Kept (p.formalsCalls declared types) (q.formalsCalls declared types)
  | [], _ => .refl _
  | .typeVariable id _ :: ts, declared => (h.formalCalls declared id).bind fun _ =>
      (h.formalsCalls ts (id :: declared)).bind fun _ => .refl _
  | .primitive _ :: _, _ | .void :: _, _ | .array _ :: _, _ | .declared _ :: _, _
  | .wildcard :: _, _ | .wildcardExtends _ :: _, _ | .wildcardSuper _ :: _, _
  | .intersection _ :: _, _ => .refl _

/-! ## Modes -/

theorem declaringCalls (h : Extends p q) :
    ∀ t : JavaType, Kept (p.declaringCalls t) (q.declaringCalls t)
  | .array t => (h.declaringCalls t).bind fun _ => .refl _
  | .typeVariable id _ => h.formalCalls [] id
  | .declared t => h.typeCalls (.declared t)
  | .wildcardExtends t => h.typeCalls (.wildcardExtends t)
  | .wildcardSuper t => h.typeCalls (.wildcardSuper t)
  | .primitive _ | .void | .wildcard | .intersection _ => .refl _

theorem segmentCalls (h : Extends p q) :
    ∀ t : JavaType, Kept (p.segmentCalls t) (q.segmentCalls t)
  | .array t => (h.segmentCalls t).bind fun _ => .refl _
  | .declared t => (h.classOf t.id).bind fun _ =>
      (h.argumentCalls t.part.arguments).bind fun _ => .refl _
  | .typeVariable id annotations => h.typeCalls (.typeVariable id annotations)
  | .wildcardExtends t => h.typeCalls (.wildcardExtends t)
  | .wildcardSuper t => h.typeCalls (.wildcardSuper t)
  | .primitive _ | .void | .wildcard | .intersection _ => .refl _

theorem calls (h : Extends p q) (t : JavaType) :
    ∀ mode : EncodingMode, Kept (p.calls t mode) (q.calls t mode)
  | .descriptor => h.descriptorCalls true t
  | .descriptorUnterminated => h.descriptorCalls false t
  | .signature => h.typeCalls t
  | .signatureWithBounds => h.declaringCalls t
  | .signatureSimple => h.segmentCalls t

/-- **The text of a type in any mode is kept.** -/
theorem encode (h : Extends p q) (t : JavaType) (mode : EncodingMode) :
    Kept (p.encode t mode) (q.encode t mode) := (h.calls t mode).map

/-- The name of a thrown type is kept, and that it is no class. -/
theorem thrownName (h : Extends p q) (t : JavaType) : Kept (p.thrownName t) (q.thrownName t) := by
  refine (h.erasure t).bind fun e => ?_
  obtain ⟨layers, element⟩ := e
  cases layers with
  | succ n => exact .refl _
  | zero =>
    cases element with
    | declared id => exact h.internalName id
    | primitive b => exact .refl _
    | void => exact .refl _

/-! ## Methods and classes -/

theorem shapeCalls (h : Extends p q) (parameters : List JavaType) (result : JavaType)
    (mode : EncodingMode) :
    Kept (p.shapeCalls parameters result mode) (q.shapeCalls parameters result mode) :=
  (Kept.mapM (fun t => (h.calls t mode).bind fun _ => .refl _) parameters).bind fun _ =>
    (h.calls result mode).bind fun _ => .refl _

theorem methodCalls (h : Extends p q) (typeParameters parameters : List JavaType)
    (result : JavaType) (mode : EncodingMode) :
    Kept (p.methodCalls typeParameters parameters result mode)
      (q.methodCalls typeParameters parameters result mode) := by
  unfold Program.methodCalls
  split
  · exact h.shapeCalls parameters result .descriptor
  · exact (h.formalsCalls typeParameters []).bind fun _ =>
      (h.shapeCalls parameters result .signature).bind fun _ => .refl _

/-- **The text of a method in any mode is kept.** -/
theorem encodeMethod (h : Extends p q) (typeParameters parameters : List JavaType)
    (result : JavaType) (mode : EncodingMode) :
    Kept (p.encodeMethod typeParameters parameters result mode)
      (q.encodeMethod typeParameters parameters result mode) :=
  (h.methodCalls typeParameters parameters result mode).map

theorem thrownCalls (h : Extends p q) (m : MethodDeclaration) :
    Kept (p.thrownCalls m) (q.thrownCalls m) := by
  unfold Program.thrownCalls
  split
  · exact (Kept.mapM (fun t => (h.typeCalls t).bind fun _ => .refl _) m.thrown).bind fun _ =>
      .refl _
  · exact .refl _

/-- **The signature of a method is kept.** -/
theorem methodSignature (h : Extends p q) (m : MethodDeclaration) :
    Kept (p.methodSignature m) (q.methodSignature m) :=
  (h.methodCalls _ _ _ _).bind fun _ => (h.thrownCalls m).bind fun _ => .refl _

theorem declarationCalls (h : Extends p q) (c : ClassDeclaration) :
    Kept (p.declarationCalls c) (q.declarationCalls c) :=
  (h.formalsCalls _ []).bind fun _ => (h.typeCalls _).bind fun _ =>
    (Kept.mapM (fun t => (h.typeCalls (.declared t)).bind fun _ => .refl _) c.interfaces).bind
      fun _ => .refl _

/-- **The signature of a class is kept,** and that it has none. -/
theorem classSignature? (h : Extends p q) (id : ClassId) :
    Kept (p.classSignature? id) (q.classSignature? id) := by
  refine (h.classOf id).bind fun c => ?_
  split
  · exact (h.declarationCalls c).bind fun _ => .refl _
  · exact .refl _

end Program.Extends

namespace Program

variable {p q : Program}

/-- **A program that grows keeps its answers.** Names, erasures, descriptors and
signatures are what they were, and so is the reason where there are none, unless
it was that a handle names nothing: bounds in a circle stay a circle, and a class
within itself stays there. -/
theorem Grows.keeps_answers (h : p.Grows q) :
    (∀ id : ClassId, Kept (p.internalName id) (q.internalName id)
      ∧ Kept (p.qualifiedName id) (q.qualifiedName id)
      ∧ Kept (p.classSignature? id) (q.classSignature? id))
    ∧ (∀ t : JavaType, Kept (p.erasure t) (q.erasure t)
      ∧ Kept (p.isInterface t) (q.isInterface t)
      ∧ (∀ mode, Kept (p.encode t mode) (q.encode t mode))
      ∧ Kept (p.thrownName t) (q.thrownName t))
    ∧ (∀ t : ClassType, Kept (p.classDescriptor t) (q.classDescriptor t))
    ∧ (∀ (typeParameters parameters : List JavaType) (result : JavaType) (mode : EncodingMode),
      Kept (p.encodeMethod typeParameters parameters result mode)
        (q.encodeMethod typeParameters parameters result mode))
    ∧ ∀ m : MethodDeclaration, Kept (p.methodDescriptor m) (q.methodDescriptor m)
      ∧ Kept (p.methodSignature m) (q.methodSignature m) := by
  have e := h.extends
  exact ⟨fun id => ⟨e.internalName id, e.nameOf .qualified id, e.classSignature? id⟩,
    fun t => ⟨e.erasure t, e.isInterface t, e.encode t, e.thrownName t⟩,
    fun t => e.encode (.declared t) .descriptor, e.encodeMethod,
    fun m => ⟨e.encodeMethod [] m.parameterTypes m.result .descriptor, e.methodSignature m⟩⟩

/-- A class within itself, a class within one that is added later, and a type
parameter that is its own bound. -/
theorem Grows.keeps_answers_forward :
    let nested (name : String) (outer : Nat) : ClassDeclaration :=
      { ClassDeclaration.bare .ordinary "" name with enclosing := some ⟨outer⟩ }
    let p : Program :=
      { classes := Program.initial.classes ++ #[nested "A" 6, nested "B" 8]
        typeParameters := #[⟨"T", .ofParameter ⟨0⟩, none, []⟩] }
    let q := ((p.addClass (.bare .ordinary "a" "C")).1.addTypeParameter "U" (.ofParameter ⟨9⟩)).1
    p.Grows q
      ∧ q.internalName ⟨6⟩ = .error (.unsupported .selfNesting)
      ∧ q.typeDescriptor (.ofParameter ⟨0⟩) = .error (.cyclicBound "T")
      ∧ q.typeSignature (.array (.ofParameter ⟨0⟩)) = .ok "[TT;"
      ∧ p.internalName ⟨7⟩ = .error (.unresolvedClass ⟨8⟩)
      ∧ q.internalName ⟨7⟩ = .ok "a/C$B" := by
  intro nested p q
  have hgrows : p.Grows q := .addTypeParameter (.addClass .refl _) _ _
  obtain ⟨hclasses, htypes, _⟩ := hgrows.keeps_answers
  have hself := (hclasses ⟨6⟩).1
  have hcycle : Kept (p.typeDescriptor (.ofParameter ⟨0⟩)) (q.typeDescriptor (.ofParameter ⟨0⟩)) :=
    (htypes _).2.2.1 .descriptor
  have htext : Kept (p.typeSignature (.array (.ofParameter ⟨0⟩)))
      (q.typeSignature (.array (.ofParameter ⟨0⟩))) := (htypes _).2.2.1 .signature
  rw [show p.internalName ⟨6⟩ = .error (.unsupported .selfNesting) by decide +kernel] at hself
  rw [show p.typeDescriptor (.ofParameter ⟨0⟩) = .error (.cyclicBound "T") by cbv] at hcycle
  rw [show p.typeSignature (.array (.ofParameter ⟨0⟩)) = .ok "[TT;" by decide +kernel] at htext
  exact ⟨hgrows, hself.eq_error rfl, hcycle.eq_error rfl, htext.eq_ok, by decide +kernel,
    by decide +kernel⟩

end Program

end ClassFile
