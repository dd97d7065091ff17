import ClassFile.Proofs.WellFormed
import ClassFile.Signature.Declaration

/-!
# What can be written of a well-formed program

Descriptors and signatures are not found where a name or an erasure is not found,
or where a type stands in a place that has no form for it. In a well-formed
program neither happens: one function after another succeeds, in the order in
which they call each other.

Two kinds of types have only one of the two forms. A wildcard has a signature, as
the type argument that it is, but no descriptor; an intersection has a descriptor,
that of its first member, but no signature.
-/

namespace ClassFile

namespace Program

variable {p : Program}

/-! ## What is admitted with a declaration

What has been computed for a declaration as a whole is split into its parts by
name. -/

/-- What is admitted with a method. -/
structure AdmitsMethod (p : Program) (m : MethodDeclaration) : Prop where
  typeParameters : ∀ id ∈ m.typeParameters, p.knowsParameter id = true
  parameters : ∀ q ∈ m.parameters, p.admits false q.type = true ∧ p.admitsGroup q.annotations = true
  result : p.admits false m.result = true
  thrown : ∀ t ∈ m.thrown, p.admits false t = true
  annotations : p.admitsGroup m.annotations = true

/-- What is admitted with a class. -/
structure AdmitsClass (p : Program) (c : ClassDeclaration) : Prop where
  typeParameters : ∀ id ∈ c.typeParameters, p.knowsParameter id = true
  supertypes : ∀ t ∈ c.supertypes, p.admits false (.declared t) = true
  annotations : p.admitsGroup c.annotations = true
  fields : ∀ f, .field f ∈ c.members →
    p.admits false f.type = true ∧ p.admitsGroup f.annotations = true
  methods : ∀ m, .method m ∈ c.members → p.AdmitsMethod m

theorem admitsMethod_iff {m : MethodDeclaration} : p.admitsMethod m = true ↔ p.AdmitsMethod m := by
  simp only [admitsMethod, admitsParameter, Bool.and_eq_true, List.all_eq_true]
  exact ⟨fun ⟨⟨⟨⟨h₁, h₂⟩, h₃⟩, h₄⟩, h₅⟩ => ⟨h₁, h₂, h₃, h₄, h₅⟩,
    fun ⟨h₁, h₂, h₃, h₄, h₅⟩ => ⟨⟨⟨⟨h₁, h₂⟩, h₃⟩, h₄⟩, h₅⟩⟩

/-- The methods of a class are those of its members that are methods. -/
theorem mem_methods {c : ClassDeclaration} {m : MethodDeclaration} :
    m ∈ c.methods ↔ Member.method m ∈ c.members := by
  unfold ClassDeclaration.methods
  rw [List.mem_filterMap]
  constructor
  · rintro ⟨member, hmember, h⟩
    cases member with
    | method m' => exact Option.some.inj h ▸ hmember
    | field f => cases h
    | nested id => cases h
  · exact fun h => ⟨_, h, rfl⟩

/-- **All that a class of a well-formed program mentions is admitted.** -/
theorem IsWellFormed.admitsClass (wf : p.IsWellFormed) {c : ClassDeclaration}
    (hc : c ∈ p.classes) : p.AdmitsClass c := by
  have h := wf.classes c hc
  simp only [admitsDeclaration, Bool.and_eq_true, List.all_eq_true] at h
  obtain ⟨⟨⟨⟨_, htypeParameters⟩, hsupertypes⟩, hannotations⟩, hmembers⟩ := h
  refine ⟨htypeParameters, hsupertypes, hannotations, fun f hf => ?_,
    fun m hm => admitsMethod_iff.mp (hmembers _ hm)⟩
  have hfield := hmembers _ hf
  simpa only [admitsMember, admitsField, Bool.and_eq_true] using hfield

namespace IsWellFormed

theorem internalName_succeeds (wf : p.IsWellFormed) {id : ClassId} (h : p.knows id = true) :
    Succeeds (p.internalName id) := wf.nameOf_succeeds .internal h

/-! ## Signatures of types

A signature asks for the names of classes and type parameters, and no type
that is admitted has an intersection in it. -/

mutual

/-- **The signature of a type can be written,** by recursion on the type. -/
theorem typeCalls_succeeds (wf : p.IsWellFormed) : ∀ (t : JavaType) {asArgument : Bool},
    p.admits asArgument t = true → Succeeds (p.typeCalls t)
  | .primitive _, _, _ | .void, _, _ | .wildcard, _, _ => ⟨_, rfl⟩
  | .array t, _, h => by
    rw [admits] at h
    rw [typeCalls]
    exact (wf.typeCalls_succeeds t h).bind fun _ _ => .ok _
  | .wildcardExtends t, _, h | .wildcardSuper t, _, h => by
    rw [admits, Bool.and_eq_true] at h
    rw [typeCalls]
    exact (wf.typeCalls_succeeds t h.2).bind fun _ _ => .ok _
  | .declared ⟨⟨id, arguments, _⟩, outer⟩, _, h => by
    simp only [admits, admitsPart, Bool.and_eq_true] at h
    obtain ⟨⟨⟨hid, harguments⟩, _⟩, houter⟩ := h
    rw [typeCalls]
    exact (wf.headCalls_succeeds hid outer houter).bind fun _ _ =>
      (wf.argumentCalls_succeeds arguments harguments).bind fun _ _ => .ok _
  | .typeVariable id _, _, h => by
    rw [admits, Bool.and_eq_true] at h
    rw [typeCalls]
    exact (typeParameterOf_succeeds h.1).bind fun _ _ => .ok _
  | .intersection _, _, h => by
    rw [admits] at h
    cases h

/-- So can type arguments. -/
theorem argumentCalls_succeeds (wf : p.IsWellFormed) : ∀ ts : List JavaType,
    p.admitsArguments ts = true → Succeeds (p.argumentCalls ts)
  | [], _ => .ok []
  | t :: ts, h => by
    rw [admitsArguments, Bool.and_eq_true] at h
    rw [argumentCalls]
    exact (wf.typeCalls_succeeds t h.1).bind fun _ _ =>
      (wf.argumentCalls_succeeds ts h.2).bind fun _ _ => .ok _

/-- So can the name of a class inside enclosing parts. -/
theorem headCalls_succeeds (wf : p.IsWellFormed) {id : ClassId} (hid : p.knows id = true) :
    ∀ outer : List ClassPart, p.admitsParts outer = true → Succeeds (p.headCalls id outer)
  | [], _ => (wf.internalName_succeeds hid).bind fun _ _ => .ok _
  | ⟨outerId, arguments, annotations⟩ :: further, h => by
    simp only [admitsParts, admitsPart, Bool.and_eq_true] at h
    obtain ⟨⟨⟨houter, harguments⟩, _⟩, hfurther⟩ := h
    rw [headCalls]
    split
    · exact (wf.headCalls_succeeds houter further hfurther).bind fun _ _ =>
        (wf.argumentCalls_succeeds arguments harguments).bind fun _ _ =>
          (classOf_succeeds hid).bind fun _ _ => .ok _
    · exact (wf.internalName_succeeds hid).bind fun _ _ => .ok _

end

/-- **Types have signatures,** wildcards among them. -/
theorem typeSignature_succeeds (wf : p.IsWellFormed) {asArgument : Bool} {t : JavaType}
    (h : p.admits asArgument t = true) : Succeeds (p.typeSignature t) :=
  (wf.typeCalls_succeeds t h).map

/-! ## Descriptors of types

A descriptor needs the erasure, and that the class which this ends at is
known. -/

theorem erasedCalls_succeeds (wf : p.IsWellFormed) (terminated : Bool) {e : ErasedType}
    (h : p.knowsElement e.element = true) : Succeeds (p.erasedCalls terminated e) := by
  unfold erasedCalls
  cases he : e.element with
  | primitive b => exact .ok _
  | void => exact .ok _
  | declared id =>
    rw [he] at h
    exact (wf.internalName_succeeds h).bind fun _ _ => .ok _

/-- What is written as its erasure can be written if it has one. -/
theorem erasure_bind_succeeds (wf : p.IsWellFormed) (terminated : Bool) {t : JavaType}
    (h : p.knowsEnd t.leftmost.2 = true) :
    Succeeds (p.erasure t >>= p.erasedCalls terminated) := by
  obtain ⟨e, he, hknown⟩ := wf.erasure_succeeds h
  rw [he]
  exact wf.erasedCalls_succeeds terminated hknown

/-- **The descriptor of a type can be written** if it may stand by itself, by
recursion on the array layers. -/
theorem descriptorCalls_succeeds (wf : p.IsWellFormed) (terminated : Bool) : ∀ t : JavaType,
    p.admits false t = true → Succeeds (p.descriptorCalls terminated t)
  | .primitive _, _ | .void, _ => ⟨_, rfl⟩
  | .array t, h => by
    rw [admits] at h
    exact (wf.descriptorCalls_succeeds terminated t h).bind fun _ _ => .ok _
  | .declared _, h => wf.erasedCalls_succeeds terminated (knows_of_admits h)
  | .typeVariable _ _, h =>
    wf.erasure_bind_succeeds terminated (knowsEnd_leftmost wf.knows_object h)
  | .wildcard, h | .wildcardExtends _, h | .wildcardSuper _, h | .intersection _, h => by
    simp [admits] at h

/-- **Types that may stand by themselves have descriptors.** -/
theorem typeDescriptor_succeeds (wf : p.IsWellFormed) {t : JavaType}
    (h : p.admits false t = true) : Succeeds (p.typeDescriptor t) :=
  (wf.descriptorCalls_succeeds true t h).map

/-- So have intersections of such types. -/
theorem typeDescriptor_intersection_succeeds (wf : p.IsWellFormed) {members : List JavaType}
    (h : ∀ t ∈ members, p.admits false t = true) :
    Succeeds (p.typeDescriptor (.intersection members)) := by
  have hend := knowsEnd_leftmost_intersection wf.knows_object h
  exact (wf.erasure_bind_succeeds true hend).map

/-- The descriptor of a known class. -/
theorem classDescriptor_succeeds (wf : p.IsWellFormed) {t : ClassType}
    (h : p.knows t.id = true) : Succeeds (p.classDescriptor t) :=
  (wf.erasedCalls_succeeds true (e := ⟨0, .declared t.id⟩) h).map

/-! ## Type parameters

What is left to fail in the declaration of a type parameter is a lower bound,
and there are none. -/

/-- **A known type parameter can be declared.** It has no lower bound. -/
theorem formalCalls_succeeds (wf : p.IsWellFormed) (declared : List TypeParameterId)
    {id : TypeParameterId} (h : p.knowsParameter id = true) :
    Succeeds (p.formalCalls declared id) := by
  refine (typeParameterOf_succeeds h).bind fun parameter hparameter => ?_
  have hadmitted := wf.typeParameters parameter (mem_of_typeParameterOf hparameter)
  simp only [admitsTypeParameter, Bool.and_eq_true, Option.isNone_iff_eq_none] at hadmitted
  split
  · exact .ok _
  · rw [hadmitted.1.2]
    refine (Succeeds.mapM fun bound hbound => ?_).bind fun _ _ => .ok _
    have hb := wf.admits_bounds hparameter bound hbound
    exact (isInterface_succeeds hb).bind fun _ _ =>
      (wf.typeCalls_succeeds bound hb).bind fun _ _ => .ok _

theorem formalsCalls_succeeds (wf : p.IsWellFormed) {ids : List TypeParameterId}
    (h : ∀ id ∈ ids, p.knowsParameter id = true) : ∀ declared : List TypeParameterId,
      Succeeds (p.formalsCalls declared (ids.map JavaType.ofParameter)) := by
  induction ids with
  | nil => exact fun _ => .ok []
  | cons id ids ih =>
    intro declared
    exact (wf.formalCalls_succeeds declared (h id List.mem_cons_self)).bind fun _ _ =>
      (ih (fun i hi => h i (List.mem_cons_of_mem _ hi)) (id :: declared)).bind fun _ _ => .ok _

/-! ## Methods

The name of a thrown type is the only thing that is not a matter of handles:
what it erases to has to be a class. -/

theorem shapeCalls_succeeds (mode : EncodingMode) {parameters : List JavaType}
    {result : JavaType} (hparameters : ∀ t ∈ parameters, Succeeds (p.calls t mode))
    (hresult : Succeeds (p.calls result mode)) :
    Succeeds (p.shapeCalls parameters result mode) :=
  (Succeeds.mapM fun t ht => (hparameters t ht).bind fun _ _ => .ok _).bind fun _ _ =>
    hresult.bind fun _ _ => .ok _

/-- Each parameter of a method that is admitted may stand by itself. -/
theorem admits_parameterTypes {m : MethodDeclaration} (h : p.AdmitsMethod m) :
    ∀ t ∈ m.parameterTypes, p.admits false t = true := by
  intro t ht
  obtain ⟨q, hq, rfl⟩ := List.mem_map.mp ht
  exact (h.parameters q hq).1

/-- **Methods have descriptors.** -/
theorem methodDescriptor_succeeds (wf : p.IsWellFormed) {m : MethodDeclaration}
    (h : p.AdmitsMethod m) : Succeeds (p.methodDescriptor m) :=
  (shapeCalls_succeeds .descriptor
    (fun t ht => wf.descriptorCalls_succeeds true t (admits_parameterTypes h t ht))
    (wf.descriptorCalls_succeeds true _ h.result)).map

/-- **Methods have signatures.** -/
theorem methodSignature_succeeds (wf : p.IsWellFormed) {m : MethodDeclaration}
    (h : p.AdmitsMethod m) : Succeeds (p.methodSignature m) := by
  have hshape : Succeeds (p.shapeCalls m.parameterTypes m.result .signature) :=
    shapeCalls_succeeds .signature
      (fun t ht => wf.typeCalls_succeeds t (admits_parameterTypes h t ht))
      (wf.typeCalls_succeeds _ h.result)
  have hthrown : Succeeds (p.thrownCalls m) := by
    unfold thrownCalls
    split
    · exact (Succeeds.mapM fun t ht => (wf.typeCalls_succeeds t (h.thrown t ht)).bind
        fun _ _ => .ok _).bind fun _ _ => .ok _
    · exact .ok []
  exact ((wf.formalsCalls_succeeds h.typeParameters []).bind fun _ _ =>
    hshape.bind fun _ _ => .ok _).bind fun _ _ => hthrown.bind fun _ _ => .ok _

/-- **Thrown types have names.** -/
theorem thrownName_succeeds (wf : p.IsWellFormed) {c : ClassDeclaration} (hc : c ∈ p.classes)
    {m : MethodDeclaration} (hm : m ∈ c.methods) {t : JavaType} (ht : t ∈ m.thrown) :
    Succeeds (p.thrownName t) := by
  have hadmitted := ((wf.admitsClass hc).methods m (mem_methods.mp hm)).thrown t ht
  obtain ⟨e, he, hknown⟩ := wf.erasure_succeeds (knowsEnd_leftmost wf.knows_object hadmitted)
  obtain ⟨id, rfl⟩ := wf.thrown c hc m hm t ht e he
  unfold thrownName
  rw [he]
  exact wf.internalName_succeeds hknown

/-! ## Classes -/

/-- The superclass that stands in a signature is admitted. -/
theorem admits_superclass (wf : p.IsWellFormed) {c : ClassDeclaration} (h : p.AdmitsClass c) :
    p.admits false (.declared (c.superclass.getD .object)) = true := by
  cases hs : c.superclass with
  | none =>
    show p.admits false (.declared .object) = true
    simp [ClassType.object, ClassType.plain, ClassPart.plain, admits, admitsPart, admitsParts,
      admitsArguments, admitsGroup, wf.knows_object]
  | some t => exact h.supertypes t (List.mem_append_left _ (by simp [hs]))

/-- **Classes have signatures** if they need one. -/
theorem classSignature?_succeeds (wf : p.IsWellFormed) {id : ClassId} (hid : p.knows id = true) :
    Succeeds (p.classSignature? id) := by
  refine (classOf_succeeds hid).bind fun c hc => ?_
  have h := wf.admitsClass (mem_of_classOf hc)
  split
  · refine Succeeds.bind ?_ fun _ _ => .ok _
    refine (wf.formalsCalls_succeeds h.typeParameters []).bind fun _ _ =>
      (wf.typeCalls_succeeds _ (wf.admits_superclass h)).bind fun _ _ =>
        (Succeeds.mapM fun t ht => ?_).bind fun _ _ => .ok _
    exact (wf.typeCalls_succeeds _ (h.supertypes t (List.mem_append_right _ ht))).bind
      fun _ _ => .ok _
  · exact .ok none

end IsWellFormed

end Program

end ClassFile
