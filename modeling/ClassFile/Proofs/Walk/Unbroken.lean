import ClassFile.Proofs.Signature.Success
import ClassFile.Proofs.Walk.Tellable

/-!
# Classes that are told to the end

The script of a class of a well-formed program breaks off nowhere, as long as
there is nothing in it of which a class file can only hold so many
(`Program.WithinLimits`). What needs names, descriptors and signatures is known to
succeed. What is left are the annotations. They can be told
(`Program.IsWellFormed.canTellAll`), because what they mention is admitted as all that is
mentioned is, and the parts of types that carry any can be listed.
-/

namespace ClassFile

/-! ## Limits

These are the limits that the errors speak of. Whatever keeps them has a
number, and so it would with one more of most things. -/

mutual

/-- **Whether no part of a type has more than 255 type arguments.** Bounds are
looked at one by one, so what is in an intersection is of no account. -/
def JavaType.fewArguments : JavaType → Bool
  | .array c => c.fewArguments
  | .declared ⟨part, outer⟩ => part.fewArguments && ClassPart.allFewArguments outer
  | .wildcardExtends bound | .wildcardSuper bound => bound.fewArguments
  | .primitive _ | .void | .typeVariable _ _ | .wildcard | .intersection _ => true

/-- Type arguments, each by itself. -/
def JavaType.allFewArguments : List JavaType → Bool
  | [] => true
  | t :: ts => t.fewArguments && JavaType.allFewArguments ts

/-- One level of a class type. -/
def ClassPart.fewArguments : ClassPart → Bool
  | ⟨_, arguments, _⟩ => arguments.length ≤ 255 && JavaType.allFewArguments arguments

/-- The levels around one. -/
def ClassPart.allFewArguments : List ClassPart → Bool
  | [] => true
  | part :: parts => part.fewArguments && ClassPart.allFewArguments parts

end

/-- The types in a method. -/
def MethodDeclaration.types (m : MethodDeclaration) : List JavaType :=
  m.result :: m.parameterTypes ++ m.thrown

/-- The types in a class: those that it extends, and those in its members. -/
def ClassDeclaration.types (c : ClassDeclaration) : List JavaType :=
  c.supertypes.map .declared ++ c.fields.map FieldDeclaration.type
    ++ c.methods.flatMap MethodDeclaration.types

/-- The lists of type parameters in a class: its own, and those of its methods. -/
def ClassDeclaration.typeParameterLists (c : ClassDeclaration) : List (List TypeParameterId) :=
  c.typeParameters :: c.methods.map MethodDeclaration.typeParameters

/-- **A class of which a class file can hold everything.** -/
structure Program.WithinLimits (p : Program) (c : ClassDeclaration) : Prop where
  typeParameters : ∀ ids ∈ c.typeParameterLists, ids.length ≤ 255
  bounds : ∀ ids ∈ c.typeParameterLists, ∀ id ∈ ids, ∀ t, p.typeParameterOf id = .ok t →
    t.bounds.length ≤ 255 ∧ ∀ bound ∈ t.bounds, bound.fewArguments
  parameters : ∀ m ∈ c.methods, m.parameters.length ≤ 255
  interfaces : c.interfaces.length ≤ 65535
  thrown : ∀ m ∈ c.methods, m.thrown.length ≤ 65535
  arguments : ∀ t ∈ c.types, t.fewArguments

namespace Program

open Script

variable {p : Program}

/-! ## Annotated parts

In a well-formed program each annotated part of a type has annotations that
are admitted, and few type arguments make sure that the parts can be
listed. -/

/-- Annotated parts whose annotations are admitted. -/
def PartsAdmitted (p : Program) (parts : List AnnotatedPart) : Prop :=
  ∀ part ∈ parts, p.admitsGroup part.annotations = true

theorem PartsAdmitted.under {parts : List AnnotatedPart} (h : p.PartsAdmitted parts)
    (steps : TypePath) : p.PartsAdmitted (parts.map (·.under steps)) := by
  intro part hpart
  obtain ⟨original, horiginal, rfl⟩ := List.mem_map.mp hpart
  exact h original horiginal

theorem PartsAdmitted.append {parts others : List AnnotatedPart} (h : p.PartsAdmitted parts)
    (ho : p.PartsAdmitted others) : p.PartsAdmitted (parts ++ others) :=
  List.forall_mem_append.mpr ⟨h, ho⟩

theorem partsAdmitted_nil : p.PartsAdmitted [] := fun _ h => absurd h List.not_mem_nil

theorem partsAdmitted_whole {annotations : List Annotation}
    (h : p.admitsGroup annotations = true) : p.PartsAdmitted (AnnotatedPart.whole annotations) := by
  unfold AnnotatedPart.whole
  split
  · exact partsAdmitted_nil
  · exact List.forall_mem_singleton.mpr h

/-- **The annotated parts in type arguments** can be listed if those in each of
them can be and there are not too many. -/
theorem annotatedArguments_admitted : ∀ {ts : List JavaType} {index : Nat},
    index + ts.length ≤ TypePath.argumentLimit →
      (∀ t ∈ ts, ∃ parts, t.annotatedParts = .ok parts ∧ p.PartsAdmitted parts) →
      ∃ parts, annotatedArguments index ts = .ok parts ∧ p.PartsAdmitted parts
  | [], _, _, _ => ⟨[], rfl, partsAdmitted_nil⟩
  | t :: ts, index, hlength, h => by
    rw [List.length_cons] at hlength
    obtain ⟨first, hfirst, hadmitted⟩ := h t List.mem_cons_self
    obtain ⟨others, hothers, hall⟩ :
        ∃ parts, annotatedArguments (index + 1) ts = .ok parts ∧ p.PartsAdmitted parts :=
      annotatedArguments_admitted (by omega) fun u hu => h u (List.mem_cons_of_mem t hu)
    rw [annotatedArguments, if_pos (by omega), hfirst, hothers]
    exact ⟨_, rfl, (hadmitted.under _).append hall⟩

/-- So can those on the levels of a class type. -/
theorem annotatedLevels_admitted : ∀ {ps : List ClassPart},
    (∀ q ∈ ps, p.admitsGroup q.annotations = true
      ∧ ∃ parts, annotatedArguments 0 q.arguments = .ok parts ∧ p.PartsAdmitted parts) →
      ∃ parts, annotatedLevels ps = .ok parts ∧ p.PartsAdmitted parts
  | [], _ => ⟨[], rfl, partsAdmitted_nil⟩
  | ⟨id, arguments, annotations⟩ :: ps, h => by
    obtain ⟨hannotations, inner, hinner, hadmitted⟩ := h _ List.mem_cons_self
    obtain ⟨further, hfurther, hall⟩ :=
      annotatedLevels_admitted fun q hq => h q (List.mem_cons_of_mem _ hq)
    change annotatedArguments 0 arguments = .ok inner at hinner
    rw [annotatedLevels, hfurther, hinner]
    exact ⟨_, rfl, hall.append (((partsAdmitted_whole hannotations).append hadmitted).under _)⟩

/-- What there are few of on a level of a class type. -/
theorem of_fewArguments {q : ClassPart} (h : q.fewArguments = true) :
    q.arguments.length ≤ 255 ∧ ∀ t ∈ q.arguments, t.fewArguments = true := by
  obtain ⟨id, arguments, annotations⟩ := q
  simp only [ClassPart.fewArguments, Bool.and_eq_true, decide_eq_true_eq] at h
  exact ⟨h.1, (forall_mem_iff rfl (fun _ _ => rfl) arguments).mp h.2⟩

/-- **The annotated parts of a type can be listed,** and their annotations are
admitted as the type is. -/
theorem annotatedParts_admitted (t : JavaType) {asArgument : Bool}
    (h : p.admits asArgument t = true) (hfew : t.fewArguments = true) :
    ∃ parts, t.annotatedParts = .ok parts ∧ p.PartsAdmitted parts := by
  induction t using JavaType.partsInduction generalizing asArgument with
  | declared t ih =>
    rw [JavaType.annotatedParts_declared]
    obtain ⟨part, outer⟩ := t
    have hadmitted : p.admitsParts (part :: outer) = true := h
    have hall : ClassPart.allFewArguments (part :: outer) = true := hfew
    rw [forall_mem_iff rfl (fun _ _ => rfl)] at hadmitted hall
    -- each level has its own annotations, and its type arguments have theirs
    refine annotatedLevels_admitted fun q hq => ?_
    obtain ⟨harguments, hannotations⟩ := of_admitsPart (hadmitted q hq)
    obtain ⟨hlength, hfewer⟩ := of_fewArguments (hall q hq)
    refine ⟨hannotations, annotatedArguments_admitted ?_ fun a ha => ?_⟩
    · rw [Nat.zero_add]
      exact Nat.le_succ_of_le hlength
    · exact ih q hq a ha (harguments a ha) (hfewer a ha)
  | array c ih =>
    rw [admits] at h
    obtain ⟨parts, hparts, hadmitted⟩ := ih h hfew
    rw [JavaType.annotatedParts, hparts]
    exact ⟨_, rfl, hadmitted.under _⟩
  | wildcardExtends bound ih | wildcardSuper bound ih =>
    rw [admits, Bool.and_eq_true] at h
    obtain ⟨parts, hparts, hadmitted⟩ := ih h.2 hfew
    rw [JavaType.annotatedParts, hparts]
    exact ⟨_, rfl, hadmitted.under _⟩
  | typeVariable id annotations =>
    rw [admits, Bool.and_eq_true] at h
    exact ⟨_, rfl, partsAdmitted_whole h.2⟩
  | primitive _ | void | wildcard | intersection _ => exact ⟨[], rfl, partsAdmitted_nil⟩

namespace IsWellFormed

/-! ## Annotations

Of an annotation that is admitted all types are known, down to those in its
values. So it can be told, whether or not it is kept. -/

mutual

/-- **What a value says is known,** by recursion on the value. -/
theorem toldValue_succeeds (wf : p.IsWellFormed) :
    ∀ value : ElementValue, p.admitsValue value = true → Succeeds (p.toldValue value)
  | .constant _, _ => .ok _
  | .classLiteral _, h => (wf.typeDescriptor_succeeds h).bind fun _ _ => .ok _
  | .enumConstant id _, h =>
    (wf.classDescriptor_succeeds (t := .plain id) h).bind fun _ _ => .ok _
  | .nested ⟨⟨part, outer⟩, elements⟩, h => by
    obtain ⟨hid, helements⟩ := of_admitsInGroup (a := ⟨⟨part, outer⟩, elements⟩) h
    exact (wf.classDescriptor_succeeds hid).bind fun _ _ =>
      (wf.toldElements_succeeds elements helements).bind fun _ _ => .ok _
  | .array values, h => (wf.toldValues_succeeds values h).bind fun _ _ => .ok _
  | .primitiveArray _, _ => .ok _

theorem toldValues_succeeds (wf : p.IsWellFormed) :
    ∀ values : List ElementValue, p.admitsValues values = true → Succeeds (p.toldValues values)
  | [], _ => .ok []
  | value :: values, h => by
    rw [admitsValues, Bool.and_eq_true] at h
    exact (wf.toldValue_succeeds value h.1).bind fun _ _ =>
      (wf.toldValues_succeeds values h.2).bind fun _ _ => .ok _

theorem toldElements_succeeds (wf : p.IsWellFormed) :
    ∀ elements : List Element, p.admitsElements elements = true →
      Succeeds (p.toldElements elements)
  | [], _ => .ok []
  | ⟨_, value⟩ :: elements, h => by
    rw [admitsElements, Bool.and_eq_true] at h
    exact (wf.toldValue_succeeds value h.1).bind fun _ _ =>
      (wf.toldElements_succeeds elements h.2).bind fun _ _ => .ok _

end

/-- What is said about an annotation by those on its type can be looked up. -/
theorem metaValue?_succeeds (wf : p.IsWellFormed) {a : Annotation} {kind : ClassId}
    (ha : p.admitsInGroup a = true) (hkind : kind.index < Program.initial.classes.size) :
    Succeeds (p.metaValue? a kind) := by
  have hname : Succeeds (p.qualifiedName kind) :=
    wf.nameOf_succeeds .qualified (wf.knows_language hkind)
  refine Succeeds.map (hname.bind fun _ _ => ?_)
  exact (classOf_succeeds (of_admitsInGroup ha).1).bind fun _ _ => .ok _

/-- **Annotations that are admitted can all be told.** -/
theorem canTellAll (wf : p.IsWellFormed) {group : List Annotation}
    (h : p.admitsGroup group = true) : p.CanTellAll group := by
  intro a ha
  have hadmits := admitsGroup_iff.mp h a ha
  obtain ⟨hid, helements⟩ := of_admitsInGroup hadmits
  exact ⟨(wf.metaValue?_succeeds hadmits (by decide)).map.map,
    fun _ => wf.classDescriptor_succeeds hid, fun _ => wf.toldElements_succeeds _ helements⟩

/-- **A group of annotations is told to the end.** -/
theorem groupScript_unbroken (wf : p.IsWellFormed) (opening : AnnotationHeader → Event)
    {group : List Annotation} (h : p.admitsGroup group = true) :
    (p.groupScript opening group).Unbroken := (wf.canTellAll h).groupScript_unbroken opening

/-- **The annotations on a type are told to the end.** -/
theorem typeScript_unbroken (wf : p.IsWellFormed) (place : TypeReference) {t : JavaType}
    {asArgument : Bool} (h : p.admits asArgument t = true) (hfew : t.fewArguments = true) :
    (p.typeScript place t).Unbroken := by
  obtain ⟨parts, hparts, hadmitted⟩ := annotatedParts_admitted t h hfew
  obtain ⟨htells, hfits⟩ := canTellType_of_annotatedParts hparts fun part hpart =>
    wf.canTellAll (hadmitted part hpart)
  exact htells.typeScript_unbroken hfits place

/-! ## Type parameters -/

/-- The first bound has a number. -/
theorem firstBoundIndex_succeeds {bounds : List JavaType}
    (h : ∀ bound ∈ bounds, p.admits false bound = true) : Succeeds (p.firstBoundIndex bounds) := by
  cases bounds with
  | nil => exact .ok 0
  | cons first further => exact (isInterface_succeeds (h first List.mem_cons_self)).map

/-- **The annotations on a type parameter and its bounds are told to the end.** -/
theorem typeParameterScript_unbroken (wf : p.IsWellFormed) (sort : UInt8) {position : Nat}
    {id : TypeParameterId} (hposition : position < 256) (hid : p.knowsParameter id = true)
    (hbounds : ∀ t, p.typeParameterOf id = .ok t →
      t.bounds.length ≤ 255 ∧ ∀ bound ∈ t.bounds, bound.fewArguments) :
    (p.typeParameterScript sort position id).Unbroken := by
  obtain ⟨t, ht⟩ := typeParameterOf_succeeds hid
  obtain ⟨hlength, hfew⟩ := hbounds t ht
  obtain ⟨start, hstart⟩ := firstBoundIndex_succeeds (wf.admits_bounds ht)
  have hfirst := firstBoundIndex_le hstart
  have hannotations := wf.typeParameters t (mem_of_typeParameterOf ht)
  simp only [admitsTypeParameter, Bool.and_eq_true] at hannotations
  rw [typeParameterScript_eq sort hposition ht hstart (by omega)]
  refine (wf.groupScript_unbroken _ hannotations.2).append (unbroken_forEach fun x hx => ?_)
  have hmem := List.fst_mem_of_mem_zipIdx hx
  exact wf.typeScript_unbroken _ (wf.admits_bounds ht x.1 hmem) (hfew x.1 hmem)

/-- The type parameters that a class or a method lists. -/
theorem typeParametersScript_unbroken (wf : p.IsWellFormed) (sort : UInt8)
    {ids : List TypeParameterId} (h : ∀ id ∈ ids, p.knowsParameter id = true)
    (hlength : ids.length ≤ 255)
    (hbounds : ∀ id ∈ ids, ∀ t, p.typeParameterOf id = .ok t →
      t.bounds.length ≤ 255 ∧ ∀ bound ∈ t.bounds, bound.fewArguments) :
    (p.typeParametersScript sort ids).Unbroken :=
  unbroken_forEach_zipIdx fun id hid position hposition =>
    wf.typeParameterScript_unbroken sort (by omega) (h id hid) (hbounds id hid)

/-! ## Fields -/

theorem typeSignature?_succeeds (wf : p.IsWellFormed) {t : JavaType}
    (h : p.admits false t = true) : Succeeds (p.typeSignature? t) := by
  unfold typeSignature?
  split
  · exact (wf.typeSignature_succeeds h).map
  · exact .ok none

/-- Whether a field may store a constant can be found out. -/
theorem storesConstant_succeeds (wf : p.IsWellFormed) : ∀ {t : JavaType},
    p.admits false t = true → Succeeds (p.storesConstant t)
  | .declared t, h =>
    (wf.nameOf_succeeds .qualified (knows_of_admits h)).bind fun _ _ =>
      (wf.nameOf_succeeds .qualified (wf.knows_language (by decide))).bind fun _ _ => .ok _
  | .primitive _, _ | .void, _ | .array _, _ | .typeVariable _ _, _ | .wildcard, _
  | .wildcardExtends _, _ | .wildcardSuper _, _ | .intersection _, _ => ⟨_, rfl⟩

/-- The header of a field is found. -/
theorem fieldHeader_succeeds (wf : p.IsWellFormed) {f : FieldDeclaration}
    (h : p.admits false f.type = true) : Succeeds (p.fieldHeader f) := by
  have hconstant : Succeeds (p.fieldConstant f.isStaticFinal f.type f.initializer) := by
    unfold fieldConstant
    split
    · exact .ok none
    · exact (wf.storesConstant_succeeds h).bind fun _ _ => .ok _
  exact (wf.typeDescriptor_succeeds h).bind fun _ _ =>
    (wf.typeSignature?_succeeds h).bind fun _ _ => hconstant.bind fun _ _ => .ok _

/-- **A field is told to the end.** -/
theorem fieldScript_unbroken (wf : p.IsWellFormed) {f : FieldDeclaration}
    (h : p.admits false f.type = true) (hannotations : p.admitsGroup f.annotations = true)
    (hfew : f.type.fewArguments = true) : (p.fieldScript f).Unbroken :=
  unbroken_given (wf.fieldHeader_succeeds h) fun _ _ =>
    ⟨((wf.groupScript_unbroken _ hannotations).append
      (wf.typeScript_unbroken _ h hfew)).append trivial, trivial⟩

/-! ## Methods

The parts of a method are told one after another, and each of them has a limit
of its own. -/

/-- The header of a method is found, and the names of what the method throws
are part of it. -/
theorem methodHeader_succeeds (wf : p.IsWellFormed) {c : ClassDeclaration} (hc : c ∈ p.classes)
    {m : MethodDeclaration} (hm : m ∈ c.methods) : Succeeds (p.methodHeader m) := by
  have h := (wf.admitsClass hc).methods m (mem_methods.mp hm)
  have hsignature : Succeeds (p.methodSignature? m) := by
    unfold methodSignature?
    split
    · exact (wf.methodSignature_succeeds h).map
    · exact .ok none
  have hthrown : Succeeds (p.thrownNames m) :=
    Succeeds.mapM fun t ht => wf.thrownName_succeeds hc hm ht
  exact (wf.methodDescriptor_succeeds h).bind fun _ _ => hsignature.bind fun _ _ =>
    hthrown.bind fun _ _ => .ok _

/-- The annotations on a constructor that are annotations on a type can be found. -/
theorem constructedTypeScript_unbroken (wf : p.IsWellFormed) {m : MethodDeclaration}
    (h : p.admitsGroup m.annotations = true) : (p.constructedTypeScript m).Unbroken :=
  constructedTypeScript_unbroken_of_told (wf.canTellAll h) fun _ a ha =>
    (wf.metaValue?_succeeds (admitsGroup_iff.mp h a ha) (by decide)).map

/-- **A method is told to the end.** -/
theorem methodScript_unbroken (wf : p.IsWellFormed) {c : ClassDeclaration} (hc : c ∈ p.classes)
    (limits : p.WithinLimits c) {m : MethodDeclaration} (hm : m ∈ c.methods) :
    (p.methodScript m).Unbroken := by
  have h := (wf.admitsClass hc).methods m (mem_methods.mp hm)
  have hlisted : m.typeParameters ∈ c.typeParameterLists :=
    List.mem_cons_of_mem _ (List.mem_map_of_mem hm)
  have hfew : ∀ t ∈ m.types, t.fewArguments = true := fun t ht =>
    limits.arguments t (List.mem_append_right _ (List.mem_flatMap.mpr ⟨m, hm, ht⟩))
  have hresult := wf.typeScript_unbroken (.ofSort TypeReference.methodReturn) h.result
    (hfew _ (List.mem_append_left _ List.mem_cons_self))
  have htypeParameters := wf.typeParametersScript_unbroken TypeReference.methodTypeParameter
    h.typeParameters (limits.typeParameters _ hlisted) (limits.bounds _ hlisted)
  have hparameters : (forEach m.parameters.zipIdx
      fun x => p.parameterScript x.1 x.2).Unbroken := by
    refine unbroken_forEach_zipIdx fun q hq position hposition => ?_
    have hlength := limits.parameters m hm
    obtain ⟨htype, hannotations⟩ := h.parameters q hq
    have hmem : q.type ∈ m.types :=
      List.mem_append_left _ (List.mem_cons_of_mem _ (List.mem_map_of_mem hq))
    exact unbroken_given ⟨_, byteIndex_of_lt (by omega) _⟩ fun _ _ =>
      (wf.typeScript_unbroken _ htype (hfew _ hmem)).append
        (wf.groupScript_unbroken _ hannotations)
  have hthrown : (forEach m.thrown.zipIdx
      fun x => p.thrownScript x.1 x.2).Unbroken := by
    have hlength := limits.thrown m hm
    exact unbroken_forEach_wideIndex (f := fun t index => p.typeScript (.ofThrown index) t)
      (by omega) fun t ht _ =>
        wf.typeScript_unbroken _ (h.thrown t ht) (hfew t (List.mem_append_right _ ht))
  refine unbroken_given (wf.methodHeader_succeeds hc hm) fun _ _ => ⟨?_, trivial⟩
  exact ((((((wf.groupScript_unbroken _ h.annotations).append
    (wf.constructedTypeScript_unbroken h.annotations)).append hresult).append
      htypeParameters).append hparameters).append hthrown).append trivial

/-! ## Classes

The header is found if names and signatures are, which has been settled for
well-formed programs. -/

/-- **The header of a class is found:** its name, its signature and the names
of its supertypes. -/
theorem classHeader_succeeds (wf : p.IsWellFormed) {id : ClassId} {c : ClassDeclaration}
    (hc : p.classOf id = .ok c) (options : WriteOptions) :
    Succeeds (p.classHeader id c options) := by
  have h := wf.admitsClass (mem_of_classOf hc)
  have hid := knows_of_classOf hc
  have hsuper : Succeeds (p.superName id c) := by
    unfold superName
    split
    · exact .ok none
    · refine (wf.internalName_succeeds ?_).map
      split
      · exact wf.knows_object
      · exact knows_of_admits (wf.admits_superclass h)
  have hinterfaces : Succeeds (p.interfaceNames c) := Succeeds.mapM fun t ht =>
    wf.internalName_succeeds (knows_of_admits (h.supertypes t (List.mem_append_right _ ht)))
  exact (wf.internalName_succeeds hid).bind fun _ _ =>
    (wf.classSignature?_succeeds hid).bind fun _ _ => hsuper.bind fun _ _ =>
      hinterfaces.bind fun _ _ => .ok _

/-- **What is told of a class behind its header is told to the end.** -/
theorem classContent_unbroken (wf : p.IsWellFormed) {c : ClassDeclaration} (hc : c ∈ p.classes)
    (limits : p.WithinLimits c) : (p.classContent c).Unbroken := by
  have h := wf.admitsClass hc
  have hsupertype : ∀ (place : TypeReference) (t : ClassType), t ∈ c.supertypes →
      (p.typeScript place (.declared t)).Unbroken := fun place t ht =>
    wf.typeScript_unbroken place (h.supertypes t ht) (limits.arguments _
      (List.mem_append_left _ (List.mem_append_left _ (List.mem_map_of_mem ht))))
  have hsuperclass : (p.superclassScript c).Unbroken := by
    unfold superclassScript
    split
    · next t ht => exact hsupertype _ t (List.mem_append_left _ (by simp [ht]))
    · trivial
  have hinterfaces : (forEach c.interfaces.zipIdx
      fun x => p.interfaceScript x.1 x.2).Unbroken := by
    have hlength := limits.interfaces
    exact unbroken_forEach_wideIndex
      (f := fun t index => p.typeScript (.ofSupertype (some index)) (.declared t)) (by omega)
      fun t ht _ => hsupertype _ t (List.mem_append_right _ ht)
  have hmembers : (forEach c.members p.memberScript).Unbroken := by
    refine unbroken_forEach fun member hmember => ?_
    cases member with
    | field f =>
      obtain ⟨htype, hannotations⟩ := h.fields f hmember
      have hlisted : f ∈ c.fields := List.mem_filterMap.mpr ⟨_, hmember, rfl⟩
      exact wf.fieldScript_unbroken htype hannotations (limits.arguments _
        (List.mem_append_left _ (List.mem_append_right _ (List.mem_map_of_mem hlisted))))
    | method m => exact wf.methodScript_unbroken hc limits (mem_methods.mpr hmember)
    | nested id => trivial
  have htypeParameters := wf.typeParametersScript_unbroken TypeReference.classTypeParameter
    h.typeParameters (limits.typeParameters _ List.mem_cons_self)
    (limits.bounds _ List.mem_cons_self)
  exact classContent_unbroken_of_told (wf.canTellAll h.annotations) htypeParameters hsuperclass
    hinterfaces hmembers

/-! ## Everything succeeds

The statement puts together what can be asked of a class: its names, what is
written of it and what is told. -/

/-- **In a well-formed program nothing fails.** A class that is within the limits is
told to the end, whoever listens. Every type has a descriptor but a wildcard, and a
signature but an intersection; every method has both, every thrown type is listed
under a name, and of every class it is known which signature it has, if any. -/
theorem everything_succeeds (wf : p.IsWellFormed) :
    (∀ (id : ClassId) (c : ClassDeclaration), p.classOf id = .ok c → p.WithinLimits c →
      ∀ options : WriteOptions, ∃ script, p.classScript id options = .ok script
        ∧ ∀ {State : Type} (v : Visitor State) (s : State), (v.run script s).2 = .ok ())
    ∧ (∀ t : JavaType, p.admits false t = true → Succeeds (p.typeDescriptor t))
    ∧ (∀ members : List JavaType, (∀ t ∈ members, p.admits false t = true) →
      Succeeds (p.typeDescriptor (.intersection members)))
    ∧ (∀ (t : JavaType) (asArgument : Bool), p.admits asArgument t = true →
      Succeeds (p.typeSignature t))
    ∧ (∀ c ∈ p.classes, ∀ m ∈ c.methods,
      Succeeds (p.methodDescriptor m) ∧ Succeeds (p.methodSignature m)
        ∧ ∀ t ∈ m.thrown, Succeeds (p.thrownName t))
    ∧ ∀ (id : ClassId) (c : ClassDeclaration), p.classOf id = .ok c →
      Succeeds (p.classSignature? id) := by
  refine ⟨fun id c hc limits options => ?_, fun t h => wf.typeDescriptor_succeeds h,
    fun members h => wf.typeDescriptor_intersection_succeeds h,
    fun t asArgument h => wf.typeSignature_succeeds h, fun c hc m hm => ?_,
    fun id c hc => wf.classSignature?_succeeds (knows_of_classOf hc)⟩
  · have hmem := mem_of_classOf hc
    refine ⟨_, p.classScript_of_classOf hc options, fun v s => Unbroken.run ?_ v s⟩
    exact unbroken_given (wf.classHeader_succeeds hc options) fun _ _ =>
      wf.classContent_unbroken hmem limits
  · have h := (wf.admitsClass hc).methods m (mem_methods.mp hm)
    exact ⟨wf.methodDescriptor_succeeds h, wf.methodSignature_succeeds h,
      fun t ht => wf.thrownName_succeeds hc hm ht⟩

end IsWellFormed

/-! ## A well-formed program -/

/-- `Comparable`, of a type. -/
def comparable (argument : JavaType) : JavaType := .declared ⟨⟨⟨6⟩, [argument], []⟩, []⟩

/-- A class with annotations, a bound that mentions its own type parameter, one that
leads to another, an array of a class with a wildcard, and a method that throws a
type variable. -/
def sampleClass : ClassDeclaration :=
  { ClassDeclaration.bare .ordinary "a" "C" with
    typeParameters := [⟨1⟩, ⟨2⟩]
    interfaces := [⟨⟨⟨6⟩, [.ofParameter ⟨2⟩], []⟩, []⟩]
    annotations := [.retention .runtime, .target [.type, .typeUse]]
    members :=
      [.field
        { name := "f", modifiers := [.static],
          type := .array (comparable (.wildcardExtends (.typeVariable ⟨1⟩ [.target [.field]]))),
          initializer := none, annotations := [] },
       .method
        { name := "m", isConstructor := true, modifiers := [], isVarargs := false,
          typeParameters := [⟨3⟩], parameters := [⟨"q", comparable .wildcard, []⟩],
          result := .void, thrown := [.ofParameter ⟨3⟩], annotations := [.retention .source] },
       .nested ⟨9⟩] }

/-- The program of that class. -/
def sample : Program :=
  { classes := Program.initial.classes ++
      #[{ ClassDeclaration.bare .interface "java.lang" "Comparable" with
          typeParameters := [⟨0⟩] },
        .bare .ordinary "java.lang" "Exception", sampleClass,
        { ClassDeclaration.bare .ordinary "" "D" with enclosing := some ⟨8⟩ }]
    typeParameters :=
      #[⟨"T", .declared .object, none, []⟩,
        ⟨"U", .intersection [.declared .object, comparable (.ofParameter ⟨1⟩)], none, []⟩,
        ⟨"V", .ofParameter ⟨1⟩, none, [.target []]⟩,
        ⟨"X", .declared (.plain ⟨7⟩), none, []⟩] }

/-- Its circles are ruled out by the order in which its declarations have been
added. -/
theorem sample_isWellFormed : sample.IsWellFormed where
  language := by decide
  classes := by decide +kernel
  typeParameters := by decide +kernel
  nesting := not_nestedIn_self_of_earlier (by decide +kernel)
  bounds := not_leadsTo_self_of_earlier (by decide +kernel)
  thrown c hc m hm t ht e he := by
    have hthrown : sample.classes.toList.flatMap (fun c => c.methods.flatMap (·.thrown))
        = [.ofParameter ⟨3⟩] := rfl
    have hmem : t ∈ sample.classes.toList.flatMap (fun c => c.methods.flatMap (·.thrown)) :=
      List.mem_flatMap.mpr ⟨c, Array.mem_toList_iff.mpr hc, List.mem_flatMap.mpr ⟨m, hm, ht⟩⟩
    rw [hthrown] at hmem
    rw [List.mem_singleton.mp hmem,
      show sample.erasure (.ofParameter ⟨3⟩) = .ok ⟨0, .declared ⟨7⟩⟩ by cbv] at he
    exact ⟨_, (Except.ok.inj he).symm⟩

theorem sample_withinLimits : sample.WithinLimits sampleClass where
  typeParameters := by decide
  bounds _ _ id _ t ht := by
    have hall : ∀ t ∈ sample.typeParameters,
        t.bounds.length ≤ 255 ∧ ∀ bound ∈ t.bounds, bound.fewArguments = true := by decide +kernel
    exact hall t (mem_of_typeParameterOf ht)
  parameters := by decide
  interfaces := by decide
  thrown := by decide
  arguments := by decide +kernel

/-- The class of the sample is told to the end, to somebody who records
everything; the wildcard in it has a signature, the bound that is an intersection a
descriptor, and its constructor both. -/
theorem IsWellFormed.everything_succeeds_sample :
    (∃ script, sample.classScript ⟨8⟩ .default = .ok script
      ∧ ((recorder fun _ => .record).run script ⟨[], false⟩).2 = .ok ())
    ∧ Succeeds (sample.typeSignature .wildcard)
    ∧ Succeeds (sample.typeDescriptor
        (.intersection [.declared .object, comparable (.ofParameter ⟨1⟩)]))
    ∧ (∀ m ∈ sampleClass.methods,
      Succeeds (sample.methodDescriptor m) ∧ Succeeds (sample.methodSignature m)
        ∧ ∀ t ∈ m.thrown, Succeeds (sample.thrownName t))
    ∧ Succeeds (sample.classSignature? ⟨8⟩) := by
  obtain ⟨haccept, _, hintersection, hsignature, hmethod, hclass⟩ :=
    everything_succeeds sample_isWellFormed
  have hknown : sample.classOf ⟨8⟩ = .ok sampleClass := rfl
  obtain ⟨script, hscript, hrun⟩ := haccept ⟨8⟩ sampleClass hknown sample_withinLimits .default
  exact ⟨⟨script, hscript, hrun _ _⟩, hsignature .wildcard true rfl,
    hintersection _ (by decide +kernel), hmethod sampleClass (mem_of_classOf hknown),
    hclass ⟨8⟩ sampleClass hknown⟩

/-- **Two types of the sample have only one of the two forms:** the type argument of
a parameter has no descriptor, and the bound of a type parameter no signature. -/
theorem sample_types_without_form :
    sample.IsWellFormed
      ∧ (∃ m q, .method m ∈ sampleClass.members ∧ q ∈ m.parameters
        ∧ q.type = comparable .wildcard)
      ∧ sample.typeDescriptor .wildcard = .error (.unsupported .wildcardOutsideArgument)
      ∧ (∃ t, sample.typeParameterOf ⟨1⟩ = .ok t
        ∧ sample.typeSignature t.upperBound
          = .error (.unsupported .intersectionOutsideBound)) :=
  ⟨sample_isWellFormed, ⟨_, _, .tail _ (.head _), .head _, rfl⟩, rfl, _, rfl, rfl⟩

end Program

end ClassFile
