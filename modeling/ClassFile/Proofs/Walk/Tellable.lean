import ClassFile.Proofs.AnnotatedParts
import ClassFile.Proofs.Walk.BoundNumbers
import ClassFile.Proofs.Walk.Protocol
import ClassFile.Proofs.Walk.ToldValues

/-!
# Annotations that can be told

A script breaks off where something that is to be told cannot be found: a name, a
descriptor, the annotations that are kept, an index of a byte. Whether it breaks off for
a visitor depends on what the visitor wants; if it breaks off nowhere
(`Script.Unbroken`), every visitor is told all that it wants, to the end.

In a well-formed program all annotations can be told. Of a program that is not, some
can. An annotation can be told if it is known whether it is kept, and if it is kept, what
its type is called and what it says (`Program.CanTell`). Nothing is asked of those that
are not kept.

If all annotations on a type can be told, there is one thing left that can go wrong with
them. The parts of the type are found by paths, and a path can tell apart only so many
type arguments. If no part that can be followed to has more, every visitor is told the
annotations to the end (`Program.CanTellType.typeScript_unbroken`). If one has, nobody is told
anything, and the error says so (`Program.typeScript_of_not_fits`).
-/

namespace ClassFile

/-! ## Scripts that do not break off

Where a script breaks off may lie in the content of a scope that nobody wants.
It is asked here that there is no such place at all. -/

namespace Script

/-- **A script that breaks off nowhere,** whatever is wanted of it. -/
def Unbroken : Script → Prop
  | done => True
  | fail _ => False
  | tell _ next => next.Unbroken
  | scope _ content next => content.Unbroken ∧ next.Unbroken

variable {α State : Type} {a b : Script}

theorem Unbroken.append (ha : a.Unbroken) (hb : b.Unbroken) : (a ++ b).Unbroken := by
  show (a.append b).Unbroken
  induction a with
  | done => exact hb
  | fail e => cases ha
  | tell e next ih => exact ih ha
  | scope o content next _ ih => exact ⟨ha.1, ih ha.2⟩

theorem unbroken_tell (e : Event) (h : a.Unbroken) : (tell e a).Unbroken := h

/-- A value that can be found leads on. -/
theorem unbroken_given {x : Except Error α} {f : α → Script} (hx : Succeeds x)
    (hf : ∀ a, x = .ok a → (f a).Unbroken) : (given x f).Unbroken := by
  obtain ⟨a, rfl⟩ := hx
  exact hf a rfl

theorem unbroken_forEach {xs : List α} {f : α → Script} (h : ∀ x ∈ xs, (f x).Unbroken) :
    (forEach xs f).Unbroken := by
  induction xs with
  | nil => exact trivial
  | cons x xs ih =>
    exact (h x List.mem_cons_self).append (ih fun y hy => h y (List.mem_cons_of_mem _ hy))

/-- Things that are told with their positions, of which there are not too many. -/
theorem unbroken_forEach_zipIdx {xs : List α} {f : α × Nat → Script}
    (h : ∀ x ∈ xs, ∀ position < xs.length, (f (x, position)).Unbroken) :
    (forEach xs.zipIdx f).Unbroken := by
  refine unbroken_forEach fun x hx => ?_
  have hposition := (List.mem_zipIdx hx).2.1
  rw [Nat.zero_add] at hposition
  exact h x.1 (List.fst_mem_of_mem_zipIdx hx) x.2 hposition

/-- Things that are told under numbers of two bytes, if there are numbers for all of them. -/
theorem unbroken_forEach_wideIndex {xs : List α} {tooMany : Unsupported} {f : α → UInt16 → Script}
    (hlength : xs.length ≤ 65536) (h : ∀ x ∈ xs, ∀ index, (f x index).Unbroken) :
    (forEach xs.zipIdx fun x => given (Program.wideIndex x.2 tooMany) (f x.1)).Unbroken :=
  unbroken_forEach_zipIdx fun x hx _ hposition =>
    unbroken_given ⟨_, Program.wideIndex_of_lt (hposition.trans_le hlength) tooMany⟩
      fun index _ => h x hx index

theorem unbroken_tellAll (events : List Event) : (tellAll events).Unbroken := by
  induction events with
  | nil => exact trivial
  | cons e events ih => exact ih

/-- **Every visitor is told a script to the end** that breaks off nowhere, by
induction on the script. -/
theorem Unbroken.run (h : a.Unbroken) (v : Visitor State) (s : State) :
    (v.run a s).2 = .ok () := by
  induction a generalizing s with
  | done => rfl
  | fail e => cases h
  | tell e next ih => exact ih h _
  | scope o content next ihc ihn =>
    rw [Visitor.run]
    split
    · have hcontent := ihc h.1 (v.visit s o)
      generalize v.run content (v.visit s o) = told at hcontent
      obtain ⟨t, outcome⟩ := told
      cases hcontent
      exact ihn h.2 t
    · exact ihn h.2 _

end Script

/-! ## Types with too many type arguments

The parts of a type are listed before anything is told of them. So one type
argument too many is enough for nothing to be told, wherever in the type it
is. -/

/-- A computation that can fail in one way only. -/
def OnlyFails {α : Type} (e : Error) (x : Except Error α) : Prop := x = .error e ∨ Succeeds x

namespace OnlyFails

variable {α β : Type} {e : Error} {x : Except Error α}

theorem ok (a : α) : OnlyFails e (.ok a) := .inr ⟨a, rfl⟩

theorem bind {f : α → Except Error β} (h : OnlyFails e x) (k : ∀ a, OnlyFails e (f a)) :
    OnlyFails e (x >>= f) := by
  rcases h with rfl | ⟨a, rfl⟩
  · exact .inl rfl
  · exact k a

end OnlyFails

/-- Type arguments are too many, or something is wrong with one of them. -/
theorem annotatedArguments_onlyFails : ∀ {ts : List JavaType} (index : Nat),
    (∀ t ∈ ts, OnlyFails (.unsupported .typeArgumentCount) t.annotatedParts) →
      OnlyFails (.unsupported .typeArgumentCount) (annotatedArguments index ts)
  | [], _, _ => .ok []
  | t :: ts, index, h => by
    rw [annotatedArguments]
    split
    · exact (h t List.mem_cons_self).bind fun _ =>
        (annotatedArguments_onlyFails (index + 1) fun u hu => h u (List.mem_cons_of_mem t hu)).bind
          fun _ => .ok _
    · exact .inl rfl

theorem annotatedLevels_onlyFails : ∀ {ps : List ClassPart},
    (∀ p ∈ ps, ∀ t ∈ p.arguments, OnlyFails (.unsupported .typeArgumentCount) t.annotatedParts) →
      OnlyFails (.unsupported .typeArgumentCount) (annotatedLevels ps)
  | [], _ => .ok []
  | ⟨id, arguments, annotations⟩ :: ps, h => by
    rw [annotatedLevels]
    exact (annotatedLevels_onlyFails fun p hp => h p (List.mem_cons_of_mem _ hp)).bind fun _ =>
      (annotatedArguments_onlyFails 0 (h _ List.mem_cons_self)).bind fun _ => .ok _

/-- **Too many type arguments are all that can be wrong** with the parts of a type. -/
theorem JavaType.annotatedParts_onlyFails (t : JavaType) :
    OnlyFails (.unsupported .typeArgumentCount) t.annotatedParts := by
  induction t using JavaType.partsInduction with
  | declared t ih =>
    rw [annotatedParts_declared]
    exact annotatedLevels_onlyFails ih
  | array c ih | wildcardExtends c ih | wildcardSuper c ih =>
    rw [annotatedParts]
    exact ih.bind fun _ => .ok _
  | typeVariable _ _ | primitive _ | void | wildcard | intersection _ => exact .ok _

/-- If not everything fits that can be followed to, no part is listed. -/
theorem JavaType.annotatedParts_of_not_fits {t : JavaType} (h : ¬ t.start.Fits) :
    t.annotatedParts = .error (.unsupported .typeArgumentCount) :=
  t.annotatedParts_onlyFails.resolve_right fun hok => h (t.annotatedParts_isOk_iff.mp hok)

namespace Program

open Script

variable {p : Program}

/-! ## Values

The descriptors in a value are all that can be missing. -/

mutual

/-- **A value that says something is told to the end,** by recursion on the value. -/
theorem valueScript_unbroken_of_told (name : Option String) :
    ∀ value : ElementValue, Succeeds (p.toldValue value) → (p.valueScript name value).Unbroken
  | .constant _, _ => trivial
  | .classLiteral _, ⟨_, h⟩ => by
    obtain ⟨descriptor, hdescriptor, -⟩ := bind_pure_eq_ok h
    exact unbroken_given ⟨descriptor, hdescriptor⟩ fun _ _ => trivial
  | .enumConstant _ _, ⟨_, h⟩ => by
    obtain ⟨descriptor, hdescriptor, -⟩ := bind_eq_ok h
    exact unbroken_given ⟨descriptor, hdescriptor⟩ fun _ _ => trivial
  | .nested ⟨type, elements⟩, ⟨_, h⟩ => by
    obtain ⟨descriptor, hdescriptor, h⟩ := bind_eq_ok h
    obtain ⟨told, htold, -⟩ := bind_eq_ok h
    rw [valueScript]
    exact unbroken_given ⟨descriptor, hdescriptor⟩ fun _ _ =>
      ⟨(elementsScript_unbroken_of_told elements ⟨told, htold⟩).append trivial, trivial⟩
  | .array values, ⟨_, h⟩ => by
    obtain ⟨told, htold, -⟩ := bind_eq_ok h
    rw [valueScript]
    exact ⟨(valuesScript_unbroken_of_told values ⟨told, htold⟩).append trivial, trivial⟩
  | .primitiveArray _, _ => ⟨(unbroken_tellAll _).append trivial, trivial⟩

/-- So are the values of an array. -/
theorem valuesScript_unbroken_of_told :
    ∀ values : List ElementValue, Succeeds (p.toldValues values) →
      (p.valuesScript values).Unbroken
  | [], _ => trivial
  | value :: values, ⟨_, h⟩ => by
    obtain ⟨first, hfirst, h⟩ := bind_eq_ok h
    obtain ⟨others, hothers, -⟩ := bind_eq_ok h
    rw [valuesScript]
    exact (valueScript_unbroken_of_told none value ⟨first, hfirst⟩).append
      (valuesScript_unbroken_of_told values ⟨others, hothers⟩)

/-- So are named values. -/
theorem elementsScript_unbroken_of_told :
    ∀ elements : List Element, Succeeds (p.toldElements elements) →
      (p.elementsScript elements).Unbroken
  | [], _ => trivial
  | ⟨name, value⟩ :: elements, ⟨_, h⟩ => by
    obtain ⟨first, hfirst, h⟩ := bind_eq_ok h
    obtain ⟨others, hothers, -⟩ := bind_eq_ok h
    rw [elementsScript]
    exact (valueScript_unbroken_of_told (some name) value ⟨first, hfirst⟩).append
      (elementsScript_unbroken_of_told elements ⟨others, hothers⟩)

end

/-! ## Groups of annotations

What is asked of an annotation is just what is looked at to tell it. -/

/-- **An annotation that can be told:** it is known whether it is kept, and if it is, what
its type is called and what it says. -/
structure CanTell (p : Program) (a : Annotation) : Prop where
  visibility : Succeeds (p.visibility? a)
  descriptor : p.visibility? a ≠ .ok none → Succeeds (p.classDescriptor a.type)
  elements : p.visibility? a ≠ .ok none → Succeeds (p.toldElements a.elements)

/-- Annotations that can all be told. -/
def CanTellAll (p : Program) (group : List Annotation) : Prop := ∀ a ∈ group, p.CanTell a

theorem canTellAll_nil : p.CanTellAll [] := List.forall_mem_nil _

/-- **A type the annotations on which can be told,** on each part that can be followed
to. -/
def CanTellType (p : Program) (t : JavaType) : Prop :=
  ∀ path x, t.follow path = some x → p.CanTellAll x.annotations

/-- Of annotations that can be told it is found which are kept, and what these say. -/
theorem CanTellAll.retained {group : List Annotation} (h : p.CanTellAll group) :
    ∃ kept, p.retained group = .ok kept
      ∧ ∀ r ∈ kept, Succeeds (p.toldElements r.source.elements) := by
  induction group with
  | nil => exact ⟨[], rfl, List.forall_mem_nil _⟩
  | cons a group ih =>
    obtain ⟨ha, hgroup⟩ := List.forall_mem_cons.mp h
    obtain ⟨kept, hkept, hall⟩ := ih hgroup
    obtain ⟨visibility, hvisibility⟩ := ha.visibility
    rw [Program.retained, hvisibility]
    -- of one that is not kept nothing more is needed
    cases visibility with
    | none => exact ⟨kept, hkept, hall⟩
    | some visible =>
      have hvisible : p.visibility? a ≠ .ok none := fun hnone => by
        cases hvisibility.symm.trans hnone
      obtain ⟨descriptor, hdescriptor⟩ := ha.descriptor hvisible
      refine ⟨⟨a, ⟨descriptor, visible⟩⟩ :: kept, ?_,
        List.forall_mem_cons.mpr ⟨ha.elements hvisible, hall⟩⟩
      show (do
        let descriptor ← p.classDescriptor a.type
        return Retained.mk a ⟨descriptor, visible⟩ :: (← p.retained group)) = _
      rw [hdescriptor, hkept]
      rfl

/-- **Annotations that can be told are told to the end.** -/
theorem CanTellAll.groupScript_unbroken {group : List Annotation} (h : p.CanTellAll group)
    (opening : AnnotationHeader → Event) : (p.groupScript opening group).Unbroken := by
  obtain ⟨kept, hkept, hall⟩ := h.retained
  unfold groupScript
  rw [hkept]
  exact unbroken_forEach fun r hr =>
    ⟨(elementsScript_unbroken_of_told _ (hall r hr)).append trivial, trivial⟩

/-- The annotations on a constructor that are annotations on a type are some of those on
the constructor. -/
theorem constructedTypeScript_unbroken_of_told {m : MethodDeclaration}
    (h : p.CanTellAll m.annotations)
    (htargets : m.isConstructor = true → ∀ a ∈ m.annotations, Succeeds (p.targets a)) :
    (p.constructedTypeScript m).Unbroken := by
  unfold constructedTypeScript
  split
  · next hconstructor =>
    obtain ⟨group, hgroup, hmem⟩ : ∃ group, p.typeUseAnnotations m.annotations = .ok group
        ∧ ∀ a ∈ group, a ∈ m.annotations :=
      Succeeds.filterM fun a ha => (htargets hconstructor a ha).bind fun _ _ => .ok _
    have htells : p.CanTellAll group := fun a ha => h a (hmem a ha)
    rw [hgroup]
    exact htells.groupScript_unbroken _
  · trivial

/-! ## Types

The hypothesis on the parts is only about annotations, and the one on type
arguments is only about numbers. -/

/-- **The annotations on a type are told to the end** if they can be told and everything
fits that can be followed to. -/
theorem CanTellType.typeScript_unbroken {t : JavaType} (h : p.CanTellType t)
    (hfits : t.start.Fits) (place : TypeReference) : (p.typeScript place t).Unbroken := by
  obtain ⟨parts, hparts⟩ := t.annotatedParts_total hfits
  have hlists := t.annotatedParts_lists hparts
  unfold typeScript
  rw [hparts]
  refine unbroken_forEach fun part hpart => ?_
  obtain ⟨-, x, hx, hannotations⟩ := (hlists.mem_iff part.path part.annotations).mp hpart
  exact (hannotations ▸ h part.path x hx).groupScript_unbroken _

/-- Where the annotated parts of a type are known, only they matter. -/
theorem canTellType_of_annotatedParts {t : JavaType} {parts : List AnnotatedPart}
    (h : t.annotatedParts = .ok parts) (hall : ∀ part ∈ parts, p.CanTellAll part.annotations) :
    p.CanTellType t ∧ t.start.Fits := by
  refine ⟨fun path x hx a ha => ?_, t.annotatedParts_isOk_iff.mp ⟨parts, h⟩⟩
  have hpart := ((t.annotatedParts_lists h).mem_iff path x.annotations).mpr
    ⟨List.ne_nil_of_mem ha, x, hx, rfl⟩
  exact hall _ hpart a ha

/-- Of a type without annotations nothing has to be told. -/
theorem canTellType_of_nil {t : JavaType} (h : t.annotatedParts = .ok []) :
    p.CanTellType t ∧ t.start.Fits := canTellType_of_annotatedParts h (List.forall_mem_nil _)

/-- **Where not everything fits, nothing is told.** -/
theorem typeScript_of_not_fits {t : JavaType} (h : ¬ t.start.Fits) (place : TypeReference) :
    p.typeScript place t = .fail (.unsupported .typeArgumentCount) := by
  unfold typeScript
  rw [JavaType.annotatedParts_of_not_fits h]
  rfl

/-! ## Classes -/

/-- What is told of a class behind its header, part by part. -/
theorem classContent_unbroken_of_told {c : ClassDeclaration} (hgroup : p.CanTellAll c.annotations)
    (htypeParameters :
      (p.typeParametersScript TypeReference.classTypeParameter c.typeParameters).Unbroken)
    (hsuperclass : (p.superclassScript c).Unbroken)
    (hinterfaces : (forEach c.interfaces.zipIdx fun x => p.interfaceScript x.1 x.2).Unbroken)
    (hmembers : (forEach c.members p.memberScript).Unbroken) : (p.classContent c).Unbroken := by
  have hend : (tell (.finish .classFile) done).Unbroken := trivial
  exact (((((hgroup.groupScript_unbroken _).append htypeParameters).append hsuperclass).append
    hinterfaces).append hmembers).append hend

/-- **A class is told to the end** if its header is known and nothing behind it breaks
off. -/
theorem run_classTelling_of_told {id : ClassId} {c : ClassDeclaration} {options : WriteOptions}
    (hheader : Succeeds (p.classHeader id c options)) (hgroup : p.CanTellAll c.annotations)
    (htypeParameters :
      (p.typeParametersScript TypeReference.classTypeParameter c.typeParameters).Unbroken)
    (hsuperclass : (p.superclassScript c).Unbroken)
    (hinterfaces : (forEach c.interfaces.zipIdx fun x => p.interfaceScript x.1 x.2).Unbroken)
    (hmembers : (forEach c.members p.memberScript).Unbroken)
    {State : Type} (v : Visitor State) (s : State) :
    (v.run (p.classTelling id c options) s).2 = .ok () := by
  have hcontent :=
    classContent_unbroken_of_told hgroup htypeParameters hsuperclass hinterfaces hmembers
  exact (unbroken_given hheader fun header _ => unbroken_tell (.header header) hcontent).run v s

end Program

end ClassFile
