import ClassFile.Proofs.Walk.AnnotationValues
import ClassFile.Proofs.Walk.BoundNumbers
import ClassFile.Proofs.Walk.Protocol

/-!
# The annotations of a method, place by place

The annotations of a method are told one after another: those on the method, on its
result, on its type parameters and their bounds, on its parameters and their types,
and on what it throws. What tells them apart is the event and, for an annotation on
a type, a word into which the sort of the place and one or two indices are packed,
each at its own bits. A `MethodPlace` is what can be read of that.

So what a visitor is told of a method can be taken apart by the places that are read
off the events, and compared with what is written in each place
(`Program.writtenAt`), less what is only kept in the source. The two agree, in order
and with all paths, and no annotation is told of any other place
(`Program.methodAnnotations_by_place`). It does not matter which annotations the
visitor wants the values of, for there are no annotations on anything among values.

The proof goes along the script. A script has for each place some annotated parts that
it tells of (`Program.TellsParts`), and those of one script after another are those of
both. Where there is one script for each item of a list, a place has to do with one
item only.
-/

namespace ClassFile

/-! ## Places

A place is read off a word by the sort in its highest byte. What the other
bytes say depends on the sort; for each there is one way to pack indices and
one to read them. -/

/-- **A place in a method** where annotations can be written. Type parameters,
parameters and thrown types go by their position, bounds by their number. -/
inductive MethodPlace where
  | declaration
  | result
  | typeParameter (position : Nat)
  | bound (position number : Nat)
  | parameter (position : Nat)
  | parameterType (position : Nat)
  | thrown (position : Nat)
  deriving DecidableEq, Repr

namespace MethodPlace

/-- The number of a bound, if the place is a bound of the type parameter in a
position. -/
@[simp]
def boundNumber? (position : Nat) : MethodPlace → Option Nat
  | bound other number => if other = position then some number else none
  | _ => none

theorem eq_bound_of_boundNumber? {position number : Nat} {place : MethodPlace}
    (h : place.boundNumber? position = some number) : place = bound position number := by
  cases place with
  | bound other n =>
    obtain ⟨rfl, hnumber⟩ := Option.ite_none_right_eq_some.mp h
    rw [Option.some.inj hnumber]
  | _ => cases h

/-- The position of the type parameter that a place has to do with. -/
@[simp]
def typeParameter? : MethodPlace → Option Nat
  | typeParameter position | bound position _ => some position
  | _ => none

/-- The position of the parameter that a place has to do with. -/
@[simp]
def parameter? : MethodPlace → Option Nat
  | parameter position | parameterType position => some position
  | _ => none

/-- The position of the thrown type that a place is. -/
@[simp]
def thrown? : MethodPlace → Option Nat
  | thrown position => some position
  | _ => none

end MethodPlace

namespace TypeReference

/-- The index of two bytes, which stand in the middle. -/
def wideIndex (r : TypeReference) : UInt16 := UInt16.ofNat (r.value.toNat / 0x100)

/-- **The place in a method that a word refers to.** Words of other sorts refer to
none. -/
def methodPlace? (r : TypeReference) : Option MethodPlace :=
  if r.sort = methodReturn then some .result
  else if r.sort = methodTypeParameter then some (.typeParameter r.parameterIndex.toNat)
  else if r.sort = methodTypeParameterBound then
    some (.bound r.parameterIndex.toNat r.boundIndex.toNat)
  else if r.sort = methodFormalParameter then some (.parameterType r.parameterIndex.toNat)
  else if r.sort = throws then some (.thrown r.wideIndex.toNat)
  else none

theorem methodPlace?_methodReturn : (ofSort methodReturn).methodPlace? = some .result := rfl

theorem methodPlace?_ofTypeParameter (index : UInt8) :
    (ofTypeParameter methodTypeParameter index).methodPlace?
      = some (.typeParameter index.toNat) := by
  obtain ⟨hsort, hindex, _⟩ := reads_ofBound methodTypeParameter index 0
  change (ofTypeParameter methodTypeParameter index).sort = _ at hsort
  change (ofTypeParameter methodTypeParameter index).parameterIndex = _ at hindex
  unfold methodPlace?
  rw [hsort, hindex]
  rfl

theorem methodPlace?_ofBound (index bound : UInt8) :
    (ofBound methodTypeParameterBound index bound).methodPlace?
      = some (.bound index.toNat bound.toNat) := by
  obtain ⟨hsort, hindex, hbound⟩ := reads_ofBound methodTypeParameterBound index bound
  unfold methodPlace?
  rw [hsort, hindex, hbound]
  rfl

theorem methodPlace?_ofFormalParameter (index : UInt8) :
    (ofFormalParameter index).methodPlace? = some (.parameterType index.toNat) := by
  obtain ⟨hsort, hindex, _⟩ := reads_ofBound methodFormalParameter index 0
  change (ofFormalParameter index).sort = _ at hsort
  change (ofFormalParameter index).parameterIndex = _ at hindex
  unfold methodPlace?
  rw [hsort, hindex]
  rfl

/-- An index of two bytes is read as it was packed, and so is the sort in front of it. -/
theorem reads_ofWideIndex (sort : UInt8) (index : UInt16) :
    (ofWideIndex sort index).sort = sort ∧ (ofWideIndex sort index).wideIndex = index := by
  have hlt := index.toNat_lt
  have hvalue := value_ofBound sort (UInt8.ofNat (index.toNat / 256)) (UInt8.ofNat index.toNat)
  obtain ⟨hsort, _⟩ :=
    reads_ofBound sort (UInt8.ofNat (index.toNat / 256)) (UInt8.ofNat index.toNat)
  change (ofWideIndex sort index).value.toNat = _ at hvalue
  refine ⟨hsort, ?_⟩
  unfold wideIndex
  rw [hvalue, ← UInt16.toNat_inj, UInt16.toNat_ofNat']
  simp only [UInt8.toNat_ofNat']
  omega

theorem methodPlace?_ofThrown (index : UInt16) :
    (ofThrown index).methodPlace? = some (.thrown index.toNat) := by
  obtain ⟨hsort, hindex⟩ := reads_ofWideIndex throws index
  change (ofThrown index).sort = _ at hsort
  change (ofThrown index).wideIndex = _ at hindex
  unfold methodPlace?
  rw [hsort, hindex]
  rfl

end TypeReference

/-- The path to a part of a type, as it is told. There is none to the whole. -/
def toldPath (path : TypePath) : Option TypePath := if path.isEmpty then none else some path

/-- What is told of an annotation. There is no path to a declaration either. -/
structure ToldAnnotation where
  path : Option TypePath
  content : AnnotationHeader
  deriving DecidableEq, Repr

namespace Event

/-- The annotation that is told, if one is. -/
def annotationContent? : Event → Option ToldAnnotation
  | .annotated content | .parameterAnnotated _ content => some ⟨none, content⟩
  | .typeAnnotated _ path content => some ⟨path, content⟩
  | _ => none

/-- The place in a method where an annotation is written that is told. -/
def methodPlace? : Event → Option MethodPlace
  | .annotated _ => some .declaration
  | .typeAnnotated place _ _ => place.methodPlace?
  | .parameterAnnotated index _ => some (.parameter index.toNat)
  | _ => none

/-- **What is told of the annotations in a place,** in order. -/
def annotationsAt (place : MethodPlace) (told : List Event) : List ToldAnnotation :=
  (told.filter fun e => e.methodPlace? = some place).filterMap annotationContent?

theorem annotationsAt_append (place : MethodPlace) (told others : List Event) :
    annotationsAt place (told ++ others)
      = annotationsAt place told ++ annotationsAt place others := by
  unfold annotationsAt
  rw [List.filter_append, List.filterMap_append]

/-- One more annotation that is told is one in its own place and in no
other. -/
theorem annotationsAt_cons {e : Event} {place : MethodPlace} {content : ToldAnnotation}
    (hplace : e.methodPlace? = some place) (he : e.annotationContent? = some content)
    (other : MethodPlace) (told : List Event) :
    annotationsAt other (e :: told)
      = (if other = place then [content] else []) ++ annotationsAt other told := by
  unfold annotationsAt
  by_cases hother : other = place
  · rw [if_pos hother, List.filter_cons_of_pos (by simp [hplace, hother]),
      List.filterMap_cons_some he, List.singleton_append]
  · rw [if_neg hother, List.filter_cons_of_neg (by simp [hplace, Ne.symm hother]), List.nil_append]

theorem annotationsAt_of_quiet (place : MethodPlace) {told : List Event}
    (h : ∀ e ∈ told, e.annotationContent? = none) : annotationsAt place told = [] :=
  List.filterMap_eq_nil_iff.mpr fun e he => h e (List.mem_filter.mp he).1

end Event

/-- Among values there are no annotations on anything else. -/
theorem Protocol.Values.quiet {named : Bool} {w : List Visit} (h : Values named w) :
    ∀ x ∈ w, x.event.annotationContent? = none := by
  induction h with
  | nil => exact List.forall_mem_nil _
  | scalar _ _ _ ih | enumConstant _ _ _ _ ih | nestedDeclined _ _ _ ih | arrayDeclined _ _ ih =>
    exact List.forall_mem_cons.mpr ⟨rfl, ih⟩
  | nested _ _ _ _ ihu ihw | array _ _ _ ihu ihw =>
    exact List.forall_mem_cons.mpr
      ⟨rfl, List.forall_mem_append.mpr ⟨ihu, List.forall_mem_cons.mpr ⟨rfl, ihw⟩⟩⟩

/-! ## What is written

What should be told is stated without a script or a visitor: from the
declaration, the annotated parts of its types and what is kept of each
annotation. -/

namespace Program

variable (p : Program)

/-- Whether an annotation is kept beyond the source. -/
def keeps (a : Annotation) : Bool :=
  match p.retention a with
  | .ok .source => false
  | _ => true

/-- Whether an annotation may be written on uses of types. -/
def belongsOnTypes (a : Annotation) : Bool :=
  match p.targets a with
  | .ok targets => targets.contains .typeUse
  | .error _ => false

/-- What is said about an annotation. -/
def headerOf (a : Annotation) : Except Error AnnotationHeader := do
  let retention ← p.retention a
  return ⟨← p.classDescriptor a.type, retention == .runtime⟩

/-- **What is to be told of a part of a type,** or of a declaration as a part of
itself. -/
def toldOfPart (part : AnnotatedPart) : Except Error (List ToldAnnotation) :=
  (part.annotations.filter p.keeps).mapM fun a =>
    return ⟨toldPath part.path, ← p.headerOf a⟩

/-- What is to be told of some parts, one after another. -/
def toldOf (parts : List AnnotatedPart) : Except Error (List ToldAnnotation) :=
  return (← parts.mapM p.toldOfPart).flatten

end Program

/-- The annotated parts of what has a number in a list, of which the first has the
number `start`. -/
def partsNumbered {α : Type} (start : Nat) (xs : List α) (number : Nat)
    (parts : α → Except Error (List AnnotatedPart)) : Except Error (List AnnotatedPart) :=
  if number < start then .ok []
  else
    match xs[number - start]? with
    | some x => parts x
    | none => .ok []

/-- What is written on a type parameter. -/
def Program.declaredParts (p : Program) (id : TypeParameterId) :
    Except Error (List AnnotatedPart) := do
  let parameter ← p.typeParameterOf id
  return [⟨[], parameter.annotations⟩]

/-- What is written on the bound of a type parameter that has a number. -/
def Program.boundParts (p : Program) (id : TypeParameterId) (number : Nat) :
    Except Error (List AnnotatedPart) := do
  let parameter ← p.typeParameterOf id
  let start ← p.firstBoundIndex parameter.bounds
  partsNumbered start parameter.bounds number JavaType.annotatedParts

/-- **What is written in each place of a method.** -/
def Program.writtenAt (p : Program) (m : MethodDeclaration) :
    MethodPlace → Except Error (List AnnotatedPart)
  | .declaration => .ok [⟨[], m.annotations⟩]
  | .result => do
    let constructed := if m.isConstructor then [⟨[], m.annotations.filter p.belongsOnTypes⟩] else []
    return constructed ++ (← m.result.annotatedParts)
  | .typeParameter position => partsNumbered 0 m.typeParameters position p.declaredParts
  | .bound position number =>
    partsNumbered 0 m.typeParameters position fun id => p.boundParts id number
  | .parameter position =>
    partsNumbered 0 m.parameters position fun q => .ok [⟨[], q.annotations⟩]
  | .parameterType position =>
    partsNumbered 0 m.parameters position fun q => q.type.annotatedParts
  | .thrown position => partsNumbered 0 m.thrown position JavaType.annotatedParts

/-! ## Conversations that come to the end

A conversation is taken apart along the script that it follows. As it has come
to the end, nothing in it has failed, and each part of it has come to its own
end. -/

namespace Script

variable {α : Type} {a b c : Script} {w : List Visit}

/-- What was needed first was found. -/
theorem Tells.given_ok {x : Except Error α} {f : α → Script} (h : (given x f).Tells w (.ok ())) :
    ∃ y, x = .ok y ∧ (f y).Tells w (.ok ()) := by
  cases x with
  | error e => cases h
  | ok y => exact ⟨y, rfl, h⟩

/-- Both scripts were told to the end. -/
theorem Tells.append_ok (h : (a ++ b).Tells w (.ok ())) :
    ∃ u u', a.Tells u (.ok ()) ∧ b.Tells u' (.ok ()) ∧ w = u ++ u' := by
  rcases h.of_append with ⟨_, _, he⟩ | h
  · cases he
  · exact h

/-- A scope was declined, or its content was told to the end. -/
theorem Tells.scope_ok {o : Event} (h : (scope o c .done).Tells w (.ok ())) :
    ∃ accepted u, w = ⟨o, accepted⟩ :: u ∧ (u = [] ∨ c.Tells u (.ok ())) := by
  cases h with
  | declined _ _ h =>
    cases h
    exact ⟨false, [], rfl, .inl rfl⟩
  | @accepted _ _ _ u _ _ hcontent h =>
    cases h
    exact ⟨true, u, by rw [List.append_nil], .inr hcontent⟩

end Script

namespace Program

open Script

variable (p : Program)

/-- The values in an annotation, and its end, are no annotations on anything. Neither is
what is told of values that break off. -/
theorem annotationScript_quiet {a : Annotation} {w : List Visit} {r : Except Error Unit}
    (h : (p.annotationScript a).Tells w r) : ∀ x ∈ w, x.event.annotationContent? = none := by
  have hfollows := p.elementsScript_follows a.elements
  rcases h.of_closed with ⟨_, hw, _⟩ | ⟨u, hu, _, rfl⟩
  · obtain ⟨rest, hrest⟩ := hfollows.completable hw
    exact (List.forall_mem_append.mp hrest.quiet).1
  · exact List.forall_mem_append.mpr ⟨(hfollows.complete hu).quiet,
      List.forall_mem_singleton.mpr rfl⟩

/-! ## Scripts by place

The parts of each place are a function of the place, and for most places they
are empty for most scripts. One script after another tells of both, place by
place. -/

/-- **A script that tells of some annotated parts,** which are given by place: if it
comes to the end, then it was told of each place what is to be told of the parts
there, in order, and of no other annotations. -/
structure TellsParts (c : Script) (parts : MethodPlace → Except Error (List AnnotatedPart)) :
    Prop where
  placed : ∀ {w}, c.Tells w (.ok ()) →
    ∀ x ∈ w, x.event.annotationContent? ≠ none → x.event.methodPlace? ≠ none
  told : ∀ {w}, c.Tells w (.ok ()) →
    ∀ place, (parts place >>= p.toldOf) = .ok (Event.annotationsAt place (w.map Visit.event))

/-- Parts in one place only. -/
def onlyAt (place : MethodPlace) (parts : Except Error (List AnnotatedPart)) :
    MethodPlace → Except Error (List AnnotatedPart) :=
  fun other => if other = place then parts else .ok []

@[simp]
theorem onlyAt_self (place : MethodPlace) (parts : Except Error (List AnnotatedPart)) :
    onlyAt place parts place = parts := if_pos rfl

@[simp]
theorem onlyAt_of_ne {place other : MethodPlace} (h : other ≠ place)
    (parts : Except Error (List AnnotatedPart)) : onlyAt place parts other = .ok [] := if_neg h

/-- Some parts and then others. -/
def andThen (parts others : Except Error (List AnnotatedPart)) :
    Except Error (List AnnotatedPart) :=
  return (← parts) ++ (← others)

@[simp]
theorem andThen_nil (parts : Except Error (List AnnotatedPart)) :
    andThen parts (.ok []) = parts := by
  cases parts with
  | error e => rfl
  | ok xs => exact congrArg Except.ok (List.append_nil xs)

@[simp]
theorem nil_andThen (parts : Except Error (List AnnotatedPart)) :
    andThen (.ok []) parts = parts := by
  cases parts <;> rfl

variable {p}

/-- What is to be told of some parts and others. -/
theorem toldOf_append {parts others : List AnnotatedPart} {told told' : List ToldAnnotation}
    (h : p.toldOf parts = .ok told) (h' : p.toldOf others = .ok told') :
    p.toldOf (parts ++ others) = .ok (told ++ told') := by
  obtain ⟨lists, hlists, rfl⟩ := bind_pure_eq_ok h
  obtain ⟨lists', hlists', rfl⟩ := bind_pure_eq_ok h'
  unfold toldOf
  rw [List.mapM_append, hlists, hlists']
  exact congrArg Except.ok List.flatten_append

namespace TellsParts

variable {a b : Script} {parts others : MethodPlace → Except Error (List AnnotatedPart)}

theorem congr (h : p.TellsParts a parts) (he : ∀ place, parts place = others place) :
    p.TellsParts a others := by
  rwa [← funext he]

/-- A script that tells of no annotations. -/
theorem quiet (h : ∀ {w}, a.Tells w (.ok ()) → ∀ x ∈ w, x.event.annotationContent? = none) :
    p.TellsParts a fun _ => .ok [] where
  placed hw x hx hne := absurd (h hw x hx) hne
  told hw place := by
    rw [Event.annotationsAt_of_quiet place (List.forall_mem_map.mpr (h hw))]
    rfl

theorem done : p.TellsParts .done fun _ => .ok [] :=
  quiet fun hw => by
    cases hw
    exact List.forall_mem_nil _

theorem append (ha : p.TellsParts a parts) (hb : p.TellsParts b others) :
    p.TellsParts (a ++ b) fun place => andThen (parts place) (others place) where
  placed hw := by
    obtain ⟨u, u', hu, hu', rfl⟩ := hw.append_ok
    exact List.forall_mem_append.mpr ⟨ha.placed hu, hb.placed hu'⟩
  told hw place := by
    obtain ⟨u, u', hu, hu', rfl⟩ := hw.append_ok
    obtain ⟨xs, hxs, htold⟩ := bind_eq_ok (ha.told hu place)
    obtain ⟨ys, hys, htold'⟩ := bind_eq_ok (hb.told hu' place)
    rw [hxs, hys, List.map_append, Event.annotationsAt_append]
    exact toldOf_append htold htold'

/-- A value that is needed first is found if the script comes to the end. -/
theorem given {α : Type} {x : Except Error α} {f : α → Script}
    (h : ∀ y, x = .ok y → p.TellsParts (f y) parts) : p.TellsParts (Script.given x f) parts where
  placed hw := by
    obtain ⟨y, hy, hw⟩ := hw.given_ok
    exact (h y hy).placed hw
  told hw := by
    obtain ⟨y, hy, hw⟩ := hw.given_ok
    exact (h y hy).told hw

end TellsParts

/-! ## Groups of annotations

All annotations of a group are told of one place and under one path. Whether
the visitor wants the values of one makes no difference to that. -/

/-- The first annotation of a group is left out, or it reaches the class file. -/
theorem retained_cons_ok {a : Annotation} {group : List Annotation} {kept : List Retained}
    (h : p.retained (a :: group) = .ok kept) :
    (p.keeps a = false ∧ p.retained group = .ok kept)
      ∨ ∃ header others, p.keeps a = true ∧ p.headerOf a = .ok header
        ∧ p.retained group = .ok others ∧ kept = ⟨a, header⟩ :: others := by
  obtain ⟨visible?, hvisible, h⟩ := bind_eq_ok h
  obtain ⟨retention, hretention, rfl⟩ := map_eq_ok hvisible
  unfold keeps headerOf
  rw [hretention]
  cases retention with
  | source => exact .inl ⟨rfl, h⟩
  | classFile | runtime =>
    obtain ⟨descriptor, hdescriptor, h⟩ := bind_eq_ok h
    obtain ⟨others, ho, rfl⟩ := bind_pure_eq_ok h
    rw [hdescriptor]
    exact .inr ⟨_, others, rfl, rfl, ho, rfl⟩

/-- **What reaches the class file is what is kept,** with what is said about it. -/
theorem toldOfPart_of_retained (path : TypePath) {group : List Annotation} {kept : List Retained}
    (h : p.retained group = .ok kept) :
    p.toldOfPart ⟨path, group⟩ = .ok (kept.map fun r => ⟨toldPath path, r.header⟩) := by
  unfold toldOfPart
  dsimp only
  induction group generalizing kept with
  | nil =>
    cases h
    rfl
  | cons a group ih =>
    rcases retained_cons_ok h with ⟨hkeeps, h⟩ | ⟨header, others, hkeeps, hheader, ho, rfl⟩
    · rw [List.filter_cons_of_neg (hkeeps ▸ Bool.false_ne_true)]
      exact ih h
    · rw [List.filter_cons_of_pos hkeeps, List.mapM_cons, ih ho, hheader]
      rfl

/-- **What is told of one annotation** is told of its place. -/
theorem tells_scope {o : Event} {place : MethodPlace} {told : ToldAnnotation}
    (hplace : o.methodPlace? = some place) (ho : o.annotationContent? = some told) {a : Annotation}
    {w : List Visit} (h : (Script.scope o (p.annotationScript a) .done).Tells w (.ok ())) :
    (∀ x ∈ w, x.event.annotationContent? ≠ none → x.event.methodPlace? ≠ none)
      ∧ ∀ other, Event.annotationsAt other (w.map Visit.event)
        = if other = place then [told] else [] := by
  obtain ⟨accepted, inside, rfl, hinside⟩ := h.scope_ok
  have hquiet : ∀ x ∈ inside, x.event.annotationContent? = none := by
    rcases hinside with rfl | hinside
    · exact List.forall_mem_nil _
    · exact p.annotationScript_quiet hinside
  constructor
  · refine List.forall_mem_cons.mpr ⟨fun _ => ?_, fun x hx hne => absurd (hquiet x hx) hne⟩
    rw [hplace]
    exact Option.some_ne_none _
  · intro other
    rw [List.map_cons, Event.annotationsAt_cons hplace ho,
      Event.annotationsAt_of_quiet other (List.forall_mem_map.mpr hquiet), List.append_nil]

section

variable {opening : AnnotationHeader → Event} {place : MethodPlace} {path : TypePath}

/-- **What is told of several annotations** in one place, by induction on the list. -/
theorem tells_retained (hplace : ∀ h, (opening h).methodPlace? = some place)
    (hopening : ∀ h, (opening h).annotationContent? = some ⟨toldPath path, h⟩)
    (kept : List Retained) {w : List Visit}
    (h : (Script.forEach kept fun r =>
      .scope (opening r.header) (p.annotationScript r.source) .done).Tells w (.ok ())) :
    (∀ x ∈ w, x.event.annotationContent? ≠ none → x.event.methodPlace? ≠ none)
      ∧ ∀ other, Event.annotationsAt other (w.map Visit.event)
        = if other = place then kept.map fun r => ⟨toldPath path, r.header⟩ else [] := by
  induction kept generalizing w with
  | nil =>
    cases h
    exact ⟨List.forall_mem_nil _, fun other => by split <;> rfl⟩
  | cons r kept ih =>
    obtain ⟨u, u', hu, hu', rfl⟩ := h.append_ok
    obtain ⟨hplaced, htold⟩ := tells_scope (hplace r.header) (hopening r.header) hu
    obtain ⟨hplaced', htold'⟩ := ih hu'
    refine ⟨List.forall_mem_append.mpr ⟨hplaced, hplaced'⟩, fun other => ?_⟩
    rw [List.map_append, Event.annotationsAt_append, htold, htold']
    split <;> rfl

/-- **A group of annotations in one place,** each of which is told as one on the part
that the path leads to. -/
theorem tellsParts_groupScript (hplace : ∀ h, (opening h).methodPlace? = some place)
    (hopening : ∀ h, (opening h).annotationContent? = some ⟨toldPath path, h⟩)
    (group : List Annotation) :
    p.TellsParts (p.groupScript opening group) (onlyAt place (.ok [⟨path, group⟩])) := by
  refine .given fun kept hkept => ?_
  refine ⟨fun hw => (tells_retained hplace hopening kept hw).1, fun hw other => ?_⟩
  rw [(tells_retained hplace hopening kept hw).2]
  unfold onlyAt
  split
  · show (do return (← [AnnotatedPart.mk path group].mapM p.toldOfPart).flatten) = _
    rw [List.mapM_cons, toldOfPart_of_retained path hkept]
    exact congrArg Except.ok (List.append_nil _)
  · rfl

end

/-- Annotations on a part of a type. -/
theorem tellsParts_typeGroup {place : TypeReference} {here : MethodPlace}
    (hplace : place.methodPlace? = some here) (path : TypePath) (group : List Annotation) :
    p.TellsParts (p.typeGroup place path group) (onlyAt here (.ok [⟨path, group⟩])) := by
  have hopening : ∀ h, (Event.typeAnnotated place (toldPath path) h).methodPlace? = some here :=
    fun _ => hplace
  exact tellsParts_groupScript hopening (fun _ => rfl) group

/-- **The annotations on a type,** part by part. -/
theorem tellsParts_typeScript {place : TypeReference} {here : MethodPlace}
    (hplace : place.methodPlace? = some here) (t : JavaType) :
    p.TellsParts (p.typeScript place t) (onlyAt here t.annotatedParts) := by
  refine .given fun parts hparts => ?_
  rw [hparts]
  clear hparts
  induction parts with
  | nil => exact TellsParts.done.congr fun other => by unfold onlyAt; split <;> rfl
  | cons part parts ih =>
    refine ((tellsParts_typeGroup hplace part.path part.annotations).append ih).congr
      fun other => ?_
    unfold onlyAt
    split <;> rfl

/-! ## Lists

In a list each item has a place of its own, by its number. So of a place there
is one item in the list at most that tells of it. -/

/-- What has the first number is the first thing, and the other numbers are
those of the others. -/
theorem partsNumbered_cons {α : Type} (start number : Nat) (x : α) (xs : List α)
    (parts : α → Except Error (List AnnotatedPart)) :
    partsNumbered start (x :: xs) number parts
      = if number = start then parts x else partsNumbered (start + 1) xs number parts := by
  unfold partsNumbered
  rcases Nat.lt_trichotomy number start with hlt | rfl | hgt
  · rw [if_pos hlt, if_neg (Nat.ne_of_lt hlt), if_pos (Nat.lt_succ_of_lt hlt)]
  · rw [if_neg (Nat.lt_irrefl _), if_pos rfl, Nat.sub_self]
    rfl
  · rw [if_neg (Nat.lt_asymm hgt), if_neg (Nat.ne_of_gt hgt), if_neg (by omega),
      show number - start = number - (start + 1) + 1 by omega, List.getElem?_cons_succ]

theorem partsNumbered_self {α : Type} (start : Nat) (xs : List α)
    (parts : α → Except Error (List AnnotatedPart)) :
    partsNumbered (start + 1) xs start parts = .ok [] := if_pos (Nat.lt_succ_self start)

/-- **Things that are told with their numbers.** If a place has to do with the thing
of one number only, there is told of it what is told of that thing. -/
theorem tellsParts_forEach_zipIdx {α : Type} {f : α × Nat → Script}
    (parts : α → Nat → MethodPlace → Except Error (List AnnotatedPart))
    (number? : MethodPlace → Option Nat)
    (h : ∀ x number, p.TellsParts (f (x, number)) (parts x number))
    (hother : ∀ x number place, number? place ≠ some number → parts x number place = .ok [])
    (xs : List α) : ∀ start, p.TellsParts (Script.forEach (xs.zipIdx start) f) fun place =>
      match number? place with
      | some number => partsNumbered start xs number (parts · number place)
      | none => .ok [] := by
  induction xs with
  | nil =>
    refine fun start => TellsParts.done.congr fun place => ?_
    split
    · unfold partsNumbered
      split <;> rfl
    · rfl
  | cons x xs ih =>
    refine fun start => ((h x start).append (ih (start + 1))).congr fun place => ?_
    cases hplace : number? place with
    | none =>
      rw [hother x start place fun he => nomatch hplace.symm.trans he]
      rfl
    | some number =>
      dsimp only
      rw [partsNumbered_cons]
      -- either the place belongs to the first item, or to one of the others
      by_cases hnumber : number = start
      · subst hnumber
        rw [if_pos rfl, partsNumbered_self, andThen_nil]
      · have hstart : number? place ≠ some start := fun he =>
          hnumber (Option.some.inj (hplace.symm.trans he))
        rw [if_neg hnumber, hother x start place hstart, nil_andThen]

/-! ## Methods

Every part of a method is told by one script, and which places it tells of is
read off the events that it opens annotations with. -/

theorem toNat_of_byteIndex {position : Nat} {tooMany : Unsupported} {index : UInt8}
    (h : byteIndex position tooMany = .ok index) : index.toNat = position := by
  unfold byteIndex at h
  split at h
  · next hlt =>
    rw [← Except.ok.inj h]
    exact UInt8.toNat_ofNat_of_lt' hlt
  · cases h

theorem toNat_of_wideIndex {position : Nat} {tooMany : Unsupported} {index : UInt16}
    (h : wideIndex position tooMany = .ok index) : index.toNat = position := by
  unfold wideIndex at h
  split at h
  · next hlt =>
    rw [← Except.ok.inj h]
    exact UInt16.toNat_ofNat_of_lt' hlt
  · cases h

/-- A list is sifted by what is found out about each item. -/
theorem filter_of_filterM {α : Type} {f : α → Except Error Bool} {keeps : α → Bool}
    (h : ∀ a b, f a = .ok b → keeps a = b) {l kept : List α} (hkept : l.filterM f = .ok kept) :
    l.filter keeps = kept := by
  have hsifted : ∀ (l acc : List α) {sifted : List α}, l.filterAuxM f acc = .ok sifted →
      sifted = (l.filter keeps).reverse ++ acc := by
    intro l
    induction l with
    | nil =>
      intro acc sifted hs
      cases hs
      rfl
    | cons a l ih =>
      intro acc sifted hs
      rw [List.filterAuxM] at hs
      obtain ⟨b, hb, hs⟩ := bind_eq_ok hs
      rw [ih _ hs, List.filter_cons, h a b hb]
      cases b with
      | true => exact (List.append_cons _ a acc).trans (by rw [if_pos rfl, List.reverse_cons])
      | false => rfl
  obtain ⟨sifted, hs, rfl⟩ := bind_pure_eq_ok hkept
  rw [hsifted l [] hs, List.append_nil, List.reverse_reverse]

/-- The annotations that belong on uses of types. -/
theorem filter_of_typeUseAnnotations {group kept : List Annotation}
    (h : p.typeUseAnnotations group = .ok kept) : group.filter p.belongsOnTypes = kept := by
  refine filter_of_filterM (fun a b hb => ?_) h
  obtain ⟨targets, htargets, rfl⟩ := bind_pure_eq_ok hb
  unfold belongsOnTypes
  rw [htargets]

/-- The annotations on a constructor that count as annotations on its result. -/
theorem tellsParts_constructedTypeScript (m : MethodDeclaration) :
    p.TellsParts (p.constructedTypeScript m) (onlyAt .result (.ok
      (if m.isConstructor then [⟨[], m.annotations.filter p.belongsOnTypes⟩] else []))) := by
  unfold constructedTypeScript
  split
  · refine .given fun group hgroup => ?_
    rw [filter_of_typeUseAnnotations hgroup]
    exact tellsParts_typeGroup TypeReference.methodPlace?_methodReturn [] group
  · exact TellsParts.done.congr fun place => by unfold onlyAt; split <;> rfl

/-- The bound of a number, where the type parameter is known. -/
theorem boundParts_eq {id : TypeParameterId} {parameter : TypeParameter} {start : Nat}
    (hparameter : p.typeParameterOf id = .ok parameter)
    (hstart : p.firstBoundIndex parameter.bounds = .ok start) (number : Nat) :
    p.boundParts id number
      = partsNumbered start parameter.bounds number JavaType.annotatedParts := by
  unfold boundParts
  rw [hparameter]
  show (p.firstBoundIndex parameter.bounds >>= _) = _
  rw [hstart]
  rfl

/-- What is written on the bounds of the type parameter in a position. -/
def allBoundParts (p : Program) (id : TypeParameterId) (position : Nat) (place : MethodPlace) :
    Except Error (List AnnotatedPart) :=
  match place.boundNumber? position with
  | some number => p.boundParts id number
  | none => .ok []

/-- **The bounds of a type parameter.** -/
theorem tellsParts_bounds {id : TypeParameterId} {parameter : TypeParameter}
    (hparameter : p.typeParameterOf id = .ok parameter) (index : UInt8) :
    p.TellsParts
      (.given (p.firstBoundIndex parameter.bounds) fun start =>
        .forEach (parameter.bounds.zipIdx start) fun (bound, number) =>
          .given (byteIndex number .boundCount) fun boundIndex =>
            p.typeScript (.ofBound TypeReference.methodTypeParameterBound index boundIndex) bound)
      (p.allBoundParts id index.toNat) := by
  refine .given fun start hstart => (tellsParts_forEach_zipIdx
    (fun bound number => onlyAt (.bound index.toNat number) bound.annotatedParts)
    (MethodPlace.boundNumber? index.toNat) (fun bound number => ?_)
    (fun bound number place hplace => if_neg ?_) parameter.bounds start).congr fun place => ?_
  · refine .given fun boundIndex hboundIndex => ?_
    obtain rfl := toNat_of_byteIndex hboundIndex
    exact tellsParts_typeScript (TypeReference.methodPlace?_ofBound index boundIndex) bound
  · rintro rfl
    exact hplace (if_pos rfl)
  · unfold allBoundParts
    cases hplace : place.boundNumber? index.toNat with
    | none => rfl
    | some number =>
      obtain rfl := MethodPlace.eq_bound_of_boundNumber? hplace
      dsimp only
      rw [boundParts_eq hparameter hstart]
      exact congrArg (partsNumbered start parameter.bounds number) (funext fun _ => if_pos rfl)

/-- **A type parameter and its bounds.** -/
theorem tellsParts_typeParameterScript (id : TypeParameterId) (position : Nat) :
    p.TellsParts (p.typeParameterScript TypeReference.methodTypeParameter position id)
      fun place => andThen (onlyAt (.typeParameter position) (p.declaredParts id) place)
        (p.allBoundParts id position place) := by
  refine .given fun index hindex => .given fun parameter hparameter => ?_
  obtain rfl := toNat_of_byteIndex hindex
  have hdeclared : p.declaredParts id = .ok [⟨[], parameter.annotations⟩] := by
    unfold declaredParts
    rw [hparameter]
    rfl
  rw [hdeclared]
  exact (tellsParts_typeGroup (TypeReference.methodPlace?_ofTypeParameter index) []
    parameter.annotations).append (tellsParts_bounds hparameter index)

/-- **A parameter:** its type, and itself. -/
theorem tellsParts_parameterScript (q : Parameter) (position : Nat) :
    p.TellsParts (p.parameterScript q position) fun place =>
      andThen (onlyAt (.parameterType position) q.type.annotatedParts place)
        (onlyAt (.parameter position) (.ok [⟨[], q.annotations⟩]) place) := by
  refine .given fun index hindex => ?_
  obtain rfl := toNat_of_byteIndex hindex
  have hopening : ∀ h, (Event.parameterAnnotated index h).methodPlace?
      = some (.parameter index.toNat) := fun _ => rfl
  exact (tellsParts_typeScript (TypeReference.methodPlace?_ofFormalParameter index) q.type).append
    (tellsParts_groupScript hopening (fun _ => rfl) q.annotations)

/-- A thrown type. -/
theorem tellsParts_thrownScript (t : JavaType) (position : Nat) :
    p.TellsParts (p.thrownScript t position) (onlyAt (.thrown position) t.annotatedParts) := by
  refine .given fun index hindex => ?_
  obtain rfl := toNat_of_wideIndex hindex
  exact tellsParts_typeScript (TypeReference.methodPlace?_ofThrown index) t

/-! ### Lists of a method -/

/-- The type parameters of a method tell of the places of type parameters and
bounds. -/
theorem tellsParts_typeParametersScript (ids : List TypeParameterId) :
    p.TellsParts (p.typeParametersScript TypeReference.methodTypeParameter ids) fun place =>
      match place.typeParameter? with
      | some position => partsNumbered 0 ids position fun id =>
        andThen (onlyAt (.typeParameter position) (p.declaredParts id) place)
          (p.allBoundParts id position place)
      | none => .ok [] := by
  refine tellsParts_forEach_zipIdx _ MethodPlace.typeParameter? tellsParts_typeParameterScript
    (fun id position place hplace => ?_) ids 0
  have hbound : place.boundNumber? position = none :=
    Option.eq_none_iff_forall_ne_some.mpr fun number hnumber =>
      hplace (MethodPlace.eq_bound_of_boundNumber? hnumber ▸ rfl)
  rw [onlyAt_of_ne (by rintro rfl; exact hplace rfl), nil_andThen, allBoundParts, hbound]

/-- Its parameters tell of the places of parameters and their types. -/
theorem tellsParts_parameters (parameters : List Parameter) :
    p.TellsParts
      (.forEach parameters.zipIdx fun (q, position) => p.parameterScript q position)
      fun place => match place.parameter? with
      | some position => partsNumbered 0 parameters position fun q =>
        andThen (onlyAt (.parameterType position) q.type.annotatedParts place)
          (onlyAt (.parameter position) (.ok [⟨[], q.annotations⟩]) place)
      | none => .ok [] := by
  refine tellsParts_forEach_zipIdx _ MethodPlace.parameter? tellsParts_parameterScript
    (fun q position place hplace => ?_) parameters 0
  rw [onlyAt_of_ne (by rintro rfl; exact hplace rfl), nil_andThen,
    onlyAt_of_ne (by rintro rfl; exact hplace rfl)]

theorem tellsParts_thrown (thrown : List JavaType) :
    p.TellsParts (.forEach thrown.zipIdx fun (t, position) => p.thrownScript t position)
      fun place => match place.thrown? with
      | some position => partsNumbered 0 thrown position fun t =>
        onlyAt (.thrown position) t.annotatedParts place
      | none => .ok [] :=
  tellsParts_forEach_zipIdx _ MethodPlace.thrown? tellsParts_thrownScript
    (fun _ _ _ hplace => onlyAt_of_ne (by rintro rfl; exact hplace rfl) _) thrown 0

/-- **A method tells of each place what is written there.** Each of its scripts tells
of some places only, so of each place there is one script that does, or two for the
result. -/
theorem tellsParts_methodContent (p : Program) (m : MethodDeclaration) :
    p.TellsParts (p.methodContent m) (p.writtenAt m) := by
  have hdeclaration : p.TellsParts (p.declarationGroup m.annotations)
      (onlyAt .declaration (.ok [⟨[], m.annotations⟩])) :=
    tellsParts_groupScript (fun _ => rfl) (fun _ => rfl) m.annotations
  have hresult := tellsParts_typeScript (p := p) TypeReference.methodPlace?_methodReturn m.result
  have hfinish : p.TellsParts (.tell (.finish .method) .done) fun _ => .ok [] := .quiet fun hw => by
    cases hw with
    | tell _ hw =>
      cases hw
      exact List.forall_mem_singleton.mpr rfl
  refine ((((((hdeclaration.append (tellsParts_constructedTypeScript m)).append hresult).append
    (tellsParts_typeParametersScript m.typeParameters)).append
    (tellsParts_parameters m.parameters)).append (tellsParts_thrown m.thrown)).append
    hfinish).congr fun place => ?_
  -- of each place one of the scripts tells, and the others have nothing for it
  cases place with
  | declaration => rfl
  | result =>
    simp only [MethodPlace.typeParameter?, MethodPlace.parameter?, MethodPlace.thrown?, onlyAt_self,
      onlyAt_of_ne, andThen_nil, nil_andThen, ne_eq, reduceCtorEq, not_false_eq_true]
    rfl
  | typeParameter position | bound position number => simp [allBoundParts, writtenAt]
  | parameter position | parameterType position | thrown position => simp [writtenAt]

/-! ## What is told of a method -/

/-- **The annotations of a method are told place by place.** If a visitor that wants
the content of methods is told a method to the end, then each annotation that it is
told of is one in a place of the method, and of each place it is told exactly what is
written there and kept, in order, with the path and with what is said about it. In
particular the annotations on a constructor that belong on types come first among
those on its result, and bounds go by the numbers that they have in a class file. -/
theorem methodAnnotations_by_place (p : Program) (m : MethodDeclaration) {State : Type}
    {v : Visitor State} {s : State} (hwants : ∀ header, v.wants s (.method header) = true)
    (hok : (v.run (p.methodScript m) s).2 = .ok ()) :
    let told := (v.visits (p.methodScript m) s).map Visit.event
    (∀ e ∈ told, e.annotationContent? ≠ none → e.methodPlace? ≠ none)
      ∧ ∀ place, (p.writtenAt m place >>= p.toldOf) = .ok (Event.annotationsAt place told) := by
  intro told
  have htells := v.tells (p.methodScript m) s
  rw [hok] at htells
  obtain ⟨header, hheader, -⟩ := htells.given_ok
  have hscript : p.methodScript m = .scope (.method header) (p.methodContent m) .done := by
    unfold methodScript
    rw [hheader]
    rfl
  rw [hscript, v.run_scope, if_pos (hwants header)] at hok
  have hcontent := v.tells (p.methodContent m ++ .done) (v.visit s (.method header))
  rw [hok] at hcontent
  obtain ⟨u, u', hu, hdone, htold⟩ := hcontent.append_ok
  cases hdone
  have hevents : told = .method header :: u.map Visit.event := by
    show (v.visits (p.methodScript m) s).map Visit.event = _
    rw [hscript, v.visits_scope, if_pos (hwants header), htold, List.append_nil]
    rfl
  have hparts := p.tellsParts_methodContent m
  rw [hevents]
  refine ⟨List.forall_mem_cons.mpr ⟨fun h => absurd rfl h, ?_⟩, hparts.told hu⟩
  exact List.forall_mem_map.mpr (hparts.placed hu)

/-- A constructor with annotations in every place. One of the two annotation types is
kept in the source only, and so is told nowhere; the only bound is an interface, and so
has the number 1. -/
theorem methodAnnotations_by_place_constructor :
    let a : Annotation := ⟨.plain ⟨6⟩, []⟩
    let unkept : Annotation := ⟨.plain ⟨7⟩, []⟩
    let annotated (id : ClassId) : JavaType := .declared ⟨⟨id, [], [unkept, a]⟩, []⟩
    let p : Program :=
      { classes := Program.initial.classes ++
          #[{ ClassDeclaration.bare .annotationType "a" "A" with
              annotations := [.target [.typeUse]] },
            { ClassDeclaration.bare .annotationType "a" "S" with
              annotations := [.target [.typeUse], .retention .source] },
            .bare .interface "a" "I", .bare .ordinary "a" "E"]
        typeParameters := #[⟨"T", annotated ⟨8⟩, none, [a]⟩] }
    let m : MethodDeclaration :=
      { name := MethodDeclaration.constructorName, isConstructor := true, modifiers := [],
        isVarargs := false, typeParameters := [⟨0⟩],
        parameters := [⟨"x", .primitive .int, [unkept]⟩,
          ⟨"y", .array (.typeVariable ⟨0⟩ [a, unkept]), [a]⟩],
        result := .void, thrown := [annotated ⟨9⟩], annotations := [unkept, a] }
    let v := recorder fun _ => .record
    let start : Recording := ⟨[], false⟩
    let told := (v.visits (p.methodScript m) start).map Visit.event
    let whole : ToldAnnotation := ⟨none, ⟨"La/A;", false⟩⟩
    (∀ header, v.wants start (.method header) = true)
      ∧ (v.run (p.methodScript m) start).2 = .ok ()
      ∧ (∀ e ∈ told, e.annotationContent? ≠ none → e.methodPlace? ≠ none)
      ∧ (∀ place ∈ [.declaration, .result, .typeParameter 0, .bound 0 1, .parameter 1, .thrown 0],
        Event.annotationsAt place told = [whole])
      ∧ Event.annotationsAt (.parameterType 1) told = [{ whole with path := some [.component] }]
      ∧ ∀ place ∈ [.parameter 0, .parameterType 0, .bound 0 0, .thrown 1],
        Event.annotationsAt place told = [] := by
  intro a unkept annotated p m v start told whole
  have hwants : ∀ header, v.wants start (.method header) = true := fun _ => rfl
  have hok : (v.run (p.methodScript m) start).2 = .ok () := by decide +kernel
  obtain ⟨hplaced, htold⟩ := methodAnnotations_by_place p m hwants hok
  have hat : ∀ {place : MethodPlace} {expected : List ToldAnnotation},
      (p.writtenAt m place >>= p.toldOf) = .ok expected →
        Event.annotationsAt place told = expected :=
    fun h => Except.ok.inj ((htold _).symm.trans h)
  refine ⟨hwants, hok, hplaced, fun place hplace => hat ?_, hat (by decide +kernel),
    fun place hplace => hat ?_⟩
  · revert place
    decide +kernel
  · revert place
    decide +kernel

end Program

end ClassFile
