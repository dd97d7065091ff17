import Mathlib
import ClassFile.Proofs.Walk.MethodPlaces
import ClassFile.Proofs.Walk.TypeAnnotations
import ClassFile.Proofs.Walk.Unbroken

/-!
# The places of supertypes

The annotations on the superclass and on the interfaces of a class are told with places of
one sort, and what tells them apart is an index of two bytes. Interfaces have their
position, and the superclass has the last index of all. So each annotation that is told of
a supertype belongs to the one supertype with this place
(`Program.supertypes_are_told_apart`), unless the class has a superclass and as many
interfaces as there are indices. Then the last interface has the index of the superclass
(`Program.supertype_places_meet`), and a class can be told that has one interface more
than the error for too many of them says. With still more interfaces it cannot be told.

What is told of supertypes is taken from all that is told by the sort of the place. It is
followed through the script (`Script.TellsOfSupertypes`): the type parameters of a class
and its members have places of other sorts.
-/

namespace ClassFile

/-! ## Places

Two places of supertypes are compared as words. Apart from the sort they have
one index in them, so different indices make different places. -/

namespace TypeReference

theorem sort_ofSupertype (interface : Option UInt16) :
    (ofSupertype interface).sort = classExtends := (reads_ofWideIndex _ _).1

/-- **A supertype goes by its index,** and the superclass by an index that is kept for
it. -/
theorem ofSupertype_inj {i j : Option UInt16} :
    ofSupertype i = ofSupertype j ↔ i.getD superclassIndex = j.getD superclassIndex := by
  refine ⟨fun h => ?_, fun h => congrArg (ofWideIndex classExtends) h⟩
  have hindex := congrArg wideIndex h
  unfold ofSupertype at hindex
  rwa [(reads_ofWideIndex _ _).2, (reads_ofWideIndex _ _).2] at hindex

/-- No place in a method is one of a supertype. -/
theorem methodPlace?_of_classExtends {r : TypeReference} (h : r.sort = classExtends) :
    r.methodPlace? = none := by
  unfold methodPlace?
  rw [h]
  rfl

end TypeReference

/-- **The supertypes of a class with their places,** the superclass first. -/
def ClassDeclaration.supertypePlaces (c : ClassDeclaration) : List (TypeReference × ClassType) :=
  c.superclass.toList.map (fun t => (.ofSupertype none, t))
    ++ c.interfaces.zipIdx.map fun (t, position) =>
      (.ofSupertype (some (UInt16.ofNat position)), t)

namespace ClassDeclaration

variable {c : ClassDeclaration}

/-- The places of the interfaces are told apart by their positions. -/
theorem map_fst_supertypePlaces (c : ClassDeclaration) :
    c.supertypePlaces.map Prod.fst
      = c.superclass.toList.map (fun _ => TypeReference.ofSupertype none)
        ++ (List.range c.interfaces.length).map fun position =>
          TypeReference.ofSupertype (some (UInt16.ofNat position)) := by
  unfold supertypePlaces
  rw [List.map_append, List.map_map, List.map_map, List.range_eq_range',
    ← List.zipIdx_map_snd 0 c.interfaces, List.map_map]
  rfl

/-- Two interfaces have two places, as long as there are indices for them. -/
theorem interfacePlaces_nodup {count : Nat} (h : count ≤ 65536) :
    ((List.range count).map fun position =>
      TypeReference.ofSupertype (some (UInt16.ofNat position))).Nodup := by
  refine List.Nodup.map_on (fun i hi j hj hij => ?_) List.nodup_range
  have hindex := congrArg UInt16.toNat (TypeReference.ofSupertype_inj.mp hij)
  have hi := List.mem_range.mp hi
  have hj := List.mem_range.mp hj
  rwa [Option.getD_some, Option.getD_some, UInt16.toNat_ofNat_of_lt' (hi.trans_le h),
    UInt16.toNat_ofNat_of_lt' (hj.trans_le h)] at hindex

/-- **The places of the supertypes are pairwise different** unless there is a superclass
and an interface that has its index. -/
theorem supertypePlaces_nodup_iff (h : c.interfaces.length ≤ 65536) :
    (c.supertypePlaces.map Prod.fst).Nodup
      ↔ c.superclass = none ∨ c.interfaces.length ≤ 65535 := by
  rw [map_fst_supertypePlaces]
  cases c.superclass with
  | none => exact iff_of_true (interfacePlaces_nodup h) (.inl rfl)
  | some t =>
    show (TypeReference.ofSupertype none :: (List.range c.interfaces.length).map _).Nodup ↔ _
    rw [List.nodup_cons, and_iff_left (interfacePlaces_nodup h), List.mem_map]
    constructor
    · -- the last position is the index that is kept for the superclass
      refine fun hdisjoint => .inr (Nat.le_of_not_lt fun hlt => hdisjoint ⟨65535, ?_, rfl⟩)
      exact List.mem_range.mpr hlt
    · rintro (hnone | hlength) ⟨position, hposition, heq⟩
      · cases hnone
      · have hindex := congrArg UInt16.toNat (TypeReference.ofSupertype_inj.mp heq)
        have hlt := List.mem_range.mp hposition
        rw [Option.getD_some, UInt16.toNat_ofNat_of_lt' (hlt.trans_le h)] at hindex
        change position = 65535 at hindex
        omega

/-- Supertypes that have different places are the same if their places are. -/
theorem eq_of_place_eq (h : (c.supertypePlaces.map Prod.fst).Nodup)
    {x y : TypeReference × ClassType} (hx : x ∈ c.supertypePlaces) (hy : y ∈ c.supertypePlaces)
    (hplace : x.1 = y.1) : x = y := List.inj_on_of_nodup_map h hx hy hplace

end ClassDeclaration

/-! ## What is told of supertypes

What is told is filtered for annotations in places of this one sort. The
filter goes through one script after another, and for most scripts there is
nothing left. -/

/-- The annotation on a supertype that is told, if one is. -/
def Visit.supertypeAnnotation? (x : Visit) : Option TypeAnnotation :=
  x.typeAnnotated?.filter fun a => a.place.sort = TypeReference.classExtends

theorem Visit.supertypeAnnotation?_typeAnnotated (place : TypeReference) (path : Option TypePath)
    (content : AnnotationHeader) (accepted : Bool) :
    Visit.supertypeAnnotation? ⟨.typeAnnotated place path content, accepted⟩
      = if place.sort = TypeReference.classExtends then some ⟨place, path, content⟩ else none := by
  show Option.filter _ (some _) = _
  rw [Option.filter_some]
  exact if_congr decide_eq_true_iff rfl rfl

/-- An event that is no annotation on anything is none on a supertype. -/
theorem Visit.supertypeAnnotation?_of_quiet {x : Visit} (h : x.event.annotationContent? = none) :
    x.supertypeAnnotation? = none := by
  obtain ⟨event, accepted⟩ := x
  cases event with
  | typeAnnotated place path content => cases h
  | _ => rfl

/-- An annotation in a place of a method is none on a supertype. -/
theorem Visit.supertypeAnnotation?_of_methodPlace {x : Visit}
    (h : x.event.annotationContent? ≠ none → x.event.methodPlace? ≠ none) :
    x.supertypeAnnotation? = none := by
  obtain ⟨event, accepted⟩ := x
  cases event with
  | typeAnnotated place path content =>
    rw [supertypeAnnotation?_typeAnnotated]
    exact if_neg fun hsort =>
      h (Option.some_ne_none _) (TypeReference.methodPlace?_of_classExtends hsort)
  | _ => rfl

namespace Script

/-- **A script that tells of some annotations on supertypes** if it comes to the end. -/
def TellsOfSupertypes (c : Script) (expected : List TypeAnnotation) : Prop :=
  ∀ w, c.Tells w (.ok ()) → w.filterMap Visit.supertypeAnnotation? = expected

variable {α : Type} {a b : Script} {x y : List TypeAnnotation}

/-- A script that tells of nothing that is written on a supertype. -/
theorem TellsOfSupertypes.quiet
    (h : ∀ w, a.Tells w (.ok ()) → ∀ x ∈ w, x.supertypeAnnotation? = none) :
    a.TellsOfSupertypes [] :=
  fun w hw => List.filterMap_eq_nil_iff.mpr (h w hw)

theorem tellsOfSupertypes_done : done.TellsOfSupertypes [] := .quiet fun w hw => by
  cases hw
  exact List.forall_mem_nil _

theorem TellsOfSupertypes.append (ha : a.TellsOfSupertypes x) (hb : b.TellsOfSupertypes y) :
    (a ++ b).TellsOfSupertypes (x ++ y) := by
  intro w hw
  obtain ⟨u, u', hu, hu', rfl⟩ := hw.append_ok
  rw [List.filterMap_append, ha u hu, hb u' hu']

theorem tellsOfSupertypes_given {value : Except Error α} {f : α → Script}
    (h : ∀ v, value = .ok v → (f v).TellsOfSupertypes x) :
    (given value f).TellsOfSupertypes x := by
  intro w hw
  obtain ⟨v, hv, hw⟩ := hw.given_ok
  exact h v hv w hw

theorem tellsOfSupertypes_forEach {xs : List α} {f : α → Script}
    {expected : α → List TypeAnnotation} (h : ∀ x ∈ xs, (f x).TellsOfSupertypes (expected x)) :
    (forEach xs f).TellsOfSupertypes (xs.flatMap expected) := by
  induction xs with
  | nil => exact tellsOfSupertypes_done
  | cons x xs ih =>
    exact (h x List.mem_cons_self).append (ih fun y hy => h y (List.mem_cons_of_mem x hy))

/-- Things that all tell of nothing on a supertype. -/
theorem tellsOfSupertypes_forEach_nil {xs : List α} {f : α → Script}
    (h : ∀ x ∈ xs, (f x).TellsOfSupertypes []) : (forEach xs f).TellsOfSupertypes [] := by
  have hall := tellsOfSupertypes_forEach h
  rwa [List.flatMap_eq_nil_iff.mpr fun _ _ => rfl] at hall

/-- Each of several things was told to the end. -/
theorem Tells.exists_of_forEach {xs : List α} {f : α → Script} {w : List Visit}
    (h : (forEach xs f).Tells w (.ok ())) : ∀ x ∈ xs, ∃ u, (f x).Tells u (.ok ()) := by
  induction xs generalizing w with
  | nil => exact List.forall_mem_nil _
  | cons x xs ih =>
    obtain ⟨u, u', hu, hu', -⟩ := Tells.append_ok h
    exact List.forall_mem_cons.mpr ⟨⟨u, hu⟩, ih hu'⟩

end Script

namespace Program

open Script

variable (p : Program)

/-- **The annotations on a type that are told** where it stands in a place. -/
def placedAnnotations (place : TypeReference) (t : JavaType) : List TypeAnnotation :=
  (t.annotatedParts.toOption.getD []).flatMap (p.typeAnnotations place)

/-- What is told of the annotations on a class's supertypes, if everything can be told. -/
def supertypeAnnotations (c : ClassDeclaration) : List TypeAnnotation :=
  c.supertypePlaces.flatMap fun x => p.placedAnnotations x.1 (.declared x.2)

theorem place_of_mem_placedAnnotations {place : TypeReference} {t : JavaType} {a : TypeAnnotation}
    (h : a ∈ p.placedAnnotations place t) : a.place = place := by
  obtain ⟨part, -, ha⟩ := List.mem_flatMap.mp h
  obtain ⟨r, -, rfl⟩ := List.mem_map.mp ha
  rfl

/-! ## Groups and types

A group is told under one place, and all of it is in the filter or none. -/

/-- An annotation is told by the event that opens it. -/
theorem tellsOfSupertypes_annotation (o : Event) (a : Annotation) :
    (scope o (p.annotationScript a) .done).TellsOfSupertypes
      (Visit.supertypeAnnotation? ⟨o, false⟩).toList := by
  intro w hw
  obtain ⟨accepted, u, rfl, hu⟩ := hw.scope_ok
  have hquiet : u.filterMap Visit.supertypeAnnotation? = [] := by
    refine List.filterMap_eq_nil_iff.mpr fun x hx => Visit.supertypeAnnotation?_of_quiet ?_
    rcases hu with rfl | hu
    · exact absurd hx List.not_mem_nil
    · exact p.annotationScript_quiet hu x hx
  have hopening : Visit.supertypeAnnotation? ⟨o, accepted⟩
      = Visit.supertypeAnnotation? ⟨o, false⟩ := by
    cases o <;> rfl
  rw [List.filterMap_cons, hquiet, hopening]
  cases Visit.supertypeAnnotation? ⟨o, false⟩ <;> rfl

/-- A group of annotations that are on no supertype. -/
theorem tellsOfSupertypes_groupScript_nil {opening : AnnotationHeader → Event}
    (h : ∀ header, Visit.supertypeAnnotation? ⟨opening header, false⟩ = none)
    (group : List Annotation) : (p.groupScript opening group).TellsOfSupertypes [] := by
  refine tellsOfSupertypes_given fun kept _ => tellsOfSupertypes_forEach_nil fun r _ => ?_
  have htold := p.tellsOfSupertypes_annotation (opening r.header) r.source
  rwa [h] at htold

/-- **A group of annotations on a part of a supertype.** -/
theorem tellsOfSupertypes_typeGroup {place : TypeReference}
    (hplace : place.sort = TypeReference.classExtends) (path : TypePath)
    (group : List Annotation) :
    (p.typeGroup place path group).TellsOfSupertypes (p.typeAnnotations place ⟨path, group⟩) := by
  refine tellsOfSupertypes_given fun kept hkept => ?_
  unfold typeAnnotations
  rw [hkept]
  show (forEach kept _).TellsOfSupertypes (kept.map _)
  rw [← List.flatMap_pure_eq_map]
  refine tellsOfSupertypes_forEach fun r _ => ?_
  have htold := p.tellsOfSupertypes_annotation
    (.typeAnnotated place (if path.isEmpty then none else some path) r.header) r.source
  rwa [Visit.supertypeAnnotation?_typeAnnotated, if_pos hplace] at htold

/-- **The annotations on a supertype.** -/
theorem tellsOfSupertypes_typeScript {place : TypeReference}
    (hplace : place.sort = TypeReference.classExtends) (t : JavaType) :
    (p.typeScript place t).TellsOfSupertypes (p.placedAnnotations place t) := by
  refine tellsOfSupertypes_given fun parts hparts => ?_
  unfold placedAnnotations
  rw [hparts]
  exact tellsOfSupertypes_forEach fun part _ =>
    p.tellsOfSupertypes_typeGroup hplace part.path part.annotations

/-- Annotations on a part of a type in another place. -/
theorem tellsOfSupertypes_typeGroup_nil {place : TypeReference}
    (hplace : place.sort ≠ TypeReference.classExtends) (path : TypePath)
    (group : List Annotation) : (p.typeGroup place path group).TellsOfSupertypes [] :=
  p.tellsOfSupertypes_groupScript_nil
    (fun _ => (Visit.supertypeAnnotation?_typeAnnotated _ _ _ _).trans (if_neg hplace)) group

theorem tellsOfSupertypes_typeScript_nil {place : TypeReference}
    (hplace : place.sort ≠ TypeReference.classExtends) (t : JavaType) :
    (p.typeScript place t).TellsOfSupertypes [] :=
  tellsOfSupertypes_given fun _ _ => tellsOfSupertypes_forEach_nil fun part _ =>
    p.tellsOfSupertypes_typeGroup_nil hplace part.path part.annotations

/-! ## Type parameters and members

Members have places of many sorts. Of methods it has been shown that all their
annotations are in places of a method, and none of these is one of a
supertype. -/

/-- **Type parameters of a class have places of their own,** and so have their bounds. -/
theorem tellsOfSupertypes_typeParametersScript (ids : List TypeParameterId) :
    (p.typeParametersScript TypeReference.classTypeParameter ids).TellsOfSupertypes [] := by
  have hsort : ∀ {sort : UInt8}, sort ≠ TypeReference.classExtends → ∀ index bound,
      (TypeReference.ofBound sort index bound).sort ≠ TypeReference.classExtends := by
    intro sort hne index bound
    rwa [(TypeReference.reads_ofBound sort index bound).1]
  refine tellsOfSupertypes_forEach_nil fun x _ => tellsOfSupertypes_given fun index _ =>
    tellsOfSupertypes_given fun parameter _ => ?_
  have hparameter := p.tellsOfSupertypes_typeGroup_nil
    (hsort (show TypeReference.classTypeParameter ≠ _ by decide) index 0) []
    parameter.annotations
  refine hparameter.append (tellsOfSupertypes_given fun start _ => ?_)
  exact tellsOfSupertypes_forEach_nil fun bound _ => tellsOfSupertypes_given fun boundIndex _ =>
    p.tellsOfSupertypes_typeScript_nil (hsort (by decide) index boundIndex) bound.1

/-- The content of a scope does not matter where it is declined. -/
theorem tellsOfSupertypes_scope {o : Event} {content : Script}
    (ho : o.annotationContent? = none) (h : content.TellsOfSupertypes []) :
    (scope o content .done).TellsOfSupertypes [] := by
  intro w hw
  obtain ⟨accepted, u, rfl, hu⟩ := hw.scope_ok
  rw [List.filterMap_cons_none (Visit.supertypeAnnotation?_of_quiet ho)]
  rcases hu with rfl | hu
  · rfl
  · exact h u hu

theorem tellsOfSupertypes_finish (k : Scope) :
    (tell (.finish k) .done).TellsOfSupertypes [] := .quiet fun w hw => by
  cases hw with
  | tell _ hw =>
    cases hw
    exact List.forall_mem_singleton.mpr rfl

/-- **Members tell of no supertype.** A method is known to tell of places of its own. -/
theorem tellsOfSupertypes_memberScript : ∀ x : Member, (p.memberScript x).TellsOfSupertypes []
  | .field f => tellsOfSupertypes_given fun header _ => tellsOfSupertypes_scope rfl <|
    ((p.tellsOfSupertypes_groupScript_nil (fun _ => rfl) f.annotations).append
      (p.tellsOfSupertypes_typeScript_nil (by decide) f.type)).append
        (tellsOfSupertypes_finish .field)
  | .method m => tellsOfSupertypes_given fun header _ => tellsOfSupertypes_scope rfl <|
    .quiet fun w hw x hx =>
      Visit.supertypeAnnotation?_of_methodPlace ((p.tellsParts_methodContent m).placed hw x hx)
  | .nested _ => tellsOfSupertypes_done

/-! ## Classes -/

/-- **A class tells of its supertypes,** one after another in their places. -/
theorem tellsOfSupertypes_classTelling (id : ClassId) (c : ClassDeclaration)
    (options : WriteOptions) :
    (p.classTelling id c options).TellsOfSupertypes (p.supertypeAnnotations c) := by
  have hsuperclass : (p.superclassScript c).TellsOfSupertypes
      ((c.superclass.toList.map fun t => (TypeReference.ofSupertype none, t)).flatMap
        fun x => p.placedAnnotations x.1 (.declared x.2)) := by
    unfold superclassScript
    cases c.superclass with
    | none => exact tellsOfSupertypes_done
    | some t =>
      show Script.TellsOfSupertypes _ (_ ++ [])
      rw [List.append_nil]
      exact p.tellsOfSupertypes_typeScript (TypeReference.sort_ofSupertype none) (.declared t)
  have hinterfaces : (forEach c.interfaces.zipIdx
      fun (t, position) => p.interfaceScript t position).TellsOfSupertypes
      ((c.interfaces.zipIdx.map fun (t, position) =>
        (TypeReference.ofSupertype (some (UInt16.ofNat position)), t)).flatMap
          fun x => p.placedAnnotations x.1 (.declared x.2)) := by
    rw [List.flatMap_map]
    refine tellsOfSupertypes_forEach fun x _ => tellsOfSupertypes_given fun index hindex => ?_
    -- the index is the position itself, as it would not have been found otherwise
    have hposition : index = UInt16.ofNat x.2 := by
      rw [← toNat_of_wideIndex hindex, UInt16.ofNat_toNat]
    rw [hposition]
    exact p.tellsOfSupertypes_typeScript (TypeReference.sort_ofSupertype _) (.declared x.1)
  have hgroup : (p.declarationGroup c.annotations).TellsOfSupertypes [] :=
    p.tellsOfSupertypes_groupScript_nil (fun _ => rfl) c.annotations
  have hmembers : (forEach c.members p.memberScript).TellsOfSupertypes [] :=
    tellsOfSupertypes_forEach_nil fun x _ => p.tellsOfSupertypes_memberScript x
  have hcontent := ((((hgroup.append
    (p.tellsOfSupertypes_typeParametersScript c.typeParameters)).append hsuperclass).append
      hinterfaces).append hmembers).append (tellsOfSupertypes_finish .classFile)
  simp only [List.append_nil, List.nil_append, ← List.flatMap_append] at hcontent
  refine tellsOfSupertypes_given fun header _ w hw => ?_
  cases hw with
  | tell _ hw => exact (List.filterMap_cons_none rfl).trans (hcontent _ hw)

/-- A class that is told to the end has no more interfaces than there are indices. -/
theorem interfaces_length_of_tells {id : ClassId} {c : ClassDeclaration} {options : WriteOptions}
    {w : List Visit} (h : (p.classTelling id c options).Tells w (.ok ())) :
    c.interfaces.length ≤ 65536 := by
  obtain ⟨header, -, h⟩ := h.given_ok
  cases h with
  | tell _ h =>
    -- the interfaces are in front of the members and of the end
    obtain ⟨u, -, hu, -, -⟩ := h.append_ok
    obtain ⟨u', -, hu', -, -⟩ := hu.append_ok
    obtain ⟨-, interfaces, -, hinterfaces, -⟩ := hu'.append_ok
    refine Nat.le_of_not_lt fun hlt => ?_
    have hmem : (c.interfaces[65536], 65536) ∈ c.interfaces.zipIdx :=
      List.mem_zipIdx_iff_getElem?.mpr (List.getElem?_eq_getElem hlt)
    obtain ⟨_, htold⟩ := hinterfaces.exists_of_forEach _ hmem
    obtain ⟨index, hindex, -⟩ := htold.given_ok
    cases hindex

/-! ## As many interfaces as there are indices

The class that shows where places meet has 65536 interfaces. It is given by a
number, so that nothing about it has to be evaluated: that it is told to the
end follows from what is known of each of its parts. -/

/-- An annotation of a type that carries none itself. -/
def mark : Annotation := ⟨.plain ⟨7⟩, []⟩

/-- A class, with that annotation on it. -/
def marked (id : ClassId) : ClassType := ⟨⟨id, [], [mark]⟩, []⟩

/-- A class with an annotated superclass, so many interfaces, and an annotated one behind
them. -/
def crowdedClass (count : Nat) : ClassDeclaration :=
  { ClassDeclaration.bare .ordinary "a" "C" with
    superclass := some (marked .object)
    interfaces := List.replicate count (.plain ⟨6⟩) ++ [marked ⟨6⟩] }

/-- The program of that class. -/
def crowded (count : Nat) : Program :=
  { Program.initial with
    classes := Program.initial.classes ++
      #[.bare .interface "a" "I", .bare .annotationType "a" "A", crowdedClass count] }

/-- What is told of the mark on a supertype. -/
def markTold (interface : Option UInt16) : TypeAnnotation :=
  ⟨.ofSupertype interface, none, ⟨"La/A;", false⟩⟩

section

variable (count : Nat)

theorem descriptor_mark : (crowded count).classDescriptor mark.type = .ok "La/A;" := by cbv

theorem canTell_mark : (crowded count).CanTell mark where
  visibility := ⟨some false, rfl⟩
  descriptor _ := ⟨_, descriptor_mark count⟩
  elements _ := ⟨[], rfl⟩

theorem retained_mark :
    (crowded count).retained [mark] = .ok [⟨mark, ⟨"La/A;", false⟩⟩] := by
  have hvisible : (crowded count).visibility? mark = .ok (some false) := rfl
  rw [retained, hvisible]
  show (do
    let descriptor ← (crowded count).classDescriptor mark.type
    return Retained.mk mark ⟨descriptor, false⟩ :: (← (crowded count).retained [])) = _
  rw [descriptor_mark]
  rfl

theorem placedAnnotations_marked (interface : Option UInt16) (id : ClassId) :
    (crowded count).placedAnnotations (.ofSupertype interface) (.declared (marked id))
      = [markTold interface] := by
  show (crowded count).typeAnnotations (.ofSupertype interface) ⟨[], [mark]⟩ ++ [] = _
  unfold typeAnnotations
  rw [retained_mark]
  rfl

/-- **What there is to tell of the supertypes:** the mark on the superclass, and the one on
the last interface. -/
theorem supertypeAnnotations_crowdedClass :
    (crowded count).supertypeAnnotations (crowdedClass count)
      = [markTold none, markTold (some (UInt16.ofNat count))] := by
  have hplain : ((List.replicate count (ClassType.plain ⟨6⟩)).zipIdx.flatMap fun x =>
      (crowded count).placedAnnotations (.ofSupertype (some (UInt16.ofNat x.2)))
        (.declared x.1)) = [] := by
    refine List.flatMap_eq_nil_iff.mpr fun x hx => ?_
    rw [List.eq_of_mem_replicate (List.fst_mem_of_mem_zipIdx hx)]
    rfl
  have hlast : ([marked ⟨6⟩].zipIdx (0 + count)).flatMap (fun x =>
      (crowded count).placedAnnotations (.ofSupertype (some (UInt16.ofNat x.2)))
        (.declared x.1)) = [markTold (some (UInt16.ofNat count))] := by
    rw [Nat.zero_add]
    exact (List.append_nil _).trans (placedAnnotations_marked count _ _)
  have hsuperclass : (crowdedClass count).superclass.toList = [marked .object] := rfl
  have hinterfaces : (crowdedClass count).interfaces
      = List.replicate count (.plain ⟨6⟩) ++ [marked ⟨6⟩] := rfl
  unfold supertypeAnnotations ClassDeclaration.supertypePlaces
  rw [List.flatMap_append, List.flatMap_map, List.flatMap_map, hsuperclass, hinterfaces,
    List.flatMap_singleton, List.zipIdx_append, List.flatMap_append, List.length_replicate, hplain,
    hlast, placedAnnotations_marked]
  rfl

/-- A marked class can be told, and so can a plain one. -/
theorem typeScript_marked_unbroken (place : TypeReference) (id : ClassId) :
    ((crowded count).typeScript place (.declared (marked id))).Unbroken := by
  have hmark : (crowded count).CanTellAll [mark] :=
    List.forall_mem_singleton.mpr (canTell_mark count)
  have ⟨htells, hfits⟩ :=
    canTellType_of_annotatedParts (t := .declared (marked id)) rfl
      (List.forall_mem_singleton.mpr hmark)
  exact htells.typeScript_unbroken hfits place

theorem typeScript_plain_unbroken (place : TypeReference) (id : ClassId) :
    ((crowded count).typeScript place (.declared (.plain id))).Unbroken :=
  have ⟨htells, hfits⟩ := canTellType_of_nil (t := .declared (.plain id)) rfl
  htells.typeScript_unbroken hfits place

/-- Only the mark tells the last interface from the others. -/
theorem mem_crowdedInterfaces {count : Nat} {t : ClassType}
    (ht : t ∈ (crowdedClass count).interfaces) : t = .plain ⟨6⟩ ∨ t = marked ⟨6⟩ :=
  (List.mem_append.mp ht).imp List.eq_of_mem_replicate List.mem_singleton.mp

theorem length_crowdedInterfaces : (crowdedClass count).interfaces.length = count + 1 := by
  show (List.replicate count _ ++ [_]).length = _
  rw [List.length_append, List.length_replicate]
  rfl

/-- The last interface has the place of its position, which is the number of the others. -/
theorem lastPlace_crowded :
    (TypeReference.ofSupertype (some (UInt16.ofNat count)), marked ⟨6⟩)
      ∈ (crowdedClass count).supertypePlaces := by
  have hlast : (crowdedClass count).interfaces[count]? = some (marked ⟨6⟩) := by
    show (List.replicate count _ ++ [_])[count]? = _
    rw [List.getElem?_append_right (by rw [List.length_replicate]), List.length_replicate,
      Nat.sub_self]
    rfl
  exact List.mem_append_right _
    (List.mem_map.mpr ⟨(_, count), List.mem_zipIdx_iff_getElem?.mpr hlast, rfl⟩)

theorem crowdedClass_needsSignature : (crowdedClass count).needsSignature = false := by
  have hinterfaces : (crowdedClass count).interfaces.any ClassType.isParameterized = false := by
    refine List.any_eq_false.mpr fun t ht => ?_
    rcases mem_crowdedInterfaces ht with rfl | rfl <;> exact Bool.false_ne_true
  unfold ClassDeclaration.needsSignature
  rw [hinterfaces]
  rfl

/-- The names in the header of the class are found, however many interfaces
there are. -/
theorem classHeader_crowded_succeeds :
    Succeeds ((crowded count).classHeader ⟨8⟩ (crowdedClass count) .default) := by
  have hinterface : (crowded count).internalName ⟨6⟩ = .ok "a/I" := by cbv
  have hname : (crowded count).internalName ⟨8⟩ = .ok "a/C" := by cbv
  have hsuper : (crowded count).superName ⟨8⟩ (crowdedClass count)
      = .ok (some "java/lang/Object") := by cbv
  have hsignature : (crowded count).classSignature? ⟨8⟩ = .ok none := by
    show (if (crowdedClass count).needsSignature then _ else _) = _
    rw [crowdedClass_needsSignature]
    rfl
  have hinterfaces : Succeeds ((crowded count).interfaceNames (crowdedClass count)) :=
    Succeeds.mapM fun t ht => ⟨"a/I", by
      rcases mem_crowdedInterfaces ht with rfl | rfl <;> exact hinterface⟩
  exact Succeeds.bind ⟨_, hname⟩ fun _ _ => Succeeds.bind ⟨_, hsignature⟩ fun _ _ =>
    Succeeds.bind ⟨_, hsuper⟩ fun _ _ => hinterfaces.bind fun _ _ => .ok _

/-- The position of the last interface is the number of those in front of it. -/
theorem interfaces_crowded_unbroken (h : count ≤ 65535) :
    (forEach (crowdedClass count).interfaces.zipIdx
      fun x => (crowded count).interfaceScript x.1 x.2).Unbroken := by
  refine unbroken_forEach_wideIndex
    (f := fun t index => (crowded count).typeScript (.ofSupertype (some index)) (.declared t))
    ?_ fun t ht index => ?_
  · rw [length_crowdedInterfaces]
    omega
  · rcases mem_crowdedInterfaces ht with rfl | rfl
    · exact typeScript_plain_unbroken count _ ⟨6⟩
    · exact typeScript_marked_unbroken count _ ⟨6⟩

/-- **The crowded class is told to the end,** as long as its interfaces have indices. -/
theorem run_crowded {count : Nat} (h : count ≤ 65535) {State : Type} (v : Visitor State)
    (s : State) :
    (v.run ((crowded count).classTelling ⟨8⟩ (crowdedClass count) .default) s).2 = .ok () :=
  run_classTelling_of_told (classHeader_crowded_succeeds count) canTellAll_nil trivial
    (typeScript_marked_unbroken count _ .object) (interfaces_crowded_unbroken count h) trivial v s

theorem classOf_crowded : (crowded count).classOf ⟨8⟩ = .ok (crowdedClass count) := rfl

end

/-! ## The places that are told

The theorem holds of every class. What it says of the places depends on the
number of interfaces, and the two witnesses are on either side of the
limit. -/

/-- **Annotations on supertypes are told apart.** A class with more interfaces than there
are indices is not told to the end. If a class is told to the end, the annotations on its
supertypes are told in the places of the supertypes. These are pairwise different exactly
if there is no superclass or there are fewer interfaces than indices, and then each
annotation that is told belongs to the only supertype that has its place. -/
theorem supertypes_are_told_apart {p : Program} {id : ClassId} {c : ClassDeclaration}
    (hc : p.classOf id = .ok c) (options : WriteOptions) :
    ∃ script, p.classScript id options = .ok script
      ∧ ∀ {State : Type} (v : Visitor State) (s : State),
        (65536 < c.interfaces.length → ∃ e, (v.run script s).2 = .error e)
        ∧ ((v.run script s).2 = .ok () →
          let told := (v.visits script s).filterMap Visit.supertypeAnnotation?
          told = p.supertypeAnnotations c
            ∧ ((c.supertypePlaces.map Prod.fst).Nodup
              ↔ c.superclass = none ∨ c.interfaces.length ≤ 65535)
            ∧ (c.superclass = none ∨ c.interfaces.length ≤ 65535 →
              ∀ a ∈ told, ∃ x ∈ c.supertypePlaces,
                a ∈ p.placedAnnotations x.1 (.declared x.2)
                  ∧ ∀ y ∈ c.supertypePlaces, y.1 = a.place → y = x)) := by
  refine ⟨_, p.classScript_of_classOf hc options, fun v s => ?_⟩
  have htells := v.tells (p.classTelling id c options) s
  constructor
  · intro hlt
    cases hrun : (v.run (p.classTelling id c options) s).2 with
    | error e => exact ⟨e, rfl⟩
    | ok =>
      rw [hrun] at htells
      exact absurd (p.interfaces_length_of_tells htells) (Nat.not_le_of_lt hlt)
  · intro hok
    rw [hok] at htells
    have htold := p.tellsOfSupertypes_classTelling id c options _ htells
    have hnodup := ClassDeclaration.supertypePlaces_nodup_iff
      (p.interfaces_length_of_tells htells)
    -- an annotation that is told has the place of the supertype that it is on
    refine ⟨htold, hnodup, fun hfew a ha => ?_⟩
    rw [htold] at ha
    obtain ⟨x, hx, hax⟩ := List.mem_flatMap.mp ha
    refine ⟨x, hx, hax, fun y hy hplace => ?_⟩
    exact ClassDeclaration.eq_of_place_eq (hnodup.mpr hfew) hy hx
      (hplace.trans (p.place_of_mem_placedAnnotations hax))

/-- **As many interfaces as can be told from the superclass:** both marks are told, and the
places say which is whose. -/
theorem supertypes_are_told_apart_65535 :
    let p := crowded 65534
    let c := crowdedClass 65534
    p.classOf ⟨8⟩ = .ok c ∧ c.interfaces.length = 65535
      ∧ ∃ script, p.classScript ⟨8⟩ .default = .ok script
        ∧ ∀ {State : Type} (v : Visitor State) (s : State), (v.run script s).2 = .ok ()
          ∧ (v.visits script s).filterMap Visit.supertypeAnnotation?
            = [markTold none, markTold (some 65534)]
          ∧ (c.supertypePlaces.map Prod.fst).Nodup
          ∧ ∀ a ∈ [markTold none, markTold (some 65534)], ∃ x ∈ c.supertypePlaces,
            a ∈ p.placedAnnotations x.1 (.declared x.2)
              ∧ ∀ y ∈ c.supertypePlaces, y.1 = a.place → y = x := by
  intro p c
  have hlength : c.interfaces.length = 65535 := length_crowdedInterfaces 65534
  have hfew : c.superclass = none ∨ c.interfaces.length ≤ 65535 := .inr hlength.le
  obtain ⟨script, hscript, htold⟩ := supertypes_are_told_apart (classOf_crowded 65534) .default
  refine ⟨classOf_crowded 65534, hlength, script, hscript, fun v s => ?_⟩
  have htelling : script = p.classTelling ⟨8⟩ c .default :=
    Except.ok.inj (hscript.symm.trans (p.classScript_of_classOf (classOf_crowded 65534) .default))
  have hok : (v.run script s).2 = .ok () := htelling ▸ run_crowded (by omega) v s
  obtain ⟨heq, hnodup, hone⟩ := (htold v s).2 hok
  have hone := hone hfew
  rw [heq, supertypeAnnotations_crowdedClass] at hone
  exact ⟨hok, heq.trans (supertypeAnnotations_crowdedClass 65534), hnodup.mpr hfew, hone⟩

/-- **One interface more:** the class is told to the end, but the last interface goes by the
index of the superclass, and the mark on either is told in the same words. -/
theorem supertype_places_meet :
    let p := crowded 65535
    let c := crowdedClass 65535
    p.classOf ⟨8⟩ = .ok c ∧ 65535 < c.interfaces.length
      ∧ (TypeReference.ofSupertype none, marked .object) ∈ c.supertypePlaces
      ∧ (TypeReference.ofSupertype none, marked ⟨6⟩) ∈ c.supertypePlaces
      ∧ ¬ (c.supertypePlaces.map Prod.fst).Nodup
      ∧ ∃ script, p.classScript ⟨8⟩ .default = .ok script
        ∧ ∀ {State : Type} (v : Visitor State) (s : State), (v.run script s).2 = .ok ()
          ∧ (v.visits script s).filterMap Visit.supertypeAnnotation?
            = [markTold none, markTold none] := by
  intro p c
  have hlength : c.interfaces.length = 65536 := length_crowdedInterfaces 65535
  refine ⟨classOf_crowded 65535, by omega, List.mem_append_left _ (List.mem_singleton.mpr rfl),
    lastPlace_crowded 65535, fun hnodup => ?_, _,
    p.classScript_of_classOf (classOf_crowded 65535) .default, fun v s => ?_⟩
  · rcases (ClassDeclaration.supertypePlaces_nodup_iff hlength.le).mp hnodup with hnone | hfew
    · cases hnone
    · omega
  · have hok := run_crowded (Nat.le_refl 65535) v s
    have htells := v.tells (p.classTelling ⟨8⟩ c .default) s
    rw [hok] at htells
    exact ⟨hok, (p.tellsOfSupertypes_classTelling ⟨8⟩ c .default _ htells).trans
      (supertypeAnnotations_crowdedClass 65535)⟩

end Program

end ClassFile
