import ClassFile.Proofs.AnnotatedParts
import ClassFile.Proofs.Walk.Protocol

/-!
# Annotations on types

What is told of the annotations on a type is, for each annotated part in the
order in which they are listed, the annotations on it that reach the class file:
where the type stands, the path to the part, and the annotation. A visitor is
told all of it, or the beginning of it if something fails. The values in an
annotation may be annotations again, but these are not annotations on a type.
-/

namespace ClassFile

open Protocol Script

/-- An annotation on a type, as a visitor is told of it. -/
structure TypeAnnotation where
  place : TypeReference
  path : Option TypePath
  content : AnnotationHeader
  deriving DecidableEq, Repr

/-- The annotation on a type that is told, if one is. -/
def Visit.typeAnnotated? : Visit → Option TypeAnnotation
  | ⟨.typeAnnotated place path content, _⟩ => some ⟨place, path, content⟩
  | _ => none

/-- What may be told if the annotations on types are to be these. -/
def tellingTypeAnnotations (expected : List TypeAnnotation) : Language Visit :=
  {w | w.filterMap Visit.typeAnnotated? = expected}

/-- Among values there are no annotations on types. -/
theorem Protocol.Values.no_typeAnnotated {named : Bool} {w : List Visit} (h : Values named w) :
    w.filterMap Visit.typeAnnotated? = [] := by
  induction h with
  | nil => rfl
  | scalar _ _ _ ih | enumConstant _ _ _ _ ih | nestedDeclined _ _ _ ih | arrayDeclined _ _ ih =>
    exact ih
  | @nested _ _ u w _ _ ihu ihw =>
    show (u ++ .finish .nested :: w).filterMap Visit.typeAnnotated? = []
    rw [List.filterMap_append, ihu]
    exact ihw
  | @array _ u w _ _ ihu ihw =>
    show (u ++ .finish .array :: w).filterMap Visit.typeAnnotated? = []
    rw [List.filterMap_append, ihu]
    exact ihw

namespace Script

variable {a b : Script} {x y : List TypeAnnotation}

theorem Follows.append_typeAnnotations (ha : a.Follows (tellingTypeAnnotations x))
    (hb : b.Follows (tellingTypeAnnotations y)) :
    (a ++ b).Follows (tellingTypeAnnotations (x ++ y)) := by
  refine (ha.append hb).mono fun w hw => ?_
  obtain ⟨u, hu, u', hu', rfl⟩ := Language.mem_mul.mp hw
  show (u ++ u').filterMap _ = _
  rw [List.filterMap_append, hu, hu']

/-- What is told of several things, one after another, is told of each of
them. -/
theorem follows_forEach_typeAnnotations {α : Type} {xs : List α} {f : α → Script}
    {expected : α → List TypeAnnotation}
    (h : ∀ x ∈ xs, (f x).Follows (tellingTypeAnnotations (expected x))) :
    (forEach xs f).Follows (tellingTypeAnnotations (xs.flatMap expected)) := by
  induction xs with
  | nil =>
    refine follows_done.mono fun w hw => ?_
    rw [show w = [] from hw]
    rfl
  | cons x xs ih =>
    exact (h x List.mem_cons_self).append_typeAnnotations
      (ih fun y hy => h y (List.mem_cons_of_mem x hy))

end Script

namespace Program

variable (p : Program)

/-- **The annotations on a part of a type that are told,** for a type that stands
in a place. There is no path to the whole type. Where it cannot be found out
which annotations reach the class file, none of them is told. -/
def typeAnnotations (place : TypeReference) (part : AnnotatedPart) : List TypeAnnotation :=
  ((p.retained part.annotations).toOption.getD []).map fun r =>
    ⟨place, if part.path.isEmpty then none else some part.path, r.header⟩

/-- One part of a type. -/
theorem typeGroup_follows_typeAnnotations (place : TypeReference) (part : AnnotatedPart) :
    (p.typeGroup place part.path part.annotations).Follows
      (tellingTypeAnnotations (p.typeAnnotations place part)) := by
  unfold typeGroup groupScript typeAnnotations
  cases p.retained part.annotations with
  | error e => exact follows_fail e ⟨[], rfl⟩
  | ok kept =>
    show (Script.forEach kept _).Follows (tellingTypeAnnotations (kept.map _))
    rw [← List.flatMap_pure_eq_map]
    refine follows_forEach_typeAnnotations fun r _ => ?_
    refine ((p.elementsScript_follows r.source.elements).scope (· = _) rfl rfl (by decide)).mono ?_
    rintro w ⟨_, rfl, rfl | ⟨u, hu, rfl⟩⟩
    · rfl
    · show _ :: (u ++ [Visit.finish .annotated]).filterMap Visit.typeAnnotated? = _
      rw [List.filterMap_append, hu.no_typeAnnotated]
      rfl

/-- **A whole type.** -/
theorem typeScript_follows_typeAnnotations (place : TypeReference) {t : JavaType}
    {found : List AnnotatedPart} (h : t.annotatedParts = .ok found) :
    (p.typeScript place t).Follows
      (tellingTypeAnnotations (found.flatMap (p.typeAnnotations place))) := by
  unfold typeScript
  rw [h]
  exact follows_forEach_typeAnnotations fun part _ =>
    p.typeGroup_follows_typeAnnotations place part

end Program

/-- **The annotated parts of a type are found by their paths, and told in their
order.** If no part has more type arguments than a path can tell apart, what is
listed is what carries annotations and can be followed to, each part once and by
the path that leads to it, an outer one in front of what it encloses. A visitor
is told the annotations on these parts that reach the class file, or the
beginning of that if something fails. -/
theorem JavaType.annotatedParts_are_told (t : JavaType) (h : t.start.Fits) :
    ∃ found, t.annotatedParts = .ok found
      ∧ (∀ path annotations, ⟨path, annotations⟩ ∈ found ↔
          annotations ≠ [] ∧ ∃ x, t.follow path = some x ∧ x.annotations = annotations)
      ∧ (found.map AnnotatedPart.path).Pairwise TypePath.Before
      ∧ (found.map AnnotatedPart.path).Pairwise (fun first later => ¬ later <+: first)
      ∧ (found.map AnnotatedPart.path).Nodup
      ∧ ∀ (p : Program) (place : TypeReference) {State : Type} (v : Visitor State) (s : State),
          let told := (v.visits (p.typeScript place t) s).filterMap Visit.typeAnnotated?
          let expected := found.flatMap (p.typeAnnotations place)
          told <+: expected ∧ ((v.run (p.typeScript place t) s).2 = .ok () → told = expected) := by
  obtain ⟨found, hfound⟩ := t.annotatedParts_total h
  have hlists := t.annotatedParts_lists hfound
  refine ⟨found, hfound, hlists.mem_iff, hlists.ordered, hlists.not_prefix, hlists.nodup,
    fun p place _ v s => ?_⟩
  have hfollows := p.typeScript_follows_typeAnnotations place hfound
  have htells := v.tells (p.typeScript place t) s
  constructor
  · obtain ⟨rest, hrest⟩ := hfollows.completable htells
    refine ⟨rest.filterMap Visit.typeAnnotated?, ?_⟩
    rw [← List.filterMap_append]
    exact hrest
  · intro hok
    rw [hok] at htells
    exact hfollows.complete htells

/-- A class type with an annotated array in an argument on its outer level, and
annotations on the inner level and on a bound and an argument inside it. -/
theorem JavaType.annotatedParts_are_told_mixed :
    let a : Annotation := .retention .source
    let b : Annotation := .target [.field]
    let bound : JavaType := .declared ⟨⟨.object, [.typeVariable ⟨0⟩ [b]], [a, b]⟩, []⟩
    let outer : ClassPart :=
      ⟨⟨6⟩, [.declared .string, .array (.typeVariable ⟨0⟩ [a]), .intersection [bound]], []⟩
    let t : JavaType := .array (.declared ⟨⟨⟨7⟩, [.wildcardExtends bound], [b]⟩, [outer]⟩)
    let retention : AnnotationHeader := ⟨"Ljava/lang/annotation/Retention;", true⟩
    let target : AnnotationHeader := ⟨"Ljava/lang/annotation/Target;", true⟩
    let place := TypeReference.ofSort TypeReference.field
    let v : Visitor Unit := ⟨fun s _ => s, fun _ _ => false⟩
    t.start.Fits
      ∧ t.annotatedParts = .ok
        [⟨[.component, .argument 1, .component], [a]⟩,
          ⟨[.component, .inwards], [b]⟩,
          ⟨[.component, .inwards, .argument 0, .bound], [a, b]⟩,
          ⟨[.component, .inwards, .argument 0, .bound, .argument 0], [b]⟩]
      ∧ (v.visits (Program.initial.typeScript place t) ()).filterMap Visit.typeAnnotated? =
        [⟨place, some [.component, .argument 1, .component], retention⟩,
          ⟨place, some [.component, .inwards], target⟩,
          ⟨place, some [.component, .inwards, .argument 0, .bound], retention⟩,
          ⟨place, some [.component, .inwards, .argument 0, .bound], target⟩,
          ⟨place, some [.component, .inwards, .argument 0, .bound, .argument 0], target⟩] := by
  intro a b bound outer t retention target place v
  have hparts : t.annotatedParts = .ok
      [⟨[.component, .argument 1, .component], [a]⟩,
        ⟨[.component, .inwards], [b]⟩,
        ⟨[.component, .inwards, .argument 0, .bound], [a, b]⟩,
        ⟨[.component, .inwards, .argument 0, .bound, .argument 0], [b]⟩] := rfl
  have hfits : t.start.Fits := t.annotatedParts_isOk_iff.mp ⟨_, hparts⟩
  obtain ⟨found, hfound, -, -, -, -, htold⟩ := t.annotatedParts_are_told hfits
  cases Except.ok.inj (hparts.symm.trans hfound)
  obtain ⟨-, hall⟩ := htold Program.initial place v ()
  refine ⟨hfits, hparts, (hall (by decide +kernel)).trans ?_⟩
  decide +kernel

end ClassFile
