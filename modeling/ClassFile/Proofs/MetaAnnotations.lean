import ClassFile.Program.Basic
import ClassFile.Program.Retention
import ClassFile.Proofs.Handles
import ClassFile.Proofs.NamesAlike

/-!
# What is stated on an annotation type

How long an annotation is kept and where it may be written is stated by annotations
on its type, and there may be anything among them: repeats, annotations of other
types, annotations of types that nobody knows. The first one that bears the right
name counts, and of it the first element with the right name. This module says so by
changing what stands on a type: what does not bear the name can be put anywhere, and
what stands behind the first that bears it can be exchanged for anything
(`IsFirstMatch`).

Changing the annotations on a class changes no name
(`Program.namesAlike_annotatedWith`), so the changed program finds the same
annotations to bear the name. That includes the case in which an annotation type is
annotated with itself.
-/

namespace ClassFile

open Annotation (soleName)

/-! ## Going by the first match

The rule is about lists and knows nothing of programs, so that it is stated
once for how long annotations are kept and for where they may be written.
Whatever is read with `List.find?` obeys it. -/

/-- **An answer that goes by the first match** in a list of annotations. Of
those that bear a name the first one counts, and of that one the first element
with the name of a sole element: what is read is its value, or nothing.
`others` and `behind` say what makes no difference, and the other three fields
which answer there is, so that between them they determine it for every
list. -/
structure IsFirstMatch {α : Type} (bears : Annotation → Prop) (read : Option ElementValue → α)
    (answer : List Annotation → Except Error α) : Prop where
  others : ∀ before others after : List Annotation, (∀ m ∈ others, ¬ bears m) →
    answer (before ++ others ++ after) = answer (before ++ after)
  behind : ∀ (before : List Annotation) (m : Annotation) (after after' : List Annotation),
    bears m → answer (before ++ m :: after) = answer (before ++ m :: after')
  absent : ∀ metas : List Annotation, (∀ m ∈ metas, ¬ bears m) → answer metas = .ok (read none)
  valued : ∀ (before : List Annotation) (m : Annotation) (after : List Annotation),
    (∀ o ∈ before, ¬ bears o) → bears m →
      ∀ (front : List Element) (x : ElementValue) (back : List Element),
        (∀ e ∈ front, e.name ≠ soleName) →
          m.elements = front ++ ⟨soleName, x⟩ :: back →
            answer (before ++ m :: after) = .ok (read (some x))
  unvalued : ∀ (before : List Annotation) (m : Annotation) (after : List Annotation),
    (∀ o ∈ before, ¬ bears o) → bears m → (∀ e ∈ m.elements, e.name ≠ soleName) →
      answer (before ++ m :: after) = .ok (read none)

/-- The first element of a name is found behind elements of other names. -/
theorem Annotation.value?_of_elements_eq {m : Annotation} {name : String}
    {front back : List Element} {x : ElementValue} (hfront : ∀ e ∈ front, e.name ≠ name)
    (h : m.elements = front ++ ⟨name, x⟩ :: back) : m.value? name = some x := by
  have hnone : front.find? (·.name == name) = none :=
    List.find?_eq_none.mpr fun e he => by simpa using hfront e he
  unfold value?
  rw [h, List.find?_append, hnone, Option.none_or, List.find?_cons_of_pos (by simp)]
  rfl

theorem Annotation.value?_eq_none {m : Annotation} {name : String}
    (h : ∀ e ∈ m.elements, e.name ≠ name) : m.value? name = none := by
  unfold value?
  rw [List.find?_eq_none.mpr fun e he => by simpa using h e he]
  rfl

/-- **What reads the first annotation that is found goes by the first match.** -/
theorem isFirstMatch_of_find? {α : Type} {bears : Annotation → Prop} {test : Annotation → Bool}
    {read : Option ElementValue → α} {answer : List Annotation → Except Error α}
    (htest : ∀ m, test m = true ↔ bears m)
    (h : ∀ metas, answer metas
      = .ok (read ((metas.find? test).bind (·.value? soleName)))) :
    IsFirstMatch bears read answer := by
  -- nothing is found where nothing bears the name, and otherwise the first that does
  have hnone : ∀ metas : List Annotation, (∀ m ∈ metas, ¬ bears m) → metas.find? test = none :=
    fun metas hmetas => List.find?_eq_none.mpr fun m hm => (htest m).not.mpr (hmetas m hm)
  have hfirst : ∀ {before : List Annotation} {m : Annotation} (after : List Annotation),
      (∀ o ∈ before, ¬ bears o) → bears m → (before ++ m :: after).find? test = some m := by
    intro before m after hbefore hm
    rw [List.find?_append, hnone before hbefore, Option.none_or,
      List.find?_cons_of_pos ((htest m).mpr hm)]
  refine ⟨fun before others after hothers => ?_, fun before m after after' hm => ?_,
    fun metas hmetas => ?_, fun before m after hbefore hm front x back hfront helements => ?_,
    fun before m after hbefore hm hvalue => ?_⟩
  · rw [h, h, List.find?_append, List.find?_append, hnone others hothers, Option.or_none,
      ← List.find?_append]
  · rw [h, h, List.find?_append, List.find?_append, List.find?_cons_of_pos ((htest m).mpr hm),
      List.find?_cons_of_pos ((htest m).mpr hm)]
  · rw [h, hnone metas hmetas]
    rfl
  · have hx := Annotation.value?_of_elements_eq hfront helements
    rw [h, hfirst after hbefore hm]
    exact congrArg (fun v => Except.ok (read v)) hx
  · have hnone := Annotation.value?_eq_none hvalue
    rw [h, hfirst after hbefore hm]
    exact congrArg (fun v => Except.ok (read v)) hnone

/-! ## Constants of the two enumerations

A place that is told by a constant is looked up by the name of the constant
alone. A constant of another name names no place and is skipped; an array
names the places of its values, at whatever depth they are. -/

/-- A policy is recognized by its name. -/
theorem RetentionPolicy.ofConstantName?_constantName (policy : RetentionPolicy) :
    ofConstantName? policy.constantName = some policy := by
  cases policy <;> rfl

/-- A place is recognized by its name. -/
theorem AnnotationTarget.ofConstantName?_constantName (target : AnnotationTarget) :
    ofConstantName? target.constantName = some target := by
  cases target <;> rfl

mutual

/-- **The values in an element value that are no arrays,** from left to right, however
deep in arrays they are. -/
def ElementValue.leaves : ElementValue → List ElementValue
  | .array values => ElementValue.leavesOfAll values
  | v => [v]

/-- The values in several values that are no arrays. -/
def ElementValue.leavesOfAll : List ElementValue → List ElementValue
  | [] => []
  | v :: vs => v.leaves ++ ElementValue.leavesOfAll vs

end

/-- The place that a value names, if it is a constant with the name of a place. -/
def ElementValue.target? : ElementValue → Option AnnotationTarget
  | .enumConstant _ name => AnnotationTarget.ofConstantName? name
  | _ => none

mutual

/-- **The places named by a value are those named by its leaves.** -/
theorem ElementValue.targets_eq_filterMap_leaves :
    ∀ v : ElementValue, v.targets = v.leaves.filterMap ElementValue.target?
  | .array values => by
    rw [targets, leaves]
    exact targetsOfAll_eq_filterMap_leaves values
  | .enumConstant id name => by
    have htarget : (enumConstant id name).target? = AnnotationTarget.ofConstantName? name := rfl
    show (AnnotationTarget.ofConstantName? name).toList = [enumConstant id name].filterMap target?
    rw [← htarget]
    cases h : (enumConstant id name).target? with
    | none => rw [List.filterMap_cons_none h]; rfl
    | some target => rw [List.filterMap_cons_some h]; rfl
  | .constant _ | .classLiteral _ | .nested _ | .primitiveArray _ => rfl

/-- So are those named by several values. -/
theorem ElementValue.targetsOfAll_eq_filterMap_leaves : ∀ vs : List ElementValue,
    ElementValue.targetsOfAll vs = (ElementValue.leavesOfAll vs).filterMap ElementValue.target?
  | [] => rfl
  | v :: vs => by
    rw [targetsOfAll, leavesOfAll, List.filterMap_append, v.targets_eq_filterMap_leaves,
      targetsOfAll_eq_filterMap_leaves vs]

end

/-- Places are named by an array of their constants. -/
theorem ElementValue.filterMap_leavesOfAll_constants (id : ClassId)
    (places : List AnnotationTarget) :
    (leavesOfAll (places.map fun t => enumConstant id t.constantName)).filterMap target?
      = places := by
  induction places with
  | nil => rfl
  | cons t places ih =>
    have htarget : (enumConstant id t.constantName).target? = some t :=
      t.ofConstantName?_constantName
    show (enumConstant id t.constantName :: leavesOfAll _).filterMap target? = t :: places
    rw [List.filterMap_cons_some htarget, ih]

/-- **The policy that is stated by a value,** or by none. -/
def RetentionPolicy.stated (value : Option ElementValue) : RetentionPolicy :=
  (value.bind ElementValue.retentionPolicy?).getD .default

/-- **The places that are stated by a value,** or by none: those that its leaves name. -/
def AnnotationTarget.stated (value : Option ElementValue) : List AnnotationTarget :=
  value.elim [] fun v => v.leaves.filterMap ElementValue.target?

namespace Program

/-! ## Changing the annotations on a class

To say that some annotations on a class make no difference, they have to be
changed and nothing else. What decides between annotations is the name of
their type, and this does not depend on what is annotated with what. -/

/-- **The program in which these annotations stand on a class,** and no others. -/
def annotatedWith (p : Program) (id : ClassId) (metas : List Annotation) : Program :=
  { p with classes := p.classes.modify id.index fun c => { c with annotations := metas } }

section

variable {p : Program} {id : ClassId} {c : ClassDeclaration}

theorem classOf_annotatedWith (h : p.classOf id = .ok c) (metas : List Annotation) :
    (p.annotatedWith id metas).classOf id = .ok { c with annotations := metas } := by
  have hlt := index_lt_of_classOf h
  rw [classOf_of_lt hlt] at h
  cases h
  unfold classOf annotatedWith
  rw [Array.getElem?_modify, if_pos rfl, Array.getElem?_eq_getElem hlt]
  rfl

/-- A class that has these annotations already stays as it is. -/
theorem annotatedWith_annotations (h : p.classOf id = .ok c) :
    p.annotatedWith id c.annotations = p := by
  unfold annotatedWith
  refine congrArg (fun classes => { p with classes }) (Array.ext_getElem? fun i => ?_)
  rw [Array.getElem?_modify]
  -- only the class at the handle is changed, and it to what it was
  split
  · next hi =>
    subst hi
    have hlt := index_lt_of_classOf h
    rw [classOf_of_lt hlt] at h
    cases h
    rw [Array.getElem?_eq_getElem hlt]
    rfl
  · rfl

/-- **The annotations on a class have no influence on names.** -/
theorem namesAlike_annotatedWith (p : Program) (id : ClassId) (metas : List Annotation) :
    NamesAlike p (p.annotatedWith id metas) where
  size := Array.size_modify.symm
  classOf i := by
    unfold classOf annotatedWith
    rw [Array.getElem?_modify]
    cases p.classes[i.index]? with
    | none =>
      rw [Option.map_none, ite_self]
      exact .error _
    | some d =>
      -- changed or not, a class keeps what names are made of
      by_cases hi : id.index = i.index
      · rw [if_pos hi]
        exact .ok ⟨rfl, rfl, rfl, rfl⟩
      · rw [if_neg hi]
        exact .ok ⟨rfl, rfl, rfl, rfl⟩
  typeParameterOf i := (Agree.refl (p.typeParameterOf i)).mono fun _ _ h => congrArg _ h

theorem isNamed_iff {name : String} {id : ClassId} :
    p.isNamed name id = true ↔ p.qualifiedName id = .ok name := by
  unfold isNamed
  cases p.qualifiedName id with
  | error e => exact ⟨nofun, nofun⟩
  | ok n => simp

theorem NamesAlike.isNamed_eq {q : Program} (h : NamesAlike p q) (name : String) (id : ClassId) :
    p.isNamed name id = q.isNamed name id := by
  unfold isNamed
  rw [h.qualifiedName_eq]

/-- **What an annotation type states** is read off the first of the annotations that
stand on it and bear the name of `kind`. -/
theorem metaValue?_annotatedWith (h : p.classOf id = .ok c) {kind : ClassId} {name : String}
    (hkind : p.qualifiedName kind = .ok name) {a : Annotation} (ha : a.type.id = id)
    (metas : List Annotation) :
    (p.annotatedWith id metas).metaValue? a kind
      = .ok ((metas.find? fun m => p.isNamed name m.type.id).bind
          (·.value? soleName)) := by
  have hnames := p.namesAlike_annotatedWith id metas
  unfold metaValue? metaAnnotation?
  rw [← hnames.qualifiedName_eq, hkind, ha]
  show Except.map _ ((p.annotatedWith id metas).classOf id >>= _) = _
  rw [classOf_annotatedWith h]
  show Except.ok ((metas.find? fun m => (p.annotatedWith id metas).isNamed name m.type.id).bind _)
    = _
  simp only [← hnames.isNamed_eq]

end

/-! ## Retention and places -/

/-- **What an annotation type states goes by the first match.** The annotations on it
may be any; how long its annotations are kept is read off the first that bears the name
of `Retention`, and where they may be written off the first that bears the name of
`Target`, and there it is what the leaves of the value name, in order and with repeats.
So an annotation type whose first statements are a policy and some places states
these. -/
theorem statements_go_by_first_match (p : Program) {id : ClassId} {c : ClassDeclaration}
    (h : p.classOf id = .ok c) {retentionName targetName : String}
    (hretention : p.qualifiedName .retention = .ok retentionName)
    (htarget : p.qualifiedName .target = .ok targetName) {a : Annotation} (ha : a.type.id = id) :
    let isRetention (m : Annotation) : Prop := p.qualifiedName m.type.id = .ok retentionName
    let isTarget (m : Annotation) : Prop := p.qualifiedName m.type.id = .ok targetName
    p.annotatedWith id c.annotations = p
      ∧ IsFirstMatch isRetention RetentionPolicy.stated
        (fun metas => (p.annotatedWith id metas).retention a)
      ∧ IsFirstMatch isTarget AnnotationTarget.stated
        (fun metas => (p.annotatedWith id metas).targets a)
      ∧ (∀ (before : List Annotation) (policy : RetentionPolicy) (after : List Annotation),
        (∀ m ∈ before, ¬ isRetention m) →
          (p.annotatedWith id (before ++ .retention policy :: after)).retention a = .ok policy)
      ∧ ∀ (before : List Annotation) (places : List AnnotationTarget) (after : List Annotation),
        (∀ m ∈ before, ¬ isTarget m) →
          (p.annotatedWith id (before ++ .target places :: after)).targets a = .ok places := by
  intro isRetention isTarget
  -- both are read off what `find?` yields, and differ in the reading
  have hpolicy : IsFirstMatch isRetention RetentionPolicy.stated
      fun metas => (p.annotatedWith id metas).retention a :=
    isFirstMatch_of_find? (fun _ => isNamed_iff) fun metas => by
      rw [retention, metaValue?_annotatedWith h hretention ha]
      rfl
  have hplaces : IsFirstMatch isTarget AnnotationTarget.stated
      fun metas => (p.annotatedWith id metas).targets a :=
    isFirstMatch_of_find? (fun _ => isNamed_iff) fun metas => by
      rw [targets, metaValue?_annotatedWith h htarget ha]
      generalize List.find? _ metas = found
      show Except.ok _ = Except.ok (AnnotationTarget.stated (found.bind _))
      cases found.bind (·.value? soleName) with
      | none => rfl
      | some v => exact congrArg Except.ok v.targets_eq_filterMap_leaves
  refine ⟨annotatedWith_annotations h, hpolicy, hplaces, fun before policy after hbefore => ?_,
    fun before places after hbefore => ?_⟩
  · have hvalue := hpolicy.valued before (.retention policy) after hbefore hretention [] _ []
      (List.forall_mem_nil _) rfl
    refine hvalue.trans (congrArg Except.ok ?_)
    show (RetentionPolicy.ofConstantName? policy.constantName).getD .default = policy
    rw [policy.ofConstantName?_constantName]
    rfl
  · have hvalue := hplaces.valued before (.target places) after hbefore htarget [] _ []
      (List.forall_mem_nil _) rfl
    exact hvalue.trans
      (congrArg Except.ok (ElementValue.filterMap_leavesOfAll_constants .elementType places))

/-- Among the annotations are one of an unknown type and one of a class that bears the
name of `Retention` without being it, and that has two values of which the second is
not read. The places stand in arrays of different depths, and one is unknown. -/
theorem statements_go_by_first_match_impostor :
    let impostor := ClassDeclaration.bare .annotationType "java.lang.annotation" "Retention"
    let c := ClassDeclaration.bare .annotationType "a" "A"
    let p : Program :=
      { Program.initial with classes := (Program.initial.classes.push impostor).push c }
    let a : Annotation := ⟨.plain ⟨7⟩, []⟩
    let constant (name : String) : ElementValue := .enumConstant .string name
    let stranger : Annotation := ⟨.plain ⟨99⟩, [⟨"value", constant "RUNTIME"⟩]⟩
    let policy : Annotation :=
      ⟨.plain ⟨6⟩, [⟨"other", constant "RUNTIME"⟩, ⟨"value", constant "SOURCE"⟩,
        ⟨"value", constant "RUNTIME"⟩]⟩
    let places : Annotation :=
      ⟨.plain .target, [⟨"value", .array [constant "FIELD",
        .array [.array [constant "NOWHERE", constant "TYPE"], .array []], constant "FIELD"]⟩]⟩
    let metas := [stranger, policy, .retention .runtime, places, .target []]
    p.classOf ⟨7⟩ = .ok c
      ∧ p.qualifiedName .retention = .ok "java.lang.annotation.Retention"
      ∧ p.qualifiedName .target = .ok "java.lang.annotation.Target"
      ∧ (p.annotatedWith ⟨7⟩ metas).retention a = .ok .source
      ∧ (p.annotatedWith ⟨7⟩ metas).targets a = .ok [.field, .type, .field]
      ∧ (p.annotatedWith ⟨7⟩ [stranger, .retention .runtime, policy]).retention a = .ok .runtime
      ∧ (p.annotatedWith ⟨7⟩ [stranger, policy, .target [.type], places]).targets a
        = .ok [.type] := by
  intro impostor c p a constant stranger policy places metas
  have hc : p.classOf ⟨7⟩ = .ok c := rfl
  have hretention : p.qualifiedName .retention = .ok "java.lang.annotation.Retention" := by
    decide +kernel
  have htarget : p.qualifiedName .target = .ok "java.lang.annotation.Target" := by
    decide +kernel
  obtain ⟨-, hpolicy, hplaces, hgiven, hgiven'⟩ :=
    p.statements_go_by_first_match hc hretention htarget (a := a) rfl
  have hstranger : ∀ m ∈ [stranger],
      p.qualifiedName m.type.id ≠ .ok "java.lang.annotation.Retention" :=
    List.forall_mem_singleton.mpr (by decide +kernel)
  have hnoTarget : ∀ m ∈ [stranger, policy] ++ [.retention .runtime],
      p.qualifiedName m.type.id ≠ .ok "java.lang.annotation.Target" :=
    List.forall_mem_cons.mpr ⟨by decide +kernel, List.forall_mem_cons.mpr
      ⟨by decide +kernel, List.forall_mem_singleton.mpr (by decide +kernel)⟩⟩
  refine ⟨hc, hretention, htarget, ?_, ?_, ?_, ?_⟩
  · exact hpolicy.valued [stranger] policy _ hstranger (by decide +kernel)
      [⟨"other", constant "RUNTIME"⟩] (constant "SOURCE") _
      (List.forall_mem_singleton.mpr (by decide)) rfl
  · refine (hplaces.valued [stranger, policy, .retention .runtime] places _ hnoTarget htarget
      [] _ [] (List.forall_mem_nil _) rfl).trans (congrArg Except.ok ?_)
    decide
  · exact hgiven [stranger] .runtime [policy] hstranger
  · exact hgiven' [stranger, policy] [.type] [places] (List.forall_mem_append.mp hnoTarget).1

end Program

end ClassFile
