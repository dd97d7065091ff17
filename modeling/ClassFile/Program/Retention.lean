import ClassFile.Program.Naming

/-!
# How long an annotation is kept, and where it may stand

Both are stated by annotations on the annotation type. The one that counts is
the first whose type bears the right qualified name; annotations of unknown
types are passed over. Of that one the first element named `value` counts,
and where it does not say what it should, nothing is stated.
-/

namespace ClassFile

mutual

/-- The places named by an element value: one constant, or an array of them,
nested as deep as may be. Anything else names no place. -/
def ElementValue.targets : ElementValue → List AnnotationTarget
  | .enumConstant _ name => (AnnotationTarget.ofConstantName? name).toList
  | .array values => ElementValue.targetsOfAll values
  | _ => []

/-- The places named by several values, in order. -/
def ElementValue.targetsOfAll : List ElementValue → List AnnotationTarget
  | [] => []
  | v :: vs => v.targets ++ targetsOfAll vs

end

def ElementValue.retentionPolicy? : ElementValue → Option RetentionPolicy
  | .enumConstant _ name => RetentionPolicy.ofConstantName? name
  | _ => none

namespace Program

/-- The first annotation on the type of `a` whose own type is called what
`kind` is called. -/
def metaAnnotation? (p : Program) (a : Annotation) (kind : ClassId) :
    Except Error (Option Annotation) := do
  let name ← p.qualifiedName kind
  let c ← p.classOf a.type.id
  return c.annotations.find? fun m => p.isNamed name m.type.id

/-- What the first such annotation gives as its sole value. -/
def metaValue? (p : Program) (a : Annotation) (kind : ClassId) :
    Except Error (Option ElementValue) :=
  (p.metaAnnotation? a kind).map fun m => m.bind (·.value? Annotation.soleName)

/-- **How long an annotation is kept.** -/
def retention (p : Program) (a : Annotation) : Except Error RetentionPolicy :=
  (p.metaValue? a .retention).map fun v =>
    (v.bind ElementValue.retentionPolicy?).getD .default

/-- **Where an annotation may be written,** in the order stated and with
repeats. -/
def targets (p : Program) (a : Annotation) : Except Error (List AnnotationTarget) :=
  (p.metaValue? a .target).map fun v => (v.map ElementValue.targets).getD []

/-- Whether an annotation that reaches the class file is visible at run time;
nothing if it does not reach it. -/
def visibility? (p : Program) (a : Annotation) : Except Error (Option Bool) :=
  (p.retention a).map fun
    | .source => none
    | .classFile => some false
    | .runtime => some true

end Program

end ClassFile
