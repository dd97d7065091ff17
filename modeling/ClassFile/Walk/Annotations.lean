import ClassFile.Program.Retention
import ClassFile.Signature.Encoding
import ClassFile.Walk.Script

/-!
# Telling annotations

An annotation is a scope that holds its element values. The values of an
element are told in the order in which they are written; an array is a scope
of its own in which values have no names, and so is an annotation inside an
annotation.

Annotations that are not kept beyond the source are left out. Annotations
written in one place are a group, and whether they are kept and what their
types are called is found out for the whole group before the first of them
is told. So one bad annotation silences its group.
-/

namespace ClassFile

namespace Program

/-! ## Element values -/

mutual

/-- **The script of an element value.** -/
def valueScript (p : Program) (name : Option String) : ElementValue → Script
  | .constant c => .tell (.scalar name (.constant c)) .done
  | .classLiteral t =>
    .given (p.typeDescriptor t) fun descriptor =>
      .tell (.scalar name (.classLiteral descriptor)) .done
  | .enumConstant id constant =>
    .given (p.classDescriptor (.plain id)) fun descriptor =>
      .tell (.enumConstant name descriptor constant) .done
  | .nested ⟨type, elements⟩ =>
    .given (p.classDescriptor type) fun descriptor =>
      .scope (.nested name descriptor)
        (p.elementsScript elements ++ .tell (.finish .nested) .done) .done
  | .array values =>
    .scope (.array name) (p.valuesScript values ++ .tell (.finish .array) .done) .done
  | .primitiveArray values =>
    .scope (.array name)
      (.tellAll (values.elements.map fun c => .scalar none (.constant c))
        ++ .tell (.finish .array) .done)
      .done

/-- The script of the values of an array. -/
def valuesScript (p : Program) : List ElementValue → Script
  | [] => .done
  | v :: vs => p.valueScript none v ++ p.valuesScript vs

/-- The script of named values. -/
def elementsScript (p : Program) : List Element → Script
  | [] => .done
  | ⟨name, v⟩ :: es => p.valueScript (some name) v ++ p.elementsScript es

end

/-- The content of the scope of an annotation, with its end. -/
def annotationScript (p : Program) (a : Annotation) : Script :=
  p.elementsScript a.elements ++ .tell (.finish .annotated) .done

/-! ## Groups of annotations -/

/-- An annotation that reaches the class file. -/
structure Retained where
  source : Annotation
  header : AnnotationHeader

/-- **The annotations of a group that reach the class file,** with the
descriptors of their types. -/
def retained (p : Program) : List Annotation → Except Error (List Retained)
  | [] => return []
  | a :: group => do
    match ← p.visibility? a with
    | none => p.retained group
    | some visible => do
      -- found before the rest of the group is looked at, so its error comes first
      let descriptor ← p.classDescriptor a.type
      return ⟨a, ⟨descriptor, visible⟩⟩ :: (← p.retained group)

/-- The script of a group, each annotation of which is opened by the event
that `opening` makes of it. -/
def groupScript (p : Program) (opening : AnnotationHeader → Event) (group : List Annotation) :
    Script :=
  .given (p.retained group) fun kept =>
    .forEach kept fun r => .scope (opening r.header) (p.annotationScript r.source) .done

/-- **The annotations on a declaration.** -/
def declarationGroup (p : Program) (group : List Annotation) : Script :=
  p.groupScript .annotated group

/-- The annotations on a parameter of a method. -/
def parameterGroup (p : Program) (index : UInt8) (group : List Annotation) : Script :=
  p.groupScript (.parameterAnnotated index) group

/-- **Annotations on a type** that stands in a place, on the part of it that
the path leads to. The empty path is none. -/
def typeGroup (p : Program) (place : TypeReference) (path : TypePath)
    (group : List Annotation) : Script :=
  p.groupScript (.typeAnnotated place (if path.isEmpty then none else some path)) group

/-- **All annotations on a type** that stands in a place: a group for each part
that carries any. The parts are found before the first group is told. -/
def typeScript (p : Program) (place : TypeReference) (t : JavaType) : Script :=
  .given t.annotatedParts fun parts =>
    .forEach parts fun part => p.typeGroup place part.path part.annotations

/-! ## Type parameters -/

/-- The sort of the places in bounds that goes with a sort of type
parameters. -/
def boundSort (sort : UInt8) : UInt8 :=
  if sort = TypeReference.classTypeParameter then TypeReference.classTypeParameterBound
  else TypeReference.methodTypeParameterBound

/-- A position as an index of one byte, or the error that there are too
many. -/
def byteIndex (index : Nat) (tooMany : Unsupported) : Except Error UInt8 :=
  if index < 256 then .ok (UInt8.ofNat index) else .error (.unsupported tooMany)

/-- A position as an index of two bytes, or the error that there are too
many. -/
def wideIndex (index : Nat) (tooMany : Unsupported) : Except Error UInt16 :=
  if index < 65536 then .ok (UInt16.ofNat index) else .error (.unsupported tooMany)

/-- The index of the first bound: 0 is the class bound, so it is 1 if the
first bound is an interface. -/
def firstBoundIndex (p : Program) (bounds : List JavaType) : Except Error Nat :=
  match bounds with
  | [] => .ok 0
  | first :: _ => (p.isInterface first).map fun interface => if interface then 1 else 0

/-- The annotations on one type parameter and then on its bounds. -/
def typeParameterScript (p : Program) (sort : UInt8) (position : Nat) (id : TypeParameterId) :
    Script :=
  .given (byteIndex position .typeParameterCount) fun index =>
  .given (p.typeParameterOf id) fun parameter =>
    p.typeGroup (.ofTypeParameter sort index) [] parameter.annotations
      -- looked at once the annotations on the parameter are told: an error here comes behind them
      ++ .given (p.firstBoundIndex parameter.bounds) fun start =>
        .forEach (parameter.bounds.zipIdx start) fun (bound, position) =>
          .given (byteIndex position .boundCount) fun boundIndex =>
            p.typeScript (.ofBound (boundSort sort) index boundIndex) bound

/-- **The annotations on type parameters and their bounds.** -/
def typeParametersScript (p : Program) (sort : UInt8) (ids : List TypeParameterId) : Script :=
  .forEach ids.zipIdx fun (id, position) => p.typeParameterScript sort position id

end Program

end ClassFile
