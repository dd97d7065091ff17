import ClassFile.Program.Type

/-!
# Annotations on annotation types

Six classes are part of the language and have fixed handles. Two of them are
annotation types that are written on annotation types, to state how long an
annotation is kept and where it may be written; the answers are constants of
two enumerations, and it is by the names of these constants that policies
and places are recognized.
-/

namespace ClassFile

namespace ClassId

def object : ClassId := ⟨0⟩
def string : ClassId := ⟨1⟩
def retention : ClassId := ⟨2⟩
def target : ClassId := ⟨3⟩
def retentionPolicy : ClassId := ⟨4⟩
def elementType : ClassId := ⟨5⟩

end ClassId

def ClassType.object : ClassType := .plain .object

def ClassType.string : ClassType := .plain .string

/-- How long an annotation is kept. -/
inductive RetentionPolicy where
  | source
  | classFile
  | runtime
  deriving DecidableEq, Repr

namespace RetentionPolicy

/-- The policy of an annotation type that states none. -/
def default : RetentionPolicy := classFile

/-- The name of the constant that stands for the policy. -/
def constantName : RetentionPolicy → String
  | source => "SOURCE"
  | classFile => "CLASS"
  | runtime => "RUNTIME"

def all : List RetentionPolicy := [source, classFile, runtime]

/-- The policy a constant stands for. -/
def ofConstantName? (name : String) : Option RetentionPolicy :=
  all.find? (·.constantName == name)

end RetentionPolicy

/-- A kind of place that an annotation may be written on. -/
inductive AnnotationTarget where
  | type
  | field
  | method
  | parameter
  | constructor
  | localVariable
  | annotationType
  | package
  | typeParameter
  | typeUse
  | module
  | recordComponent
  deriving DecidableEq, Repr

namespace AnnotationTarget

/-- The name of the constant that stands for the place. -/
def constantName : AnnotationTarget → String
  | type => "TYPE"
  | field => "FIELD"
  | method => "METHOD"
  | parameter => "PARAMETER"
  | constructor => "CONSTRUCTOR"
  | localVariable => "LOCAL_VARIABLE"
  | annotationType => "ANNOTATION_TYPE"
  | package => "PACKAGE"
  | typeParameter => "TYPE_PARAMETER"
  | typeUse => "TYPE_USE"
  | module => "MODULE"
  | recordComponent => "RECORD_COMPONENT"

def all : List AnnotationTarget :=
  [type, field, method, parameter, constructor, localVariable, annotationType, package,
    typeParameter, typeUse, module, recordComponent]

/-- The place a constant stands for. -/
def ofConstantName? (name : String) : Option AnnotationTarget :=
  all.find? (·.constantName == name)

end AnnotationTarget

namespace Annotation

/-- The annotation that states how long annotations of a type are kept. -/
def retention (policy : RetentionPolicy) : Annotation :=
  ⟨.plain .retention, [⟨soleName, .enumConstant .retentionPolicy policy.constantName⟩]⟩

/-- The annotation that states where annotations of a type may be written. -/
def target (targets : List AnnotationTarget) : Annotation :=
  ⟨.plain .target,
    [⟨soleName, .array (targets.map fun t => .enumConstant .elementType t.constantName)⟩]⟩

end Annotation

end ClassFile
