import ClassFile.Access
import ClassFile.Constant
import ClassFile.TypeAnnotation.Path
import ClassFile.TypeAnnotation.Reference
import ClassFile.Version

/-!
# What a visitor is told

A class file is handed to a visitor as a sequence of events. Some of them
open a scope: a member, an annotation, an array of values. What belongs to
the scope follows, and an event of its own ends it.
-/

namespace ClassFile

/-- A value without structure, as annotations hold it. A class literal has
become the descriptor of its type. -/
inductive Scalar where
  | constant (value : Constant)
  | classLiteral (descriptor : String)
  deriving DecidableEq, Repr

def Scalar.text : Scalar → String
  | constant c => c.text
  | classLiteral descriptor => descriptor ++ ".class"

/-- What is said about a class before anything else. -/
structure Header where
  version : Version
  access : AccessFlags
  name : String
  signature : Option String
  /-- The superclass; only `java.lang.Object` has none. -/
  superName : Option String
  interfaces : List String
  deriving DecidableEq, Repr

structure FieldHeader where
  access : AccessFlags
  name : String
  descriptor : String
  signature : Option String
  constant : Option StoredConstant
  deriving DecidableEq, Repr

structure MethodHeader where
  access : AccessFlags
  name : String
  descriptor : String
  signature : Option String
  thrown : List String
  deriving DecidableEq, Repr

/-- The annotation type that an annotation belongs to, and whether the
annotation is visible at run time. -/
structure AnnotationHeader where
  descriptor : String
  visible : Bool
  deriving DecidableEq, Repr

/-- What an end is the end of. -/
inductive Scope where
  | classFile
  | field
  | method
  | annotated
  | nested
  | array
  deriving DecidableEq, Repr

/-- Something a visitor is told. Elements of an array have no name. -/
inductive Event where
  | header (content : Header)
  /-- An annotation on a declaration. -/
  | annotated (content : AnnotationHeader)
  /-- An annotation on a type. There is no path to a type as a whole. -/
  | typeAnnotated (place : TypeReference) (path : Option TypePath) (content : AnnotationHeader)
  /-- An annotation on a parameter. -/
  | parameterAnnotated (index : UInt8) (content : AnnotationHeader)
  | field (content : FieldHeader)
  | method (content : MethodHeader)
  | scalar (name : Option String) (value : Scalar)
  | enumConstant (name : Option String) (descriptor constant : String)
  /-- An annotation as a value. -/
  | nested (name : Option String) (descriptor : String)
  | array (name : Option String)
  | finish (scope : Scope)
  deriving DecidableEq, Repr

/-- Whether an event opens a scope. -/
def Event.opensScope : Event → Bool
  | annotated _ | typeAnnotated _ _ _ | parameterAnnotated _ _ | field _ | method _
  | nested _ _ | array _ => true
  | header _ | scalar _ _ | enumConstant _ _ _ | finish _ => false

end ClassFile
