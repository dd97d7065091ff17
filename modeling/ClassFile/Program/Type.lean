import ClassFile.Constant
import ClassFile.Error

/-!
# Types as a program writes them

A `JavaType` is the use of a type in a program: with type arguments, type
variables, wildcards and intersections, and with the annotations written on
it. Classes and type parameters are referred to by handle.

A class type is a chain of parts: `Outer<A>.Inner<B>` has a part for `Inner`
and, further out, one for `Outer`, each with type arguments and annotations
of its own. The chain is kept as its innermost part and the list of the
outer ones, from the inside outwards, so that whatever climbs the chain is a
recursion on a list. A part says which class it uses; the chain need not
follow the nesting of the classes.

Annotations may hold class literals and other annotations, so types,
annotations and element values are defined together.
-/

namespace ClassFile

mutual

/-- A use of a type. -/
inductive JavaType where
  | primitive (type : Primitive)
  | void
  | array (component : JavaType)
  | declared (type : ClassType)
  | typeVariable (id : TypeParameterId) (annotations : List Annotation)
  /-- The argument that stands for any type. -/
  | wildcard
  /-- The argument that stands for any subtype of its bound. -/
  | wildcardExtends (bound : JavaType)
  /-- The argument that stands for any supertype of its bound. -/
  | wildcardSuper (bound : JavaType)
  | intersection (members : List JavaType)

/-- One level of a class type: a class with type arguments. -/
structure ClassPart where
  id : ClassId
  arguments : List JavaType
  annotations : List Annotation

/-- A use of a class: its own part and the parts it is enclosed in, the
nearest first. -/
structure ClassType where
  part : ClassPart
  outer : List ClassPart

/-- An annotation: a use of an annotation type, and named values in the order
in which they are written. A name may occur more than once. -/
structure Annotation where
  type : ClassType
  elements : List Element

structure Element where
  name : String
  value : ElementValue

inductive ElementValue where
  | constant (value : Constant)
  | classLiteral (type : JavaType)
  /-- A constant of an enumeration, by its name. -/
  | enumConstant (type : ClassId) (name : String)
  | nested (value : Annotation)
  | array (values : List ElementValue)
  | primitiveArray (values : PrimitiveArray)

end

namespace ClassPart

/-- The use of a class with nothing added. -/
def plain (id : ClassId) : ClassPart := ⟨id, [], []⟩

def hasArguments (p : ClassPart) : Bool := !p.arguments.isEmpty

end ClassPart

namespace ClassType

def plain (id : ClassId) : ClassType := ⟨.plain id, []⟩

def id (t : ClassType) : ClassId := t.part.id

/-- The parts from the inside outwards. -/
def parts (t : ClassType) : List ClassPart := t.part :: t.outer

/-- The class type that encloses this one. -/
def enclosing? (t : ClassType) : Option ClassType :=
  match t.outer with
  | [] => none
  | p :: ps => some ⟨p, ps⟩

/-- **Whether a class type is parameterized:** on whichever level it has type
arguments. -/
def isParameterized (t : ClassType) : Bool := t.parts.any ClassPart.hasArguments

/-- The same use without the annotations on its innermost part. -/
def withoutAnnotations (t : ClassType) : ClassType :=
  { t with part := { t.part with annotations := [] } }

end ClassType

namespace JavaType

/-- `layers` array types around a type. -/
def arrays (element : JavaType) : Nat → JavaType
  | 0 => element
  | layers + 1 => array (element.arrays layers)

/-- The use of a type parameter with nothing added. -/
def ofParameter (id : TypeParameterId) : JavaType := typeVariable id []

/-- The letter of a type that is a single letter in a descriptor. -/
def letter? : JavaType → Option Char
  | primitive p => some p.letter
  | void => some voidLetter
  | _ => none

/-- The annotations written on the type itself. -/
def ownAnnotations : JavaType → List Annotation
  | declared t => t.part.annotations
  | typeVariable _ annotations => annotations
  | _ => []

/-- Whether the type is one of the three wildcards. -/
def isWildcard : JavaType → Bool
  | wildcard | wildcardExtends _ | wildcardSuper _ => true
  | _ => false

def isVariable : JavaType → Bool
  | typeVariable _ _ => true
  | _ => false

/-- **Whether a type differs from its erasure:** it mentions type arguments,
type variables, a wildcard or an intersection. -/
def isGeneric : JavaType → Bool
  | primitive _ | void => false
  | array c => c.isGeneric
  | declared t => t.isParameterized
  | typeVariable _ _ | wildcard | wildcardExtends _ | wildcardSuper _ | intersection _ => true

end JavaType

namespace Annotation

/-- The value of the first element of a name. -/
def value? (a : Annotation) (name : String) : Option ElementValue :=
  (a.elements.find? (·.name == name)).map Element.value

/-- The position of the first element of a name. -/
def position? (a : Annotation) (name : String) : Option Nat :=
  a.elements.findIdx? (·.name == name)

/-- The name of the element that needs no name where it is the only one. -/
def soleName : String := "value"

end Annotation

end ClassFile
