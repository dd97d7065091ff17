import ClassFile.Primitive

/-!
# Descriptors

A descriptor is the type of a field or the shape of a method without
anything generic: primitive types, classes by their internal names, and
arrays of these. Each kind of descriptor has two texts, the compact one that
a class file stores (`text`) and one in the words of a program
(`sourceText`).
-/

namespace ClassFile

/-- The type of a field, of a parameter or of an array's components. -/
inductive FieldDescriptor where
  | base (type : Primitive)
  | object (name : String)
  | array (component : FieldDescriptor)
  deriving DecidableEq, Repr

namespace FieldDescriptor

/-- `layers` array types around a descriptor. -/
def arrays (element : FieldDescriptor) : Nat → FieldDescriptor
  | 0 => element
  | layers + 1 => array (element.arrays layers)

/-- **The stored text.** An array is a bracket before its component, a class
its name between `L` and `;`, a primitive type its letter. -/
def text : FieldDescriptor → String
  | base p => p.letter.toString
  | object name => "L" ++ name ++ ";"
  | array c => "[" ++ c.text

/-- The text in the words of a program: the packages of a class are
separated by points and an array is written behind its component. -/
def sourceText : FieldDescriptor → String
  | base p => p.keyword
  | object name => name.map fun c => if c = '/' then '.' else c
  | array c => c.sourceText ++ "[]"

end FieldDescriptor

/-- What a method returns: a value or nothing. -/
inductive ReturnDescriptor where
  | value (type : FieldDescriptor)
  | void
  deriving DecidableEq, Repr

namespace ReturnDescriptor

def text : ReturnDescriptor → String
  | value t => t.text
  | void => voidLetter.toString

def sourceText : ReturnDescriptor → String
  | value t => t.sourceText
  | void => "void"

end ReturnDescriptor

/-- The shape of a method. -/
structure MethodDescriptor where
  parameters : List FieldDescriptor
  result : ReturnDescriptor
  deriving DecidableEq, Repr

namespace MethodDescriptor

/-- The stored text: the parameters in parentheses and nothing between them,
then what is returned. -/
def text (d : MethodDescriptor) : String :=
  "(" ++ String.join (d.parameters.map FieldDescriptor.text) ++ ")" ++ d.result.text

def sourceText (d : MethodDescriptor) : String :=
  "(" ++ ", ".intercalate (d.parameters.map FieldDescriptor.sourceText) ++ ") -> "
    ++ d.result.sourceText

end MethodDescriptor

end ClassFile
