/-!
# Handles and errors

Classes and type parameters of a program refer to one another in circles, so
they are named by handles: the position at which they were added. A handle
may name nothing.

An `Error` says why a descriptor, a signature or a class file cannot be
produced; its text is `Error.message`.
-/

namespace ClassFile

structure ClassId where
  index : Nat
  deriving DecidableEq, Repr

structure TypeParameterId where
  index : Nat
  deriving DecidableEq, Repr

/-- How a handle is named in a message. -/
def ClassId.text (id : ClassId) : String := "class#" ++ toString id.index

/-- How a handle is named in a message. -/
def TypeParameterId.text (id : TypeParameterId) : String := "type-param#" ++ toString id.index

/-- What a class file has no form for. -/
inductive Unsupported where
  | selfNesting
  | wildcardOutsideArgument
  | intersectionOutsideBound
  | formalNotVariable
  | lowerBound
  | thrownNotClass
  | typeParameterCount
  | boundCount
  | typeArgumentCount
  | parameterCount
  | interfaceCount
  | thrownCount
  deriving DecidableEq, Repr

/-- The words for what a class file has no form for. -/
def Unsupported.text : Unsupported → String
  | selfNesting => "class nested within itself"
  | wildcardOutsideArgument => "wildcard outside a type argument"
  | intersectionOutsideBound => "intersection type outside a type parameter bound"
  | formalNotVariable => "formal type parameter that is not a type variable"
  | lowerBound => "lower bound on a type variable"
  | thrownNotClass => "thrown type that is not a class"
  | typeParameterCount => "more than 255 type parameters"
  | boundCount => "more than 255 type parameter bounds"
  | typeArgumentCount => "more than 255 type arguments"
  | parameterCount => "more than 255 parameters"
  | interfaceCount => "more than 65535 super interfaces"
  | thrownCount => "more than 65535 thrown types"

/-- Why something has no class-file form. -/
inductive Error where
  | unsupported (what : Unsupported)
  | unresolvedClass (id : ClassId)
  | unresolvedTypeParameter (id : TypeParameterId)
  /-- The bounds of type parameters lead back to the parameter of this name. -/
  | cyclicBound (name : String)
  | invalidDescriptor
  | unsupportedVersion (major minor : UInt16)
  deriving DecidableEq, Repr

def Error.message : Error → String
  | unsupported what => "Unsupported type construct: " ++ what.text
  | unresolvedClass id => "Cannot resolve " ++ id.text
  | unresolvedTypeParameter id => "Cannot resolve " ++ id.text
  | cyclicBound name =>
    "The bound of type variable `" ++ name ++ "` refers back to itself"
  | invalidDescriptor => "Invalid descriptor"
  | unsupportedVersion major minor =>
    "Unsupported class file version " ++ toString major ++ "." ++ toString minor

end ClassFile
