import ClassFile.Access
import ClassFile.Program.Type

/-!
# Declarations

What a program says about its classes: their kind, names and modifiers, the
types they extend, and their fields and methods. Nested classes are members
that are referred to by handle, for they have declarations of their own.
-/

namespace ClassFile

structure FieldDeclaration where
  name : String
  modifiers : List Modifier
  type : JavaType
  /-- The constant the field is initialized with. -/
  initializer : Option Constant
  annotations : List Annotation

structure Parameter where
  name : String
  type : JavaType
  annotations : List Annotation

/-- A declared method or constructor. -/
structure MethodDeclaration where
  name : String
  isConstructor : Bool
  modifiers : List Modifier
  /-- Whether the last parameter takes any number of arguments. -/
  isVarargs : Bool
  typeParameters : List TypeParameterId
  parameters : List Parameter
  result : JavaType
  thrown : List JavaType
  annotations : List Annotation

/-- The name that constructors bear in a class file. -/
def MethodDeclaration.constructorName : String := "<init>"

def MethodDeclaration.parameterTypes (m : MethodDeclaration) : List JavaType :=
  m.parameters.map Parameter.type

inductive Member where
  | field (declaration : FieldDeclaration)
  | method (declaration : MethodDeclaration)
  | nested (id : ClassId)

structure ClassDeclaration where
  kind : ClassKind
  /-- The package. That of a nested class is of no consequence. -/
  package : String
  simpleName : String
  /-- The class this one is nested in. -/
  enclosing : Option ClassId
  modifiers : List Modifier
  typeParameters : List TypeParameterId
  superclass : Option ClassType
  interfaces : List ClassType
  annotations : List Annotation
  members : List Member

/-- A class of its own with nothing but a name. -/
def ClassDeclaration.bare (kind : ClassKind) (package simpleName : String) :
    ClassDeclaration :=
  { kind, package, simpleName, enclosing := none, modifiers := [], typeParameters := [],
    superclass := none, interfaces := [], annotations := [], members := [] }

/-- The types that a class declares to extend. -/
def ClassDeclaration.supertypes (c : ClassDeclaration) : List ClassType :=
  c.superclass.toList ++ c.interfaces

def ClassDeclaration.fields (c : ClassDeclaration) : List FieldDeclaration :=
  c.members.filterMap fun
    | .field f => some f
    | _ => none

/-- The declared methods and constructors, in order. -/
def ClassDeclaration.methods (c : ClassDeclaration) : List MethodDeclaration :=
  c.members.filterMap fun
    | .method m => some m
    | _ => none

/-- A declared type parameter. A program cannot write a lower bound; one
arises when a compiler captures a wildcard. -/
structure TypeParameter where
  name : String
  upperBound : JavaType
  lowerBound : Option JavaType
  annotations : List Annotation

/-- The bounds of a type parameter, one by one. -/
def TypeParameter.bounds (t : TypeParameter) : List JavaType :=
  match t.upperBound with
  | .intersection members => members
  | bound => [bound]

end ClassFile
