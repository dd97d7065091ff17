import ClassFile.Primitive
import ClassFile.Signature.Writer

/-!
# The grammar of signatures

The syntax trees of the signatures of types, classes and methods, as the
class-file format defines them. A tree can be written in two ways: as its
`text`, which the grammar gives rule by rule with all brackets in place, and
as the `calls` that tell a writer about it, in which no bracket occurs.

What the grammar requires is built into the trees: type arguments and bounds
are reference types, a class has a superclass, and only a result may be
absent.
-/

namespace ClassFile.Signature

mutual

/-- A type: of a field, of a parameter or of an array's components. -/
inductive TypeTree where
  | base (type : Primitive)
  | reference (type : ReferenceTree)

/-- A type whose values are references. -/
inductive ReferenceTree where
  | typeVariable (name : String)
  | array (component : TypeTree)
  /-- A class, by the segment that holds its internal name and those of the
  classes inside it, from the outside inwards. -/
  | declared (head : Segment) (inner : List Segment)

/-- A class name with type arguments. -/
structure Segment where
  name : String
  arguments : List ArgumentTree

inductive ArgumentTree where
  | any
  | exactly (type : ReferenceTree)
  | subtypeOf (bound : ReferenceTree)
  | supertypeOf (bound : ReferenceTree)

end

/-- What a method returns. -/
inductive ResultTree where
  | value (type : TypeTree)
  | void

/-- A formal type parameter with its bounds. -/
structure FormalTree where
  name : String
  classBound : Option ReferenceTree
  interfaceBounds : List ReferenceTree

structure ClassTree where
  formals : List FormalTree
  superclass : ReferenceTree
  interfaces : List ReferenceTree

structure MethodTree where
  formals : List FormalTree
  parameters : List TypeTree
  result : ResultTree
  thrown : List ReferenceTree

/-! ## The text of a tree -/

/-- Some texts in angle brackets, or nothing if there are none. -/
def angled (texts : List String) : String :=
  if texts.isEmpty then "" else "<" ++ String.join texts ++ ">"

mutual

def TypeTree.text : TypeTree → String
  | .base p => p.letter.toString
  | .reference r => r.text

def ReferenceTree.text : ReferenceTree → String
  | .typeVariable name => "T" ++ name ++ ";"
  | .array c => "[" ++ c.text
  | .declared head inner => "L" ++ head.text ++ Segment.innerText inner ++ ";"

def Segment.text : Segment → String
  | ⟨name, arguments⟩ => name ++ angled (ArgumentTree.texts arguments)

/-- The text of the segments inside a class. -/
def Segment.innerText : List Segment → String
  | [] => ""
  | s :: ss => "." ++ s.text ++ Segment.innerText ss

def ArgumentTree.text : ArgumentTree → String
  | .any => "*"
  | .exactly r => r.text
  | .subtypeOf r => "+" ++ r.text
  | .supertypeOf r => "-" ++ r.text

def ArgumentTree.texts : List ArgumentTree → List String
  | [] => []
  | a :: as => a.text :: ArgumentTree.texts as

end

def ResultTree.text : ResultTree → String
  | .value t => t.text
  | .void => voidLetter.toString

/-- The text of a formal type parameter. The class bound may be left out but
its colon may not. -/
def FormalTree.text (f : FormalTree) : String :=
  f.name ++ ":" ++ (f.classBound.map ReferenceTree.text).getD ""
    ++ String.join (f.interfaceBounds.map fun r => ":" ++ r.text)

def ClassTree.text (c : ClassTree) : String :=
  angled (c.formals.map FormalTree.text) ++ c.superclass.text
    ++ String.join (c.interfaces.map ReferenceTree.text)

def MethodTree.text (m : MethodTree) : String :=
  angled (m.formals.map FormalTree.text)
    ++ "(" ++ String.join (m.parameters.map TypeTree.text) ++ ")" ++ m.result.text
    ++ String.join (m.thrown.map fun r => "^" ++ r.text)

/-! ## The calls that write a tree -/

mutual

def TypeTree.calls : TypeTree → List Call
  | .base p => [.baseType p.letter]
  | .reference r => r.calls

def ReferenceTree.calls : ReferenceTree → List Call
  | .typeVariable name => [.typeVariable name]
  | .array c => .arrayType :: c.calls
  | .declared ⟨name, arguments⟩ inner =>
    .classType name :: ArgumentTree.allCalls arguments ++ Segment.innerCalls inner ++ [.close]

/-- The calls that write the segments inside a class. -/
def Segment.innerCalls : List Segment → List Call
  | [] => []
  | ⟨name, arguments⟩ :: ss =>
    .innerClassType name :: ArgumentTree.allCalls arguments ++ Segment.innerCalls ss

def ArgumentTree.calls : ArgumentTree → List Call
  | .any => [.unboundedArgument]
  | .exactly r => .argument '=' :: r.calls
  | .subtypeOf r => .argument '+' :: r.calls
  | .supertypeOf r => .argument '-' :: r.calls

def ArgumentTree.allCalls : List ArgumentTree → List Call
  | [] => []
  | a :: as => a.calls ++ ArgumentTree.allCalls as

end

def ResultTree.calls : ResultTree → List Call
  | .value t => t.calls
  | .void => [.baseType voidLetter]

def FormalTree.calls (f : FormalTree) : List Call :=
  .formalTypeParameter f.name :: (f.classBound.map fun r => .classBound :: r.calls).getD []
    ++ f.interfaceBounds.flatMap fun r => .interfaceBound :: r.calls

def ClassTree.calls (c : ClassTree) : List Call :=
  c.formals.flatMap FormalTree.calls ++ .superclass :: c.superclass.calls
    ++ c.interfaces.flatMap fun r => .interface :: r.calls

def MethodTree.calls (m : MethodTree) : List Call :=
  m.formals.flatMap FormalTree.calls
    ++ m.parameters.flatMap (fun t => .parameterType :: t.calls)
    ++ .returnType :: m.result.calls
    ++ m.thrown.flatMap fun r => .exceptionType :: r.calls

end ClassFile.Signature
