import ClassFile.Program.Type

/-!
# The annotated parts of a type

An annotation may be written on any part of a type: on an array or on its
component, on a type argument, on one level of a class type. The part is
stored as a path that leads to it from the whole type. The path starts at the
outermost level of a class type, whether or not that level was written
innermost first, and takes one step for each array layer, for each level
inwards, for each type argument and for the bound of a wildcard.

`JavaType.annotatedParts` lists the parts that carry annotations. The way to
them is not led into intersections.
-/

namespace ClassFile

/-- A step from a type to a part of it. -/
inductive PathStep where
  /-- To the component of an array. -/
  | component
  /-- One level inwards in a class type. -/
  | inwards
  /-- To the bound of a wildcard. -/
  | bound
  /-- To a type argument. -/
  | argument (index : UInt8)
  deriving DecidableEq, Repr

def PathStep.text : PathStep → String
  | component => "["
  | inwards => "."
  | bound => "*"
  | argument index => toString index.toNat ++ ";"

/-- A way from a type to a part of it. -/
abbrev TypePath := List PathStep

/-- The text of a path: those of its steps. -/
def TypePath.text (path : TypePath) : String := String.join (path.map PathStep.text)

/-- A part of a type that carries annotations. -/
structure AnnotatedPart where
  path : TypePath
  annotations : List Annotation

/-- The part as one of a larger type, to which `steps` lead. -/
def AnnotatedPart.under (steps : TypePath) (part : AnnotatedPart) : AnnotatedPart :=
  { part with path := steps ++ part.path }

/-- The whole type as a part of itself, if it carries annotations. -/
def AnnotatedPart.whole (annotations : List Annotation) : List AnnotatedPart :=
  if annotations.isEmpty then [] else [⟨[], annotations⟩]

/-- How many type arguments a path can tell apart. -/
def TypePath.argumentLimit : Nat := 256

mutual

/-- **The parts of a type that carry annotations,** outer ones first and each
before what lies in its type arguments. -/
def JavaType.annotatedParts : JavaType → Except Error (List AnnotatedPart)
  | .declared ⟨⟨_, arguments, annotations⟩, outer⟩ => do
    let further ← annotatedLevels outer
    let inner ← annotatedArguments 0 arguments
    let level := List.replicate outer.length PathStep.inwards
    return further ++ (AnnotatedPart.whole annotations ++ inner).map (·.under level)
  | .typeVariable _ annotations => return AnnotatedPart.whole annotations
  | .array c => return (← c.annotatedParts).map (·.under [.component])
  | .wildcardExtends b | .wildcardSuper b => return (← b.annotatedParts).map (·.under [.bound])
  | .wildcard | .intersection _ | .primitive _ | .void => return []

/-- The annotated parts on the levels of a class type, given from the inside
outwards. -/
def annotatedLevels : List ClassPart → Except Error (List AnnotatedPart)
  | [] => return []
  | ⟨_, arguments, annotations⟩ :: outer => do
    let further ← annotatedLevels outer
    let inner ← annotatedArguments 0 arguments
    let level := List.replicate outer.length PathStep.inwards
    return further ++ (AnnotatedPart.whole annotations ++ inner).map (·.under level)

/-- The annotated parts in type arguments, of which the first has the given
index. -/
def annotatedArguments (index : Nat) : List JavaType → Except Error (List AnnotatedPart)
  | [] => return []
  | t :: ts =>
    -- the limit is looked at before the argument, whether or not it is annotated
    if index < TypePath.argumentLimit then do
      let first ← t.annotatedParts
      let others ← annotatedArguments (index + 1) ts
      return first.map (·.under [.argument (UInt8.ofNat index)]) ++ others
    else throw (.unsupported .typeArgumentCount)

end

end ClassFile
