import ClassFile.Program.Basic

/-!
# Erasure

The erasure of a type is what remains of it at run time: a primitive type,
nothing, or a class, under some number of array layers. It is found by going
to the left: into the component of an array, from a type variable to its
upper bound, from an intersection to its first member. The way inside one
type expression is a recursion on that expression (`JavaType.leftmost`); from
one expression to the next it leads through a type parameter, and a type
parameter that is met a second time has no erasure. The recursion is on the
type parameters that have not been met yet.
-/

namespace ClassFile

/-- What an erased type has under its array layers. -/
inductive ErasedElement where
  | primitive (type : Primitive)
  | void
  | declared (id : ClassId)
  deriving DecidableEq, Repr

/-- An erased type. -/
structure ErasedType where
  layers : Nat
  element : ErasedElement
  deriving DecidableEq, Repr

/-- The erased type as a type of the program. -/
def ErasedType.toType (e : ErasedType) : JavaType :=
  match e.element with
  | .primitive p => (JavaType.primitive p).arrays e.layers
  | .void => JavaType.void.arrays e.layers
  | .declared id => (JavaType.declared (.plain id)).arrays e.layers

/-- Where the way to the left ends inside a type expression. -/
inductive Leftmost where
  /-- At something that is erased already. -/
  | erased (element : ErasedElement)
  /-- At a class, which may or may not be known. -/
  | declared (id : ClassId)
  /-- At a type variable, from which the way leads on. -/
  | typeVariable (id : TypeParameterId)
  deriving DecidableEq, Repr

/-- **The way to the left inside a type expression:** the number of array
layers on it and where it ends. What has no bound above it ends at
`java.lang.Object`. -/
def JavaType.leftmost : JavaType → Nat × Leftmost
  | primitive p => (0, .erased (.primitive p))
  | void => (0, .erased .void)
  | array c =>
    let (layers, l) := c.leftmost
    (layers + 1, l)
  | declared t => (0, .declared t.id)
  | typeVariable id _ => (0, .typeVariable id)
  | wildcard | wildcardSuper _ | intersection [] => (0, .erased (.declared .object))
  | wildcardExtends bound => bound.leftmost
  | intersection (first :: _) => first.leftmost

/-- The erased type under further array layers. -/
def ErasedType.under (e : ErasedType) (layers : Nat) : ErasedType :=
  { e with layers := layers + e.layers }

namespace Program

/-- The erasure of a type, where only type parameters in `unseen` may still be
met. -/
def erasureAmong (p : Program) (unseen : List TypeParameterId) (t : JavaType) :
    Except Error ErasedType :=
  match t.leftmost with
  | (layers, .erased e) => .ok ⟨layers, e⟩
  | (layers, .declared id) => (p.classOf id).map fun _ => ⟨layers, .declared id⟩
  | (layers, .typeVariable id) =>
    match p.typeParameterOf id with
    | .error e => .error e
    | .ok parameter =>
      -- a parameter that was met before is no longer among the unseen ones
      if _h : id ∈ unseen then
        (p.erasureAmong (unseen.erase id) parameter.upperBound).map (·.under layers)
      else .error (.cyclicBound parameter.name)
termination_by unseen.length
decreasing_by
  rw [List.length_erase_of_mem _h]
  exact Nat.sub_lt (List.length_pos_of_mem _h) Nat.one_pos

def typeParameterIds (p : Program) : List TypeParameterId :=
  (List.range p.typeParameters.size).map TypeParameterId.mk

/-- **The erasure of a type.** -/
def erasure (p : Program) (t : JavaType) : Except Error ErasedType :=
  p.erasureAmong p.typeParameterIds t

end Program

end ClassFile
