import ClassFile.Program.Erasure
import ClassFile.Program.Naming
import ClassFile.Signature.Writer

/-!
# Descriptors and signatures of types

To encode a type is to find the calls that write it. A descriptor drops
everything generic: a class is its internal name, a type variable or an
intersection its erasure, and a wildcard has no descriptor. A signature keeps
type arguments. Where an enclosing part of a class type is parameterized, the
class is written as a sequence of nested segments, each with its own
arguments, starting at the innermost part around which nothing is
parameterized; otherwise it is one internal name.

Annotations have no influence on either.

The calls of a type never depend on what was written before it. The one
thing that does is the declaration of a type parameter: it is declared with
its bounds where it comes first and is a mere name afterwards.
-/

namespace ClassFile

open Signature (Call)

/-- What to write of a type. -/
inductive EncodingMode where
  | descriptor
  /-- A descriptor without the `;` behind a class. -/
  | descriptorUnterminated
  | signature
  /-- A signature in which a type variable is declared with its bounds. -/
  | signatureWithBounds
  /-- Of a class type only the segment of its innermost part. -/
  | signatureSimple
  deriving DecidableEq, Repr

/-- Whether only descriptors are written. -/
def EncodingMode.isDescriptor : EncodingMode → Bool
  | descriptor | descriptorUnterminated => true
  | signature | signatureWithBounds | signatureSimple => false

/-- What announces a type as a type argument: a wildcard announces itself. -/
def JavaType.argumentMark (t : JavaType) : List Call :=
  if t.isWildcard then [] else [.argument '=']

namespace Program

mutual

/-- **The calls that write the signature of a type.** -/
def typeCalls (p : Program) : JavaType → Except Error (List Call)
  | .primitive b => return [.baseType b.letter]
  | .void => return [.baseType voidLetter]
  | .array c => return .arrayType :: (← p.typeCalls c)
  | .declared ⟨⟨id, arguments, _⟩, outer⟩ => do
    let head ← p.headCalls id outer
    let arguments ← p.argumentCalls arguments
    return head ++ arguments ++ [.close]
  | .typeVariable id _ => return [.typeVariable (← p.typeParameterOf id).name]
  | .wildcard => return [.unboundedArgument]
  | .wildcardExtends bound => return .argument '+' :: (← p.typeCalls bound)
  | .wildcardSuper bound => return .argument '-' :: (← p.typeCalls bound)
  | .intersection _ => throw (.unsupported .intersectionOutsideBound)

def argumentCalls (p : Program) : List JavaType → Except Error (List Call)
  | [] => return []
  | t :: ts => do
    let first ← p.typeCalls t
    let others ← p.argumentCalls ts
    return t.argumentMark ++ first ++ others

/-- The calls that write the name of a class inside enclosing parts: as a
segment behind them if one of them is parameterized. -/
def headCalls (p : Program) (id : ClassId) : List ClassPart → Except Error (List Call)
  | [] => return [.classType (← p.internalName id)]
  | ⟨outerId, arguments, annotations⟩ :: further =>
    if (ClassType.mk ⟨outerId, arguments, annotations⟩ further).isParameterized then do
      let head ← p.headCalls outerId further
      let arguments ← p.argumentCalls arguments
      return head ++ arguments ++ [.innerClassType (← p.classOf id).simpleName]
    -- nothing further out has arguments either, so one internal name covers all levels from here
    -- outwards
    else return [.classType (← p.internalName id)]

end

/-- The calls that write an erased type. -/
def erasedCalls (p : Program) (terminated : Bool) (e : ErasedType) :
    Except Error (List Call) := do
  let element ← match e.element with
    | .primitive b => pure [.baseType b.letter]
    | .void => pure [.baseType voidLetter]
    | .declared id => do
      let name ← p.internalName id
      pure (.classType name :: if terminated then [.close] else [])
  return List.replicate e.layers .arrayType ++ element

/-- **The calls that write the descriptor of a type.** -/
def descriptorCalls (p : Program) (terminated : Bool) : JavaType → Except Error (List Call)
  | .primitive b => return [.baseType b.letter]
  | .void => return [.baseType voidLetter]
  | .array c => return .arrayType :: (← p.descriptorCalls terminated c)
  -- arguments and enclosing levels play no part
  | .declared t => p.erasedCalls terminated ⟨0, .declared t.id⟩
  | .wildcard | .wildcardExtends _ | .wildcardSuper _ =>
    throw (.unsupported .wildcardOutsideArgument)
  | t@(.typeVariable _ _) | t@(.intersection _) => do
    p.erasedCalls terminated (← p.erasure t)

/-- The calls that write a bound of a type parameter. -/
def boundCalls (p : Program) (bound : JavaType) : Except Error (List Call) := do
  let mark := if ← p.isInterface bound then .interfaceBound else .classBound
  return mark :: (← p.typeCalls bound)

/-- **The calls that declare a type parameter,** with all its bounds, or that
name it if it is among the `declared` ones. -/
def formalCalls (p : Program) (declared : List TypeParameterId) (id : TypeParameterId) :
    Except Error (List Call) := do
  let parameter ← p.typeParameterOf id
  if id ∈ declared then
    return [.typeVariable parameter.name]
  else if parameter.lowerBound.isSome then
    throw (.unsupported .lowerBound)
  else
    return .formalTypeParameter parameter.name :: (← parameter.bounds.mapM p.boundCalls).flatten

/-- The calls that declare a list of type parameters, given as types. -/
def formalsCalls (p : Program) (declared : List TypeParameterId) :
    List JavaType → Except Error (List Call)
  | [] => return []
  | .typeVariable id _ :: ts => do
    let first ← p.formalCalls declared id
    let others ← p.formalsCalls (id :: declared) ts
    return first ++ others
  | _ :: _ => throw (.unsupported .formalNotVariable)

/-- The calls of a type whose variables are declared with their bounds. -/
def declaringCalls (p : Program) : JavaType → Except Error (List Call)
  | .array c => return .arrayType :: (← p.declaringCalls c)
  | .typeVariable id _ => p.formalCalls [] id
  | t => p.typeCalls t

/-- The calls of a type of which only the innermost segment is written. -/
def segmentCalls (p : Program) : JavaType → Except Error (List Call)
  | .array c => return .arrayType :: (← p.segmentCalls c)
  | .declared t => do
    let c ← p.classOf t.id
    return .innerClassType c.simpleName :: (← p.argumentCalls t.part.arguments) ++ [.close]
  | t => p.typeCalls t

/-- The calls that write a type in a mode. -/
def calls (p : Program) (t : JavaType) : EncodingMode → Except Error (List Call)
  | .descriptor => p.descriptorCalls true t
  | .descriptorUnterminated => p.descriptorCalls false t
  | .signature => p.typeCalls t
  | .signatureWithBounds => p.declaringCalls t
  | .signatureSimple => p.segmentCalls t

/-- **The text of a type in a mode.** -/
def encode (p : Program) (t : JavaType) (mode : EncodingMode) : Except Error String :=
  (p.calls t mode).map Signature.textOf

def typeDescriptor (p : Program) (t : JavaType) : Except Error String :=
  p.encode t .descriptor

def typeSignature (p : Program) (t : JavaType) : Except Error String :=
  p.encode t .signature

def classDescriptor (p : Program) (t : ClassType) : Except Error String :=
  p.typeDescriptor (.declared t)

end Program

end ClassFile
