import ClassFile.Descriptor.Reader
import ClassFile.Signature.Encoding

/-!
# Descriptors and signatures of declarations

A method has a descriptor and a class has a name; a signature is written in
addition only where it says more, which is decided before anything is
encoded. All parts of one signature are written by one writer, which finds
the brackets between them.

A `Signed` pairs the descriptor that a text was read as with the signature,
if there is one.
-/

namespace ClassFile

open Signature (Call)

namespace Program

/-! ## Types, parameter lists and methods -/

/-- The descriptor or signature of a list of parameters, in parentheses. -/
def parameterList (p : Program) (types : List JavaType) (mode : EncodingMode) :
    Except Error String := do
  let calls ← types.mapM fun t => p.calls t mode
  return "(" ++ Signature.textOf calls.flatten ++ ")"

def parametersDescriptor (p : Program) (types : List JavaType) : Except Error String :=
  p.parameterList types .descriptor

def parametersSignature (p : Program) (types : List JavaType) : Except Error String :=
  p.parameterList types .signature

/-- The calls that write parameters and result of a method. -/
def shapeCalls (p : Program) (parameters : List JavaType) (result : JavaType)
    (mode : EncodingMode) : Except Error (List Call) := do
  let parameters ← parameters.mapM fun t => return .parameterType :: (← p.calls t mode)
  let result ← p.calls result mode
  return parameters.flatten ++ .returnType :: result

/-- The calls that write a method. A descriptor has no place for type
parameters; in a signature they must be type variables. Parameters and result
are written as plain descriptors or signatures, whatever the finer mode. -/
def methodCalls (p : Program) (typeParameters parameters : List JavaType) (result : JavaType)
    (mode : EncodingMode) : Except Error (List Call) :=
  if mode.isDescriptor then p.shapeCalls parameters result .descriptor
  else do
    let formals ← p.formalsCalls [] typeParameters
    return formals ++ (← p.shapeCalls parameters result .signature)

/-- The text of a method in a mode. -/
def encodeMethod (p : Program) (typeParameters parameters : List JavaType) (result : JavaType)
    (mode : EncodingMode) : Except Error String :=
  (p.methodCalls typeParameters parameters result mode).map Signature.textOf

/-- **The descriptor of a method.** -/
def methodDescriptor (p : Program) (m : MethodDeclaration) : Except Error String :=
  p.encodeMethod [] m.parameterTypes m.result .descriptor

end Program

def MethodDeclaration.throwsVariable (m : MethodDeclaration) : Bool :=
  m.thrown.any JavaType.isVariable

/-- **Whether a method needs a signature:** it has type parameters, or its
descriptor drops something of a parameter or of the result, or the names of
the classes it throws would drop a type variable. -/
def MethodDeclaration.needsSignature (m : MethodDeclaration) : Bool :=
  !m.typeParameters.isEmpty || m.parameterTypes.any JavaType.isGeneric || m.result.isGeneric
    || m.throwsVariable

/-- **Whether a class needs a signature:** it has type parameters, or one of
its supertypes is parameterized. -/
def ClassDeclaration.needsSignature (c : ClassDeclaration) : Bool :=
  !c.typeParameters.isEmpty || c.superclass.any ClassType.isParameterized
    || c.interfaces.any ClassType.isParameterized

namespace Program

/-- The calls that write what a method throws. If there is a type variable
among the thrown types, all of them are written. -/
def thrownCalls (p : Program) (m : MethodDeclaration) : Except Error (List Call) :=
  if m.throwsVariable then do
    let thrown ← m.thrown.mapM fun t => return .exceptionType :: (← p.typeCalls t)
    return thrown.flatten
  else return []

/-- **The signature of a method.** -/
def methodSignature (p : Program) (m : MethodDeclaration) : Except Error String := do
  let typeParameters := m.typeParameters.map JavaType.ofParameter
  -- one writer for all of it: the calls for the thrown types come behind the others, and the text
  -- is made of the whole
  let shape ← p.methodCalls typeParameters m.parameterTypes m.result .signature
  let thrown ← p.thrownCalls m
  return Signature.textOf (shape ++ thrown)

/-- The signature of a method, if it needs one. -/
def methodSignature? (p : Program) (m : MethodDeclaration) : Except Error (Option String) :=
  if m.needsSignature then (p.methodSignature m).map some else return none

/-- The signature of a type, if it needs one. -/
def typeSignature? (p : Program) (t : JavaType) : Except Error (Option String) :=
  if t.isGeneric then (p.typeSignature t).map some else return none

/-- **The name under which a thrown type is listed:** the internal name of
its erasure, which must be a class. -/
def thrownName (p : Program) (t : JavaType) : Except Error String := do
  match ← p.erasure t with
  | ⟨0, .declared id⟩ => p.internalName id
  | _ => throw (.unsupported .thrownNotClass)

/-! ## Classes -/

/-- The calls that write a class declaration: its type parameters, its
superclass, for which `java.lang.Object` stands in, and its interfaces. -/
def declarationCalls (p : Program) (c : ClassDeclaration) : Except Error (List Call) := do
  let formals ← p.formalsCalls [] (c.typeParameters.map JavaType.ofParameter)
  let superclass ← p.typeCalls (.declared (c.superclass.getD .object))
  let interfaces ← c.interfaces.mapM fun t => return .interface :: (← p.typeCalls (.declared t))
  return formals ++ .superclass :: superclass ++ interfaces.flatten

/-- **The signature of a class,** if it needs one. -/
def classSignature? (p : Program) (id : ClassId) : Except Error (Option String) := do
  let c ← p.classOf id
  if c.needsSignature then
    return some (Signature.textOf (← p.declarationCalls c))
  else return none

end Program

/-! ## Descriptors with their signatures -/

/-- A descriptor and the signature that goes with it, if it says more. -/
structure Signed (Descriptor : Type) where
  descriptor : Descriptor
  signature : Option String
  deriving DecidableEq, Repr

/-- The descriptor of a type, read back, with its signature. The type must be
one that a field can have. -/
def Signed.ofType (p : Program) (t : JavaType) : Except Error (Signed FieldDescriptor) := do
  let descriptor ← FieldDescriptor.read (← p.typeDescriptor t)
  return ⟨descriptor, ← p.typeSignature? t⟩

/-- The descriptor of a method, read back, with its signature. -/
def Signed.ofMethod (p : Program) (m : MethodDeclaration) :
    Except Error (Signed MethodDescriptor) := do
  let descriptor ← MethodDescriptor.read (← p.methodDescriptor m)
  return ⟨descriptor, ← p.methodSignature? m⟩

/-- The signature, or the descriptor where it says as much. -/
def Signed.signatureOr {Descriptor : Type} (s : Signed Descriptor)
    (text : Descriptor → String) : String :=
  s.signature.getD (text s.descriptor)

end ClassFile
