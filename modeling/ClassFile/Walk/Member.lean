import ClassFile.Signature.Declaration
import ClassFile.Walk.Annotations

/-!
# Telling fields and methods

A member is a scope. What its opening event says – descriptor, signature,
constant, thrown types – is found out first, so a member for which any of
this fails is not announced at all. Its content are the annotations on the
declaration and on its types, place by place.
-/

namespace ClassFile

namespace FieldDeclaration

def access (f : FieldDeclaration) : AccessFlags := .ofModifiers f.modifiers

/-- Whether a field never changes and belongs to the class. -/
def isStaticFinal (f : FieldDeclaration) : Bool :=
  f.modifiers.contains .static && f.modifiers.contains .final

end FieldDeclaration

namespace MethodDeclaration

def access (m : MethodDeclaration) : AccessFlags :=
  let flags := AccessFlags.ofModifiers m.modifiers
  if m.isVarargs then flags.union .varargs else flags

end MethodDeclaration

namespace Program

/-! ## Fields -/

/-- Whether fields of a type may store a constant: those of a primitive type
and those of a class that is called what `java.lang.String` is called. -/
def storesConstant (p : Program) : JavaType → Except Error Bool
  | .primitive _ => return true
  | .declared t => return (← p.qualifiedName t.id) == (← p.qualifiedName .string)
  | _ => return false

/-- **The constant that a field stores:** its initializer, if the field is
static and final and its type admits it. The type is looked at whenever there
is an initializer. -/
def fieldConstant (p : Program) (isStaticFinal : Bool) (type : JavaType)
    (initializer : Option Constant) : Except Error (Option StoredConstant) :=
  match initializer with
  | none => return none
  | some c => do
    let admitted ← p.storesConstant type
    return if isStaticFinal && admitted then some c.stored else none

def fieldHeader (p : Program) (f : FieldDeclaration) : Except Error FieldHeader := do
  -- where several of these fail, the first one is the error
  let descriptor ← p.typeDescriptor f.type
  let signature ← p.typeSignature? f.type
  let constant ← p.fieldConstant f.isStaticFinal f.type f.initializer
  return { access := f.access, name := f.name, descriptor, signature, constant }

/-- The annotations on a field and on its type. -/
def fieldContent (p : Program) (f : FieldDeclaration) : Script :=
  p.declarationGroup f.annotations
    ++ p.typeScript (.ofSort TypeReference.field) f.type
    ++ .tell (.finish .field) .done

/-- **The script of a field.** -/
def fieldScript (p : Program) (f : FieldDeclaration) : Script :=
  .given (p.fieldHeader f) fun header => .scope (.field header) (p.fieldContent f) .done

/-! ## Methods -/

def thrownNames (p : Program) (m : MethodDeclaration) : Except Error (List String) :=
  m.thrown.mapM p.thrownName

def methodHeader (p : Program) (m : MethodDeclaration) : Except Error MethodHeader := do
  let descriptor ← p.methodDescriptor m
  let signature ← p.methodSignature? m
  let thrown ← p.thrownNames m
  return { access := m.access, name := m.name, descriptor, signature, thrown }

/-- The annotations of a group that may be written on uses of types. -/
def typeUseAnnotations (p : Program) (group : List Annotation) :
    Except Error (List Annotation) :=
  group.filterM fun a => return (← p.targets a).contains .typeUse

/-- The annotations on a constructor that also count as annotations on the
type it constructs. -/
def constructedTypeScript (p : Program) (m : MethodDeclaration) : Script :=
  if m.isConstructor then
    .given (p.typeUseAnnotations m.annotations) fun group =>
      p.typeGroup (.ofSort TypeReference.methodReturn) [] group
  else .done

/-- The annotations on the type of one parameter and then on the parameter
itself. -/
def parameterScript (p : Program) (parameter : Parameter) (position : Nat) : Script :=
  .given (byteIndex position .parameterCount) fun index =>
    p.typeScript (.ofFormalParameter index) parameter.type
      ++ p.parameterGroup index parameter.annotations

/-- The annotations on one thrown type. -/
def thrownScript (p : Program) (thrown : JavaType) (position : Nat) : Script :=
  .given (wideIndex position .thrownCount) fun index =>
    p.typeScript (.ofThrown index) thrown

/-- The annotations on a method, on its result, its type parameters, its
parameters and the types it throws, in this order. -/
def methodContent (p : Program) (m : MethodDeclaration) : Script :=
  p.declarationGroup m.annotations
    ++ p.constructedTypeScript m
    ++ p.typeScript (.ofSort TypeReference.methodReturn) m.result
    ++ p.typeParametersScript TypeReference.methodTypeParameter m.typeParameters
    ++ .forEach m.parameters.zipIdx (fun (parameter, position) =>
      p.parameterScript parameter position)
    ++ .forEach m.thrown.zipIdx (fun (thrown, position) => p.thrownScript thrown position)
    ++ .tell (.finish .method) .done

/-- **The script of a method.** -/
def methodScript (p : Program) (m : MethodDeclaration) : Script :=
  .given (p.methodHeader m) fun header => .scope (.method header) (p.methodContent m) .done

/-- The script of a member. A nested class is no part of the class file. -/
def memberScript (p : Program) : Member → Script
  | .field f => p.fieldScript f
  | .method m => p.methodScript m
  | .nested _ => .done

end Program

end ClassFile
