import ClassFile.Walk.Member

/-!
# Telling a class

The header of a class comes first, and before it is told everything it says
has been found. Then come the annotations on the class, on its type
parameters and on its supertypes, then its fields and methods in the order
of their declaration, and at last the end of the class.
-/

namespace ClassFile

/-- What a class file is written with. -/
structure WriteOptions where
  version : Version
  /-- Flags of every class that is not an interface. -/
  extraFlags : AccessFlags
  deriving DecidableEq, Repr

/-- The options when none are given. -/
def WriteOptions.default : WriteOptions := ⟨.default, .super⟩

/-- **The access flags of a class.** The file of a nested class is written as
if the class stood by itself: `protected` widens to `public`, and `private`
and `static` are left to the attribute that lists nested classes. -/
def ClassDeclaration.access (c : ClassDeclaration) (options : WriteOptions) : AccessFlags :=
  let declared := (AccessFlags.ofModifiers c.modifiers).union c.kind.flags
  let own :=
    if c.enclosing.isSome then
      let widened := if declared.contains .protectedAccess then declared.union .publicAccess
        else declared
      widened.without
        ((AccessFlags.protectedAccess.union .privateAccess).union .static)
    else declared
  if c.kind.isInterface then own else own.union options.extraFlags

namespace Program

/-- **The name of the superclass.** Interfaces extend `java.lang.Object`
whatever they declare, and so does a class that declares nothing;
`java.lang.Object` itself extends nothing. -/
def superName (p : Program) (id : ClassId) (c : ClassDeclaration) :
    Except Error (Option String) :=
  if id = .object then return none
  else
    let superclass :=
      if c.kind.isInterface then ClassType.object else c.superclass.getD .object
    (p.internalName superclass.id).map some

def interfaceNames (p : Program) (c : ClassDeclaration) : Except Error (List String) :=
  c.interfaces.mapM fun t => p.internalName t.id

def classHeader (p : Program) (id : ClassId) (c : ClassDeclaration) (options : WriteOptions) :
    Except Error Header := do
  -- where several of these fail, the first one is the error
  let name ← p.internalName id
  let signature ← p.classSignature? id
  let superName ← p.superName id c
  let interfaces ← p.interfaceNames c
  return { version := options.version, access := c.access options, name, signature, superName,
           interfaces }

/-- The annotations on the declared superclass. -/
def superclassScript (p : Program) (c : ClassDeclaration) : Script :=
  match c.superclass with
  | some t => p.typeScript (.ofSupertype none) (.declared t)
  | none => .done

/-- The annotations on one interface. -/
def interfaceScript (p : Program) (t : ClassType) (position : Nat) : Script :=
  .given (wideIndex position .interfaceCount) fun index =>
    p.typeScript (.ofSupertype (some index)) (.declared t)

/-- What is told about a class behind its header. -/
def classContent (p : Program) (c : ClassDeclaration) : Script :=
  p.declarationGroup c.annotations
    ++ p.typeParametersScript TypeReference.classTypeParameter c.typeParameters
    ++ p.superclassScript c
    ++ .forEach c.interfaces.zipIdx (fun (t, position) => p.interfaceScript t position)
    ++ .forEach c.members p.memberScript
    ++ .tell (.finish .classFile) .done

/-- **The script of a class,** if the class is known. -/
def classScript (p : Program) (id : ClassId) (options : WriteOptions) : Except Error Script :=
  (p.classOf id).map fun c =>
    .given (p.classHeader id c options) fun header =>
      .tell (.header header) (p.classContent c)

end Program

end ClassFile
