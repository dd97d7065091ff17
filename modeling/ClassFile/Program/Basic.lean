import ClassFile.Program.Declaration
import ClassFile.Program.MetaAnnotation

/-!
# Programs

A `Program` is what a compiler knows: its classes and its type parameters,
each at the position that its handle names. Six classes of the language
itself are there from the start (`Program.initial`), and declarations are
added behind them. Nothing is checked when a declaration is added: handles
may dangle, bounds may run in circles and a class may claim to be nested in
itself. Whoever follows a handle finds out.
-/

namespace ClassFile

/-- The classes and type parameters known to a compiler. -/
structure Program where
  classes : Array ClassDeclaration
  typeParameters : Array TypeParameter

namespace Program

/-- **The program that declares nothing:** only classes of the language. Its
two annotation types state about themselves that they are kept at run time
and are written on annotation types. -/
def initial : Program :=
  let known (kind : ClassKind) (package name : String) : ClassDeclaration :=
    { ClassDeclaration.bare kind package name with modifiers := [.publicAccess] }
  let selfDescribing (name : String) : ClassDeclaration :=
    { known .annotationType "java.lang.annotation" name with
      annotations := [.retention .runtime, .target [.annotationType]] }
  { classes :=
      -- the position of each is its handle, so the order is that of the fixed handles
      #[known .ordinary "java.lang" "Object",
        known .ordinary "java.lang" "String",
        selfDescribing "Retention",
        selfDescribing "Target",
        known .enumeration "java.lang.annotation" "RetentionPolicy",
        known .enumeration "java.lang.annotation" "ElementType"]
    typeParameters := #[] }

def addClass (p : Program) (c : ClassDeclaration) : Program × ClassId :=
  ({ p with classes := p.classes.push c }, ⟨p.classes.size⟩)

/-- Adds a type parameter with an upper bound behind the others. -/
def addTypeParameter (p : Program) (name : String) (upperBound : JavaType) :
    Program × TypeParameterId :=
  let t : TypeParameter := { name, upperBound, lowerBound := none, annotations := [] }
  ({ p with typeParameters := p.typeParameters.push t }, ⟨p.typeParameters.size⟩)

def classOf (p : Program) (id : ClassId) : Except Error ClassDeclaration :=
  match p.classes[id.index]? with
  | some c => .ok c
  | none => .error (.unresolvedClass id)

def typeParameterOf (p : Program) (id : TypeParameterId) : Except Error TypeParameter :=
  match p.typeParameters[id.index]? with
  | some t => .ok t
  | none => .error (.unresolvedTypeParameter id)

/-- The program with one class changed. -/
def modifyClass (p : Program) (id : ClassId) (f : ClassDeclaration → ClassDeclaration) :
    Except Error Program :=
  (p.classOf id).map fun _ => { p with classes := p.classes.modify id.index f }

/-- The program with one type parameter changed. -/
def modifyTypeParameter (p : Program) (id : TypeParameterId)
    (f : TypeParameter → TypeParameter) : Except Error Program :=
  (p.typeParameterOf id).map fun _ =>
    { p with typeParameters := p.typeParameters.modify id.index f }

/-- Whether a type is an interface. Of an intersection the first member
decides; type variables are not interfaces, whatever bounds them. -/
def isInterface (p : Program) : JavaType → Except Error Bool
  | .declared t => (p.classOf t.id).map (·.kind.isInterface)
  | .intersection [] => .ok false
  | .intersection (first :: _) => p.isInterface first
  | _ => .ok false

/-- A use of a class without the annotations on its innermost part, if the
class is known. -/
def unannotated? (p : Program) (t : ClassType) : Option ClassType :=
  match p.classOf t.id with
  | .ok _ => some t.withoutAnnotations
  | .error _ => none

/-- **The bare form of a type,** where it differs from the type: a use of a
known class loses the annotations on its innermost part. -/
def normalized? (p : Program) : JavaType → Option JavaType
  | .declared t =>
    if t.part.annotations.isEmpty then none else (p.unannotated? t).map .declared
  | _ => none

end Program

end ClassFile
