import ClassFile.Program.Basic

/-!
# The names of classes

A class has two names: the qualified name of the program,
`java.util.Map.Entry`, and the internal name of class files,
`java/util/Map$Entry`. Both consist of the package of the outermost class
and of the simple names of all classes from there inwards; only the
separators differ.

Climbing from a class to the ones around it need not end, for a class may be
declared to lie within itself. A chain that meets no class twice is no
longer than the program has classes, so the climb is given that many steps
and running out of them is the error.
-/

namespace ClassFile

/-- The separators of a name: between the segments of the package and behind
it, and between a class and one nested in it. -/
structure NameStyle where
  packageSeparator : Char
  nestingSeparator : String
  deriving DecidableEq, Repr

/-- How programs write names. -/
def NameStyle.qualified : NameStyle := ⟨'.', "."⟩

/-- How class files write names. -/
def NameStyle.internal : NameStyle := ⟨'/', "$"⟩

/-- The name that a chain of classes, the outermost first, spells out. An
empty package leaves no separator behind. -/
def NameStyle.spell (style : NameStyle) (chain : List ClassDeclaration) : String :=
  let package := (chain.head?.map (·.package)).getD ""
  let names := style.nestingSeparator.intercalate (chain.map (·.simpleName))
  if package.isEmpty then names
  else
    -- only the package has its points replaced: one in a simple name stays
    (package.map fun c => if c = '.' then style.packageSeparator else c)
      ++ style.packageSeparator.toString ++ names

namespace Program

/-- The classes from `id` outwards, if there are at most `steps` of them. A
handle that names nothing is an error wherever the climb meets it. -/
def outwards (p : Program) : Nat → ClassId → Except Error (List ClassDeclaration)
  | 0, id => do
    -- the last class is looked up all the same: a handle that dangles is reported as such
    let _ ← p.classOf id
    throw (.unsupported .selfNesting)
  | steps + 1, id => do
    let c ← p.classOf id
    match c.enclosing with
    | none => return [c]
    | some outer => return c :: (← p.outwards steps outer)

/-- **The classes around a class,** from the outermost one to the class
itself. -/
def nesting (p : Program) (id : ClassId) : Except Error (List ClassDeclaration) :=
  (p.outwards p.classes.size id).map List.reverse

/-- The name of a class in a style. -/
def nameOf (p : Program) (style : NameStyle) (id : ClassId) : Except Error String :=
  (p.nesting id).map (NameStyle.spell style)

def qualifiedName (p : Program) (id : ClassId) : Except Error String :=
  p.nameOf .qualified id

def internalName (p : Program) (id : ClassId) : Except Error String :=
  p.nameOf .internal id

/-- Whether a class has a name and it is this one. -/
def isNamed (p : Program) (name : String) (id : ClassId) : Bool :=
  match p.qualifiedName id with
  | .ok n => n == name
  | .error _ => false

/-- The handles of all classes, in the order in which they were added. -/
def classIds (p : Program) : List ClassId := (List.range p.classes.size).map ClassId.mk

/-- The first class of a qualified name. -/
def findClass? (p : Program) (name : String) : Option ClassId :=
  p.classIds.find? (p.isNamed name)

end Program

end ClassFile
