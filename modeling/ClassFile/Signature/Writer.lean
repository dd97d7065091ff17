/-!
# Writing signatures

A signature is written by telling a `Writer`, call by call, what comes next:
a formal type parameter, a bound, a class, a type argument. The calls name
what the grammar has names for; the brackets around formal parameters,
method parameters and type arguments are nobody's call. The writer puts them
in by itself, from what it remembers: whether a list of formal parameters is
open, whether a parameter list has been opened, and for each class type that
is not finished whether its type arguments have begun.

The writer takes calls in any order and never fails.
-/

namespace ClassFile.Signature

/-- Something a writer is told. -/
inductive Call where
  /-- A formal type parameter; its bounds follow. -/
  | formalTypeParameter (name : String)
  /-- The bound that follows is a class. -/
  | classBound
  /-- The bound that follows is an interface. -/
  | interfaceBound
  /-- The superclass follows. -/
  | superclass
  /-- An interface of the class follows. -/
  | interface
  /-- The type of a parameter follows. -/
  | parameterType
  /-- The type that a method returns follows. -/
  | returnType
  /-- A type that a method throws follows. -/
  | exceptionType
  /-- A primitive type, or the absence of a type. -/
  | baseType (letter : Char)
  | typeVariable (name : String)
  /-- An array; its component follows. -/
  | arrayType
  /-- A class; type arguments may follow, and `close` ends it. -/
  | classType (name : String)
  /-- A class inside the one that was being written. -/
  | innerClassType (name : String)
  /-- The type argument without a bound. -/
  | unboundedArgument
  /-- A type argument follows: `=` as it is, `+` as an upper bound, `-` as a
  lower bound. -/
  | argument (variance : Char)
  /-- The end of a class type. -/
  | close
  deriving DecidableEq, Repr

/-- The state of a writer. -/
structure Writer where
  text : String
  /-- A list of formal type parameters is open. -/
  formalsOpen : Bool
  /-- A parameter list has been opened. -/
  parametersOpen : Bool
  /-- For each unfinished class type, the innermost first: its type arguments
  have begun. -/
  argumentsOpen : List Bool
  deriving DecidableEq, Repr

namespace Writer

/-- The writer that has been told nothing. -/
def empty : Writer := ⟨"", false, false, []⟩

def put (w : Writer) (s : String) : Writer := { w with text := w.text ++ s }

/-- Closes the list of formal type parameters, if one is open. -/
def endFormals (w : Writer) : Writer :=
  if w.formalsOpen then { w.put ">" with formalsOpen := false } else w

/-- Begins the type arguments of the innermost class type, if they have not
begun. Outside of class types there is nothing to begin. -/
def beginArguments (w : Writer) : Writer :=
  match w.argumentsOpen with
  | false :: outer => { w.put "<" with argumentsOpen := true :: outer }
  | _ => w

/-- Leaves the innermost class type, closing its type arguments if they have
begun. -/
def endArguments (w : Writer) : Writer :=
  match w.argumentsOpen with
  | true :: outer => { w.put ">" with argumentsOpen := outer }
  | false :: outer => { w with argumentsOpen := outer }
  | [] => w

/-- Enters a class type. -/
def enterClass (w : Writer) : Writer :=
  { w with argumentsOpen := false :: w.argumentsOpen }

/-- **What a call does.** -/
def write (w : Writer) : Call → Writer
  | .formalTypeParameter name =>
    let w := if w.formalsOpen then w else { w.put "<" with formalsOpen := true }
    w.put (name ++ ":")
  | .classBound => w
  | .interfaceBound => w.put ":"
  | .superclass => w.endFormals
  | .interface => w
  | .parameterType =>
    let w := w.endFormals
    if w.parametersOpen then w else { w.put "(" with parametersOpen := true }
  | .returnType =>
    let w := w.endFormals
    -- without parameters nothing has opened the list
    w.put (if w.parametersOpen then ")" else "()")
  | .exceptionType => w.put "^"
  | .baseType letter => w.put letter.toString
  | .typeVariable name => w.put ("T" ++ name ++ ";")
  | .arrayType => w.put "["
  | .classType name => (w.put ("L" ++ name)).enterClass
  -- the class around it is not closed, only its arguments are
  | .innerClassType name => (w.endArguments.put ("." ++ name)).enterClass
  | .unboundedArgument => w.beginArguments.put "*"
  | .argument variance =>
    let w := w.beginArguments
    if variance = '=' then w else w.put variance.toString
  | .close => w.endArguments.put ";"

/-- What several calls do, one after another. -/
def writeAll (w : Writer) (calls : List Call) : Writer := calls.foldl write w

@[simp] theorem writeAll_nil (w : Writer) : w.writeAll [] = w := rfl

@[simp] theorem writeAll_cons (w : Writer) (c : Call) (cs : List Call) :
    w.writeAll (c :: cs) = (w.write c).writeAll cs := rfl

/-- A writer can be handed on: telling it two sequences of calls is telling
it the one and then the other. -/
theorem writeAll_append (w : Writer) (cs ds : List Call) :
    w.writeAll (cs ++ ds) = (w.writeAll cs).writeAll ds :=
  List.foldl_append

end Writer

/-- The text that a new writer has after a sequence of calls. -/
def textOf (calls : List Call) : String := (Writer.empty.writeAll calls).text

example : textOf [.returnType, .baseType 'V'] = "()V" := by decide

end ClassFile.Signature
