/-!
# Primitive types

The eight primitive types with their letters in descriptors and their
keywords. The order of the constructors is the order in which descriptors
sort; the table `Primitive.all` lists them in the order of the class-file
format.
-/

namespace ClassFile

inductive Primitive where
  | boolean
  | char
  | float
  | double
  | byte
  | short
  | int
  | long
  deriving DecidableEq, Repr, Ord

namespace Primitive

/-- The letter that stands for the type in a descriptor. -/
def letter : Primitive → Char
  | boolean => 'Z'
  | char => 'C'
  | float => 'F'
  | double => 'D'
  | byte => 'B'
  | short => 'S'
  | int => 'I'
  | long => 'J'

/-- The keyword that names the type in a program. -/
def keyword : Primitive → String
  | boolean => "boolean"
  | char => "char"
  | float => "float"
  | double => "double"
  | byte => "byte"
  | short => "short"
  | int => "int"
  | long => "long"

/-- All primitive types, in the order of the class-file format's table. -/
def all : List Primitive := [boolean, byte, short, int, long, char, float, double]

theorem mem_all (p : Primitive) : p ∈ all := by
  cases p <;> decide

/-- The type a letter stands for. -/
def ofLetter? (c : Char) : Option Primitive := all.find? (·.letter == c)

/-- **Letters are read back.** No two primitive types share a letter. -/
@[simp] theorem ofLetter?_letter (p : Primitive) : ofLetter? p.letter = some p := by
  cases p <;> rfl

/-- A letter is read as the type that is written with it, and as no other. -/
theorem letter_of_ofLetter? {c : Char} {p : Primitive} (h : ofLetter? c = some p) :
    p.letter = c := by
  simpa using List.find?_some h

end Primitive

/-- The letter that stands where there is no type. -/
def voidLetter : Char := 'V'

/-- No primitive type is written with the letter for none. -/
theorem ofLetter?_voidLetter : Primitive.ofLetter? voidLetter = none := rfl

end ClassFile
