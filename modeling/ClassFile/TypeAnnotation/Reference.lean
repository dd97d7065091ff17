/-!
# Type references

An annotation written on a type is stored with a word that says where the
type stands: in the result of a method, in a parameter, in a bound of a type
parameter, and so on. The top byte of the word is the sort of the place; the
lower bytes hold the indices the sort needs.
-/

namespace ClassFile

/-- The place of a type in a declaration, packed into a word. -/
structure TypeReference where
  value : UInt32
  deriving DecidableEq, Repr

namespace TypeReference

/-- The sort of a type parameter of a class. -/
def classTypeParameter : UInt8 := 0x00
/-- The sort of a type parameter of a method. -/
def methodTypeParameter : UInt8 := 0x01
/-- The sort of a supertype. -/
def classExtends : UInt8 := 0x10
/-- The sort of a bound of a type parameter of a class. -/
def classTypeParameterBound : UInt8 := 0x11
/-- The sort of a bound of a type parameter of a method. -/
def methodTypeParameterBound : UInt8 := 0x12
/-- The sort of the type of a field. -/
def field : UInt8 := 0x13
/-- The sort of what a method returns. -/
def methodReturn : UInt8 := 0x14
/-- The sort of a parameter of a method. -/
def methodFormalParameter : UInt8 := 0x16
/-- The sort of a type that a method throws. -/
def throws : UInt8 := 0x17

/-- The word of four bytes, the first of them on top. -/
def ofBytes (sort index bound rest : UInt8) : TypeReference :=
  ⟨UInt32.ofNat
    (((sort.toNat * 256 + index.toNat) * 256 + bound.toNat) * 256 + rest.toNat)⟩

/-- A place that its sort alone identifies. -/
def ofSort (sort : UInt8) : TypeReference := ofBytes sort 0 0 0

def ofTypeParameter (sort index : UInt8) : TypeReference := ofBytes sort index 0 0

def ofBound (sort index bound : UInt8) : TypeReference := ofBytes sort index bound 0

/-- A place with one index of two bytes, which stand in the middle. -/
def ofWideIndex (sort : UInt8) (index : UInt16) : TypeReference :=
  ofBytes sort (UInt8.ofNat (index.toNat / 256)) (UInt8.ofNat index.toNat) 0

/-- The index that stands for the superclass among the supertypes. -/
def superclassIndex : UInt16 := 65535

/-- A supertype: an interface by its position, or the superclass. -/
def ofSupertype (interface : Option UInt16) : TypeReference :=
  ofWideIndex classExtends (interface.getD superclassIndex)

def ofFormalParameter (index : UInt8) : TypeReference :=
  ofTypeParameter methodFormalParameter index

def ofThrown (index : UInt16) : TypeReference := ofWideIndex throws index

def sort (r : TypeReference) : UInt8 := UInt8.ofNat (r.value.toNat / 0x1000000)

/-- The index of the parameter, in the byte below the sort. -/
def parameterIndex (r : TypeReference) : UInt8 := UInt8.ofNat (r.value.toNat / 0x10000)

/-- The text of a reference: its word in eight hexadecimal digits. -/
def text (r : TypeReference) : String :=
  let digits := Nat.toDigits 16 r.value.toNat
  "TypeReference(0x" ++ String.ofList (List.replicate (8 - digits.length) '0' ++ digits) ++ ")"

end TypeReference

end ClassFile
