import ClassFile.Decimal.Text
import ClassFile.Primitive

/-!
# Constants

A constant is a primitive value or a string, as it stands in a declaration.
`Constant.text` is how it is shown. A field stores its constant in a pool
that knows only five kinds (`StoredConstant`): the small integer kinds are
widened to `int`.
-/

namespace ClassFile

/-- A primitive value or a string. A `char` is a code unit, so it may be half
of a character; floating-point values are words. -/
inductive Constant where
  | boolean (value : Bool)
  | byte (value : Int8)
  | char (unit : UInt16)
  | short (value : Int16)
  | int (value : Int32)
  | long (value : Int64)
  | float (word : UInt32)
  | double (word : UInt64)
  | string (value : String)
  deriving DecidableEq, Repr

namespace Constant

/-- A code unit between quotes, as an escape of four upper-case hexadecimal
digits whatever the unit is. -/
def unitText (unit : UInt16) : String :=
  let digits := (Nat.toDigits 16 unit.toNat).map Char.toUpper
  "'\\u" ++ String.ofList (List.replicate (4 - digits.length) '0' ++ digits) ++ "'"

/-- The text of a constant. A string stands between quotes as it is. -/
def text : Constant → String
  | boolean b => if b then "true" else "false"
  | byte n => toString n.toInt
  | char u => unitText u
  | short n => toString n.toInt
  | int n => toString n.toInt
  | long n => toString n.toInt
  | float w => FloatFormat.single.text w.toNat
  | double w => FloatFormat.double.text w.toNat
  | string s => "\"" ++ s ++ "\""

/-- **Equality of values.** Floating-point values are compared as numbers, so
this is not quite the equality of constants. -/
def same : Constant → Constant → Bool
  | float v, float w => FloatFormat.single.same v.toNat w.toNat
  | double v, double w => FloatFormat.double.same v.toNat w.toNat
  | c, d => c == d

end Constant

/-- A constant as a field stores it. -/
inductive StoredConstant where
  | int (value : Int32)
  | float (word : UInt32)
  | long (value : Int64)
  | double (word : UInt64)
  | string (value : String)
  deriving DecidableEq, Repr

/-- How a constant is stored: whatever is no wider than `int` becomes one. -/
def Constant.stored : Constant → StoredConstant
  | boolean b => .int (if b then 1 else 0)
  | byte n => .int n.toInt32
  | char u => .int (Int32.ofNat u.toNat)
  | short n => .int n.toInt32
  | int n => .int n
  | long n => .long n
  | float w => .float w
  | double w => .double w
  | string s => .string s

/-- The text of a stored constant: its kind and its value. -/
def StoredConstant.text : StoredConstant → String
  | int n => "int(" ++ (Constant.int n).text ++ ")"
  | float w => "float(" ++ (Constant.float w).text ++ ")"
  | long n => "long(" ++ (Constant.long n).text ++ ")"
  | double w => "double(" ++ (Constant.double w).text ++ ")"
  | string s => "String(" ++ (Constant.string s).text ++ ")"

/-- The values of one primitive type that an annotation lists. -/
inductive PrimitiveArray where
  | booleans (values : List Bool)
  | bytes (values : List Int8)
  | chars (units : List UInt16)
  | shorts (values : List Int16)
  | ints (values : List Int32)
  | longs (values : List Int64)
  | floats (words : List UInt32)
  | doubles (words : List UInt64)
  deriving DecidableEq, Repr

namespace PrimitiveArray

/-- The values, one by one. -/
def elements : PrimitiveArray → List Constant
  | booleans vs => vs.map .boolean
  | bytes vs => vs.map .byte
  | chars us => us.map .char
  | shorts vs => vs.map .short
  | ints vs => vs.map .int
  | longs vs => vs.map .long
  | floats ws => ws.map .float
  | doubles ws => ws.map .double

def elementType : PrimitiveArray → Primitive
  | booleans _ => .boolean
  | bytes _ => .byte
  | chars _ => .char
  | shorts _ => .short
  | ints _ => .int
  | longs _ => .long
  | floats _ => .float
  | doubles _ => .double

/-- **Equality of values.** Two empty arrays of different types differ. -/
def same (a b : PrimitiveArray) : Bool :=
  a.elementType == b.elementType
    && a.elements.length == b.elements.length
    && (a.elements.zip b.elements).all fun (c, d) => c.same d

end PrimitiveArray

end ClassFile
