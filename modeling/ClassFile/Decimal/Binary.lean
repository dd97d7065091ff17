/-!
# Binary floating-point words

A floating-point constant of a class file is a word of 32 or 64 bits, and
everything this library does with one is done on that word: no arithmetic of
the machine is involved, so a statement about a constant is a statement
about natural numbers.

`FloatFormat.read` splits a word into sign, exponent and fraction and says
what it denotes. `FloatFormat.same` is the equality of the denoted numbers:
the two zeros are one number, and a NaN is equal to nothing.
-/

namespace ClassFile

/-- An interchange format of binary floating-point numbers, given by the
widths of its two fields. -/
structure FloatFormat where
  /-- The number of bits of the fraction. -/
  fractionBits : Nat
  /-- The number of bits of the exponent. -/
  exponentBits : Nat
  deriving DecidableEq, Repr

/-- What a word denotes. A finite number is its significand times two to the
power of its exponent. -/
inductive FloatDatum where
  | nan
  | infinite (negative : Bool)
  | finite (negative : Bool) (significand : Nat) (exponent : Int)
  deriving DecidableEq, Repr

namespace FloatFormat

/-- The 32-bit format. -/
def single : FloatFormat := ⟨23, 8⟩

/-- The 64-bit format. -/
def double : FloatFormat := ⟨52, 11⟩

/-- The least significand of a normal number: the one with an empty
fraction. -/
def leastNormal (f : FloatFormat) : Nat := Nat.pow 2 f.fractionBits

/-- The exponent of the numbers next to zero, when the significand counts
whole units of the last place. -/
def leastExponent (f : FloatFormat) : Int :=
  2 - (Nat.pow 2 (f.exponentBits - 1) + f.fractionBits : Nat)

/-- **What a word denotes.** The exponent field 0 holds zero and the
subnormal numbers, which have no leading one; the field of ones holds the
infinities and the NaNs. -/
def read (f : FloatFormat) (word : Nat) : FloatDatum :=
  let fraction := word % f.leastNormal
  let field := word / f.leastNormal % Nat.pow 2 f.exponentBits
  let negative := word / Nat.pow 2 (f.fractionBits + f.exponentBits) % 2 == 1
  if field + 1 = Nat.pow 2 f.exponentBits then
    if fraction = 0 then .infinite negative else .nan
  else if field = 0 then
    .finite negative fraction f.leastExponent
  else
    .finite negative (f.leastNormal + fraction) (f.leastExponent + field - 1)

/-- **Equality of the denoted numbers.** -/
def same (f : FloatFormat) (v w : Nat) : Bool :=
  match f.read v, f.read w with
  | .nan, _ => false
  | _, .nan => false
  | .finite _ 0 _, .finite _ 0 _ => true
  | x, y => x == y

example : double.read 0x3ff8000000000000 = .finite false 6755399441055744 (-52) := by decide
example : single.same 0x80000000 0 = true := by decide
example : single.same 0x7fc00000 0x7fc00000 = false := by decide

end FloatFormat

end ClassFile
