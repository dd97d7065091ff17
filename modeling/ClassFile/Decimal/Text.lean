import ClassFile.Decimal.Shortest

/-!
# The text of a floating-point number

Floating-point constants are shown in positional notation whatever their
size: no exponent, a point only before a digit, and a zero before a point
that would otherwise come first. Zero keeps its sign, a NaN has none.
-/

namespace ClassFile

/-- **Positional notation.** The digits stand left of the point, between it,
or right of it behind zeros, as the exponent says. -/
def Decimal.text (d : Decimal) : String :=
  let digits := Nat.toDigits 10 d.units
  if 0 ≤ d.exponent then
    String.ofList (digits ++ List.replicate d.exponent.toNat '0')
  else
    let places := (-d.exponent).toNat
    let padded := List.replicate (places + 1 - digits.length) '0' ++ digits
    let whole := padded.length - places
    String.ofList (padded.take whole ++ '.' :: padded.drop whole)

/-- The text of the number that a word denotes. -/
def FloatFormat.text (f : FloatFormat) (word : Nat) : String :=
  match f.read word with
  | .nan => "NaN"
  | .infinite negative => if negative then "-inf" else "inf"
  | .finite negative significand exponent =>
    (if negative then "-" else "")
      ++ if significand = 0 then "0" else (f.shortest significand exponent).text

end ClassFile
