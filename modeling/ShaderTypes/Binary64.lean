import ShaderTypes.Decimal.Shortest

/-!
# Double precision numbers

Constants of floating type are carried through unchanged, so a number is its sixty-four bits.  The
one thing computed from it is its text: the fewest digits that read back, with a point always
present in positional notation.
-/

namespace ShaderTypes

/-- A double precision number, as its bits.  Two numbers are equal when all their bits are, so a
zero differs from its negative and a number that is not a number equals itself. -/
structure Binary64 where
  /-- Sign, exponent and fraction, from the top. -/
  bits : UInt64
deriving DecidableEq

namespace Binary64

/-- What the bits below the sign stand for. -/
inductive Magnitude where
  | notANumber
  | infinite
  /-- The number `mantissa * 2 ^ exponent`. -/
  | finite (mantissa : Nat) (exponent : Int)

/-- Whether the sign bit is set. -/
def isNegative (x : Binary64) : Bool :=
  x.bits >>> 63 == 1

/-- The eleven bits of the biased exponent. -/
def biasedExponent (x : Binary64) : Nat :=
  (x.bits >>> 52 &&& 0x7FF).toNat

/-- The fifty-two bits of the fraction. -/
def fraction (x : Binary64) : Nat :=
  (x.bits &&& 0xFFFFFFFFFFFFF).toNat

/-- The leading bit of a mantissa, above the fraction. -/
def leadingBit : Nat :=
  0x10000000000000

/-- The number without its sign.  The lowest exponent has no leading bit, every other one has. -/
def magnitude (x : Binary64) : Magnitude :=
  if x.biasedExponent = 2047 then
    if x.fraction = 0 then .infinite else .notANumber
  else if x.biasedExponent = 0 then .finite x.fraction (-1074)
  else .finite (leadingBit + x.fraction) (x.biasedExponent - 1075)

/-- The numbers that read back as `mantissa * 2 ^ exponent`: half a step to either side, where the
step below a power of two is half as long.  The ends read back when the mantissa is even. -/
def readBack (mantissa : Nat) (exponent : Int) : Decimal.Interval :=
  let up := 1 <<< (exponent - 2).toNat
  let gap := if mantissa = leadingBit ∧ -1074 < exponent then 1 else 2
  { low := (4 * mantissa - gap) * up
    value := 4 * mantissa * up
    high := (4 * mantissa + 2) * up
    unit := 1 <<< (2 - exponent).toNat
    closed := mantissa % 2 == 0 }

/-- The lowest number of places before the point that is written in positional notation: `1.0e-4` is
the least such number. -/
def fewestPlaces : Int := -3

/-- The highest number of places before the point that is written in positional notation: all
numbers below `1e16` are. -/
def mostPlaces : Int := 16

/-- The text of the number whose digits are `digits` and that has `places` places before the point.
In positional notation at least one digit stands on either side of the point. -/
def positioned (digits : List Char) (places : Int) : List Char :=
  if places < fewestPlaces ∨ mostPlaces < places then
    let power := (toString (places - 1)).toList
    match digits with
    | [] => []
    | [digit] => digit :: 'e' :: power
    | digit :: rest => digit :: '.' :: rest ++ 'e' :: power
  else if places ≤ 0 then
    '0' :: '.' :: List.replicate (-places).toNat '0' ++ digits
  else if digits.length ≤ places then
    digits ++ List.replicate (places.toNat - digits.length) '0' ++ ['.', '0']
  else
    digits.take places.toNat ++ '.' :: digits.drop places.toNat

/-- The text of a decimal, without the zeros at the end of its coefficient. -/
def decimalText (x : Decimal.Number) : List Char :=
  let digits := Nat.toDigits 10 x.coefficient
  let places := digits.length + x.exponent
  let zeros := (digits.reverse.takeWhile (· == '0')).length
  positioned (digits.take (digits.length - zeros)) places

/-- The text of the number: the fewest digits that read back. -/
def text (x : Binary64) : String :=
  let sign := if x.isNegative then "-" else ""
  match x.magnitude with
  | .notANumber => "NaN"
  | .infinite => sign ++ "inf"
  | .finite mantissa exponent =>
    if mantissa = 0 then sign ++ "0.0"
    else
      match Decimal.shortest? (readBack mantissa exponent) 17 with
      | some number => sign ++ String.ofList (decimalText number)
      | none => sign ++ "0.0"

end Binary64

end ShaderTypes
