import ProgramIndex.Numeral.Bounded

/-!
Real numbers in decimal notation, read as the nearest binary floating-point
number of 64 bits; of two nearest numbers the one with the even last bit.
-/

namespace ProgramIndex.Numeral

/-- Why a text is not a real number. -/
inductive RealFault where
  | empty
  | invalid
  deriving DecidableEq, Repr

def RealFault.message : RealFault → String
  | .empty => "cannot parse float from empty string"
  | .invalid => "invalid float literal"

/-- An unsigned number as it is written: `digits` times ten to the `exponent`,
or one of the two names that stand for no finite number. -/
inductive RealLiteral where
  | finite (digits : Nat) (exponent : Int)
  | infinity
  | notANumber
  deriving DecidableEq, Repr

/-- A quotient rounded to the nearest integer, a tie to the even neighbour. -/
def divideToEven (numerator denominator : Nat) : Nat :=
  let quotient := numerator / denominator
  let rest := numerator % denominator
  if 2 * rest < denominator then quotient
  else if denominator < 2 * rest then quotient + 1
  else if quotient % 2 = 0 then quotient
  else quotient + 1

def signBit : Nat := 0x8000000000000000

def infinityBits : Nat := 0x7FF0000000000000

/-- The bits of the floating-point number nearest to a positive quotient. The
unit of the last place is `2 ^ scale`: it leaves 53 significant bits, or fewer
where that would go below the smallest unit `2 ^ -1074`. Adding the significand
to the shifted scale also carries a rounding to the next power of two. -/
def nearestBits (numerator denominator : Nat) : Nat :=
  let estimate : Int := (numerator.log2 : Int) - denominator.log2 - 52
  let atLeast (scale : Int) : Bool :=
    (denominator <<< scale.toNat) <<< 52 ≤ numerator <<< (-scale).toNat
  let scale := max (if atLeast estimate then estimate else estimate - 1) (-1074)
  let significand :=
    divideToEven (numerator <<< (-scale).toNat) (denominator <<< scale.toNat)
  min ((scale + 1074).toNat <<< 52 + significand) infinityBits

/-- The bits of an unsigned number. Exponents far outside the range of the
floating-point numbers are settled without forming the power of ten. -/
def RealLiteral.bits : RealLiteral → Nat
  | .infinity => infinityBits
  | .notANumber => 0x7FF8000000000000
  | .finite digits exponent =>
      let magnitude := exponent + (natDigits digits).length
      if digits = 0 ∨ magnitude < -400 then 0
      else if 400 < magnitude then infinityBits
      else nearestBits (digits * Nat.pow 10 exponent.toNat) (Nat.pow 10 (-exponent).toNat)

def decimalValue (digits : List Char) : Nat :=
  digits.foldl (fun value c => 10 * value + (c.toNat - '0'.toNat)) 0

/-- The digits in front of a text, and what follows them. -/
def spanDigits (text : List Char) : List Char × List Char :=
  (text.takeWhile Char.isDigit, text.dropWhile Char.isDigit)

/-- Read the exponent part, if there is one, to the end of the text. -/
def readExponent : List Char → Option Int
  | [] => some 0
  | e :: text =>
      if e = 'e' ∨ e = 'E' then
        let (negative, digits) :=
          match text with
          | '-' :: digits => (true, digits)
          | '+' :: digits => (false, digits)
          | digits => (false, digits)
        if digits ≠ [] ∧ digits.all Char.isDigit then
          some (if negative then -(decimalValue digits : Int) else decimalValue digits)
        else none
      else none

/-- Read digits with an optional point among or around them and an optional
exponent part. -/
def readFinite (text : List Char) : Option RealLiteral :=
  let (whole, afterWhole) := spanDigits text
  let (fraction, afterFraction) :=
    match afterWhole with
    | '.' :: rest => spanDigits rest
    | rest => ([], rest)
  if whole = [] ∧ fraction = [] then none
  else
    (readExponent afterFraction).map fun exponent =>
      .finite (decimalValue (whole ++ fraction)) (exponent - fraction.length)

/-- Read a number without its sign. The names may be in either case. -/
def readUnsignedReal (text : List Char) : Option RealLiteral :=
  match String.ofList (text.map Char.toLower) with
  | "inf" | "infinity" => some .infinity
  | "nan" => some .notANumber
  | _ => readFinite text

/-- Read a real number with at most one sign in front. -/
def readReal (text : List Char) : Except RealFault Float :=
  let (sign, unsigned) :=
    match text with
    | '-' :: rest => (signBit, rest)
    | '+' :: rest => (0, rest)
    | rest => (0, rest)
  if text = [] then .error .empty
  else
    match readUnsignedReal unsigned with
    | none => .error .invalid
    | some literal => .ok (Float.ofBits (UInt64.ofNat (sign + literal.bits)))

end ProgramIndex.Numeral
