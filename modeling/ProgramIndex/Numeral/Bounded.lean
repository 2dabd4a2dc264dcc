/-!
Integers of bounded size written in digits. A text is read from left to right
and the first character that is no digit, or that takes the value out of
bounds, decides what is wrong with it.
-/

namespace ProgramIndex.Numeral

/-- Why a text is not an integer within the wanted bounds. -/
inductive Fault where
  | empty
  | invalidDigit
  | tooLarge
  | tooSmall
  deriving DecidableEq, Repr

def Fault.message : Fault → String
  | .empty => "cannot parse integer from empty string"
  | .invalidDigit => "invalid digit found in string"
  | .tooLarge => "number too large to fit in target type"
  | .tooSmall => "number too small to fit in target type"

/-- The value of an ASCII digit in a base of at most sixteen; letters count in
either case. -/
def digit? (base : Nat) (c : Char) : Option Nat :=
  let value :=
    if '0' ≤ c ∧ c ≤ '9' then c.toNat - '0'.toNat
    else if 'a' ≤ c ∧ c ≤ 'f' then c.toNat - 'a'.toNat + 10
    else if 'A' ≤ c ∧ c ≤ 'F' then c.toNat - 'A'.toNat + 10
    else base
  if value < base then some value else none

/-- Read the digits that follow a part of value `value`. A value above `bound`
is reported as `excess`. -/
def readDigits (base bound : Nat) (excess : Fault) (value : Nat) :
    List Char → Except Fault Nat
  | [] => .ok value
  | c :: rest =>
      match digit? base c with
      | none => .error .invalidDigit
      | some digit =>
          let next := base * value + digit
          if next ≤ bound then readDigits base bound excess next rest else .error excess

/-- Read a numeral after its sign, which must be followed by a digit. -/
def readSigned (base bound : Nat) (excess : Fault) : List Char → Except Fault Nat
  | [] => .error .invalidDigit
  | digits => readDigits base bound excess 0 digits

/-- Read a natural number of at most `bound`. One plus sign may stand in front;
a minus sign is not a digit. -/
def readNat (base bound : Nat) : List Char → Except Fault Nat
  | [] => .error .empty
  | '+' :: digits => readSigned base bound .tooLarge digits
  | digits => readDigits base bound .tooLarge 0 digits

/-- The largest index and file number: the indices are 64-bit words. -/
def maxIndex : Nat := 0xFFFFFFFFFFFFFFFF

/-- The word that follows a word. The last one is followed by zero. -/
def nextWord (word : Nat) : Nat :=
  (word + 1) % (maxIndex + 1)

/-- The largest signed 64-bit integer. -/
def maxInt64 : Nat := 0x7FFFFFFFFFFFFFFF

/-- How far the smallest signed 64-bit integer is below zero. -/
def minInt64Depth : Nat := 0x8000000000000000

def readIndex (text : List Char) : Except Fault Nat :=
  readNat 10 maxIndex text

/-- Read a signed 64-bit integer in decimal, with at most one sign in front. -/
def readInt64 : List Char → Except Fault Int64
  | [] => .error .empty
  | '-' :: digits =>
      (readSigned 10 minInt64Depth .tooSmall digits).map fun n => Int64.ofInt (-(n : Int))
  | '+' :: digits => (readSigned 10 maxInt64 .tooLarge digits).map Int64.ofNat
  | digits => (readDigits 10 maxInt64 .tooLarge 0 digits).map Int64.ofNat

def natDigits (n : Nat) : List Char :=
  Nat.toDigits 10 n

def int64Digits (i : Int64) : List Char :=
  if i.toInt < 0 then '-' :: natDigits i.toInt.natAbs else natDigits i.toInt.natAbs

/-- The decimal form of a natural number as a string. -/
def ofNat (n : Nat) : String :=
  String.ofList (natDigits n)

/-- The decimal form of a signed integer as a string. -/
def ofInt64 (i : Int64) : String :=
  String.ofList (int64Digits i)

/-- The signed integer that stands for an index. Indices above the
largest signed integer wrap around to negative ones. -/
def ofIndex (index : Nat) : Int64 :=
  Int64.ofNat index

end ProgramIndex.Numeral
