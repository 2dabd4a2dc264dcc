import ProgramIndex.Numeral.Real
import ProgramIndex.Toml.Text

/-!
Numbers, dates and times in TOML. Dates and times are checked and not kept.
-/

namespace ProgramIndex.Toml

open Reader

/-- Digits with single underscores between them, without the underscores. -/
def groupedDigits (test : Char → Bool) : Reader (List Char) := do
  let first ← charWhere test
  let others ← many (charWhere test <|> (do let _ ← char '_'; charWhere test))
  return first :: others

/-- A sign, if there is one. -/
def sign : Reader (List Char) :=
  (do let c ← char '+' <|> char '-'; return [c]) <|> return []

/-- An integer in decimal. More than one digit do not start with a zero. -/
def decimalInteger : Reader (List Char) := do
  let sign ← sign
  let digits ← (do
      let _ ← ahead (charWhere fun c => c.isDigit && c ≠ '0')
      groupedDigits Char.isDigit)
    <|> (do let c ← charWhere Char.isDigit; return [c])
  return sign ++ digits

/-- An integer in another base, behind its mark. It has no sign. -/
def basedInteger (base : Nat) (mark : Char) : Reader Int64 := do
  let _ ← exactly ['0', mark]
  let digits ← groupedDigits fun c => (Numeral.digit? base c).isSome
  match Numeral.readDigits base Numeral.maxInt64 .tooLarge 0 digits with
  | .ok value => return Int64.ofNat value
  | .error _ => failure

def integer : Reader Int64 :=
  basedInteger 16 'x' <|> basedInteger 8 'o' <|> basedInteger 2 'b' <|> do
    let digits ← decimalInteger
    match Numeral.readInt64 digits with
    | .ok value => return value
    | .error _ => failure

def exponent : Reader (List Char) := do
  let e ← char 'e' <|> char 'E'
  let sign ← sign
  let digits ← groupedDigits Char.isDigit
  return e :: sign ++ digits

def fraction : Reader (List Char) := do
  let point ← char '.'
  let digits ← groupedDigits Char.isDigit
  return point :: digits

/-- A real number in digits. One too large to be stored is refused. -/
def finiteReal : Reader Unit := do
  let whole ← decimalInteger
  let rest ← exponent <|> do
    let digits ← fraction
    let scale ← optional exponent
    return digits ++ scale.getD []
  match Numeral.readReal (whole ++ rest) with
  | .ok value => require (value.toBits.toNat ≠ Numeral.infinityBits)
  | .error _ => failure

/-- A real number, or one of the names that stand for no finite number. -/
def real : Reader Unit :=
  finiteReal <|> do
    let _ ← sign
    let _ ← exactly "inf".toList <|> exactly "nan".toList

/-- A number of a fixed count of digits within bounds. -/
def clockNumber (digits lowest highest : Nat) : Reader Nat := do
  let written ← exactCount Char.isDigit digits
  let value := Numeral.decimalValue written
  require (lowest ≤ value && value ≤ highest)
  return value

def daysIn (year month : Nat) : Nat :=
  if month = 2 then
    if year % 4 = 0 ∧ (year % 100 ≠ 0 ∨ year % 400 = 0) then 29 else 28
  else if month ∈ [4, 6, 9, 11] then 30
  else 31

def date : Reader Unit := do
  let year ← clockNumber 4 0 9999
  let _ ← char '-'
  let month ← clockNumber 2 1 12
  let _ ← char '-'
  let day ← clockNumber 2 1 31
  require (day ≤ daysIn year month)

/-- A time of the day. A minute may have a leap second. -/
def time : Reader Unit := do
  let _ ← clockNumber 2 0 23
  let _ ← char ':'
  let _ ← clockNumber 2 0 59
  let _ ← char ':'
  let _ ← clockNumber 2 0 60
  let _ ← optional (do let _ ← char '.'; many1 (charWhere Char.isDigit))

def offset : Reader Unit :=
  (do let _ ← char 'Z' <|> char 'z') <|> do
    let _ ← char '+' <|> char '-'
    let _ ← clockNumber 2 0 23
    let _ ← char ':'
    let _ ← clockNumber 2 0 59

/-- A date, a time, or both with or without an offset. -/
def moment : Reader Unit :=
  (do
    date
    let _ ← optional do
      let _ ← charWhere fun c => c = 'T' || c = 't' || c = ' '
      time
      let _ ← optional offset) <|> time

end ProgramIndex.Toml
