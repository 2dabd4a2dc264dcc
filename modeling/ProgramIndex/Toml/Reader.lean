/-!
Readers: functions that take a value from the start of a text and leave the
rest. A reader that finds no value leaves the whole text to the next one.
-/

namespace ProgramIndex.Toml

abbrev Reader (α : Type) : Type := StateT (List Char) Option α

namespace Reader

def charWhere (test : Char → Bool) : Reader Char := fun
  | [] => none
  | c :: rest => if test c then some (c, rest) else none

def char (c : Char) : Reader Char :=
  charWhere (· = c)

def exactly (wanted : List Char) : Reader (List Char) := fun text =>
  if wanted.isPrefixOf text then some (wanted, text.drop wanted.length) else none

/-- Take all characters up to the first one that fails the test. -/
def charsWhile (test : Char → Bool) : Reader (List Char) := fun text =>
  some (text.takeWhile test, text.dropWhile test)

def ahead {α : Type} (reader : Reader α) : Reader α := fun text =>
  (reader text).map fun (value, _) => (value, text)

def atEnd : Reader Unit := fun
  | [] => some ((), [])
  | _ :: _ => none

/-- Take at most `limit` values, as long as there are any. -/
def upTo {α : Type} (reader : Reader α) : Nat → Reader (List α)
  | 0 => pure []
  | limit + 1 => fun text =>
      match reader text with
      | none => some ([], text)
      | some (value, rest) => ((upTo reader limit).map (value :: ·)) rest

/-- Take values as long as there are any. Every value has at least one
character, so there are no more of them than characters. -/
def many {α : Type} (reader : Reader α) : Reader (List α) := fun text =>
  upTo reader text.length text

def many1 {α : Type} (reader : Reader α) : Reader (List α) := do
  let first ← reader
  let others ← many reader
  return first :: others

/-- Take values with a separator between each two, at least one value. -/
def separated {α β : Type} (separator : Reader β) (reader : Reader α) : Reader (List α) := do
  let first ← reader
  let others ← many (do let _ ← separator; reader)
  return first :: others

def exactCount (test : Char → Bool) : Nat → Reader (List Char)
  | 0 => pure []
  | count + 1 => do
      let first ← charWhere test
      let others ← exactCount test count
      return first :: others

def require (condition : Bool) : Reader Unit :=
  if condition then pure () else failure

end Reader

end ProgramIndex.Toml
