import ProgramIndex.Toml.Number

/-!
The values of TOML documents. Only truth values and texts are kept; of the
other values it is known that they are well formed.
-/

namespace ProgramIndex.Toml

open Reader

/-- A value. -/
inductive Value where
  | bool (b : Bool)
  | text (s : String)
  | other
  deriving DecidableEq, Repr

/-- What a table within braces binds a key to while it is read: a value, or
more keys where points lead further. -/
inductive Binding where
  | value
  | keys (entries : List (String × Binding))

/-- Bind a key in a table within braces. Keys that points have led to may be
extended; everything else is bound once. -/
def Binding.bind : List String → List (String × Binding) → Option (List (String × Binding))
  | [], _ => none
  | [last], entries =>
      if (entries.lookup last).isSome then none else some (entries ++ [(last, .value)])
  | first :: rest, entries =>
      match entries.lookup first with
      | none => (bind rest []).map fun inner => entries ++ [(first, .keys inner)]
      | some .value => none
      | some (.keys inner) =>
          (bind rest inner).map fun inner =>
            entries.map fun entry => if entry.1 = first then (first, .keys inner) else entry

/-- A value, whose parts are nested less than `depth` deep. -/
def value : Nat → Reader Value
  | 0 => failure
  | depth + 1 =>
      (do return .text (← text))
        <|> (do let _ ← exactly "true".toList; return .bool true)
        <|> (do let _ ← exactly "false".toList; return .bool false)
        <|> (do moment <|> real <|> (do let _ ← integer); return .other)
        <|> (do
          require (0 < depth)
          let _ ← char '['
          let element : Reader Unit := do
            space
            let _ ← value depth
            space
          let _ ← optional do
            let _ ← separated (char ',') element
            optional (char ',')
          space
          let _ ← char ']'
          return .other)
        <|> (do
          require (0 < depth)
          let _ ← char '\x7b'
          let entry : Reader (List String) := do
            let key ← key
            let _ ← char '='
            let _ ← blanks
            let _ ← value depth
            let _ ← blanks
            return key
          let keys ← optional (separated (char ',') entry)
          let _ ← blanks
          let _ ← char '\x7d'
          require ((keys.getD []).foldlM (fun entries key => Binding.bind key entries) []).isSome
          return .other)

end ProgramIndex.Toml
