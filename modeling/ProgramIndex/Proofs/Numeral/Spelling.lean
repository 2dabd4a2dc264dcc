import ProgramIndex.Numeral.Real
import ProgramIndex.Numeral.Sequence
import ProgramIndex.Proofs.Attempts
import ProgramIndex.Proofs.Numeral.Decimal
import ProgramIndex.Proofs.Numeral.Word

/-!
Which texts stand for which integers. A text is read exactly if it is a row of
decimal digits, with a sign in front at most, whose value is within the bounds.
Leading zeros and a plus sign make no difference.
-/

namespace ProgramIndex.Numeral

/-- One or more decimal digits and nothing else. -/
def IsDecimal (text : List Char) : Prop :=
  text ≠ [] ∧ ∀ c ∈ text, c.isDigit = true

/-- The texts that stand for a natural number. -/
inductive SpellsNat : List Char → Nat → Prop where
  | plain {digits : List Char} (hDigits : IsDecimal digits) :
      SpellsNat digits (decimalValue digits)
  | plus {digits : List Char} (hDigits : IsDecimal digits) :
      SpellsNat ('+' :: digits) (decimalValue digits)

/-- The texts that stand for an integer. -/
inductive SpellsInt : List Char → Int → Prop where
  | unsigned {text : List Char} {n : Nat} (hText : SpellsNat text n) : SpellsInt text n
  | minus {digits : List Char} (hDigits : IsDecimal digits) :
      SpellsInt ('-' :: digits) (-(decimalValue digits : Int))

/-- The texts that stand for a list of signed 64-bit integers: the empty text for
none, and else a piece for each of them, with blanks around it or without. -/
inductive SpellsList : List Char → List Int64 → Prop where
  | none : SpellsList [] []
  | pieces {text : List Char} {values : List Int64} (hText : text ≠ [])
      (hPieces : List.Forall₂ (fun piece (value : Int64) => SpellsInt (Text.trim piece) value.toInt)
        (Text.split ',' text) values) : SpellsList text values

/-! ### Digits -/

theorem digit_eq_some_iff {c : Char} {digit : Nat} :
    digit? 10 c = some digit ↔ c.isDigit = true ∧ c.toNat - '0'.toNat = digit := by
  have hIsDigit : c.isDigit = true ↔ '0' ≤ c ∧ c ≤ '9' := by
    simp [Char.isDigit, Char.le_def]
  rw [hIsDigit, digit?]
  by_cases hDigit : '0' ≤ c ∧ c ≤ '9'
  · have hHigh : c.toNat ≤ '9'.toNat := hDigit.2
    have hSmall : c.toNat - '0'.toNat < 10 := by
      simp only [Char.reduceToNat] at hHigh ⊢
      omega
    simp only [hDigit, and_self, if_true, true_and, hSmall, Option.some.injEq]
  · -- Letters stand for ten and more.
    simp only [hDigit, if_false, false_and, iff_false]
    rw [if_neg]
    · exact nofun
    · split
      · omega
      · split <;> omega

/-- The value of the digits read so far, followed by those of a text. -/
def valueFrom (value : Nat) (text : List Char) : Nat :=
  text.foldl (fun value c => 10 * value + (c.toNat - '0'.toNat)) value

/-- More digits make a number no smaller. -/
theorem le_valueFrom (value : Nat) (text : List Char) : value ≤ valueFrom value text := by
  induction text generalizing value with
  | nil => exact Nat.le_refl value
  | cons c rest ih =>
      have hRest := ih (10 * value + (c.toNat - '0'.toNat))
      rw [valueFrom, List.foldl_cons]
      exact Nat.le_trans (by omega) hRest

/-- The value never falls while digits are read, so it is enough to compare the last
one with the bound. -/
theorem readDigits_eq_ok_iff {bound value n : Nat} {excess : Fault} {text : List Char}
    (hValue : value ≤ bound) :
    readDigits 10 bound excess value text = .ok n ↔
      (∀ c ∈ text, c.isDigit = true) ∧ valueFrom value text = n ∧ n ≤ bound := by
  induction text generalizing value with
  | nil =>
      simp only [readDigits, valueFrom, List.foldl_nil, Except.ok.injEq, List.not_mem_nil,
        false_implies, implies_true, true_and]
      omega
  | cons c rest ih =>
      rw [readDigits]
      cases hDigit : digit? 10 c with
      | none =>
          simp only [reduceCtorEq, false_iff]
          rintro ⟨hDigits, -⟩
          have hFound := digit_eq_some_iff.mpr ⟨hDigits c List.mem_cons_self, rfl⟩
          rw [hDigit] at hFound
          cases hFound
      | some digit =>
          obtain ⟨hIsDigit, rfl⟩ := digit_eq_some_iff.mp hDigit
          simp only [List.forall_mem_cons, hIsDigit, true_and]
          have hStep : valueFrom value (c :: rest) =
              valueFrom (10 * value + (c.toNat - '0'.toNat)) rest := List.foldl_cons
          have hGrows := le_valueFrom (10 * value + (c.toNat - '0'.toNat)) rest
          rw [hStep]
          split
          · rename_i hWithin
            exact ih hWithin
          · rename_i hBeyond
            simp only [reduceCtorEq, false_iff]
            rintro ⟨-, rfl, hWithin⟩
            omega

/-- Digits are read exactly if their value does not exceed the bound. -/
theorem readSigned_eq_ok_iff {bound n : Nat} {excess : Fault} {text : List Char} :
    readSigned 10 bound excess text = .ok n ↔
      IsDecimal text ∧ decimalValue text = n ∧ n ≤ bound := by
  cases text with
  | nil => simp [readSigned, IsDecimal]
  | cons c rest =>
      rw [readSigned, readDigits_eq_ok_iff (Nat.zero_le bound)]
      · simp only [IsDecimal, ne_eq, reduceCtorEq, not_false_eq_true, true_and]
        rfl
      · simp

theorem IsDecimal.isDigit_head {c : Char} {rest : List Char} (h : IsDecimal (c :: rest)) :
    c.isDigit = true :=
  h.2 c List.mem_cons_self

/-! ### Integers -/

/-- A text that does not start with a sign is read like one that follows a sign. -/
theorem readNat_eq_readSigned {bound : Nat} {c : Char} {rest : List Char} (hPlus : c ≠ '+') :
    readNat 10 bound (c :: rest) = readSigned 10 bound .tooLarge (c :: rest) := by
  rw [readNat, readSigned]
  · simp
  · simp
  · rintro digits hCons
    exact hPlus (List.cons.inj hCons).1

/-- A natural number is read from the texts that stand for it, as long as it is
within the bound. -/
theorem readNat_eq_ok_iff {bound n : Nat} {text : List Char} :
    readNat 10 bound text = .ok n ↔ SpellsNat text n ∧ n ≤ bound := by
  cases text with
  | nil =>
      simp only [readNat, reduceCtorEq, false_iff, not_and]
      rintro (hDigits | _)
      exact absurd rfl hDigits.1
  | cons c rest =>
      by_cases hPlus : c = '+'
      · subst hPlus
        rw [readNat, readSigned_eq_ok_iff]
        constructor
        · rintro ⟨hDigits, rfl, hBound⟩
          exact ⟨.plus hDigits, hBound⟩
        · rintro ⟨hDigits | hDigits, hBound⟩
          · cases hDigits.isDigit_head
          · exact ⟨hDigits, rfl, hBound⟩
      · rw [readNat_eq_readSigned hPlus, readSigned_eq_ok_iff]
        constructor
        · rintro ⟨hDigits, rfl, hBound⟩
          exact ⟨.plain hDigits, hBound⟩
        · rintro ⟨hDigits | hDigits, hBound⟩
          · exact ⟨hDigits, rfl, hBound⟩
          · exact absurd rfl hPlus

/-- A text stands for one number at most. -/
theorem SpellsNat.unique {text : List Char} {n m : Nat} (hn : SpellsNat text n)
    (hm : SpellsNat text m) : n = m := by
  have hRead : ∀ {k : Nat}, SpellsNat text k → k ≤ max n m → readNat 10 (max n m) text = .ok k :=
    fun hText hBound => readNat_eq_ok_iff.mpr ⟨hText, hBound⟩
  exact Except.ok.inj ((hRead hn (Nat.le_max_left n m)).symm.trans (hRead hm (Nat.le_max_right n m)))

/-- Behind a minus sign there is the depth of the smallest integer to reach. -/
theorem readInt64_of_minus {digits : List Char} :
    readInt64 ('-' :: digits) =
      (readSigned 10 minInt64Depth .tooSmall digits).map fun (n : Nat) =>
        Int64.ofInt (-(n : Int)) := by
  rw [readInt64]
  cases readSigned 10 minInt64Depth .tooSmall digits <;> rfl

/-- Without one, an integer is read like a number. -/
theorem readInt64_eq_readNat {c : Char} {rest : List Char} (hMinus : c ≠ '-') :
    readInt64 (c :: rest) = (readNat 10 maxInt64 (c :: rest)).map Int64.ofNat := by
  by_cases hPlus : c = '+'
  · subst hPlus
    rw [readInt64, readNat]
  · have hMinusHead : ∀ digits, c :: rest = '-' :: digits → False := fun _ hCons =>
      hMinus (List.cons.inj hCons).1
    have hPlusHead : ∀ digits, c :: rest = '+' :: digits → False := fun _ hCons =>
      hPlus (List.cons.inj hCons).1
    rw [readInt64, readNat]
    all_goals simp_all

theorem toInt_ofInt_neg {n : Nat} (hBound : n ≤ minInt64Depth) :
    (Int64.ofInt (-(n : Int))).toInt = -(n : Int) := by
  unfold minInt64Depth at hBound
  exact Int64.toInt_ofInt_of_le (by omega) (by omega)

theorem SpellsNat.head_ne_minus {c : Char} {rest : List Char} {n : Nat}
    (h : SpellsNat (c :: rest) n) : c ≠ '-' := by
  rintro rfl
  cases h with
  | plain hDigits => cases hDigits.isDigit_head

theorem not_spellsInt_nil {value : Int} : ¬ SpellsInt [] value := by
  rintro (hText | _)
  cases hText with
  | plain hDigits => exact hDigits.1 rfl

/-- A signed integer is read from the texts that stand for it and from no others. -/
theorem readInt64_eq_ok_iff {text : List Char} {i : Int64} :
    readInt64 text = .ok i ↔ SpellsInt text i.toInt := by
  have hLow := i.le_toInt
  have hHigh := i.toInt_lt
  cases text with
  | nil =>
      simp only [readInt64, reduceCtorEq, false_iff]
      exact not_spellsInt_nil
  | cons c rest =>
      by_cases hMinus : c = '-'
      · subst hMinus
        rw [readInt64_of_minus, map_eq_ok_iff]
        constructor
        · rintro ⟨n, hRead, rfl⟩
          obtain ⟨hDigits, rfl, hBound⟩ := readSigned_eq_ok_iff.mp hRead
          rw [toInt_ofInt_neg hBound]
          exact .minus hDigits
        · generalize hValue : i.toInt = value
          rintro (hText | hDigits)
          · exact absurd rfl hText.head_ne_minus
          · have hBound : decimalValue rest ≤ minInt64Depth := by
              unfold minInt64Depth
              omega
            refine ⟨_, readSigned_eq_ok_iff.mpr ⟨hDigits, rfl, hBound⟩, ?_⟩
            rw [← hValue, Int64.ofInt_toInt]
      · rw [readInt64_eq_readNat hMinus, map_eq_ok_iff]
        constructor
        · rintro ⟨n, hRead, rfl⟩
          obtain ⟨hText, hBound⟩ := readNat_eq_ok_iff.mp hRead
          rw [show (Int64.ofNat n).toInt = n from toInt_ofIndex hBound]
          exact .unsigned hText
        · generalize hValue : i.toInt = value
          intro hSpells
          cases hSpells with
          | @unsigned _ n hText =>
              have hBound : n ≤ maxInt64 := by
                unfold maxInt64
                omega
              refine ⟨n, readNat_eq_ok_iff.mpr ⟨hText, hBound⟩, ?_⟩
              rw [← Int64.ofInt_eq_ofNat, ← hValue, Int64.ofInt_toInt]
          | minus hDigits => exact absurd rfl hMinus

/-! ### Pieces of lists -/

/-- A piece of a list holds an integer: the integer is written in it, and apart from that
there are only blanks, before and after it. -/
def HoldsInt (piece : List Char) (value : Int) : Prop :=
  ∃ before text after, piece = before ++ text ++ after ∧ (∀ c ∈ before, Text.isBlank c = true) ∧
    (∀ c ∈ after, Text.isBlank c = true) ∧ SpellsInt text value

/-- No digit is blank. -/
theorem IsDecimal.isBlank_eq_false {digits : List Char} (hDigits : IsDecimal digits) :
    ∀ c ∈ digits, Text.isBlank c = false :=
  fun c hMem => isBlank_of_isDigit (hDigits.2 c hMem)

/-- Nothing in a spelling is blank, so trimming leaves it alone. -/
theorem SpellsInt.isBlank_eq_false {text : List Char} {value : Int} (hText : SpellsInt text value) :
    ∀ c ∈ text, Text.isBlank c = false := by
  have hSigned : ∀ {sign : Char} {digits : List Char}, Text.isBlank sign = false →
      IsDecimal digits → ∀ c ∈ sign :: digits, Text.isBlank c = false :=
    fun hSign hDigits => List.forall_mem_cons.mpr ⟨hSign, hDigits.isBlank_eq_false⟩
  cases hText with
  | unsigned hNat =>
      cases hNat with
      | plain hDigits => exact hDigits.isBlank_eq_false
      | plus hDigits => exact hSigned rfl hDigits
  | minus hDigits => exact hSigned rfl hDigits

theorem not_holdsInt_nil {value : Int} : ¬ HoldsInt [] value := by
  rintro ⟨before, text, after, hPiece, -, -, hText⟩
  obtain ⟨hInside, -⟩ := List.append_eq_nil_iff.mp hPiece.symm
  obtain ⟨-, rfl⟩ := List.append_eq_nil_iff.mp hInside
  exact not_spellsInt_nil hText

/-- A piece holds an integer exactly if it spells it once the blanks around are removed. -/
theorem spellsInt_trim_iff {piece : List Char} {value : Int} :
    SpellsInt (Text.trim piece) value ↔ HoldsInt piece value := by
  constructor
  · intro hText
    obtain ⟨before, after, hPiece, hBefore, hAfter⟩ := Text.exists_blanks_around piece
    exact ⟨before, _, after, hPiece, hBefore, hAfter, hText⟩
  · rintro ⟨before, text, after, rfl, hBefore, hAfter, hText⟩
    rwa [Text.trim_append_append hBefore hText.isBlank_eq_false hAfter]

/-- A piece can be read: it holds an integer that is neither too large nor too small. -/
def Readable (piece : List Char) : Prop :=
  ∃ value : Int, HoldsInt piece value ∧ -(minInt64Depth : Int) ≤ value ∧ value ≤ maxInt64

/-- A piece is read as the integer that it spells when trimmed. -/
theorem readPiece_eq_ok_iff {piece : List Char} {value : Int64} :
    readPiece piece = .ok value ↔ SpellsInt (Text.trim piece) value.toInt := by
  rw [← readInt64_eq_ok_iff, readPiece]
  cases readInt64 (Text.trim piece) <;> simp

/-- The fault of a piece is that of its trimmed text, and the piece is named untrimmed. -/
theorem readPiece_eq_error_iff {piece : List Char} {fault : SequenceFault} :
    readPiece piece = .error fault ↔
      readInt64 (Text.trim piece) = .error fault.cause ∧ fault.piece = String.ofList piece := by
  obtain ⟨quoted, cause⟩ := fault
  rw [readPiece]
  cases readInt64 (Text.trim piece) <;> simp [eq_comm, and_comm]

theorem exists_readPiece_iff {piece : List Char} :
    (∃ value, readPiece piece = .ok value) ↔ Readable piece := by
  simp only [readPiece_eq_ok_iff, spellsInt_trim_iff]
  constructor
  · rintro ⟨value, hHolds⟩
    have hLow := value.le_toInt
    have hHigh := value.toInt_lt
    exact ⟨value.toInt, hHolds, by unfold minInt64Depth; omega, by unfold maxInt64; omega⟩
  · rintro ⟨value, hHolds, hLow, hHigh⟩
    have hValue : (Int64.ofInt value).toInt = value := by
      unfold minInt64Depth at hLow
      unfold maxInt64 at hHigh
      exact Int64.toInt_ofInt_of_le (by omega) (by omega)
    exact ⟨Int64.ofInt value, by rwa [hValue]⟩

/-! ### Lists -/

/-- A list of signed integers is read from the texts that stand for it and from no
others. -/
theorem readSequence_eq_ok_iff {text : List Char} {values : List Int64} :
    readSequence text = .ok values ↔ SpellsList text values := by
  cases text with
  | nil =>
      rw [readSequence]
      constructor
      · intro hNone
        rw [← Except.ok.inj hNone]
        exact .none
      · rintro (_ | ⟨hText, -⟩)
        · rfl
        · exact absurd rfl hText
  | cons c rest =>
      have hText : c :: rest ≠ [] := List.cons_ne_nil c rest
      rw [readSequence, mapM_eq_ok_iff_forall₂]
      · simp only [readPiece_eq_ok_iff]
        constructor
        · exact .pieces hText
        · rintro (_ | ⟨-, hPieces⟩)
          exact hPieces
      · exact fun hNil => hText hNil

theorem spellsList_iff {text : List Char} {values : List Int64} :
    SpellsList text values ↔ text = [] ∧ values = [] ∨
      List.Forall₂ (fun piece (value : Int64) => HoldsInt piece value.toInt)
        (Text.split ',' text) values := by
  constructor
  · rintro (_ | ⟨-, hPieces⟩)
    · exact .inl ⟨rfl, rfl⟩
    · exact .inr (hPieces.imp fun _ _ => spellsInt_trim_iff.mp)
  · rintro (⟨rfl, rfl⟩ | hPieces)
    · exact .none
    · refine .pieces ?_ (hPieces.imp fun _ _ => spellsInt_trim_iff.mpr)
      -- The only piece of the empty text holds nothing.
      rintro rfl
      cases hPieces with
      | cons hHolds _ => exact not_holdsInt_nil hHolds

/-- A list is read exactly if it is empty or each of its pieces is. -/
theorem exists_readSequence_iff {text : List Char} :
    (∃ values, readSequence text = .ok values) ↔
      text = [] ∨ ∀ piece ∈ Text.split ',' text, Readable piece := by
  cases text with
  | nil => simp [readSequence]
  | cons c rest =>
      rw [readSequence, exists_mapM_ok_iff]
      · simp only [exists_readPiece_iff, reduceCtorEq, false_or]
      · exact List.cons_ne_nil c rest

/-- A list fails to be read because of its first piece that cannot be read. -/
theorem readSequence_eq_error_iff {text : List Char} {fault : SequenceFault} :
    readSequence text = .error fault ↔ text ≠ [] ∧ ∃ earlier piece later,
      Text.split ',' text = earlier ++ piece :: later ∧ (∀ other ∈ earlier, Readable other) ∧
        readInt64 (Text.trim piece) = .error fault.cause ∧ fault.piece = String.ofList piece := by
  cases text with
  | nil => simp [readSequence]
  | cons c rest =>
      rw [readSequence, mapM_eq_error_iff]
      · simp only [exists_readPiece_iff, readPiece_eq_error_iff, ne_eq, reduceCtorEq,
          not_false_eq_true, true_and]
      · exact List.cons_ne_nil c rest

end ProgramIndex.Numeral
