import ProgramIndex.Numeral.Sequence
import ProgramIndex.Proofs.Attempts
import ProgramIndex.Proofs.Text.Delimited

/-!
Integers are read as they are written: indices, signed integers and lists of
them. A written integer holds neither blanks nor commas.
-/

namespace ProgramIndex.Numeral

theorem digit_of_digitChar {d : Nat} (hDigit : d < 10) : digit? 10 (Nat.digitChar d) = some d := by
  revert d
  decide

/-- The last digit of a number comes after the digits of its tenth. -/
theorem natDigits_of_ten_le {n : Nat} (hLarge : 10 ≤ n) :
    natDigits n = natDigits (n / 10) ++ [Nat.digitChar (n % 10)] :=
  Nat.toDigits_of_base_le (by decide) hLarge

/-- Reading goes through the digits of a number within the bound to whatever
follows them. -/
theorem readDigits_natDigits {bound : Nat} (excess : Fault) {n : Nat} (hBound : n ≤ bound)
    (rest : List Char) :
    readDigits 10 bound excess 0 (natDigits n ++ rest) = readDigits 10 bound excess n rest := by
  induction n using Nat.strongRecOn generalizing rest with
  | _ n ih =>
      by_cases hSmall : n < 10
      · rw [natDigits, Nat.toDigits_of_lt_base hSmall, List.singleton_append, readDigits,
          digit_of_digitChar hSmall]
        simp [hBound]
      · -- The leading digits stand for the tenth part.
        have hTenth : n / 10 ≤ bound := Nat.le_trans (Nat.div_le_self n 10) hBound
        have hValue : 10 * (n / 10) + n % 10 = n := Nat.div_add_mod n 10
        rw [natDigits_of_ten_le (by omega), List.append_assoc, ih (n / 10) (by omega) hTenth,
          List.singleton_append, readDigits, digit_of_digitChar (Nat.mod_lt n (by decide))]
        simp only [hValue, hBound, if_true]

theorem isDigit_of_mem_natDigits {n : Nat} {c : Char} (hMem : c ∈ natDigits n) :
    c.isDigit = true :=
  Nat.isDigit_of_mem_toDigits (by decide) (by decide) hMem

/-- Every number has a first digit. -/
theorem natDigits_eq_cons (n : Nat) :
    ∃ c rest, natDigits n = c :: rest ∧ c.isDigit = true := by
  cases hDigits : natDigits n with
  | nil => exact absurd hDigits Nat.toDigits_ne_nil
  | cons c rest =>
      refine ⟨c, rest, rfl, ?_⟩
      apply isDigit_of_mem_natDigits (n := n)
      rw [hDigits]
      exact List.mem_cons_self

/-- An index is read as it is written. -/
theorem readIndex_natDigits {n : Nat} (hBound : n ≤ maxIndex) :
    readIndex (natDigits n) = .ok n := by
  have hRead := readDigits_natDigits .tooLarge hBound []
  rw [List.append_nil] at hRead
  obtain ⟨c, rest, hDigits, hDigit⟩ := natDigits_eq_cons n
  have hPlus : c ≠ '+' := by
    rintro rfl
    cases hDigit
  rw [hDigits] at hRead ⊢
  rw [readIndex, readNat]
  · exact hRead
  · simp
  · intro digits hCons
    exact hPlus (List.cons.inj hCons).1

/-- A signed integer is read as it is written, also the smallest one, which has
no counterpart above zero. -/
theorem readInt64_int64Digits (i : Int64) : readInt64 (int64Digits i) = .ok i := by
  have hLow := i.le_toInt
  have hHigh := i.toInt_lt
  obtain ⟨c, rest, hDigits, hDigit⟩ := natDigits_eq_cons i.toInt.natAbs
  unfold int64Digits
  split
  · rename_i hNegative
    have hBound : i.toInt.natAbs ≤ minInt64Depth := by
      unfold minInt64Depth
      omega
    have hRead := readDigits_natDigits .tooSmall hBound []
    have hValue : Int64.ofInt (-(i.toInt.natAbs : Int)) = i := by
      rw [Int.ofNat_natAbs_of_nonpos (by omega), Int.neg_neg, Int64.ofInt_toInt]
    rw [List.append_nil] at hRead
    rw [readInt64, hDigits, readSigned]
    · rw [← hDigits, hRead, readDigits]
      exact congrArg Except.ok hValue
    · simp
  · rename_i hPositive
    have hBound : i.toInt.natAbs ≤ maxInt64 := by
      unfold maxInt64
      omega
    have hRead := readDigits_natDigits .tooLarge hBound []
    have hValue : Int64.ofNat i.toInt.natAbs = i := by
      rw [← Int64.ofInt_eq_ofNat, Int.natAbs_of_nonneg (by omega), Int64.ofInt_toInt]
    rw [List.append_nil] at hRead
    rw [hDigits] at hRead ⊢
    rw [readInt64]
    · rw [hRead, readDigits]
      exact congrArg Except.ok hValue
    · simp
    · rintro digits hCons
      rw [(List.cons.inj hCons).1] at hDigit
      cases hDigit
    · rintro digits hCons
      rw [(List.cons.inj hCons).1] at hDigit
      cases hDigit

/-- A written integer has no characters but digits and a sign. -/
theorem mem_int64Digits {i : Int64} {c : Char} (hMem : c ∈ int64Digits i) :
    c = '-' ∨ c.isDigit = true := by
  unfold int64Digits at hMem
  split at hMem
  · rcases List.mem_cons.mp hMem with hMinus | hDigit
    · exact Or.inl hMinus
    · exact Or.inr (isDigit_of_mem_natDigits hDigit)
  · exact Or.inr (isDigit_of_mem_natDigits hMem)

theorem isBlank_of_isDigit {c : Char} (hDigit : c.isDigit = true) : Text.isBlank c = false := by
  simp only [Char.isDigit, Bool.and_eq_true, decide_eq_true_eq, ge_iff_le,
    UInt32.le_iff_toNat_le] at hDigit
  have hLow : 48 ≤ c.toNat := hDigit.1
  have hHigh : c.toNat ≤ 57 := hDigit.2
  simp only [Text.isBlank, Bool.or_eq_false_iff, Bool.and_eq_false_iff,
    decide_eq_false_iff_not, beq_eq_false_iff_ne]
  omega

theorem isBlank_of_mem_int64Digits {i : Int64} {c : Char} (hMem : c ∈ int64Digits i) :
    Text.isBlank c = false := by
  rcases mem_int64Digits hMem with rfl | hDigit
  · rfl
  · exact isBlank_of_isDigit hDigit

/-- So commas can separate integers. -/
theorem comma_not_mem_int64Digits (i : Int64) : ',' ∉ int64Digits i := by
  intro hMem
  rcases mem_int64Digits hMem with hMinus | hDigit
  · cases hMinus
  · cases hDigit

/-- A written integer is read as it was. -/
theorem readPiece_int64Digits (i : Int64) : readPiece (int64Digits i) = .ok i := by
  rw [readPiece, Text.trim_of_forall_not_blank fun c => isBlank_of_mem_int64Digits,
    readInt64_int64Digits]

/-- A list of integers is read as it is written. -/
theorem readSequence_sequenceDigits (values : List Int64) :
    readSequence (sequenceDigits values) = .ok values := by
  cases values with
  | nil => rfl
  | cons first rest =>
      have hPieces : Text.split ',' (sequenceDigits (first :: rest)) =
          (first :: rest).map int64Digits := by
        apply Text.split_join
        · exact List.cons_ne_nil _ _
        · intro piece hPiece
          obtain ⟨i, -, rfl⟩ := List.mem_map.mp hPiece
          exact comma_not_mem_int64Digits i
      have hText : sequenceDigits (first :: rest) ≠ [] := by
        intro hNil
        rw [hNil] at hPieces
        have hFirst : int64Digits first = [] := (List.cons.inj hPieces).1.symm
        have hRead := readInt64_int64Digits first
        rw [hFirst] at hRead
        cases hRead
      rw [readSequence, hPieces, mapM_eq_ok_iff, List.map_map]
      · exact List.map_congr_left fun i _ => readPiece_int64Digits i
      · exact hText

end ProgramIndex.Numeral
