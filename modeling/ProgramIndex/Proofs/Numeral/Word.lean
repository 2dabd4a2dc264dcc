import Mathlib.Data.List.Basic
import ProgramIndex.Numeral.Bounded

/-!
Indices as signed integers. The lower half of the words keeps its values and the
upper half wraps around to the negative integers; no two words become the same.
-/

namespace ProgramIndex.Numeral

/-- An index up to the largest signed integer is stored as itself. -/
theorem toInt_ofIndex {index : Nat} (hBound : index ≤ maxInt64) :
    (ofIndex index).toInt = index :=
  Int64.toInt_ofNat_of_lt (by unfold maxInt64 at hBound; omega)

/-- A larger one is stored as a negative number. -/
theorem toInt_ofIndex_neg {index : Nat} (hAbove : maxInt64 < index) (hWord : index ≤ maxIndex) :
    (ofIndex index).toInt < 0 := by
  unfold maxInt64 at hAbove
  unfold maxIndex at hWord
  rw [ofIndex, Int64.toInt_ofNat', Int.bmod_def, Int64.size]
  omega

/-- Either way the stored word is the index. -/
theorem toNat_ofIndex {index : Nat} (hWord : index ≤ maxIndex) :
    (ofIndex index).toUInt64.toNat = index := by
  rw [ofIndex, Int64.toUInt64_ofNat']
  exact UInt64.toNat_ofNat_of_lt' (Nat.lt_succ_of_le hWord)

/-- So no two lists of indices are stored alike. -/
theorem map_ofIndex_inj {indices others : List Nat} (hWords : ∀ index ∈ indices, index ≤ maxIndex)
    (hOthers : ∀ index ∈ others, index ≤ maxIndex)
    (hSame : indices.map ofIndex = others.map ofIndex) : indices = others := by
  have hBack : ∀ {words : List Nat}, (∀ index ∈ words, index ≤ maxIndex) →
      (words.map ofIndex).map (fun arg => arg.toUInt64.toNat) = words := by
    intro words hBound
    rw [List.map_map]
    exact (List.map_congr_left fun index hMem => toNat_ofIndex (hBound index hMem)).trans
      (List.map_id words)
  rw [← hBack hWords, hSame, hBack hOthers]

end ProgramIndex.Numeral
