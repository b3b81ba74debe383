import Mathlib
import PullGauge.Text.Blank
import PullGauge.Text.WordChar

/-!
# The blanks one by one

There are few blanks, so that a fact about all of them can be checked code by code.
-/

namespace PullGauge.Text

def blankCodes : List Nat := blankRanges.flatMap fun r => List.range' r.1 (r.2 + 1 - r.1)

theorem exists_of_inRanges {n : Nat} {rows : List Range} (h : inRanges n rows = true) :
    ∃ r ∈ rows, r.1 ≤ n ∧ n ≤ r.2 := by
  induction rows with
  | nil => simp [inRanges] at h
  | cons r rows ih =>
    unfold inRanges at h
    split_ifs at h with hlow hhigh
    · exact ⟨r, by simp, by omega, hhigh⟩
    · obtain ⟨s, hs, hn⟩ := ih h
      exact ⟨s, by simp [hs], hn⟩

theorem mem_blankCodes {c : Char} (h : isBlank c = true) : c.toNat ∈ blankCodes := by
  obtain ⟨r, hr, hlow, hhigh⟩ := exists_of_inRanges h
  exact List.mem_flatMap.2 ⟨r, hr, List.mem_range'_1.2 ⟨hlow, by omega⟩⟩

theorem eq_false_of_isBlank {p : Char → Bool} (hp : ∀ n ∈ blankCodes, p (Char.ofNat n) = false)
    {c : Char} (h : isBlank c = true) : p c = false := by
  simpa using hp c.toNat (mem_blankCodes h)

theorem isWordChar_of_isBlank {c : Char} (h : isBlank c = true) : isWordChar c = false :=
  eq_false_of_isBlank (by decide +kernel) h

theorem mem_dropWhile {p : Char → Bool} {c : Char} {t : Text} (h : c ∈ t) (hc : p c = false) :
    c ∈ t.dropWhile p := by
  rw [← List.takeWhile_append_dropWhile (p := p) (l := t)] at h
  rcases List.mem_append.1 h with h | h
  · rw [List.mem_takeWhile_imp h] at hc
    cases hc
  · exact h

end PullGauge.Text
