import Mathlib
import PullGauge.Proofs.Metrics.Exact

/-!
# Exact medians

The middle of some rationals is found by sorting them, so their order makes no difference. The
median of numbers is the middle of what they are; whether the one in the middle is an integer or
a scalar does not matter to that.
-/

namespace PullGauge

/-- The middle one of an odd number of rationals, half-way between the two in the middle of an
even number, and zero of none. -/
def middle (xs : List Rat) : Rat :=
  let sorted := xs.insertionSort (· ≤ ·)
  let half := xs.length / 2
  if xs.length % 2 = 1 then sorted.getD half 0
  else (sorted.getD (half - 1) 0 + sorted.getD half 0) / 2

theorem middle_perm {xs ys : List Rat} (h : xs.Perm ys) : middle xs = middle ys := by
  have hsorted : xs.insertionSort (· ≤ ·) = ys.insertionSort (· ≤ ·) :=
    (((List.perm_insertionSort _ xs).trans h).trans
      (List.perm_insertionSort _ ys).symm).eq_of_sortedLE
        List.sortedLE_insertionSort List.sortedLE_insertionSort
  rw [middle, middle, hsorted, h.length_eq]

theorem middle_nonneg {xs : List Rat} (h : ∀ x ∈ xs, 0 ≤ x) : 0 ≤ middle xs := by
  have hplace (i : Nat) : 0 ≤ (xs.insertionSort (· ≤ ·)).getD i 0 := by
    rw [List.getD_eq_getElem?_getD]
    cases hx : (xs.insertionSort (· ≤ ·))[i]? with
    | none => exact le_refl 0
    | some x =>
      exact h x ((List.perm_insertionSort _ xs).mem_iff.1 (List.mem_of_getElem? hx))
  unfold middle
  dsimp only
  split_ifs
  · exact hplace _
  · exact div_nonneg (add_nonneg (hplace _) (hplace _)) (by norm_num)

variable {values : List (Number Rat)}

theorem map_exact_ordered (values : List (Number Rat)) :
    (ordered id values).map Number.exact = (values.map Number.exact).insertionSort (· ≤ ·) := by
  rw [← List.mergeSort_eq_insertionSort]
  refine List.map_mergeSort fun a _ b _ => ?_
  rw [Bool.eq_iff_iff, decide_eq_true_iff, Bool.not_eq_true', ← Bool.not_eq_true]
  exact Number.less_iff.not.trans not_lt

theorem exact_numberOrZero (n : Option (Number Rat)) :
    (numberOrZero n).exact = (n.map Number.exact).getD 0 := by
  cases n with
  | none => rfl
  | some n =>
    rw [numberOrZero]
    split_ifs with hzero
    · exact (Number.isZero_iff.1 hzero).symm
    · rfl

theorem exists_median (values : List (Number Rat)) :
    ∃ m, median values = .ok m ∧ (numberOrZero m).exact = middle (values.map Number.exact) ∧
      ∀ n ∈ m, n ∈ values ∨ n = .real n.exact := by
  have hplace (i : Nat) : ((ordered id values)[i]?.map Number.exact).getD 0 =
      ((values.map Number.exact).insertionSort (· ≤ ·)).getD i 0 := by
    rw [List.getD_eq_getElem?_getD, ← map_exact_ordered, List.getElem?_map]
  have hlength : (ordered id values).length = values.length := List.length_mergeSort values
  unfold median medianBy
  dsimp only
  rw [hlength]
  by_cases hodd : values.length % 2 = 1
  · rw [if_pos hodd]
    refine ⟨(ordered id values)[values.length / 2]?, ?_, ?_, ?_⟩
    · cases (ordered id values)[values.length / 2]? <;> rfl
    · rw [exact_numberOrZero, hplace, middle, List.length_map, if_pos hodd]
    · intro n hn
      exact .inl ((List.mergeSort_perm values _).mem_iff.1 (List.mem_of_getElem? hn))
  · rw [if_neg hodd]
    by_cases hempty : values.length = 0
    · have hsorted : ordered id values = [] :=
        List.length_eq_zero_iff.1 (hlength.trans hempty)
      obtain rfl := List.length_eq_zero_iff.1 hempty
      refine ⟨none, ?_, (exact_numberOrZero none).trans (by decide +kernel), nofun⟩
      rw [hsorted]
      rfl
    · have hfound {i : Nat} (hi : i < values.length) : ∃ n, (ordered id values)[i]? = some n :=
        ⟨_, List.getElem?_eq_getElem (hlength ▸ hi)⟩
      obtain ⟨a, ha⟩ := hfound (i := values.length / 2 - 1) (by omega)
      obtain ⟨b, hb⟩ := hfound (i := values.length / 2) (by omega)
      obtain ⟨total, htotal, hsum⟩ := Number.exists_add a b
      have hleft := hplace (values.length / 2 - 1)
      have hright := hplace (values.length / 2)
      rw [ha, Option.map_some, Option.getD_some] at hleft
      rw [hb, Option.map_some, Option.getD_some] at hright
      refine ⟨some (.real (total.exact / 2)), ?_, ?_, ?_⟩
      · simp only [ha, hb, id_eq, htotal, Outcome.ok_bind, Number.divInt_eq]
        rfl
      · rw [exact_numberOrZero, Option.map_some, Option.getD_some, Number.exact_real, hsum, hleft,
          hright, middle, List.length_map, if_neg hodd]
      · rintro n ⟨⟩
        exact .inr rfl

theorem exists_median_real (xs : List Rat) :
    ∃ m, median (xs.map Number.real) = .ok m ∧ numberOrZero m = .real (middle xs) := by
  obtain ⟨m, hm, hexact, hkind⟩ := exists_median (xs.map Number.real)
  refine ⟨m, hm, ?_⟩
  rw [List.map_map, Function.comp_def, show xs.map (fun x => (Number.real x).exact) = xs from
    List.map_id' xs] at hexact
  rw [← hexact]
  cases m with
  | none => rfl
  | some n =>
    have hreal : n = .real n.exact := by
      rcases hkind n rfl with hn | hn
      · obtain ⟨x, -, rfl⟩ := List.mem_map.1 hn
        rfl
      · exact hn
    rw [hreal, numberOrZero]
    split_ifs <;> rfl

end PullGauge
