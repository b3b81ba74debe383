import Mathlib
import PullGauge.Proofs.Metrics.Exact

/-!
# Medians by rank

The rank of an integer in a list is told by counting: how many are less, and how many are not
greater. There is one integer for each rank, and the list in order shows it at that place. The
median of an odd number of integers is the one with half of the others before it, that of an even
number lies half-way between the two in the middle. So half of the integers are not greater than the
median, half are not less, and their order makes no difference.
-/

namespace PullGauge

/-- The integer at place `k` in order: no more than `k` are less, and more than `k` are not
greater. -/
structure IsRanked (xs : List Int) (k : Nat) (x : Int) : Prop where
  less : xs.countP (· < x) ≤ k
  notGreater : k < xs.countP (· ≤ x)

variable {xs ys : List Int} {k l : Nat} {x y : Int}

theorem countP_le_countP_lt (xs : List Int) (h : x < y) : xs.countP (· ≤ x) ≤ xs.countP (· < y) :=
  List.countP_mono_left fun _ _ hz => decide_eq_true ((of_decide_eq_true hz).trans_lt h)

theorem length_eq_countP_add (xs : List Int) (x : Int) :
    xs.length = xs.countP (· < x) + xs.countP (x ≤ ·) := by
  rw [List.length_eq_countP_add_countP (· < x)]
  simp only [not_lt, decide_eq_true_eq]

namespace IsRanked

theorem le_of_le (h : IsRanked xs k x) (h' : IsRanked xs l y) (hkl : k ≤ l) : x ≤ y := by
  by_contra hless
  have hcount := countP_le_countP_lt xs (not_le.1 hless)
  have hlow := h'.notGreater
  have hhigh := h.less
  omega

theorem eq (h : IsRanked xs k x) (h' : IsRanked xs k y) : x = y :=
  le_antisymm (h.le_of_le h' le_rfl) (h'.le_of_le h le_rfl)

theorem mem (h : IsRanked xs k x) : x ∈ xs := by
  by_contra hnot
  have hsame : xs.countP (· ≤ x) = xs.countP (· < x) := by
    refine List.countP_congr fun z hz => ?_
    have hne : z ≠ x := fun heq => hnot (heq ▸ hz)
    simp only [decide_eq_true_eq]
    omega
  have hlow := h.notGreater
  have hhigh := h.less
  omega

theorem perm (h : IsRanked xs k x) (hperm : ys.Perm xs) : IsRanked ys k x := by
  constructor
  · rw [hperm.countP_eq]
    exact h.less
  · rw [hperm.countP_eq]
    exact h.notGreater

end IsRanked

theorem isRanked_of_append {a b : List Int} (hs : (a ++ x :: b).Pairwise (· ≤ ·)) :
    IsRanked (a ++ x :: b) a.length x := by
  obtain ⟨-, hrest, hbefore⟩ := List.pairwise_append.1 hs
  have hbehind := (List.pairwise_cons.1 hrest).1
  constructor
  · have hnone : (x :: b).countP (· < x) = 0 := by
      refine List.countP_eq_zero.2 fun z hz => ?_
      rw [decide_eq_true_eq, not_lt]
      exact List.forall_mem_cons.2 ⟨le_refl x, hbehind⟩ z hz
    rw [List.countP_append, hnone]
    exact List.countP_le_length
  · have hall : a.countP (· ≤ x) = a.length :=
      List.countP_eq_length.2 fun z hz => decide_eq_true (hbefore z hz x (List.mem_cons_self ..))
    rw [List.countP_append, List.countP_cons, hall, if_pos (decide_eq_true (le_refl x))]
    omega

theorem isRanked_of_getElem? (hs : xs.Pairwise (· ≤ ·)) (hx : xs[k]? = some x) :
    IsRanked xs k x := by
  obtain ⟨hk, rfl⟩ := List.getElem?_eq_some_iff.1 hx
  have hsplit : xs.take k ++ xs[k] :: xs.drop (k + 1) = xs := by
    rw [← List.drop_eq_getElem_cons hk, List.take_append_drop]
  have hranked := isRanked_of_append (hsplit.symm ▸ hs)
  rwa [hsplit, List.length_take_of_le hk.le] at hranked

section Counts

variable {q : Rat}

theorem IsRanked.lt_countP (h : IsRanked xs k x) (hq : (x : Rat) ≤ q) :
    k < xs.countP fun z : Int => (z : Rat) ≤ q := by
  refine h.notGreater.trans_le (List.countP_mono_left fun z _ hz => decide_eq_true ?_)
  exact (Int.cast_le.2 (of_decide_eq_true hz)).trans hq

theorem IsRanked.length_le (h : IsRanked xs k x) (hq : q ≤ x) :
    xs.length ≤ k + xs.countP fun z : Int => q ≤ (z : Rat) := by
  have hmore : xs.countP (x ≤ ·) ≤ xs.countP fun z : Int => q ≤ (z : Rat) :=
    List.countP_mono_left fun z _ hz =>
      decide_eq_true (hq.trans (Int.cast_le.2 (of_decide_eq_true hz)))
  have hless := h.less
  have hlength := length_eq_countP_add xs x
  omega

end Counts

structure IsMedian (xs : List Int) (m : Number Rat) : Prop where
  odd : xs.length % 2 = 1 → ∃ x, IsRanked xs (xs.length / 2) x ∧ m = .int x
  even : xs.length % 2 = 0 → ∃ x y, IsRanked xs (xs.length / 2 - 1) x ∧
    IsRanked xs (xs.length / 2) y ∧ m = .real ((x + y) / 2)

namespace IsMedian

variable {m n : Number Rat}

theorem eq (h : IsMedian xs m) (h' : IsMedian xs n) : m = n := by
  rcases Nat.mod_two_eq_zero_or_one xs.length with heven | hodd
  · obtain ⟨x, y, hx, hy, rfl⟩ := h.even heven
    obtain ⟨x', y', hx', hy', rfl⟩ := h'.even heven
    rw [hx.eq hx', hy.eq hy']
  · obtain ⟨x, hx, rfl⟩ := h.odd hodd
    obtain ⟨x', hx', rfl⟩ := h'.odd hodd
    rw [hx.eq hx']

theorem perm (h : IsMedian xs m) (hperm : ys.Perm xs) : IsMedian ys m := by
  constructor
  · intro hodd
    rw [hperm.length_eq] at hodd ⊢
    obtain ⟨x, hx, hm⟩ := h.odd hodd
    exact ⟨x, hx.perm hperm, hm⟩
  · intro heven
    rw [hperm.length_eq] at heven ⊢
    obtain ⟨x, y, hx, hy, hm⟩ := h.even heven
    exact ⟨x, y, hx.perm hperm, hy.perm hperm, hm⟩

theorem exists_between (h : IsMedian xs m) : ∃ x y, IsRanked xs ((xs.length - 1) / 2) x ∧
    IsRanked xs (xs.length / 2) y ∧ (x : Rat) ≤ m.exact ∧ m.exact ≤ y := by
  rcases Nat.mod_two_eq_zero_or_one xs.length with heven | hodd
  · obtain ⟨x, y, hx, hy, rfl⟩ := h.even heven
    have hplace : (xs.length - 1) / 2 = xs.length / 2 - 1 := by omega
    have hle : (x : Rat) ≤ y := Int.cast_le.2 (hx.le_of_le hy (Nat.sub_le ..))
    refine ⟨x, y, hplace ▸ hx, hy, ?_, ?_⟩
    · rw [Number.exact_real]
      linarith
    · rw [Number.exact_real]
      linarith
  · obtain ⟨x, hx, rfl⟩ := h.odd hodd
    have hplace : (xs.length - 1) / 2 = xs.length / 2 := by omega
    exact ⟨x, x, hplace ▸ hx, hx, le_rfl, le_rfl⟩

theorem half_le (h : IsMedian xs m) :
    xs.length ≤ 2 * xs.countP fun x : Int => (x : Rat) ≤ m.exact := by
  obtain ⟨x, -, hx, -, hle, -⟩ := h.exists_between
  have hcount := hx.lt_countP hle
  omega

theorem half_ge (h : IsMedian xs m) :
    xs.length ≤ 2 * xs.countP fun x : Int => m.exact ≤ (x : Rat) := by
  obtain ⟨-, y, -, hy, -, hle⟩ := h.exists_between
  have hcount := hy.length_le hle
  omega

theorem mem_Icc (h : IsMedian xs m) {low high : Int} (hall : ∀ x ∈ xs, low ≤ x ∧ x ≤ high) :
    m.exact ∈ Set.Icc (low : Rat) high := by
  obtain ⟨x, y, hx, hy, hlow, hhigh⟩ := h.exists_between
  exact ⟨(Int.cast_le.2 (hall x hx.mem).1).trans hlow, hhigh.trans (Int.cast_le.2 (hall y hy.mem).2)⟩

end IsMedian

theorem ordered_int {F : Type} [Scalar F] (xs : List Int) :
    ordered id (xs.map Number.int : List (Number F)) = (xs.mergeSort (· ≤ ·)).map Number.int := by
  refine (List.map_mergeSort fun a _ b _ => ?_).symm
  simp only [id_eq, Number.less, ← decide_not, not_lt]

theorem exists_isMedian (hne : xs ≠ []) :
    ∃ m, median (xs.map Number.int) = .ok (some m) ∧ IsMedian xs m := by
  have hperm : (xs.mergeSort (· ≤ ·)).Perm xs := List.mergeSort_perm ..
  have hlength := hperm.length_eq
  have hpos := List.length_pos_iff.2 hne
  have hsorted : (xs.mergeSort (· ≤ ·)).Pairwise (· ≤ ·) := List.pairwise_mergeSort' ..
  have hplace {i : Nat} (hi : i < xs.length) :
      ∃ x, (xs.mergeSort (· ≤ ·))[i]? = some x ∧ IsRanked xs i x := by
    have hx := List.getElem?_eq_getElem (hlength ▸ hi)
    exact ⟨_, hx, (isRanked_of_getElem? hsorted hx).perm hperm.symm⟩
  unfold median medianBy
  dsimp only
  rw [ordered_int, List.length_map, hlength]
  by_cases hodd : xs.length % 2 = 1
  · obtain ⟨x, hx, hranked⟩ := hplace (i := xs.length / 2) (by omega)
    rw [if_pos hodd, List.getElem?_map, hx]
    exact ⟨.int x, rfl, fun _ => ⟨x, hranked, rfl⟩, fun heven => absurd hodd (by omega)⟩
  · obtain ⟨x, hx, hxRanked⟩ := hplace (i := xs.length / 2 - 1) (by omega)
    obtain ⟨y, hy, hyRanked⟩ := hplace (i := xs.length / 2) (by omega)
    have hhalf : (((x + y : Int) : Rat) / ((2 : Int) : Rat)) = (x + y) / 2 := by push_cast; rfl
    rw [if_neg hodd, List.getElem?_map, List.getElem?_map, hx, hy]
    refine ⟨.real ((x + y) / 2), ?_, fun h => absurd h hodd, fun _ => ⟨x, y, hxRanked, hyRanked, rfl⟩⟩
    rw [← hhalf]
    rfl

/-- The median of integers, of which there is at least one: half of them are not greater, and half
are not less. It lies between the least and the greatest of them, does not depend on their order, and
is the one in the middle, or half-way between the two in the middle. The mean lies between the least
and the greatest of them, too. -/
theorem median_of_integers (hne : xs ≠ []) :
    ∃ (m : Number Rat) (q : Rat) (low high : Int),
      median (xs.map Number.int) = .ok (some m) ∧ mean (xs.map Number.int) = .ok (some q) ∧
      xs.min? = some low ∧ xs.max? = some high ∧
      (xs.length ≤ 2 * xs.countP fun x : Int => (x : Rat) ≤ m.exact) ∧
      (xs.length ≤ 2 * xs.countP fun x : Int => m.exact ≤ (x : Rat)) ∧
      m.exact ∈ Set.Icc (low : Rat) high ∧ q ∈ Set.Icc (low : Rat) high ∧
      (∀ ys : List Int, ys.Perm xs → median (ys.map Number.int) = .ok (some m)) ∧
      (xs.length % 2 = 1 → ∃ x ∈ xs, IsRanked xs (xs.length / 2) x ∧ m = .int x) ∧
      (xs.length % 2 = 0 → ∃ x y, IsRanked xs (xs.length / 2 - 1) x ∧
        IsRanked xs (xs.length / 2) y ∧ m = .real ((x + y) / 2)) := by
  obtain ⟨m, hm, hmedian⟩ := exists_isMedian hne
  obtain ⟨low, hlow⟩ := Option.ne_none_iff_exists'.1 (List.min?_eq_none_iff.not.2 hne)
  obtain ⟨high, hhigh⟩ := Option.ne_none_iff_exists'.1 (List.max?_eq_none_iff.not.2 hne)
  have hleast := (List.min?_eq_some_iff.1 hlow).2
  have hgreatest := (List.max?_eq_some_iff.1 hhigh).2
  refine ⟨m, _, low, high, hm, mean_of_ne_nil (by simpa using hne), hlow, hhigh, hmedian.half_le,
    hmedian.half_ge, hmedian.mem_Icc fun x hx => ⟨hleast x hx, hgreatest x hx⟩, ?mean, ?perm, ?odd,
    hmedian.even⟩
  case mean =>
    refine average_mem_Icc (by simpa using hne) fun q hq => ?_
    simp only [List.map_map, List.mem_map, Function.comp_apply, Number.exact_int] at hq
    obtain ⟨x, hx, rfl⟩ := hq
    exact ⟨Int.cast_le.2 (hleast x hx), Int.cast_le.2 (hgreatest x hx)⟩
  case perm =>
    intro ys hperm
    have hys : ys ≠ [] := fun hnil => hne (List.perm_nil.1 (hnil ▸ hperm.symm))
    obtain ⟨n, hn, hother⟩ := exists_isMedian hys
    rw [hn, hother.eq (hmedian.perm hperm)]
  case odd =>
    intro hodd
    obtain ⟨x, hx, rfl⟩ := hmedian.odd hodd
    exact ⟨x, hx.mem, hx, rfl⟩

theorem median_of_integers_four : ∃ m : Number Rat,
    median ([4, 1, 3, 2].map Number.int) = .ok (some m) ∧ m = .real (5 / 2) ∧
    median ([1, 2, 3, 4].map Number.int) = .ok (some m) := by
  have hne : ([4, 1, 3, 2] : List Int) ≠ [] := by decide
  obtain ⟨m, -, -, -, hm, -, -, -, -, -, -, -, hperm, -, heven⟩ := median_of_integers hne
  obtain ⟨x, y, hx, hy, hhalf⟩ := heven (by decide)
  have hlower : IsRanked [4, 1, 3, 2] 1 2 := ⟨by decide, by decide⟩
  have hupper : IsRanked [4, 1, 3, 2] 2 3 := ⟨by decide, by decide⟩
  refine ⟨m, hm, ?_, hperm _ (by decide)⟩
  rw [hhalf, hx.eq hlower, hy.eq hupper]
  norm_num

end PullGauge
