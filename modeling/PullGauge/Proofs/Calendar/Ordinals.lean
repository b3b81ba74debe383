import Mathlib
import PullGauge.Proofs.Calendar.Spans

/-!
# Numbered days

The number of a date grows with its year, its month and its day, since the days before a month or
a year are those of the month or the year before it, and no date is numbered beyond its own year.
Every number in range is reached: the guess at its year is off by one at most, and the months of the
year are then tried in turn. So a date and its number determine each other, whatever leap years
there are between them.
-/

namespace PullGauge

namespace Calendar

def yearLength (year : Nat) : Nat := if isLeap year then 366 else 365

theorem isLeap_iff {year : Nat} :
    isLeap year = true ↔ 4 ∣ year ∧ (¬ 100 ∣ year ∨ 400 ∣ year) := by
  simp [isLeap, Nat.dvd_iff_mod_eq_zero]

theorem daysBeforeYear_add (y : Nat) :
    daysBeforeYear (y + 1) + y / 100 = y * 365 + y / 4 + y / 400 := by
  simp only [daysBeforeYear, Nat.add_sub_cancel]
  omega

theorem daysBeforeYear_near (y : Nat) : 400 * daysBeforeYear (y + 1) ≤ 146097 * y + 396 ∧
    146097 * y ≤ 400 * daysBeforeYear (y + 1) + 699 := by
  have hdays := daysBeforeYear_add y
  omega

theorem daysBeforeYear_succ {year : Nat} (h : 1 ≤ year) :
    daysBeforeYear (year + 1) = daysBeforeYear year + yearLength year := by
  obtain ⟨y, rfl⟩ : ∃ y, year = y + 1 := ⟨year - 1, by omega⟩
  have hthis := daysBeforeYear_add y
  have hnext := daysBeforeYear_add (y + 1)
  have hcentury : 100 ∣ y + 1 → 4 ∣ y + 1 := (by decide : 4 ∣ 100).trans
  have hcycle : 400 ∣ y + 1 → 100 ∣ y + 1 := (by decide : 100 ∣ 400).trans
  rw [Nat.succ_div, Nat.succ_div, Nat.succ_div] at hnext
  rw [yearLength, if_congr isLeap_iff rfl rfl]
  by_cases hfour : 4 ∣ y + 1
  · by_cases hhundred : 100 ∣ y + 1
    · by_cases hfull : 400 ∣ y + 1
      · simp only [hfour, hhundred, hfull, not_true, or_true, and_self, if_true] at hnext ⊢
        omega
      · simp only [hfour, hhundred, hfull, not_true, or_self, and_false, if_true, if_false]
          at hnext ⊢
        omega
    · have hfull := mt hcycle hhundred
      simp only [hfour, hhundred, hfull, not_false_iff, true_or, and_self, if_true, if_false]
        at hnext ⊢
      omega
  · have hhundred := mt hcentury hfour
    have hfull := mt hcycle hhundred
    simp only [hfour, hhundred, hfull, false_and, if_false] at hnext ⊢
    omega

theorem daysBeforeYear_mono {year later : Nat} (h : 1 ≤ year) (hle : year ≤ later) :
    daysBeforeYear year ≤ daysBeforeYear later := by
  refine Nat.rel_of_forall_rel_succ_of_le_of_le (· ≤ ·) (fun y hy => ?_) h hle
  rw [daysBeforeYear_succ hy]
  exact Nat.le_add_right ..

theorem daysBeforeMonth_succ (year : Nat) {month : Nat} (h : 1 ≤ month) :
    daysBeforeMonth year (month + 1) = daysBeforeMonth year month + monthLength year month := by
  obtain ⟨m, rfl⟩ : ∃ m, month = m + 1 := ⟨month - 1, by omega⟩
  simp only [daysBeforeMonth, Nat.add_sub_cancel]
  rw [List.range'_1_concat, List.foldl_append, Nat.add_comm 1 m]
  rfl

theorem daysBeforeMonth_mono (year : Nat) {month later : Nat} (h : 1 ≤ month)
    (hle : month ≤ later) : daysBeforeMonth year month ≤ daysBeforeMonth year later := by
  refine Nat.rel_of_forall_rel_succ_of_le_of_le (· ≤ ·) (fun m hm => ?_) h hle
  rw [daysBeforeMonth_succ year hm]
  exact Nat.le_add_right ..

theorem daysBeforeMonth_thirteen (year : Nat) : daysBeforeMonth year 13 = yearLength year := by
  cases hleap : isLeap year
  · simp only [daysBeforeMonth, monthLength, yearLength, hleap]
    rfl
  · simp only [daysBeforeMonth, monthLength, yearLength, hleap]
    rfl

end Calendar

open Calendar

namespace Date

def Before (d e : Date) : Prop :=
  d.year < e.year ∨ d.year = e.year ∧ (d.month < e.month ∨ d.month = e.month ∧ d.day < e.day)

variable {d e : Date}

theorem before_trichotomy (d e : Date) : d.Before e ∨ d = e ∨ e.Before d := by
  obtain ⟨year, month, day, -⟩ := d
  obtain ⟨year', month', day', -⟩ := e
  simp only [Before, mk.injEq]
  omega

theorem day_le (d : Date) :
    daysBeforeMonth d.year d.month + d.day ≤ daysBeforeMonth d.year (d.month + 1) := by
  obtain ⟨-, ⟨hmonth, -⟩, -, hday⟩ := d.isDate
  rw [daysBeforeMonth_succ d.year hmonth]
  omega

theorem ordinal_le (d : Date) : d.ordinal ≤ daysBeforeYear (d.year + 1) := by
  obtain ⟨⟨hyear, -⟩, ⟨-, hmonth⟩, -⟩ := d.isDate
  have hmonths : daysBeforeMonth d.year (d.month + 1) ≤ daysBeforeMonth d.year 13 :=
    daysBeforeMonth_mono d.year (by omega) (by omega)
  have hday := d.day_le
  rw [ordinal, daysBeforeYear_succ hyear, ← daysBeforeMonth_thirteen]
  omega

theorem Before.ordinal_lt (h : d.Before e) : d.ordinal < e.ordinal := by
  obtain ⟨-, -, hfirst, -⟩ := e.isDate
  rcases h with hyear | ⟨hyear, hmonth | ⟨hmonth, hday⟩⟩
  · have hend := d.ordinal_le
    have hstart : daysBeforeYear (d.year + 1) ≤ daysBeforeYear e.year :=
      daysBeforeYear_mono (by omega) hyear
    simp only [ordinal] at hend ⊢
    omega
  · have hend := d.day_le
    have hstart : daysBeforeMonth d.year (d.month + 1) ≤ daysBeforeMonth d.year e.month :=
      daysBeforeMonth_mono d.year (by omega) hmonth
    simp only [ordinal, ← hyear]
    omega
  · simp only [ordinal, ← hyear, ← hmonth]
    omega

theorem ordinal_injective : Function.Injective ordinal := by
  intro d e h
  rcases before_trichotomy d e with hlt | rfl | hlt
  · exact absurd hlt.ordinal_lt (by omega)
  · rfl
  · exact absurd hlt.ordinal_lt (by omega)

theorem ordinal_mem_range (d : Date) : 1 ≤ d.ordinal ∧ d.ordinal ≤ lastOrdinal := by
  obtain ⟨⟨-, hyear⟩, -, hday, -⟩ := d.isDate
  have hend : daysBeforeYear (d.year + 1) ≤ lastOrdinal :=
    daysBeforeYear_mono (by omega) (Nat.succ_le_succ hyear)
  refine ⟨?_, d.ordinal_le.trans hend⟩
  rw [ordinal]
  omega

theorem yearOf_holds {n : Nat} (h : 1 ≤ n) :
    daysBeforeYear (yearOf n) < n ∧ n ≤ daysBeforeYear (yearOf n + 1) := by
  unfold yearOf
  dsimp only
  generalize hy : (n - 1) * 400 / 146097 = y
  have hnext := daysBeforeYear_near (y + 1 + 1)
  split_ifs with hearly hlate
  · cases y with
    | zero => exact absurd (h.trans hearly) (by decide)
    | succ z =>
      have hprevious := daysBeforeYear_near z
      rw [Nat.add_sub_cancel]
      exact ⟨by omega, hearly⟩
  · exact ⟨hlate, by omega⟩
  · omega

theorem yearOf_mem_range {n : Nat} (h : 1 ≤ n) (hlast : n ≤ lastOrdinal) :
    firstYear ≤ yearOf n ∧ yearOf n ≤ lastYear := by
  obtain ⟨hstart, hend⟩ := yearOf_holds h
  constructor
  · refine Nat.pos_of_ne_zero fun hzero => ?_
    rw [hzero] at hend
    exact absurd (h.trans hend) (by decide)
  · by_contra hlate
    have hafter : lastOrdinal ≤ daysBeforeYear (yearOf n) :=
      daysBeforeYear_mono (by decide) (Nat.lt_of_not_le hlate)
    omega

theorem exists_monthOf {year first count rest : Nat} (hfirst : 1 ≤ first) (hrest : 1 ≤ rest)
    (hle : daysBeforeMonth year first + rest ≤ daysBeforeMonth year (first + count)) :
    ∃ month day, monthOf year (List.range' first count) rest = some (month, day) ∧
      (first ≤ month ∧ month < first + count) ∧ (1 ≤ day ∧ day ≤ monthLength year month) ∧
      daysBeforeMonth year month + day = daysBeforeMonth year first + rest := by
  induction count generalizing first rest with
  | zero =>
    rw [Nat.add_zero] at hle
    omega
  | succ count ih =>
    have hnext := daysBeforeMonth_succ year hfirst
    rw [List.range'_succ, monthOf]
    split_ifs with hin
    · exact ⟨first, rest, rfl, by omega, ⟨hrest, hin⟩, rfl⟩
    · have hcount : first + 1 + count = first + (count + 1) := by omega
      obtain ⟨month, day, hmonth, hbounds, hday, hsum⟩ :=
        @ih (first + 1) (rest - monthLength year first) (by omega) (by omega)
          (by rw [hcount]; omega)
      exact ⟨month, day, hmonth, by omega, hday, by omega⟩

theorem exists_ofOrdinal? {n : Int} (h : 1 ≤ n) (hlast : n ≤ lastOrdinal) :
    ∃ d, ofOrdinal? n = some d ∧ (d.ordinal : Int) = n := by
  obtain ⟨k, rfl⟩ := Int.eq_ofNat_of_zero_le (by omega : 0 ≤ n)
  have hk : 1 ≤ k := Int.ofNat_le.1 h
  obtain ⟨hstart, hend⟩ := yearOf_holds hk
  have hyear := yearOf_mem_range hk (Int.ofNat_le.1 hlast)
  have hmonths := daysBeforeMonth_thirteen (yearOf k)
  rw [daysBeforeYear_succ hyear.1] at hend
  have hone : daysBeforeMonth (yearOf k) 1 = 0 := rfl
  obtain ⟨month, day, hmonth, hbounds, hday, hsum⟩ :=
    @exists_monthOf (yearOf k) 1 12 (k - daysBeforeYear (yearOf k)) le_rfl (by omega)
      (by rw [hmonths]; omega)
  have hdate : IsDate (yearOf k) month day := ⟨hyear, by omega, hday⟩
  refine ⟨⟨yearOf k, month, day, hdate⟩, ?_, ?_⟩
  · simp [ofOrdinal?, h, hlast, hmonth, make?, hdate]
  · simp only [ordinal]
    omega

theorem ofOrdinal?_eq_some_iff {n : Int} : ofOrdinal? n = some d ↔ (d.ordinal : Int) = n := by
  constructor
  · intro h
    by_cases hn : 1 ≤ n ∧ n ≤ lastOrdinal
    · obtain ⟨e, he, hordinal⟩ := exists_ofOrdinal? hn.1 hn.2
      obtain rfl := Option.some.inj (h.symm.trans he)
      exact hordinal
    · simp [ofOrdinal?, hn] at h
  · rintro rfl
    obtain ⟨hfirst, hlast⟩ := d.ordinal_mem_range
    obtain ⟨e, he, hordinal⟩ := exists_ofOrdinal? (Int.ofNat_le.2 hfirst) (Int.ofNat_le.2 hlast)
    rw [he, ordinal_injective (Int.ofNat.inj hordinal)]

end Date

end PullGauge
