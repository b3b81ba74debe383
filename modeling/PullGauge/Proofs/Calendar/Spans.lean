import Mathlib
import PullGauge.Calendar.Moment

/-!
# How far moments are apart

The years of the calendar end, and a clock is less than a day away from universal time. So there is
a bound on the time between any two moments.
-/

namespace PullGauge

open Calendar

section Days

theorem monthLength_le (year month : Nat) : monthLength year month ≤ 31 := by
  unfold monthLength
  split_ifs <;> decide

theorem foldl_monthLength_le (year : Nat) (months : List Nat) (days : Nat) :
    months.foldl (fun days m => days + monthLength year m) days ≤ days + 31 * months.length := by
  induction months generalizing days with
  | nil => exact le_rfl
  | cons m months ih =>
    have hmonth := monthLength_le year m
    have hrest := ih (days + monthLength year m)
    rw [List.foldl_cons, List.length_cons]
    omega

theorem daysBeforeMonth_le (year month : Nat) :
    daysBeforeMonth year month ≤ 31 * (month - 1) := by
  have hmonths := foldl_monthLength_le year (List.range' 1 (month - 1)) 0
  rw [List.length_range', Nat.zero_add] at hmonths
  exact hmonths

theorem Date.ordinal_lt (d : Date) : d.ordinal < 4000000 := by
  obtain ⟨⟨-, hyear⟩, ⟨-, hmonth⟩, -, hday⟩ := d.isDate
  have hlength := monthLength_le d.year d.month
  have hbefore := daysBeforeMonth_le d.year d.month
  unfold ordinal daysBeforeYear
  unfold lastYear at hyear
  dsimp only
  omega

end Days

namespace Moment

/-- A moment on a clock that is less than a day away from universal time. -/
def IsZoned (m : Moment) : Prop := ∃ offset ∈ m.offset, offset.natAbs < dayMicros

instance (m : Moment) : Decidable m.IsZoned :=
  inferInstanceAs (Decidable (∃ offset ∈ m.offset, offset.natAbs < dayMicros))

variable {a b : Moment}

theorem IsZoned.natAbs_sub_le (ha : a.IsZoned) (hb : b.IsZoned) :
    (b.instant - a.instant).natAbs ≤ secondMicros * 2 ^ 39 := by
  have hday : dayMicros = 86400000000 := by decide
  have hsecond : secondMicros = 1000000 := by decide
  have hreading (m : Moment) : 0 ≤ m.reading ∧ m.reading < 4000000 * dayMicros := by
    have htime := m.inDay
    have hordinal := m.date.ordinal_lt
    rw [reading, hday]
    omega
  obtain ⟨offset, hoffset, hclock⟩ := ha
  obtain ⟨offset', hoffset', hclock'⟩ := hb
  have hbefore := hreading a
  have hafter := hreading b
  rw [instant, instant, Option.mem_def.1 hoffset, Option.mem_def.1 hoffset', Option.getD_some,
    Option.getD_some]
  omega

end Moment

end PullGauge
