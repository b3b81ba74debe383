import Mathlib
import PullGauge.Proofs.Calendar.Ordinals
import PullGauge.Proofs.Calendar.Written

/-!
# Days in order

Numbers padded to one width are ordered as texts as they are as numbers, and the fields of a date
are written from the largest to the smallest, so later days are later texts. A moment lies in one
day of universal time, whatever the offset of its clock, and that is the day that it is moved to.
-/

namespace PullGauge

namespace Text

theorem append_lt_append {a b : Text} (hlength : a.length = b.length) (h : a < b) (c d : Text) :
    a ++ c < b ++ d := by
  induction a generalizing b with
  | nil =>
    obtain rfl : b = [] := List.eq_nil_of_length_eq_zero hlength.symm
    exact absurd h (List.lt_irrefl [])
  | cons x a ih =>
    cases b with
    | nil => cases hlength
    | cons y b =>
      rw [List.cons_append, List.cons_append, List.cons_lt_cons_iff]
      rcases List.cons_lt_cons_iff.1 h with hhead | ⟨rfl, hrest⟩
      · exact .inl hhead
      · exact .inr ⟨rfl, ih (Nat.succ.inj hlength) hrest⟩

theorem padZeros_ofNat_lt {width m n : Nat} (hw : 0 < width) (h : m < n) (hn : n < 10 ^ width) :
    padZeros width (ofNat m) < padZeros width (ofNat n) := by
  have hdigit : ∀ j < 10, ∀ i < j, [Nat.digitChar i] < [Nat.digitChar j] := by decide
  induction width, hw using Nat.le_induction generalizing m n with
  | base =>
    rw [padZeros_ofNat_of_lt (by omega), padZeros_ofNat_of_lt (by omega)]
    exact hdigit n hn m h
  | succ width hw ih =>
    have hn' : n / 10 < 10 ^ width := by
      rw [Nat.div_lt_iff_lt_mul (by decide), ← Nat.pow_succ]
      exact hn
    rw [padZeros_ofNat_succ hw, padZeros_ofNat_succ hw]
    rcases Nat.lt_or_ge (m / 10) (n / 10) with hlt | hge
    · refine append_lt_append ?_ (ih hlt hn') _ _
      rw [length_padZeros_ofNat hw (hlt.trans hn'), length_padZeros_ofNat hw hn']
    · have heq : m / 10 = n / 10 := by omega
      rw [heq]
      exact List.append_left_lt (hdigit _ (Nat.mod_lt n (by decide)) _ (by omega))

end Text

open Calendar

namespace Date

variable {d e : Date} {s t : Int}

theorem Before.write_lt (h : d.Before e) : d.write < e.write := by
  obtain ⟨hy, hm, hd⟩ := d.fields_lt
  obtain ⟨hy', hm', hd'⟩ := e.fields_lt
  have hlength {w m n : Nat} (hw : 0 < w) (hm : m < 10 ^ w) (hn : n < 10 ^ w) :
      (Text.padZeros w (Text.ofNat m)).length = (Text.padZeros w (Text.ofNat n)).length := by
    rw [Text.length_padZeros_ofNat hw hm, Text.length_padZeros_ofNat hw hn]
  simp only [write, List.append_assoc, List.cons_append]
  rcases h with hyear | ⟨hyear, hmonth | ⟨hmonth, hday⟩⟩
  · exact Text.append_lt_append (hlength (by decide) hy hy')
      (Text.padZeros_ofNat_lt (by decide) hyear hy') _ _
  · rw [hyear]
    refine List.append_left_lt (List.cons_lt_cons_self.2 ?_)
    exact Text.append_lt_append (hlength (by decide) hm hm')
      (Text.padZeros_ofNat_lt (by decide) hmonth hm') _ _
  · rw [hyear, hmonth]
    refine List.append_left_lt (List.cons_lt_cons_self.2 ?_)
    refine List.append_left_lt (List.cons_lt_cons_self.2 ?_)
    exact Text.padZeros_ofNat_lt (by decide) hday hd'

theorem write_le (h : d.ordinal ≤ e.ordinal) : d.write ≤ e.write := by
  rcases before_trichotomy d e with hlt | rfl | hlt
  · exact le_of_lt hlt.write_lt
  · exact le_rfl
  · exact absurd hlt.ordinal_lt (by omega)

def Holds (d : Date) (t : Int) : Prop :=
  d.ordinal * dayMicros ≤ t ∧ t < (d.ordinal + 1) * dayMicros

instance (d : Date) (t : Int) : Decidable (d.Holds t) := inferInstanceAs (Decidable (_ ∧ _))

theorem Holds.ordinal_eq (h : d.Holds t) : (d.ordinal : Int) = t / dayMicros := by
  have hday : dayMicros = 86400000000 := by decide
  rw [Holds, hday] at h
  rw [hday]
  omega

theorem Holds.eq (hd : d.Holds t) (he : e.Holds t) : d = e :=
  ordinal_injective (Int.ofNat.inj (hd.ordinal_eq.trans he.ordinal_eq.symm))

theorem Holds.ordinal_le (hd : d.Holds s) (he : e.Holds t) (h : s ≤ t) :
    d.ordinal ≤ e.ordinal := by
  rw [← Int.ofNat_le, hd.ordinal_eq, he.ordinal_eq]
  exact Int.ediv_le_ediv (by decide) h

end Date

namespace Moment

variable {m : Moment} {d : Date}

/-- The moment lies in the years of the calendar when it is moved to universal time. -/
def InCalendar (m : Moment) : Prop :=
  dayMicros ≤ m.instant ∧ m.instant < (lastOrdinal + 1) * dayMicros

instance (m : Moment) : Decidable m.InCalendar := inferInstanceAs (Decidable (_ ∧ _))

theorem InCalendar.exists_holds (h : m.InCalendar) : ∃ d : Date, d.Holds m.instant := by
  have hday : dayMicros = 86400000000 := by decide
  obtain ⟨hfirst, hlast⟩ := h
  rw [hday] at hfirst hlast
  obtain ⟨d, -, hd⟩ := @Date.exists_ofOrdinal? (m.instant / dayMicros) (by rw [hday]; omega)
    (by rw [hday]; omega)
  refine ⟨d, ?_⟩
  rw [Date.Holds, hd, hday]
  omega

theorem holds_date (m : Moment) : m.date.Holds m.reading := by
  have htime := m.inDay
  rw [Date.Holds, reading, Int.add_mul, Int.one_mul]
  omega

theorem exists_toUniversal? (h : d.Holds m.instant) :
    ∃ u, m.toUniversal? = some u ∧ u.date = d := by
  rw [toUniversal?]
  cases hoffset : m.offset with
  | none =>
    rw [instant, hoffset, Option.getD_none, Int.sub_zero] at h
    exact ⟨m, rfl, m.holds_date.eq h⟩
  | some offset =>
    rw [instant, hoffset, Option.getD_some] at h
    have htime : ((m.reading - offset) % dayMicros).toNat < dayMicros := by
      have hpos : (0 : Int) < dayMicros := by decide
      exact (Int.toNat_lt (Int.emod_nonneg _ hpos.ne')).2 (Int.emod_lt_of_pos _ hpos)
    simp only [ofReading?, Date.ofOrdinal?_eq_some_iff.2 h.ordinal_eq, Option.bind_some, make?,
      dif_pos htime]
    exact ⟨_, rfl, rfl⟩

end Moment

end PullGauge
