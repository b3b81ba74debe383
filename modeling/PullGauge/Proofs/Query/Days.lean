import Mathlib
import PullGauge.Proofs.Calendar.Ordered
import PullGauge.Proofs.Query.RoundTrip

/-!
# Filters between moments

A moment is written as its day in universal time, and nothing but a day is ever read. So a filter
between moments writes the query of the filter between their days, and that filter is what the query
is read as.
-/

namespace PullGauge

open Calendar

theorem exists_rel {α β : Type} {r : α → β → Prop} {o : Option α} (h : ∀ x ∈ o, ∃ y, r x y) :
    ∃ p, Option.Rel r o p := by
  cases o with
  | none => exact ⟨none, .none⟩
  | some x =>
    obtain ⟨y, hy⟩ := h x rfl
    exact ⟨some y, .some hy⟩

namespace Bound

variable {x y : Bound}

inductive FallsOn : Bound → Bound → Prop where
  | day (d : Date) : FallsOn (.day d) (.day d)
  | moment {m : Moment} (d : Date) (h : d.Holds m.instant) : FallsOn (.moment m) (.day d)

def InCalendar : Bound → Prop
  | .day _ => True
  | .moment m => m.InCalendar

theorem InCalendar.exists_fallsOn (h : x.InCalendar) : ∃ y, x.FallsOn y := by
  cases x with
  | day d => exact ⟨.day d, .day d⟩
  | moment m =>
    obtain ⟨d, hd⟩ := Moment.InCalendar.exists_holds h
    exact ⟨.day d, .moment d hd⟩

theorem write_moment {m : Moment} {d : Date} (h : d.Holds m.instant) :
    write (.moment m) = .ok d.write := by
  obtain ⟨u, hu, rfl⟩ := Moment.exists_toUniversal? h
  rw [write, hu]

theorem FallsOn.write_eq (h : x.FallsOn y) : x.write = y.write := by
  cases h with
  | day d => rfl
  | moment d hd => exact write_moment hd

theorem exists_map_day {a b : Option Bound} (h : Option.Rel FallsOn a b) :
    ∃ d : Option Date, b = d.map .day := by
  cases h with
  | none => exact ⟨none, rfl⟩
  | some h =>
    cases h with
    | day d => exact ⟨some d, rfl⟩
    | moment d hd => exact ⟨some d, rfl⟩

end Bound

namespace Bounds

variable {b c : Bounds} {B C : Option Bounds}

structure FallsOn (b c : Bounds) : Prop where
  start : Option.Rel Bound.FallsOn b.start c.start
  stop : Option.Rel Bound.FallsOn b.stop c.stop

structure InCalendar (b : Bounds) : Prop where
  start : ∀ x ∈ b.start, x.InCalendar
  stop : ∀ x ∈ b.stop, x.InCalendar

theorem InCalendar.exists_fallsOn (h : b.InCalendar) : ∃ c, b.FallsOn c := by
  obtain ⟨start, hstart⟩ := exists_rel fun x hx => (h.start x hx).exists_fallsOn
  obtain ⟨stop, hstop⟩ := exists_rel fun x hx => (h.stop x hx).exists_fallsOn
  exact ⟨⟨start, stop⟩, hstart, hstop⟩

theorem FallsOn.isDated (h : b.FallsOn c) : c.IsDated := by
  obtain ⟨first, hfirst⟩ := Bound.exists_map_day h.start
  obtain ⟨last, hlast⟩ := Bound.exists_map_day h.stop
  refine ⟨first, last, ?_⟩
  rw [← hfirst, ← hlast]

theorem FallsOn.eq_empty (h : b.FallsOn {}) : b = {} := by
  obtain ⟨start, stop⟩ := b
  obtain ⟨hstart, hstop⟩ := h
  cases hstart
  cases hstop
  rfl

theorem write_of_fallsOn (key : Text) (h : Option.Rel FallsOn B C) : write key B = write key C := by
  cases h with
  | none => rfl
  | @some b c h =>
    obtain ⟨start, stop⟩ := b
    obtain ⟨start', stop'⟩ := c
    obtain ⟨hstart, hstop⟩ := h
    cases hstart with
    | none =>
      cases hstop with
      | none => rfl
      | some ht => simp only [write, ht.write_eq]
    | some hs =>
      cases hstop with
      | none => simp only [write, hs.write_eq]
      | some ht => simp only [write, hs.write_eq, ht.write_eq]

theorem isDated_of_fallsOn (h : Option.Rel FallsOn B C) : ∀ c ∈ C, c.IsDated := by
  rintro c rfl
  cases h with
  | some h => exact h.isDated

theorem ne_empty_of_fallsOn (h : Option.Rel FallsOn B C) (hB : B ≠ some {}) : C ≠ some {} := by
  rintro rfl
  cases h with
  | some h => exact hB (by rw [h.eq_empty])

end Bounds

namespace Filter

variable {f g : Filter}

def FallsOn (f g : Filter) : Prop :=
  ∃ created updated, Option.Rel Bounds.FallsOn f.created created ∧
    Option.Rel Bounds.FallsOn f.updated updated ∧
    g = { f with created := created, updated := updated }

structure InCalendar (f : Filter) : Prop where
  created : ∀ b ∈ f.created, b.InCalendar
  updated : ∀ b ∈ f.updated, b.InCalendar

theorem InCalendar.exists_fallsOn (h : f.InCalendar) : ∃ g, f.FallsOn g := by
  obtain ⟨created, hcreated⟩ := exists_rel fun b hb => (h.created b hb).exists_fallsOn
  obtain ⟨updated, hupdated⟩ := exists_rel fun b hb => (h.updated b hb).exists_fallsOn
  exact ⟨_, created, updated, hcreated, hupdated, rfl⟩

theorem FallsOn.write_eq (h : f.FallsOn g) : f.write = g.write := by
  obtain ⟨created, updated, hcreated, hupdated, rfl⟩ := h
  simp only [write, Bounds.write_of_fallsOn _ hcreated, Bounds.write_of_fallsOn _ hupdated]
  rfl

theorem FallsOn.isDated (h : f.FallsOn g) (hstate : ∀ w, f.state ≠ .other w) : g.IsDated := by
  obtain ⟨created, updated, hcreated, hupdated, rfl⟩ := h
  exact ⟨hstate, Bounds.isDated_of_fallsOn hcreated, Bounds.isDated_of_fallsOn hupdated⟩

theorem FallsOn.survives (h : f.FallsOn g) (hs : f.Survives) : g.Survives := by
  obtain ⟨created, updated, hcreated, hupdated, rfl⟩ := h
  exact { hs with
    created := Bounds.ne_empty_of_fallsOn hcreated hs.created
    updated := Bounds.ne_empty_of_fallsOn hupdated hs.updated }

theorem exists_write_of_fallsOn (h : f.FallsOn g) (hstate : ∀ w, f.state ≠ .other w)
    (hs : f.Survives) : ∃ t, f.write = .ok t ∧ read t = g := by
  obtain ⟨t, hw, hr⟩ := exists_write_of_survives (h.isDated hstate) (h.survives hs)
  exact ⟨t, h.write_eq.trans hw, hr⟩

end Filter

/-- Moments are written as their days in universal time and in their order, and a filter between
moments is read back as the filter between their days. -/
theorem Moment.written_in_order_and_read_back :
    (∀ m n : Moment, m.InCalendar → n.InCalendar →
      ∃ d e : Date, (d.Holds m.instant ∧ Bound.write (.moment m) = .ok d.write) ∧
        (e.Holds n.instant ∧ Bound.write (.moment n) = .ok e.write) ∧
        (m.instant = n.instant → d.write = e.write) ∧
        (m.instant ≤ n.instant → d.write ≤ e.write)) ∧
      ∀ f : Filter, f.InCalendar → (∀ w, f.state ≠ .other w) → f.Survives →
        (∃ g, f.FallsOn g) ∧ ∀ g, f.FallsOn g → ∃ t, f.write = .ok t ∧ Filter.read t = g := by
  constructor
  · intro m n hm hn
    obtain ⟨d, hd⟩ := hm.exists_holds
    obtain ⟨e, he⟩ := hn.exists_holds
    refine ⟨d, e, ⟨hd, Bound.write_moment hd⟩, ⟨he, Bound.write_moment he⟩, fun h => ?_,
      fun h => ?_⟩
    · rw [h] at hd
      rw [hd.eq he]
    · exact Date.write_le (hd.ordinal_le he h)
  · intro f hf hstate hs
    exact ⟨hf.exists_fallsOn, fun g hg => Filter.exists_write_of_fallsOn hg hstate hs⟩

def Moment.pastMidnight : Moment :=
  ⟨⟨2032, 3, 1, by decide⟩, 1800 * secondMicros, some (3600 * secondMicros), by decide⟩

def Moment.halfPastSix : Moment :=
  ⟨⟨2032, 2, 29, by decide⟩, 66600 * secondMicros, some (-18000 * secondMicros), by decide⟩

/-- Up to an instant in the leap day of universal time, told by a clock that has left it. -/
def Filter.overnight : Filter where
  labels := ["good first"]
  created := some ⟨some (.moment Moment.halfPastSix), some (.moment Moment.pastMidnight)⟩

theorem Filter.overnight_read_write :
    Moment.pastMidnight.instant = Moment.halfPastSix.instant ∧
      Bound.write (.moment Moment.pastMidnight) = Bound.write (.moment Moment.halfPastSix) ∧
      ∃ t, Filter.overnight.write = .ok t ∧
        Filter.read t = { Filter.overnight with
          created := some
            ⟨some (.day ⟨2032, 2, 29, by decide⟩), some (.day ⟨2032, 2, 29, by decide⟩)⟩ } := by
  have hm : Moment.pastMidnight.InCalendar := by decide
  have hn : Moment.halfPastSix.InCalendar := by decide
  have heq : Moment.pastMidnight.instant = Moment.halfPastSix.instant := by decide
  obtain ⟨hwritten, hread⟩ := Moment.written_in_order_and_read_back
  refine ⟨heq, ?_, ?_⟩
  · obtain ⟨d, e, ⟨-, hd⟩, ⟨-, he⟩, hsame, -⟩ := hwritten _ _ hm hn
    rw [hd, he, hsame heq]
  · have hin : Filter.overnight.InCalendar := by
      refine ⟨?_, nofun⟩
      rintro b ⟨⟩
      exact ⟨by rintro x ⟨⟩; exact hn, by rintro x ⟨⟩; exact hm⟩
    have hs : Filter.overnight.Survives := by
      constructor <;> decide
    refine (hread Filter.overnight hin (fun w => nofun) hs).2 _
      ⟨_, none, .some ⟨?_, ?_⟩, .none, rfl⟩
    · exact .some (.moment _ (by decide))
    · exact .some (.moment _ (by decide))

end PullGauge
