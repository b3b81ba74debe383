import Mathlib
import PullGauge.Record.Reviews

/-!
# The earliest of some moments

A pass that keeps the earlier of two moments, whatever their offsets are, comes to one of the
moments that it saw, and none of them was before it. Only the instant of that moment is certain when
the pass goes through them in another order.
-/

namespace PullGauge

namespace Moment

def HasOffset (m : Moment) : Prop := m.offset.isSome = true

instance (m : Moment) : Decidable m.HasOffset := inferInstanceAs (Decidable (_ = true))

variable {a b : Moment}

theorem gap?_eq (ha : a.HasOffset) (hb : b.HasOffset) : a.gap? b = some (b.instant - a.instant) := by
  unfold gap? comparable
  rw [ha, hb, if_pos (by decide)]

theorem before_eq (ha : a.HasOffset) (hb : b.HasOffset) :
    a.before b = .ok (decide (a.instant < b.instant)) := by
  rw [before, gap?_eq ha hb]
  simp only [Int.sub_pos]

end Moment

/-- One of the moments that none of them is before; nothing if there are none. -/
def IsEarliest (moments : List Moment) : Option Moment → Prop
  | none => moments = []
  | some m => m ∈ moments ∧ ∀ x ∈ moments, m.instant ≤ x.instant

variable {seen : List Moment} {first : Option Moment}

namespace IsEarliest

theorem eq_none_iff (h : IsEarliest seen first) : first = none ↔ seen = [] := by
  cases first with
  | none => exact ⟨fun _ => h, fun _ => rfl⟩
  | some m => exact ⟨nofun, fun hnone => absurd (hnone ▸ h.1) List.not_mem_nil⟩

theorem instant_eq {others : List Moment} {second : Option Moment} (h : IsEarliest seen first)
    (h' : IsEarliest others second) (hsame : ∀ m, m ∈ seen ↔ m ∈ others) :
    first.map Moment.instant = second.map Moment.instant := by
  cases first with
  | none =>
    have hnone : others = [] := by
      refine List.eq_nil_iff_forall_not_mem.2 fun m hm => ?_
      rw [← hsame, show seen = [] from h] at hm
      exact List.not_mem_nil hm
    rw [h'.eq_none_iff.2 hnone]
  | some m =>
    cases second with
    | none =>
      have hm := (hsame m).1 h.1
      rw [show others = [] from h'] at hm
      exact absurd hm List.not_mem_nil
    | some n =>
      have hle := h.2 n ((hsame n).2 h'.1)
      have hge := h'.2 m ((hsame m).1 h.1)
      exact congrArg some (le_antisymm hle hge)

end IsEarliest

def earlierOf (first : Option Moment) : Option Moment → Outcome (Option Moment)
  | none => .ok first
  | some m => earlier first m

theorem IsEarliest.exists_step {date : Option Moment} (h : IsEarliest seen first)
    (hseen : ∀ m ∈ seen, m.HasOffset) (hdate : ∀ m ∈ date, m.HasOffset) :
    ∃ next, earlierOf first date = .ok next ∧ IsEarliest (seen ++ date.toList) next := by
  cases date with
  | none => exact ⟨first, rfl, by rwa [Option.toList_none, List.append_nil]⟩
  | some m =>
    cases first with
    | none =>
      refine ⟨some m, rfl, ?_⟩
      rw [show seen = [] from h]
      exact ⟨List.mem_singleton.2 rfl, by simp⟩
    | some e =>
      obtain ⟨hmem, hleast⟩ := h
      have hbefore := Moment.before_eq (hdate m rfl) (hseen e hmem)
      by_cases hless : m.instant < e.instant
      · refine ⟨some m, ?_, List.mem_append_right _ (List.mem_singleton.2 rfl), ?_⟩
        · simp [earlierOf, earlier, hbefore, hless]
        · intro x hx
          rcases List.mem_append.1 hx with hx | hx
          · exact hless.le.trans (hleast x hx)
          · rw [List.mem_singleton.1 hx]
      · refine ⟨some e, ?_, List.mem_append_left _ hmem, ?_⟩
        · simp [earlierOf, earlier, hbefore, hless]
        · intro x hx
          rcases List.mem_append.1 hx with hx | hx
          · exact hleast x hx
          · rw [List.mem_singleton.1 hx]
            exact not_lt.1 hless

section Pass

variable {α : Type} {step : Option Moment → α → Outcome (Option Moment)} {items : List α}
  {dates : List (Option Moment)}

theorem IsEarliest.exists_foldlM (h : IsEarliest seen first) (hseen : ∀ m ∈ seen, m.HasOffset)
    (hstep : List.Forall₂ (fun item date => ∀ first, step first item = earlierOf first date)
      items dates) (hdates : ∀ date ∈ dates, ∀ m ∈ date, m.HasOffset) :
    ∃ last, items.foldlM step first = .ok last ∧ IsEarliest (seen ++ dates.filterMap id) last := by
  induction hstep generalizing seen first with
  | nil => exact ⟨first, rfl, by rwa [List.filterMap_nil, List.append_nil]⟩
  | @cons item date items dates hone hmore ih =>
    have hdate := hdates date (List.mem_cons_self ..)
    obtain ⟨next, hnext, hleast⟩ := h.exists_step hseen hdate
    have hseen' : ∀ m ∈ seen ++ date.toList, m.HasOffset := by
      intro m hm
      rcases List.mem_append.1 hm with hm | hm
      · exact hseen m hm
      · exact hdate m (Option.mem_toList.1 hm)
    obtain ⟨last, hlast, hall⟩ := ih hleast hseen' fun d hd =>
      hdates d (List.mem_cons_of_mem _ hd)
    refine ⟨last, ?_, ?_⟩
    · rw [List.foldlM_cons, hone, hnext]
      exact hlast
    · have hdated : (date :: dates).filterMap id = date.toList ++ dates.filterMap id := by
        cases date <;> rfl
      rwa [hdated, ← List.append_assoc]

theorem exists_earliest_foldlM
    (hstep : List.Forall₂ (fun item date => ∀ first, step first item = earlierOf first date)
      items dates) (hdates : ∀ date ∈ dates, ∀ m ∈ date, m.HasOffset) :
    ∃ first, items.foldlM step none = .ok first ∧ IsEarliest (dates.filterMap id) first := by
  have hempty : IsEarliest [] none := rfl
  exact hempty.exists_foldlM nofun hstep hdates

end Pass

end PullGauge
