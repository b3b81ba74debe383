import Mathlib
import PullGauge.Text.Basic

/-!
# Trimmed texts

Trimming is told by the ends that it leaves. What it leaves does not begin or end in what it drops,
a text with such ends is left as it is, and so is such a text between runs that are dropped. A
piece with such ends is never cut.
-/

namespace PullGauge.Text

variable {p : Char → Bool} {t : Text}

theorem head?_dropWhile_not : ∀ c ∈ (t.dropWhile p).head?, p c = false := by
  intro c hc
  have hnot := List.head?_dropWhile_not p t
  rw [hc] at hnot
  simpa using hnot

theorem dropWhile_of_head (h : ∀ c ∈ t.head?, p c = false) : t.dropWhile p = t := by
  cases t with
  | nil => rfl
  | cons c t => rw [List.dropWhile_cons_of_neg (by simp [h c rfl])]

theorem getLast?_dropTrailing : ∀ c ∈ (dropTrailing p t).getLast?, p c = false := by
  rw [dropTrailing, List.getLast?_reverse]
  exact head?_dropWhile_not

theorem dropTrailing_append {b : Text} (hb : ∀ c ∈ b, p c = true)
    (h : ∀ c ∈ t.getLast?, p c = false) : dropTrailing p (t ++ b) = t := by
  rw [← List.head?_reverse] at h
  rw [dropTrailing, List.reverse_append,
    List.dropWhile_append_of_pos fun c hc => hb c (List.mem_reverse.1 hc), dropWhile_of_head h,
    List.reverse_reverse]

theorem trimBy_append {a b : Text} (ha : ∀ c ∈ a, p c = true) (hb : ∀ c ∈ b, p c = true)
    (hne : t ≠ []) (hfirst : ∀ c ∈ t.head?, p c = false) (hlast : ∀ c ∈ t.getLast?, p c = false) :
    trimBy p (a ++ t ++ b) = t := by
  have hstart : ∀ c ∈ (t ++ b).head?, p c = false := by rwa [List.head?_append_of_ne_nil _ hne]
  rw [trimBy, List.append_assoc, List.dropWhile_append_of_pos ha, dropWhile_of_head hstart,
    dropTrailing_append hb hlast]

theorem trimBy_of_ends (hfirst : ∀ c ∈ t.head?, p c = false)
    (hlast : ∀ c ∈ t.getLast?, p c = false) : trimBy p t = t := by
  have hdropped := dropTrailing_append (b := []) nofun hlast
  rw [List.append_nil] at hdropped
  rw [trimBy, dropWhile_of_head hfirst, hdropped]

theorem exists_runs_around_trimBy (p : Char → Bool) (t : Text) :
    ∃ lead trail, t = lead ++ (trimBy p t ++ trail) ∧
      (∀ c ∈ lead, p c = true) ∧ ∀ c ∈ trail, p c = true := by
  refine ⟨t.takeWhile p, trailing p (t.dropWhile p), ?_, ?_, ?_⟩
  · rw [trimBy, dropTrailing_append_trailing, List.takeWhile_append_dropWhile]
  · exact fun c hc => List.mem_takeWhile_imp hc
  · exact List.all_eq_true.1 (all_trailing p _)

theorem infix_dropWhile {piece : Text} (hne : piece ≠ []) (hp : ∀ c ∈ piece.head?, p c = false)
    (h : piece <:+: t) : piece <:+: t.dropWhile p := by
  obtain ⟨a, b, rfl⟩ := h
  have hstart : ∀ c ∈ (piece ++ b).head?, p c = false := by
    rwa [List.head?_append_of_ne_nil _ hne]
  rw [List.append_assoc, List.dropWhile_append, dropWhile_of_head hstart]
  split_ifs
  · exact (List.prefix_append piece b).isInfix
  · exact ⟨_, b, List.append_assoc ..⟩

theorem infix_trimBy {piece : Text} (hne : piece ≠ []) (hfirst : ∀ c ∈ piece.head?, p c = false)
    (hlast : ∀ c ∈ piece.getLast?, p c = false) (h : piece <:+: t) : piece <:+: trimBy p t := by
  have hdropped := List.reverse_infix.2 (infix_dropWhile hne hfirst h)
  rw [← List.head?_reverse] at hlast
  have htrimmed := infix_dropWhile (by simpa using hne) hlast hdropped
  rwa [trimBy, dropTrailing, ← List.reverse_infix, List.reverse_reverse]

end PullGauge.Text
