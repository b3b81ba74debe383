import Mathlib
import PullGauge.Suggestion.Context
import PullGauge.Proofs.Text.Trimming

/-!
# The word at the cursor

The word at the cursor is the longest end of the text that has no blank in it, so behind a blank
there is none, and then the qualifiers are offered. One line feed at the end is overlooked by both:
right behind a word it counts as if it were not there, and the word is still the one before it.
-/

namespace PullGauge

namespace Text

variable {p : Char → Bool} {t : Text}

theorem suffix_trailing {v : Text} (h : v <:+ t) (hv : ∀ c ∈ v, p c = true) :
    v <:+ trailing p t := by
  obtain ⟨u, rfl⟩ := h
  rw [trailing, List.reverse_append,
    List.takeWhile_append_of_pos fun c hc => hv c (List.mem_reverse.1 hc), List.reverse_append,
    List.reverse_reverse]
  exact List.suffix_append _ _

theorem trailing_eq_nil_iff : trailing p t = [] ↔ t.getLast?.any p = false := by
  rw [trailing, List.reverse_eq_nil_iff, ← List.head?_reverse]
  cases t.reverse with
  | nil => simp
  | cons c r => by_cases hc : p c = true <;> simp [hc]

theorem isEmpty_trim (t : Text) : (trim t).isEmpty = t.all isBlank := by
  rw [Bool.eq_iff_iff, List.isEmpty_iff, trim, trimBy, dropTrailing, List.reverse_eq_nil_iff,
    List.dropWhile_eq_nil_iff, List.all_eq_true]
  constructor
  · intro h
    by_contra hsome
    -- the first character that is not blank would be left
    have hleft : t.dropWhile isBlank ≠ [] := fun hnil => hsome (List.dropWhile_eq_nil_iff.1 hnil)
    have hblank := h _ (List.mem_reverse.2 (List.head_mem hleft))
    have hink := List.head_dropWhile_not isBlank hleft
    rw [hblank] at hink
    cases hink
  · intro h c hc
    exact h c ((List.dropWhile_sublist _).subset (List.mem_reverse.1 hc))

end Text

namespace Suggestion

structure IsLastWord (t w : Text) : Prop where
  suffix : w <:+ t
  inked : ∀ c ∈ w, Text.isBlank c = false
  longest : ∀ v, v <:+ t → (∀ c ∈ v, Text.isBlank c = false) → v.length ≤ w.length

variable {t w line : Text}

theorem isInk_iff {c : Char} : isInk c = true ↔ Text.isBlank c = false := by simp [isInk]

theorem IsLastWord.eq {v : Text} (h : IsLastWord t w) (h' : IsLastWord t v) : w = v := by
  have hlength := le_antisymm (h'.longest w h.suffix h.inked) (h.longest v h'.suffix h'.inked)
  exact (List.suffix_of_suffix_length_le h.suffix h'.suffix hlength.le).eq_of_length hlength

theorem isLastWord_trailing (t : Text) : IsLastWord t (Text.trailing isInk t) where
  suffix := ⟨_, Text.dropTrailing_append_trailing isInk t⟩
  inked c hc := isInk_iff.1 (List.all_eq_true.1 (Text.all_trailing isInk t) c hc)
  longest _ hv hink := (Text.suffix_trailing hv fun c hc => isInk_iff.2 (hink c hc)).length_le

theorem isLastWord_iff : IsLastWord t w ↔ w = Text.trailing isInk t :=
  ⟨fun h => h.eq (isLastWord_trailing t), fun h => h ▸ isLastWord_trailing t⟩

theorem IsLastWord.eq_nil (h : IsLastWord t w) (hblank : ∀ c ∈ t.getLast?, Text.isBlank c = true) :
    w = [] := by
  by_contra hne
  obtain ⟨u, rfl⟩ := h.suffix
  have hlast := h.inked _ (List.getLast_mem hne)
  rw [hblank _ (by simp [List.getLast?_append, List.getLast?_eq_some_getLast hne])] at hlast
  cases hlast

def endsLine (t : Text) : Bool := t.getLast? == some '\n' && t.dropLast.getLast?.any isInk

theorem currentWord_append (line : Text) :
    currentWord (line ++ ['\n']) = Text.trailing isInk line := by
  simp [currentWord, withoutLineEnd]

theorem currentWord_of_getLast? (h : t.getLast? ≠ some '\n') :
    currentWord t = Text.trailing isInk t := by
  rw [currentWord, withoutLineEnd, if_neg (by simpa using h)]

theorem endsLine_append (line : Text) : endsLine (line ++ ['\n']) = line.getLast?.any isInk := by
  simp [endsLine]

theorem endsLine_of_getLast? (h : t.getLast? ≠ some '\n') : endsLine t = false := by
  simp [endsLine, h]

theorem isLastWord_currentWord_iff (t : Text) :
    IsLastWord t (currentWord t) ↔ endsLine t = false := by
  rw [isLastWord_iff]
  by_cases hend : t.getLast? = some '\n'
  · obtain ⟨line, rfl⟩ := List.getLast?_eq_some_iff.1 hend
    have hnone : Text.trailing isInk (line ++ ['\n']) = [] :=
      Text.trailing_eq_nil_iff.2 (by simp; decide)
    rw [currentWord_append, endsLine_append, hnone, Text.trailing_eq_nil_iff]
  · rw [currentWord_of_getLast? hend, endsLine_of_getLast? hend]
    exact iff_of_true rfl rfl

theorem afterOperator_append (line : Text) : afterOperator (line ++ ['\n']) = afterOperator line := by
  have hblank : Text.isBlank '\n' = true := by decide
  have hdrop : Text.dropTrailing Text.isBlank (line ++ ['\n']) =
      Text.dropTrailing Text.isBlank line := by
    simp [Text.dropTrailing, List.dropWhile_cons_of_pos hblank]
  rw [afterOperator, hdrop, afterOperator]

theorem getLast?_ne_of_isBlank (hink : t.getLast?.any isInk = true) {c : Char}
    (hc : Text.isBlank c = true) : t.getLast? ≠ some c := by
  intro hlast
  rw [hlast, Option.any_some, isInk_iff, hc] at hink
  cases hink

theorem showsQualifiers_append (hline : line.getLast?.any isInk = true) (word : Text) :
    showsQualifiers (line ++ ['\n']) word = showsQualifiers line word := by
  have hspace : (line.getLast? == some ' ') = false :=
    beq_eq_false_iff_ne.2 (getLast?_ne_of_isBlank hline (by decide))
  have hfeed : ((line ++ ['\n']).getLast? == some ' ') = false := by simp
  have htrim : (Text.trim (line ++ ['\n'])).isEmpty = (Text.trim line).isEmpty := by
    rw [Text.isEmpty_trim, Text.isEmpty_trim, List.all_append]
    exact Bool.and_eq_left_iff_imp.2 fun _ => by decide
  simp only [showsQualifiers, hspace, hfeed, htrim, afterOperator_append]

/-- The word at the cursor is the longest end of the text without blanks, and behind a blank, where
there is none, the qualifiers are offered, unless the text ends in a line feed right behind a word.
There the word and the qualifiers are those of the text without the line feed. -/
theorem currentWord_and_qualifiers (before : Text) :
    (IsLastWord before (currentWord before) ↔ endsLine before = false) ∧
    (endsLine before = false → (∀ c ∈ before.getLast?, Text.isBlank c = true) →
      currentWord before = [] ∧ showsQualifiers before (currentWord before) = true) ∧
    (endsLine before = true → IsLastWord before.dropLast (currentWord before) ∧
      showsQualifiers before (currentWord before) =
        showsQualifiers before.dropLast (currentWord before.dropLast)) := by
  refine ⟨isLastWord_currentWord_iff before, ?blank, ?line⟩
  case blank =>
    intro hend hblank
    have hnone := ((isLastWord_currentWord_iff before).2 hend).eq_nil hblank
    refine ⟨hnone, ?_⟩
    rw [hnone, showsQualifiers, List.isEmpty_nil, Bool.or_true, if_pos rfl]
  case line =>
    intro hend
    obtain ⟨hfeed, hword⟩ := Bool.and_eq_true_iff.1 hend
    obtain ⟨line, rfl⟩ := List.getLast?_eq_some_iff.1 (beq_iff_eq.1 hfeed)
    rw [List.dropLast_concat] at hword ⊢
    have hsame : currentWord line = Text.trailing isInk line :=
      currentWord_of_getLast? (getLast?_ne_of_isBlank hword (by decide))
    rw [currentWord_append, hsame, showsQualifiers_append hword]
    exact ⟨isLastWord_trailing line, rfl⟩

/-- Behind the line feed the word is no longer the end of the text, and a value that is typed keeps
the qualifiers from being offered. -/
theorem currentWord_of_ended_value :
    ¬ IsLastWord "author:oct\n" (currentWord "author:oct\n") ∧
      showsQualifiers "author:oct\n" (currentWord "author:oct\n") = false := by
  constructor
  · rw [isLastWord_currentWord_iff]
    decide
  · decide +kernel

theorem currentWord_of_tab :
    IsLastWord "is:pr author:oct" "author:oct" ∧
    (currentWord "author:oct\t" = [] ∧
      showsQualifiers "author:oct\t" (currentWord "author:oct\t") = true) ∧
    (currentWord "author:oct \n" = [] ∧
      showsQualifiers "author:oct \n" (currentWord "author:oct \n") = true) ∧
    IsLastWord "author:oct" (currentWord "author:oct\n") := by
  refine ⟨(currentWord_and_qualifiers "is:pr author:oct").1.2 (by decide),
    (currentWord_and_qualifiers "author:oct\t").2.1 (by decide) ?_,
    (currentWord_and_qualifiers "author:oct \n").2.1 (by decide) ?_,
    ((currentWord_and_qualifiers "author:oct\n").2.2 (by decide)).1⟩
  · rintro c ⟨⟩
    decide
  · rintro c ⟨⟩
    decide

end Suggestion

end PullGauge
