import Mathlib
import PullGauge.Proofs.Query.Accepted

/-!
# Marks in admitted values

Most rules admit values from a list or of characters that mean nothing to a query. Only a branch
may hold a colon, and no branch holds the sign that begins the searcher. The searcher is a user,
and nothing but a line feed may follow it there.
-/

namespace PullGauge

namespace Text

theorem lowerFrom_append (before s t : Text) :
    ∃ r, lowerFrom before (s ++ t) = r ++ lowerFrom (s.reverse ++ before) t := by
  induction s generalizing before with
  | nil => exact ⟨[], rfl⟩
  | cons c s ih =>
    obtain ⟨r, hr⟩ := ih (c :: before)
    refine ⟨lowerChar before c (s ++ t) ++ r, ?_⟩
    rw [List.cons_append, lowerFrom, hr, List.append_assoc, List.reverse_cons, List.append_assoc]
    rfl

theorem length_le_length_lowerFrom (before t : Text) : t.length ≤ (lowerFrom before t).length := by
  induction t generalizing before with
  | nil => simp
  | cons c t ih =>
    have hc : 0 < (lowerChar before c t).length := by
      unfold lowerChar
      split_ifs <;> simp
    have ht := ih (c :: before)
    rw [lowerFrom, List.length_append, List.length_cons]
    omega

theorem mem_lowerFrom {c : Char} (hc : ∀ before after, lowerChar before c after = [c])
    {before t : Text} (h : c ∈ t) : c ∈ lowerFrom before t := by
  induction t generalizing before with
  | nil => simp at h
  | cons d t ih =>
    rw [lowerFrom, List.mem_append]
    rcases List.mem_cons.1 h with rfl | h
    · rw [hc]
      exact .inl (by simp)
    · exact .inr (ih h)

theorem colon_mem_lower {t : Text} (h : ':' ∈ t) : ':' ∈ lower t :=
  mem_lowerFrom (fun _ _ => rfl) h

end Text

namespace ValueRule

theorem not_mem_of_fits {form : Text → Bool} {c : Char} (hc : c ≠ '\n')
    (hform : ∀ t, form t = true → c ∉ t) {t : Text} (h : fits form t = true) : c ∉ t := by
  rcases Bool.or_eq_true_iff.1 h with h | h
  · exact hform t h
  · obtain ⟨hlast, hf⟩ := Bool.and_eq_true_iff.1 h
    have ht : t.dropLast ++ ['\n'] = t := List.dropLast_append_getLast? '\n' (beq_iff_eq.1 hlast)
    rw [← ht]
    simp [hform _ hf, hc]

theorem not_mem_of_isRangeOf {single : Text → Bool} {c : Char} (hc : isComparison c = false)
    (hdot : c ≠ '.') (hsingle : ∀ t, single t = true → c ∉ t) {t : Text}
    (h : isRangeOf single t = true) : c ∉ t := by
  intro hmem
  simp only [isRangeOf, Bool.or_eq_true] at h
  rcases h with (h | h) | h
  · exact hsingle t h hmem
  · split at h
    · exact absurd h (by decide)
    · exact hsingle _ (Bool.and_eq_true_iff.1 h).2 (Text.mem_dropWhile hmem hc)
  · split at h
    · rename_i low high hsplit
      obtain ⟨hlow, hhigh⟩ := Bool.and_eq_true_iff.1 h
      rw [Text.eq_of_splitAtFirst hsplit] at hmem
      simp [hsingle low hlow, hsingle high hhigh, hdot] at hmem
    · exact absurd h (by decide)

theorem colon_not_mem_of_isDay {t : Text} (h : isDay t = true) : ':' ∉ t := by
  unfold isDay at h
  split at h
  · rename_i y₁ y₂ y₃ y₄ m₁ m₂ d₁ d₂
    intro hmem
    have hdigit : ':' ∈ [y₁, y₂, y₃, y₄, m₁, m₂, d₁, d₂] := by simpa using hmem
    exact absurd (List.all_eq_true.1 h ':' hdigit) (by decide)
  · exact absurd h (by decide)

theorem colon_not_mem_of_isNumber {t : Text} (h : isNumber t = true) : ':' ∉ t := by
  intro hmem
  have hdigit := List.all_eq_true.1 (Bool.and_eq_true_iff.1 h).2 ':' hmem
  exact absurd hdigit (by decide)

theorem colon_not_mem_of_isBareText {t : Text} (h : IsBareText t) : ':' ∉ t :=
  fun hmem => not_mem_marks (h.2 _ hmem) (by decide)

theorem isPair_mono {p q : Text → Bool} (hpq : ∀ t, p t = true → q t = true) {t : Text}
    (h : isPair p t = true) : isPair q t = true := by
  unfold isPair at h ⊢
  split at h
  · obtain ⟨ha, hb⟩ := Bool.and_eq_true_iff.1 h
    rw [hpq _ ha, hpq _ hb]
    rfl
  · exact absurd h (by decide)

theorem eq_branch_of_colon {rule : ValueRule} {v : Text} (h : rule.allows v = true)
    (hv : ':' ∈ v) : rule = .branch := by
  have hbreak : ':' ≠ '\n' := by decide
  have hchoices : ∀ w ∈ rule.choices, ':' ∉ w := by cases rule <;> decide
  have hlower := Text.colon_mem_lower hv
  have hword (hc : rule.choices.contains (Text.lower v) = true) : False :=
    hchoices _ (List.contains_iff_mem.1 hc) hlower
  cases rule with
  | branch => rfl
  | date =>
    exact absurd hv (not_mem_of_fits hbreak
      (fun t => not_mem_of_isRangeOf (by decide) (by decide) fun _ => colon_not_mem_of_isDay) h)
  | count =>
    exact absurd hv (not_mem_of_fits hbreak
      (fun t => not_mem_of_isRangeOf (by decide) (by decide) fun _ => colon_not_mem_of_isNumber) h)
  | user =>
    exact absurd hv (not_mem_of_fits hbreak
      (fun t ht => colon_not_mem_of_isBareText (isBareText_of_isUser ht)) h)
  | team =>
    exact absurd hv (not_mem_of_fits hbreak (fun t ht => colon_not_mem_of_isBareText
      (isBareText_of_isPair (isPair_mono (fun _ => isDottedName_of_isName) ht))) h)
  | repository =>
    exact absurd hv (not_mem_of_fits hbreak
      (fun t ht => colon_not_mem_of_isBareText (isBareText_of_isPair ht)) h)
  | commit =>
    refine absurd hv (not_mem_of_fits hbreak (fun t ht hmem => ?_) h)
    have hhex := List.all_eq_true.1 (Bool.and_eq_true_iff.1 ht).2 ':' hmem
    exact absurd hhex (by decide)
  | reason =>
    rcases Bool.or_eq_true_iff.1 h with hc | hc
    · exact (hword hc).elim
    · have hspaced : ':' ∈ (Text.lower v).map fun c => if c = '_' then ' ' else c :=
        List.mem_map.2 ⟨':', hlower, rfl⟩
      exact absurd hspaced (hchoices _ (List.contains_iff_mem.1 hc))
  | category => exact (hword h).elim
  | state => exact (hword h).elim
  | review => exact (hword h).elim
  | draft => exact (hword h).elim
  | flag => exact (hword h).elim
  | status => exact (hword h).elim
  | lacking => exact (hword h).elim

theorem at_not_mem_of_isBranch {t : Text} (h : isBranch t = true) : '@' ∉ t := by
  have hname {u : Text} (hu : isDottedName u = true) : '@' ∉ u := by
    intro hmem
    have hchar := List.all_eq_true.1 (Bool.and_eq_true_iff.1 hu).2 '@' hmem
    exact absurd hchar (by decide)
  have hjoin := Text.intercalate_cut ':' t
  unfold isBranch at h
  split at h
  · rename_i a hcut
    rw [hcut, List.intercalate_singleton] at hjoin
    rw [← hjoin]
    exact hname h
  · rename_i a b hcut
    obtain ⟨ha, hb⟩ := Bool.and_eq_true_iff.1 h
    rw [hcut, List.intercalate_cons_cons, List.intercalate_singleton] at hjoin
    rw [← hjoin]
    simp [hname (isDottedName_of_isName ha), hname hb]
  · exact absurd h (by decide)

theorem isUser_searcher_append {r : Text} (h : isUser ('@' :: 'm' :: 'e' :: r) = true) :
    r = [] := by
  have hat : isNameChar '@' = false := by decide
  simp only [isUser, isName, Bool.or_eq_true, decide_eq_true_eq, Bool.and_eq_true] at h
  rcases h with ((h | h) | h) | h
  · simpa using h
  · simp at h
  · simp [hat] at h
  · exact absurd h.1 (by simp [List.isPrefixOf])

theorem allows_searcher_iff (r : Text) :
    allows .user ('@' :: 'm' :: 'e' :: r) = true ↔ r = [] ∨ r = ['\n'] := by
  constructor
  · intro h
    rcases Bool.or_eq_true_iff.1 h with h | h
    · exact .inl (isUser_searcher_append h)
    · obtain ⟨hlast, hf⟩ := Bool.and_eq_true_iff.1 h
      cases r with
      | nil => exact .inl rfl
      | cons c r =>
        have hd : ('@' :: 'm' :: 'e' :: c :: r).dropLast = '@' :: 'm' :: 'e' :: (c :: r).dropLast :=
          rfl
        rw [hd] at hf
        have hnil := isUser_searcher_append hf
        have hr : r = [] := by
          cases r with
          | nil => rfl
          | cons d r => simp at hnil
        rw [hr] at hlast
        have hc : c = '\n' := by simpa using hlast
        exact .inr (by rw [hc, hr])
  · intro h
    rcases h with rfl | rfl
    · decide
    · decide

end ValueRule

end PullGauge
