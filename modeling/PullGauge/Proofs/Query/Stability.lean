import Mathlib
import PullGauge.Proofs.Query.Joining
import PullGauge.Proofs.Query.Parts

/-!
# Validating what was validated

A query is trimmed and completed before its angle brackets are taken out, and that can bring
blanks to its ends. Validating the result once more trims these, which moves its tokens and
changes nothing else: quotes, parentheses, operators and qualifiers are judged by what stands
between the blanks, and the marker stands there too.
-/

namespace PullGauge

open Token (oddQuotes shift)

namespace Text

theorem exists_blanks_around_trim (t : Text) : ∃ lead trail, t = lead ++ (trim t ++ trail) ∧
    (∀ c ∈ lead, isBlank c = true) ∧ ∀ c ∈ trail, isBlank c = true :=
  exists_runs_around_trimBy isBlank t

theorem trim_infix (t : Text) : trim t <:+: t := by
  obtain ⟨lead, trail, ht, -, -⟩ := exists_blanks_around_trim t
  exact ⟨lead, trail, by rw [List.append_assoc, ← ht]⟩

end Text

theorem isEdged_trim {t : Text} (h : Text.trim t ≠ []) : IsEdged (Text.trim t) := by
  have hhead : (Text.trim t).head? = (t.dropWhile Text.isBlank).head? := by
    conv_rhs => rw [← Text.dropTrailing_append_trailing Text.isBlank (t.dropWhile Text.isBlank)]
    exact (List.head?_append_of_ne_nil _ h).symm
  refine ⟨h, ?_, Text.getLast?_dropTrailing⟩
  rw [hhead]
  exact Text.head?_dropWhile_not

theorem trim_trim (t : Text) : Text.trim (Text.trim t) = Text.trim t := by
  by_cases h : Text.trim t = []
  · rw [h]
    rfl
  · exact (isEdged_trim h).trim

theorem IsEdged.infix_trim_iff {piece t : Text} (hp : IsEdged piece) :
    piece <:+: Text.trim t ↔ piece <:+: t := by
  obtain ⟨hne, hhead, hlast⟩ := hp
  constructor
  · exact fun h => h.trans (Text.trim_infix t)
  · exact Text.infix_trimBy hne hhead hlast

theorem IsEdged.has_trim {piece t : Text} (hp : IsEdged piece) :
    Text.has piece (Text.trim t) = Text.has piece t := by
  rw [Bool.eq_iff_iff, Text.has_iff, Text.has_iff, hp.infix_trim_iff]

theorem exists_tokenize_eq_map_shift {t : Text} (h : oddQuotes t = false) :
    ∃ k, tokenize t = (tokenize (Text.trim t)).map (shift k) := by
  obtain ⟨lead, trail, ht, hlead, htrail⟩ := Text.exists_blanks_around_trim t
  have hrests := Token.rests_of_blanks hlead
  have heven : oddQuotes (Text.trim t) = false := by
    have hparts := h
    rw [ht, Token.oddQuotes_append, Token.oddQuotes_append, hrests.1,
      (Token.rests_of_blanks htrail).1] at hparts
    simpa using hparts
  refine ⟨lead.length, ?_⟩
  conv_lhs => rw [ht]
  rw [Token.tokenize_append (hrests.splits _), Token.tokenize_append_blanks heven htrail,
    tokenize, Token.scan_blanks hlead]
  rfl

namespace Validation

theorem shapeProblems_trim (t : Text) : shapeProblems (Text.trim t) = shapeProblems t := by
  obtain ⟨lead, trail, ht, hlead, htrail⟩ := Text.exists_blanks_around_trim t
  have hquote : Text.isBlank '"' = false := by decide
  have hnone {u : Text} (hu : ∀ c ∈ u, Text.isBlank c = true) : '"' ∉ u := by
    intro hm
    rw [hu _ hm] at hquote
    cases hquote
  have hcount : t.count '"' = (Text.trim t).count '"' := by
    conv_lhs => rw [ht]
    rw [List.count_append, List.count_append, List.count_eq_zero_of_not_mem (hnone hlead),
      List.count_eq_zero_of_not_mem (hnone htrail), Nat.zero_add, Nat.add_zero]
  have hparens {u : Text} (hu : ∀ c ∈ u, Text.isBlank c = true) : u.filter Token.isParen = [] := by
    rw [List.filter_eq_nil_iff]
    intro c hc hparen
    have hblank := hu c hc
    rw [Token.isBlank_of_isParen hparen] at hblank
    cases hblank
  have hbalanced : balanced t = balanced (Text.trim t) := by
    rw [← balanced_filter t, ← balanced_filter (Text.trim t)]
    conv_lhs => rw [ht]
    rw [List.filter_append, List.filter_append, hparens hlead, hparens htrail, List.nil_append,
      List.append_nil]
  have hoperators : ∀ o ∈ repeatedOperators, Text.has o (Text.trim t) = Text.has o t := by
    have hplain : ∀ o ∈ repeatedOperators, o ≠ [] ∧ o.IsPlain := by decide
    exact fun o ho => (isEdged_of_isPlain (hplain o ho).1 (hplain o ho).2).has_trim
  unfold shapeProblems
  rw [hcount, hbalanced, List.filter_congr hoperators]

theorem operatorProblems_shift (k : Nat) (ts : List Token) :
    operatorProblems (ts.map (shift k)) = operatorProblems ts := by
  rw [operatorProblems, List.any_map]
  rfl

theorem qualifierProblems_shift (k : Nat) (ts : List Token) :
    qualifierProblems (ts.map (shift k)) = qualifierProblems ts := by
  rw [qualifierProblems, List.filterMap_map]
  rfl

theorem problemsOf_trim {t : Text} (h : oddQuotes t = false) :
    problemsOf (Text.trim t) = problemsOf t := by
  obtain ⟨k, hk⟩ := exists_tokenize_eq_map_shift h
  unfold problemsOf
  dsimp only
  rw [hk, operatorProblems_shift, qualifierProblems_shift, shapeProblems_trim]

theorem ofQuery_trim (query : Text) : ofQuery (Text.trim query) = ofQuery query := by
  unfold ofQuery
  rw [trim_trim]

theorem ofQuery_of_clean {t : Text} (hlength : t.length ≤ lengthLimit) (hmarker : marker <:+: t)
    (hangles : stripAngles t = t) (hproblems : problemsOf t = []) (htrim : Text.trim t = t) :
    ofQuery t = ⟨t, [], [], true⟩ := by
  have hhas : Text.has marker t = true := Text.has_iff.2 hmarker
  have hne : t.isEmpty = false := by
    rw [List.isEmpty_eq_false_iff]
    rintro rfl
    exact absurd (List.infix_nil.1 hmarker) (by decide)
  unfold ofQuery
  dsimp only
  rw [htrim, hne, complete, hhas]
  simp [hangles, hproblems, hlength]

theorem isEdged_marker : IsEdged marker := isEdged_of_isPlain (by decide) (by decide)

theorem marker_infix_complete (t : Text) : marker <:+: complete t := by
  unfold complete
  split_ifs with h
  · exact Text.has_iff.1 h
  · exact (List.prefix_append marker _).isInfix

theorem marker_infix_stripAngles {t : Text} (h : marker <:+: t) : marker <:+: stripAngles t := by
  have hstrip : stripAngles marker = marker := by decide
  rw [← hstrip]
  exact h.filter _

theorem length_complete_le {query : Text} (h : (ofQuery query).isValid = true) :
    (complete (Text.trim query)).length ≤ lengthLimit := by
  unfold ofQuery at h
  by_cases he : (Text.trim query).isEmpty = true
  · simp [he] at h
  · by_contra hlong
    simp [he, Nat.lt_of_not_le hlong] at h

theorem oddQuotes_of_problemsOf {t : Text} (h : problemsOf t = []) : oddQuotes t = false := by
  have hcount : t.count '"' % 2 = 0 := by
    by_contra hodd
    simp [problemsOf, shapeProblems, hodd] at h
  simp [oddQuotes, hcount]

theorem ofQuery_trim_sanitized {query : Text} (h : (ofQuery query).isValid = true) :
    ofQuery (Text.trim (ofQuery query).sanitized) =
      ⟨Text.trim (ofQuery query).sanitized, [], [], true⟩ := by
  have hsanitized := sanitized_of_isValid h
  have hproblems := problemsOf_sanitized h
  have hsub : (Text.trim (ofQuery query).sanitized).Sublist (ofQuery query).sanitized :=
    (Text.trim_infix _).sublist
  have hshorter : (ofQuery query).sanitized.length ≤ (complete (Text.trim query)).length := by
    rw [hsanitized]
    exact List.length_filter_le ..
  -- what is trimmed and stripped is no longer than what passed, and holds the marker still
  apply ofQuery_of_clean
  · exact (hsub.length_le.trans hshorter).trans (length_complete_le h)
  · rw [isEdged_marker.infix_trim_iff, hsanitized]
    exact marker_infix_stripAngles (marker_infix_complete _)
  · rw [stripAngles, List.filter_eq_self]
    intro c hc
    have hin := hsub.subset hc
    rw [hsanitized] at hin
    exact (List.mem_filter.1 hin).2
  · rw [problemsOf_trim (oddQuotes_of_problemsOf hproblems), hproblems]
  · exact trim_trim _

/-- To validate an accepted query again only trims it, which moves its tokens, and to validate it
a third time does nothing. To put the marker in front of a query that lacks it changes nothing but
that it is not put there again. -/
theorem ofQuery_sanitized (query : Text) :
    ((ofQuery query).isValid = true → ∀ s, s = (ofQuery query).sanitized →
      ofQuery s = ⟨Text.trim s, [], [], true⟩ ∧
      ofQuery (Text.trim s) = ⟨Text.trim s, [], [], true⟩ ∧
      ∃ k, tokenize s = (tokenize (Text.trim s)).map (shift k)) ∧
    (Text.trim query = query → query ≠ [] → Text.has marker query = false →
      ofQuery (marker ++ ' ' :: query) = { ofQuery query with warnings := [] }) := by
  constructor
  · rintro h s rfl
    have hagain := ofQuery_trim_sanitized h
    have heven := oddQuotes_of_problemsOf (problemsOf_sanitized h)
    rw [ofQuery_trim] at hagain
    refine ⟨hagain, ?_, exists_tokenize_eq_map_shift heven⟩
    rw [ofQuery_trim]
    exact hagain
  · intro htrim hne hnone
    have hquery : IsEdged query := by
      rw [← htrim] at hne
      exact htrim ▸ isEdged_trim hne
    have hmarked : Text.trim (marker ++ ' ' :: query) = marker ++ ' ' :: query := by
      have hjoined : IsEdged (joined [marker, query]) :=
        isEdged_joined (by simp) (by simp [hquery, isEdged_marker])
      rw [joined_cons_cons, joined_singleton] at hjoined
      exact hjoined.trim
    have hfull : (marker ++ ' ' :: query).isEmpty = false := rfl
    have hhas : Text.has marker (marker ++ ' ' :: query) = true :=
      Text.has_iff.2 (List.prefix_append marker _).isInfix
    unfold ofQuery
    dsimp only
    rw [hmarked, htrim, complete, complete, hhas, hnone, hfull, List.isEmpty_eq_false_iff.2 hne]
    rfl

/-- Brackets hide a blank before the marker and one behind the last word. -/
def bracketed : Text := " < is:pr label:\"a  b\" (x OR y) > "

def unmarked : Text := "author:octocat > or"

theorem ofQuery_sanitized_bracketed :
    (ofQuery bracketed).isValid = true ∧
      ofQuery (ofQuery bracketed).sanitized =
        ⟨Text.trim (ofQuery bracketed).sanitized, [], [], true⟩ ∧
      Text.trim (ofQuery bracketed).sanitized ≠ (ofQuery bracketed).sanitized ∧
      ofQuery (marker ++ ' ' :: unmarked) = { ofQuery unmarked with warnings := [] } ∧
      (ofQuery unmarked).problems = [.operatorCase] := by
  have hvalid : (ofQuery bracketed).isValid = true := by decide +kernel
  exact ⟨hvalid, ((ofQuery_sanitized bracketed).1 hvalid _ rfl).1, by decide +kernel,
    (ofQuery_sanitized unmarked).2 (by decide) (by decide) (by decide), by decide +kernel⟩

end Validation

end PullGauge
