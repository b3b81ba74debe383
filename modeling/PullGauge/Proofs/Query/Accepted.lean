import Mathlib
import PullGauge.Proofs.Query.Normalization
import PullGauge.Proofs.Text.Blanks
import PullGauge.Query.Validation

/-!
# Editing accepted queries

Validation judges the value of every qualifier, and the values that it admits for users and
repositories are made of characters that need no quotes. The exception is a line feed at the
end of a value, which the rules overlook: an accepted query survives being read into a filter
and written again exactly when no name in it ends in a line feed.
-/

namespace PullGauge

namespace ValueRule

def isBareChar (c : Char) : Bool := isNameChar c || "./@*".toList.contains c

def marks : Text := "\"()<>&|!:\n"

theorem isBareChar_of_mem_marks : ∀ c ∈ marks, isBareChar c = false :=
  Text.forall_mem_of_all (by decide)

theorem not_mem_marks {c : Char} (h : isBareChar c = true) : c ∉ marks := by
  intro hc
  rw [isBareChar_of_mem_marks c hc] at h
  exact absurd h (by decide)

theorem not_isBlank_of_isBareChar {c : Char} (h : isBareChar c = true) :
    Text.isBlank c = false := by
  cases hb : Text.isBlank c with
  | false => rfl
  | true =>
    have hall : ∀ d ∈ "-./@*".toList, Text.isBlank d = false :=
      Text.forall_mem_of_all (by decide)
    have hw := Text.isWordChar_of_isBlank hb
    have hc : c ∈ "-./@*".toList := by
      simpa [isBareChar, isNameChar, hw, or_assoc] using h
    rw [hall c hc] at hb
    exact hb.symm

def IsBareText (t : Text) : Prop := t ≠ [] ∧ ∀ c ∈ t, isBareChar c = true

theorem IsBareText.isBare {t : Text} (h : IsBareText t) : Filter.IsBare t := by
  refine ⟨h.1, fun c hc => ?_⟩
  have hbare := h.2 c hc
  have hmarks := not_mem_marks hbare
  have hparen : Token.isParen c = false := by
    rw [Token.isParen, Bool.or_eq_false_iff]
    constructor
    · rw [beq_eq_false_iff_ne]
      rintro rfl
      exact hmarks (by decide)
    · rw [beq_eq_false_iff_ne]
      rintro rfl
      exact hmarks (by decide)
  refine ⟨?_, by rw [Token.isSeparator, not_isBlank_of_isBareChar hbare, hparen]; rfl⟩
  rintro rfl
  exact hmarks (by decide)

theorem isBareText_of_isDottedName {t : Text} (h : isDottedName t = true) : IsBareText t := by
  simp only [isDottedName, Bool.and_eq_true, Bool.not_eq_true', List.isEmpty_eq_false_iff,
    List.all_eq_true, Bool.or_eq_true] at h
  refine ⟨h.1, fun c hc => ?_⟩
  rcases h.2 c hc with hn | hd
  · simp [isBareChar, hn]
  · rw [beq_iff_eq.1 hd]
    decide

theorem isDottedName_of_isName {t : Text} (h : isName t = true) : isDottedName t = true := by
  simp only [isName, isDottedName, Bool.and_eq_true, List.all_eq_true] at h ⊢
  exact ⟨h.1, fun c hc => by simp [h.2 c hc]⟩

theorem isBareText_of_isUser {t : Text} (h : isUser t = true) : IsBareText t := by
  simp only [isUser, Bool.or_eq_true, decide_eq_true_eq, Bool.and_eq_true] at h
  rcases h with ((rfl | rfl) | h) | ⟨hp, hn⟩
  · exact ⟨by decide, Text.forall_mem_of_all (by decide)⟩
  · exact ⟨by decide, Text.forall_mem_of_all (by decide)⟩
  · exact isBareText_of_isDottedName (isDottedName_of_isName h)
  · obtain ⟨r, rfl⟩ := List.isPrefixOf_iff_prefix.1 hp
    have happ : ∀ c ∈ "app/".toList, isBareChar c = true := Text.forall_mem_of_all (by decide)
    have hr := isBareText_of_isDottedName (isDottedName_of_isName hn)
    refine ⟨by simp, fun c hc => ?_⟩
    rcases List.mem_append.1 hc with hc | hc
    · exact happ c hc
    · exact hr.2 c hc

theorem isBareText_of_isPair {t : Text} (h : isPair isDottedName t = true) : IsBareText t := by
  unfold isPair at h
  split at h
  · rename_i a b hcut
    obtain ⟨ha, hb⟩ := Bool.and_eq_true_iff.1 h
    have ht : t = a ++ '/' :: b := by
      rw [← Text.intercalate_cut '/' t, hcut]
      simp [List.intercalate]
    refine ⟨by simp [ht], fun c hc => ?_⟩
    rw [ht, List.mem_append, List.mem_cons] at hc
    rcases hc with hc | rfl | hc
    · exact (isBareText_of_isDottedName ha).2 c hc
    · decide
    · exact (isBareText_of_isDottedName hb).2 c hc
  · exact absurd h (by decide)

theorem form_of_fits {form : Text → Bool} {t : Text} (h : fits form t = true)
    (ht : t.getLast? ≠ some '\n') : form t = true := by
  simpa [fits, ht] using h

end ValueRule

namespace Validation

theorem problemsOf_sanitized {query : Text} (h : (ofQuery query).isValid = true) :
    problemsOf (ofQuery query).sanitized = [] := by
  unfold ofQuery at h ⊢
  by_cases he : (Text.trim query).isEmpty = true
  · simp [he] at h
  · simp only [he, if_false, Bool.false_eq_true, List.isEmpty_iff, List.append_eq_nil_iff] at h ⊢
    exact h.2

theorem qualifierProblem?_of_mem {query : Text} (h : (ofQuery query).isValid = true)
    {q : Qualifier} (hq : q ∈ qualifiersIn (ofQuery query).sanitized) :
    qualifierProblem? q = none := by
  have hp := problemsOf_sanitized h
  simp only [problemsOf, List.append_eq_nil_iff] at hp
  exact List.filterMap_eq_nil_iff.1 hp.2 q hq

theorem allows_of_qualifierProblem? {q : Qualifier} {rule : ValueRule}
    (h : qualifierProblem? q = none) (hk : ValueRule.ofKey? q.key = some rule)
    (hv : q.value ≠ []) : rule.allows q.value = true := by
  unfold qualifierProblem? at h
  split_ifs at h with hs he
  · exact absurd (List.isEmpty_iff.1 he) hv
  · by_contra hr
    simp [hk, hr] at h

theorem fits_of_mem_names {query v : Text} (h : (ofQuery query).isValid = true)
    (hv : v ∈ (Filter.read (ofQuery query).sanitized).names) :
    ValueRule.fits ValueRule.isUser v = true ∨
      ValueRule.fits (ValueRule.isPair ValueRule.isDottedName) v = true := by
  have hfits {key : Text} {rule : ValueRule} (hk : ValueRule.ofKey? key = some rule)
      (hv : v ∈ Qualifier.valuesOf key (qualifiersIn (ofQuery query).sanitized)) :
      rule.allows v = true := by
    obtain ⟨hne, q, hq, rfl, rfl⟩ := Qualifier.mem_valuesOf hv
    exact allows_of_qualifierProblem? (qualifierProblem?_of_mem h hq) hk hne
  rw [Filter.read_eq_ofQualifiers] at hv
  simp only [Filter.names, Filter.ofQualifiers, List.mem_append] at hv
  rcases hv with (((hv | hv) | hv) | hv) | hv
  · exact .inl (@hfits _ .user (by decide) hv)
  · exact .inl (@hfits _ .user (by decide) hv)
  · exact .inr (@hfits _ .repository (by decide) hv)
  · exact .inl (@hfits _ .user (by decide) hv)
  · exact .inl (@hfits _ .user (by decide) hv)

theorem isBareText_of_mem_names {query v : Text} (h : (ofQuery query).isValid = true)
    (hv : v ∈ (Filter.read (ofQuery query).sanitized).names) (hl : v.getLast? ≠ some '\n') :
    ValueRule.IsBareText v := by
  rcases fits_of_mem_names h hv with hf | hf
  · exact ValueRule.isBareText_of_isUser (ValueRule.form_of_fits hf hl)
  · exact ValueRule.isBareText_of_isPair (ValueRule.form_of_fits hf hl)

end Validation

namespace Filter

theorem not_isBare_of_getLast? {v : Text} (h : v.getLast? = some '\n') : ¬ IsBare v := by
  intro hb
  have hs := (hb.2 '\n' (List.mem_of_getLast? h)).2
  exact absurd hs (by decide)

theorem Survives.isBare_of_mem_names {f : Filter} (hs : f.Survives) {v : Text}
    (hv : v ∈ f.names) : IsBare v := by
  simp only [names, List.mem_append] at hv
  rcases hv with (((hv | hv) | hv) | hv) | hv
  · exact hs.authors v hv
  · exact hs.reviewers v hv
  · exact hs.repositories v hv
  · exact hs.assignees v hv
  · exact hs.involves v hv

/-- An accepted query survives an edit exactly if no name in it ends in a line feed. -/
theorem edit_keeps_iff {query : Text} (h : (Validation.ofQuery query).isValid = true) :
    (read (Validation.ofQuery query).sanitized).write.map read =
        .ok (read (Validation.ofQuery query).sanitized) ↔
      ∀ v ∈ (read (Validation.ofQuery query).sanitized).names, v.getLast? ≠ some '\n' := by
  have hdated := isDated_read (Validation.ofQuery query).sanitized
  constructor
  · intro hw v hv hl
    exact not_isBare_of_getLast? hl ((survives_of_write hdated hw).isBare_of_mem_names hv)
  · intro hl
    have hplain (v : Text) (hv : v ∈ (read (Validation.ofQuery query).sanitized).names) :
        v.IsPlain := (Validation.isBareText_of_mem_names h hv (hl v hv)).isBare.2
    obtain ⟨t, hw, hr⟩ := exists_write_of_survives hdated (survives_of_names hplain)
    rw [hw]
    exact congrArg Except.ok hr

def fullQuery : Text :=
  "author:@me reviewed-by:app/é-1 repo:a.b/c assignee:\"x\" label:\"(y z\" label:\")\" -is:draft created:2024-01-01..2024-02-29"

theorem fullQuery_edit_keeps :
    (Validation.ofQuery fullQuery).isValid = true ∧
      (read (Validation.ofQuery fullQuery).sanitized).write.map read =
        .ok (read (Validation.ofQuery fullQuery).sanitized) := by
  have hv : (Validation.ofQuery fullQuery).isValid = true := by decide +kernel
  exact ⟨hv, (edit_keeps_iff hv).2 (by decide +kernel)⟩

/-- An author that the rules admit though a line feed stands at its end. -/
def trailingFeed : Text := "author:\"octocat\n\""

theorem trailingFeed_edit_loses :
    (Validation.ofQuery trailingFeed).isValid = true ∧
      (read (Validation.ofQuery trailingFeed).sanitized).write.map read ≠
        .ok (read (Validation.ofQuery trailingFeed).sanitized) := by
  refine ⟨by decide +kernel, fun hw => ?_⟩
  have hnames : "octocat\n".toList ∈ (read (Validation.ofQuery trailingFeed).sanitized).names := by
    decide +kernel
  have hs := survives_of_write (isDated_read _) hw
  exact not_isBare_of_getLast? (by decide) (hs.isBare_of_mem_names hnames)

end Filter

end PullGauge
