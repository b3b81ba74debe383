import Mathlib
import PullGauge.Pipeline.People
import PullGauge.Proofs.Calendar.Ordinals
import PullGauge.Proofs.Query.Agreement
import PullGauge.Proofs.Query.Clean
import PullGauge.Proofs.Query.Values
import PullGauge.Query.PageParams
import PullGauge.Suggestion.Basic

/-!
# Queries of the program's own

The program makes queries of a login or of a day by itself: rows of plain parts, with the operator
between some of them. Each part is clean, so the row is, and a login that is not too long fits
twice. The marker is not found in a part by chance, since no other key that is written ends in its
key. So validation accepts every such query, completes it only if the marker was left out, and takes
nothing away but the angle bracket before a day.
-/

namespace PullGauge

open Validation (ofQuery complete stripAngles marker lengthLimit IsClean)

structure IsLogin (login : Text) : Prop where
  ne_nil : login ≠ []
  chars : ∀ c ∈ login, Text.isWordChar c = true ∨ c = '-'
  length_le : login.length ≤ 100

def IsOwnPart (p : Text) : Prop := Filter.IsPlainPart p ∨ p = "OR".toList

namespace Validation

def Accepts (query sanitized : Text) : Prop :=
  (ofQuery query).isValid = true ∧ (ofQuery query).sanitized = sanitized

instance (query sanitized : Text) : Decidable (Accepts query sanitized) :=
  inferInstanceAs (Decidable (_ ∧ _))

theorem accepts_of_isClean {query : Text} (he : IsEdged query)
    (hl : (complete query).length ≤ lengthLimit) (hc : IsClean (stripAngles query)) :
    Accepts query (stripAngles (complete query)) := by
  have hne : Text.trim query ≠ [] := by
    rw [he.trim]
    exact he.1
  constructor
  · rw [isValid_iff hne, he.trim]
    exact ⟨hl, hc⟩
  · rw [sanitized_of_trim_ne_nil hne, he.trim]

theorem complete_of_marker {query : Text} (h : marker <:+: query) : complete query = query := by
  rw [complete, if_pos (Text.has_iff.2 h)]

theorem complete_of_not_marker {query : Text} (h : ¬ marker <:+: query) :
    complete query = marker ++ ' ' :: query := by
  rw [complete, if_neg (mt Text.has_iff.1 h)]

end Validation

open Validation (Accepts)

namespace Filter

theorem IsPlainPart.isClean {p : Text} (hp : IsPlainPart p) : IsClean p := by
  have hparens : [p].flatMap (List.filter Token.isParen) = [] := by
    rw [List.flatMap_singleton, hp.filter_isParen]
  have hproblems := @problemsOf_joined [p] (fun q hq => .inl (List.mem_singleton.1 hq ▸ hp))
    (by rw [hparens]; rfl)
  rw [joined_singleton] at hproblems
  exact Validation.problemsOf_eq_nil_iff.1 hproblems

theorem not_marker_infix_writeValue {key v : Text} (hk : ':' ∉ key) (hv : ':' ∉ v)
    (his : ¬ "is".toList <:+ key) : ¬ marker <:+: writeValue key v := by
  intro h
  have hbegins : "is".toList ++ [':'] <+: marker := by decide
  exact his (suffix_of_infix_append_cons hk hv (hbegins.isInfix.trans h))

end Filter

open PullGauge.Filter (writeValue)

namespace IsOwnPart

variable {p : Text}

theorem isClean (hp : IsOwnPart p) : IsClean p := by
  rcases hp with hp | rfl
  · exact hp.isClean
  · exact Validation.problemsOf_eq_nil_iff.1 (by decide +kernel)

theorem isEdged (hp : IsOwnPart p) : IsEdged p := by
  rcases hp with hp | rfl
  · exact isEdged_of_isPlain hp.1 hp.isPlain
  · exact isEdged_of_isPlain (by decide) (by decide)

theorem stripAngles_eq (hp : IsOwnPart p) : stripAngles p = p := by
  rcases hp with hp | rfl
  · exact Filter.stripAngles_of_isPlainPart hp
  · decide

variable {parts : List Text}

theorem stripAngles_joined_eq (h : ∀ p ∈ parts, IsOwnPart p) :
    stripAngles (joined parts) = joined parts := by
  have hparts : parts.map stripAngles = parts :=
    (List.map_congr_left fun p hp => (h p hp).stripAngles_eq).trans (List.map_id _)
  rw [Filter.stripAngles_joined, hparts]

theorem accepts_joined (hne : parts ≠ []) (he : ∀ p ∈ parts, IsEdged p)
    (h : ∀ p ∈ parts, IsOwnPart (stripAngles p))
    (hl : (complete (joined parts)).length ≤ lengthLimit) :
    Accepts (joined parts) (stripAngles (complete (joined parts))) := by
  refine Validation.accepts_of_isClean (isEdged_joined hne he) hl ?_
  rw [Filter.stripAngles_joined]
  refine Validation.isClean_joined fun p hp => ?_
  obtain ⟨q, hq, rfl⟩ := List.mem_map.1 hp
  exact (h q hq).isClean

theorem accepts_marked (he : ∀ p ∈ parts, IsEdged p) (h : ∀ p ∈ parts, IsOwnPart (stripAngles p))
    (hl : (joined (marker :: parts)).length ≤ lengthLimit) :
    Accepts (joined (marker :: parts)) (stripAngles (joined (marker :: parts))) := by
  have hmarker : IsOwnPart (stripAngles marker) := .inl Filter.isPlainPart_marker
  have hcomplete : complete (joined (marker :: parts)) = joined (marker :: parts) :=
    Validation.complete_of_marker (prefix_joined marker parts).isInfix
  have haccepts := @accepts_joined (marker :: parts) (List.cons_ne_nil _ _)
    (List.forall_mem_cons.2 ⟨Validation.isEdged_marker, he⟩) (List.forall_mem_cons.2 ⟨hmarker, h⟩)
    (by rwa [hcomplete])
  rwa [hcomplete] at haccepts

theorem accepts_marked_own (h : ∀ p ∈ parts, IsOwnPart p)
    (hl : (joined (marker :: parts)).length ≤ lengthLimit) :
    Accepts (joined (marker :: parts)) (joined (marker :: parts)) := by
  have hmarked : ∀ p ∈ marker :: parts, IsOwnPart p :=
    List.forall_mem_cons.2 ⟨.inl Filter.isPlainPart_marker, h⟩
  have haccepts := accepts_marked (fun p hp => (h p hp).isEdged)
    (fun p hp => (h p hp).stripAngles_eq.symm ▸ h p hp) hl
  rwa [stripAngles_joined_eq hmarked] at haccepts

theorem accepts_unmarked_own (hne : parts ≠ []) (h : ∀ p ∈ parts, IsOwnPart p)
    (hmarker : ∀ p ∈ parts, ¬ marker <:+: p)
    (hl : (marker ++ ' ' :: joined parts).length ≤ lengthLimit) :
    Accepts (joined parts) (marker ++ ' ' :: joined parts) := by
  have hcomplete : complete (joined parts) = marker ++ ' ' :: joined parts :=
    Validation.complete_of_not_marker (not_infix_joined (by decide) (by decide) hmarker)
  have haccepts := accepts_joined hne (fun p hp => (h p hp).isEdged)
    (fun p hp => (h p hp).stripAngles_eq.symm ▸ h p hp) (by rwa [hcomplete])
  rwa [hcomplete, Validation.stripAngles_marker_append, stripAngles_joined_eq h] at haccepts

end IsOwnPart

theorem defaultQuery_eq (login : Text) : defaultQuery login =
    joined [marker, writeValue "author" login, "OR".toList, marker,
      writeValue "reviewed-by" login] := by
  have hfirst : "is:pr author:".toList = marker ++ ' ' :: ("author".toList ++ [':']) := by decide
  have hsecond : " OR is:pr reviewed-by:".toList = ' ' :: ("OR".toList ++
      ' ' :: (marker ++ ' ' :: ("reviewed-by".toList ++ [':']))) := by decide
  unfold defaultQuery
  rw [hfirst, hsecond]
  simp only [joined_cons_cons, joined_singleton, writeValue, List.append_assoc, List.cons_append,
    List.nil_append]

theorem length_defaultQuery (login : Text) :
    (defaultQuery login).length = 35 + 2 * login.length := by
  have hfirst : "is:pr author:".toList.length = 13 := by decide
  have hsecond : " OR is:pr reviewed-by:".toList.length = 22 := by decide
  unfold defaultQuery
  rw [List.length_append, List.length_append, List.length_append, hfirst, hsecond]
  omega

namespace Pipeline

theorem ownQuery_eq (login : Text) : ownQuery login =
    joined [writeValue "author" login, "OR".toList, writeValue "reviewed-by" login] := by
  have hfirst : "author:".toList = "author".toList ++ [':'] := by decide
  have hsecond : " OR reviewed-by:".toList =
      ' ' :: ("OR".toList ++ ' ' :: ("reviewed-by".toList ++ [':'])) := by decide
  unfold ownQuery
  rw [hfirst, hsecond]
  simp only [joined_cons_cons, joined_singleton, writeValue, List.append_assoc, List.cons_append,
    List.nil_append]

theorem length_ownQuery (login : Text) : (ownQuery login).length = 23 + 2 * login.length := by
  have hfirst : "author:".toList.length = 7 := by decide
  have hsecond : " OR reviewed-by:".toList.length = 16 := by decide
  unfold ownQuery
  rw [List.length_append, List.length_append, List.length_append, hfirst, hsecond]
  omega

theorem developerQuery_eq (key login : Text) :
    developerQuery key login = joined [marker, writeValue key login] := by
  have hmarker : "is:pr ".toList = marker ++ [' '] := by decide
  unfold developerQuery
  rw [hmarker]
  simp only [joined_cons_cons, joined_singleton, writeValue, List.append_assoc, List.cons_append,
    List.nil_append]

theorem length_developerQuery (key login : Text) :
    (developerQuery key login).length = 7 + key.length + login.length := by
  have hmarker : "is:pr ".toList.length = 6 := by decide
  unfold developerQuery
  rw [List.length_append, List.length_append, List.length_cons, hmarker]
  omega

end Pipeline

namespace IsLogin

variable {login : Text}

theorem isName (h : IsLogin login) : ValueRule.isName login = true := by
  simp only [ValueRule.isName, Bool.and_eq_true, Bool.not_eq_true', List.isEmpty_eq_false_iff,
    List.all_eq_true]
  refine ⟨h.ne_nil, fun c hc => ?_⟩
  rcases h.chars c hc with hword | rfl
  · rw [ValueRule.isNameChar, hword, Bool.true_or]
  · decide

theorem isUser (h : IsLogin login) : ValueRule.isUser login = true := by
  simp [ValueRule.isUser, h.isName]

theorem colon_not_mem (h : IsLogin login) : ':' ∉ login :=
  ValueRule.colon_not_mem_of_isBareText (ValueRule.isBareText_of_isUser h.isUser)

theorem isOwnPart {key : Text} (hk : Filter.IsJudged .user key) (h : IsLogin login) :
    IsOwnPart (writeValue key login) :=
  .inl (Filter.isPlainPart_user hk h.isUser)

theorem accepts_defaultQuery (h : IsLogin login) :
    Accepts (defaultQuery login) (defaultQuery login) := by
  have hlength := h.length_le
  rw [defaultQuery_eq]
  refine IsOwnPart.accepts_marked_own (fun p hp => ?_) ?_
  · simp only [List.mem_cons, List.not_mem_nil, or_false] at hp
    rcases hp with rfl | rfl | rfl | rfl
    · exact h.isOwnPart (by decide)
    · exact .inr rfl
    · exact .inl Filter.isPlainPart_marker
    · exact h.isOwnPart (by decide)
  · rw [← defaultQuery_eq, length_defaultQuery, lengthLimit]
    omega

theorem accepts_ownQuery (h : IsLogin login) :
    Accepts (Pipeline.ownQuery login) (marker ++ ' ' :: Pipeline.ownQuery login) := by
  have hlength := h.length_le
  have hmarker : marker.length = 5 := by decide
  rw [Pipeline.ownQuery_eq]
  refine IsOwnPart.accepts_unmarked_own (by simp) (fun p hp => ?_) (fun p hp => ?_) ?_
  · simp only [List.mem_cons, List.not_mem_nil, or_false] at hp
    rcases hp with rfl | rfl | rfl
    · exact h.isOwnPart (by decide)
    · exact .inr rfl
    · exact h.isOwnPart (by decide)
  · simp only [List.mem_cons, List.not_mem_nil, or_false] at hp
    rcases hp with rfl | rfl | rfl
    · exact Filter.not_marker_infix_writeValue (by decide) h.colon_not_mem (by decide)
    · decide
    · exact Filter.not_marker_infix_writeValue (by decide) h.colon_not_mem (by decide)
  · rw [← Pipeline.ownQuery_eq, List.length_append, List.length_cons, Pipeline.length_ownQuery,
      hmarker, lengthLimit]
    omega

theorem accepts_developerQuery (h : IsLogin login) {key : Text}
    (hk : key ∈ ["author".toList, "reviewed-by".toList]) :
    Accepts (Pipeline.developerQuery key login) (Pipeline.developerQuery key login) := by
  have hlength := h.length_le
  have hkeys : ∀ key ∈ ["author".toList, "reviewed-by".toList],
      Filter.IsJudged .user key ∧ key.length ≤ 11 := by decide
  obtain ⟨hjudged, hkeyLength⟩ := hkeys key hk
  rw [Pipeline.developerQuery_eq]
  refine IsOwnPart.accepts_marked_own (fun p hp => ?_) ?_
  · rw [List.mem_singleton.1 hp]
    exact h.isOwnPart hjudged
  · rw [← Pipeline.developerQuery_eq, Pipeline.length_developerQuery, lengthLimit]
    omega

end IsLogin

namespace Suggestion

theorem templates_eq {today since : Date} (h : since.ordinal + recentDays = today.ordinal) :
    templates today = .ok (templatesSince since) := by
  have hback : today.addDays? (-(recentDays : Int)) = some since := by
    rw [Date.addDays?, Date.ofOrdinal?_eq_some_iff]
    omega
  rw [templates, hback]

theorem recent_eq (since : Date) :
    "is:pr updated:>".toList ++ since.write ++ " involves:@me".toList =
      joined [marker, writeValue "updated" ('>' :: since.write), writeValue "involves" "@me"] := by
  have hfirst : "is:pr updated:>".toList = marker ++ ' ' :: ("updated".toList ++ [':', '>']) := by
    decide
  have hsecond : " involves:@me".toList = ' ' :: writeValue "involves" "@me" := by decide
  rw [hfirst, hsecond]
  simp only [joined_cons_cons, joined_singleton, writeValue, List.append_assoc, List.cons_append,
    List.nil_append]

theorem accepts_recent (since : Date) :
    Accepts ("is:pr updated:>".toList ++ since.write ++ " involves:@me".toList)
      (stripAngles ("is:pr updated:>".toList ++ since.write ++ " involves:@me".toList)) := by
  have hlength :
      ("is:pr updated:>".toList ++ since.write ++ " involves:@me".toList).length = 38 := by
    have hfirst : "is:pr updated:>".toList.length = 15 := by decide
    have hsecond : " involves:@me".toList.length = 13 := by decide
    rw [List.length_append, List.length_append, hfirst, hsecond, since.length_write]
  have hday : IsOwnPart (writeValue "updated" since.write) :=
    .inl (Filter.isPlainPart_date (by decide) since)
  have hbound : IsEdged (writeValue "updated" ('>' :: since.write)) :=
    Filter.isEdged_writeValue (by decide)
      (@Bounds.isPlain_endValues (some since) none _ (List.mem_singleton_self _)).2
  have hinvolves : IsOwnPart (writeValue "involves" "@me") :=
    .inl (Filter.isPlainPart_user (by decide) (by decide))
  rw [recent_eq] at hlength ⊢
  refine IsOwnPart.accepts_marked (fun p hp => ?_) (fun p hp => ?_) (by rw [hlength]; decide)
  · simp only [List.mem_cons, List.not_mem_nil, or_false] at hp
    rcases hp with rfl | rfl
    · exact hbound
    · exact hinvolves.isEdged
  · simp only [List.mem_cons, List.not_mem_nil, or_false] at hp
    rcases hp with rfl | rfl
    · rw [Filter.stripAngles_writeValue_cons (by decide) (by decide)]
      exact hday
    · rw [hinvolves.stripAngles_eq]
      exact hinvolves

theorem accepts_templates (since : Date) :
    ∀ s ∈ templatesSince since, ∃ q, s.insertion = some q ∧ Accepts q (stripAngles q) := by
  intro s hs
  simp only [templatesSince, List.mem_cons, List.not_mem_nil, or_false] at hs
  rcases hs with rfl | rfl | rfl | rfl
  · exact ⟨_, rfl, by decide +kernel⟩
  · exact ⟨_, rfl, by decide +kernel⟩
  · exact ⟨_, rfl, accepts_recent since⟩
  · exact ⟨_, rfl, by decide +kernel⟩

end Suggestion

/-- Validation accepts the queries that the program makes, and takes nothing away but the angle
bracket before a day. -/
theorem Validation.accepts_own_queries :
    (∀ login, IsLogin login →
      Accepts (defaultQuery login) (defaultQuery login) ∧
      Accepts (Pipeline.ownQuery login) (marker ++ ' ' :: Pipeline.ownQuery login) ∧
      ∀ key ∈ ["author".toList, "reviewed-by".toList],
        Accepts (Pipeline.developerQuery key login) (Pipeline.developerQuery key login)) ∧
    ∀ today since : Date, since.ordinal + 7 = today.ordinal →
      Suggestion.templates today = .ok (Suggestion.templatesSince since) ∧
      ∀ s ∈ Suggestion.templatesSince since,
        ∃ q, s.insertion = some q ∧ Accepts q (stripAngles q) := by
  constructor
  · intro login h
    exact ⟨h.accepts_defaultQuery, h.accepts_ownQuery, fun key hk => h.accepts_developerQuery hk⟩
  · intro today since h
    exact ⟨Suggestion.templates_eq h, Suggestion.accepts_templates since⟩

/-- A login that could be taken for an operator, or for the value of the marker. -/
def oddLogin : Text := "pr-É_ß-OR"

theorem Validation.accepts_own_queries_odd :
    IsLogin oddLogin ∧
      Accepts (Pipeline.ownQuery oddLogin) (marker ++ ' ' :: Pipeline.ownQuery oddLogin) ∧
      Suggestion.templates ⟨2024, 3, 7, by decide⟩ =
        .ok (Suggestion.templatesSince ⟨2024, 2, 29, by decide⟩) := by
  have hlogin : IsLogin oddLogin :=
    ⟨by decide, Text.forall_mem_of_all (by decide +kernel), by decide⟩
  obtain ⟨hlogins, hdays⟩ := Validation.accepts_own_queries
  exact ⟨hlogin, (hlogins oddLogin hlogin).2.1, (hdays _ _ (by decide)).1⟩

end PullGauge
