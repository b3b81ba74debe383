import Mathlib
import PullGauge.Proofs.Query.Accepted

/-!
# The marker of a search

A query is completed when the marker stands nowhere in it, be it inside a longer word or
between quotes. A completed query begins with the marker as a token. In a query that was left
as it is, only a marker at which a word begins tells anything: that word qualifies by `is`,
and its value is the one that is meant or the only other admitted value with this beginning.
-/

namespace PullGauge

namespace Text

theorem lowerFrom_eq_nil {before t : Text} (h : lowerFrom before t = []) : t = [] := by
  cases t with
  | nil => rfl
  | cons c r =>
    obtain ⟨hc, -⟩ := List.append_eq_nil_iff.1 h
    unfold lowerChar at hc
    split_ifs at hc

end Text

namespace Token

theorem exists_wordAt {a piece : Text} (ha : Rests a) (hne : piece ≠ []) (hp : piece.IsPlain)
    (b : Text) :
    ∃ r rest, b = r ++ rest ∧ WordAt (a ++ (piece ++ b)) a (piece ++ r) rest := by
  obtain ⟨w, rest, ht, hw, hr⟩ := exists_word false (piece ++ b)
  have hafter : rest = [] ∨ oddQuotes w = false ∧ Breaks rest :=
    hr.imp_right fun h => ⟨by simpa using h.1, h.2.2⟩
  rcases List.append_eq_append_iff.1 ht with ⟨r, rfl, rfl⟩ | ⟨r, rfl, hrest⟩
  · exact ⟨r, rest, rfl, by rw [List.append_assoc], ha, ⟨by simp [hne], hw⟩, hafter⟩
  · cases r with
    | nil =>
      rw [List.append_nil] at hne ⊢
      exact ⟨[], rest, by simp [hrest], by simp [hrest], ha, ⟨by simpa using hne, by simpa using hw⟩,
        by simpa using hafter⟩
    | cons d r =>
      -- the word would end inside the piece, before a character that ends no word
      have hd : isSeparator d = false := (hp d (by simp)).2
      rcases hafter with hnil | ⟨-, hb⟩
      · simp [hrest] at hnil
      · have := hb d (by simp [hrest])
        rw [hd] at this
        exact absurd this (by decide)

theorem IsWord.not_breaks_of_append {piece r : Text} (hw : IsWord (piece ++ r))
    (hq : oddQuotes piece = false) (hr : r ≠ []) (rest : Text) : ¬ Breaks (r ++ rest) := by
  have hh : holds false r = true := by
    have := hw.2
    rw [holds_append, hq, Bool.and_eq_true] at this
    simpa using this.2
  exact IsWord.not_breaks ⟨hr, hh⟩ rest

theorem kindOf_writeValue {key : Text} (hk : IsKey key) (raw : Text) :
    kindOf (key ++ ':' :: raw) = .qualifier ⟨key, raw, false⟩ :=
  kindOf_of_qualifier? (qualifier?_of_isKey hk raw)

end Token

namespace Validation

open Token (Rests Breaks)

def markerToken : Token := ⟨.qualifier ⟨"is", "pr", false⟩, marker, 0⟩

theorem head?_tokenize_marker (t : Text) :
    (tokenize (marker ++ ' ' :: t)).head? = some markerToken := by
  have hb : Breaks (' ' :: t) := by
    intro c hc
    obtain rfl := Option.some.inj hc
    decide
  have hm : tokenize marker = [markerToken] := by decide
  rw [Token.tokenize_append ⟨by decide, .inl hb⟩, hm]
  rfl

theorem stripAngles_of_not_mem {t : Text} (hless : '<' ∉ t) (hgreater : '>' ∉ t) :
    stripAngles t = t := by
  refine List.filter_eq_self.2 fun c hc => ?_
  have hl : c ≠ '<' := fun h => hless (h ▸ hc)
  have hg : c ≠ '>' := fun h => hgreater (h ▸ hc)
  simp [hl, hg]

theorem trim_ne_nil_of_isValid {query : Text} (h : (ofQuery query).isValid = true) :
    Text.trim query ≠ [] := by
  intro he
  simp [ofQuery, he] at h

theorem sanitized_of_trim_ne_nil {query : Text} (h : Text.trim query ≠ []) :
    (ofQuery query).sanitized = stripAngles (complete (Text.trim query)) := by
  have hempty : (Text.trim query).isEmpty = false := by simpa using h
  simp only [ofQuery, hempty, Bool.false_eq_true, if_false]

theorem sanitized_of_isValid {query : Text} (h : (ofQuery query).isValid = true) :
    (ofQuery query).sanitized = stripAngles (complete (Text.trim query)) :=
  sanitized_of_trim_ne_nil (trim_ne_nil_of_isValid h)

theorem sanitized_of_completed {query : Text} (h : (ofQuery query).isValid = true)
    (hm : Text.has marker (Text.trim query) = false) :
    (ofQuery query).sanitized = marker ++ ' ' :: stripAngles (Text.trim query) := by
  have hstrip : stripAngles (marker ++ [' ']) = marker ++ [' '] := by decide
  have happend : stripAngles (marker ++ [' '] ++ Text.trim query) =
      stripAngles (marker ++ [' ']) ++ stripAngles (Text.trim query) := List.filter_append ..
  rw [sanitized_of_isValid h, complete, hm, if_neg (by decide), List.append_cons, happend, hstrip,
    ← List.append_cons]

theorem category_of_prefix {value : Text} (h : ValueRule.allows .category ('p' :: 'r' :: value) = true) :
    value = [] ∨ Text.lower ('p' :: 'r' :: value) = "private".toList := by
  have hl : Text.lower ('p' :: 'r' :: value) = 'p' :: 'r' :: Text.lowerFrom ['r', 'p'] value := rfl
  have hmem : Text.lower ('p' :: 'r' :: value) ∈ ValueRule.choices .category := by
    simpa [ValueRule.allows] using h
  rw [hl] at hmem ⊢
  have hchoices : ∀ w ∈ ValueRule.choices .category,
      w.take 2 = ['p', 'r'] → w = ['p', 'r'] ∨ w = "private".toList := by decide
  rcases hchoices _ hmem rfl with hw | hw
  · simp only [List.cons.injEq, true_and] at hw
    exact .inl (Text.lowerFrom_eq_nil hw)
  · exact .inr hw

theorem infix_complete (t : Text) : marker <:+: complete t := by
  unfold complete
  split_ifs with hm
  · exact Text.has_iff.1 hm
  · exact ⟨[], ' ' :: t, List.append_cons ..⟩

/-- An accepted query holds the marker. It comes first if it was missing, and a word that begins
with it qualifies by `is`, with its own value unless the word goes on behind it. -/
theorem marker_stands {query : Text} (h : (ofQuery query).isValid = true) :
    "is:pr".toList <:+: (ofQuery query).sanitized ∧
    (Text.has marker (Text.trim query) = false →
      (tokenize (ofQuery query).sanitized).head? = some markerToken) ∧
    ∀ a b, (ofQuery query).sanitized = a ++ (marker ++ b) → Rests a →
      ∃ k ∈ tokenize (ofQuery query).sanitized, ∃ q : Qualifier,
        k.position = a.length ∧ k.kind = .qualifier q ∧ q.key = "is".toList ∧ q.negated = false ∧
          (q.value = "pr".toList ∨ Text.lower q.value = "private".toList ∧ ¬ Breaks b) := by
  refine ⟨?_, fun hm => ?_, fun a b hs ha => ?_⟩
  · have hkept : stripAngles marker = "is:pr".toList := by decide
    rw [sanitized_of_isValid h, ← hkept]
    exact (infix_complete _).filter _
  · rw [sanitized_of_completed h hm]
    exact head?_tokenize_marker _
  · obtain ⟨r, rest, hb, hw⟩ := @Token.exists_wordAt a marker ha (by decide) (by decide) b
    rw [← hs] at hw
    have hkind : (Token.ofWord (marker ++ r) a.length).kind =
        .qualifier ⟨"is", "pr".toList ++ r, false⟩ := by
      exact @Token.kindOf_writeValue "is".toList (by decide) ("pr".toList ++ r)
    have hmem := Token.mem_tokenize_iff.2 (.inl ⟨a, marker ++ r, rest, hw, rfl⟩)
    have hq : (⟨"is", "pr".toList ++ r, false⟩ : Qualifier) ∈
        qualifiersIn (ofQuery query).sanitized :=
      List.mem_filterMap.2 ⟨_, hmem, by rw [Token.asQualifier?, hkind]⟩
    refine ⟨_, hmem, _, rfl, hkind, rfl, rfl, ?_⟩
    have hv : (⟨"is", "pr".toList ++ r, false⟩ : Qualifier).value =
        'p' :: 'r' :: r.filter (· != '"') := rfl
    have hrule : ValueRule.ofKey? "is".toList = some .category := by decide
    have hallows := allows_of_qualifierProblem? (qualifierProblem?_of_mem h hq) hrule
      (by rw [hv]; simp)
    rw [hv] at hallows ⊢
    rcases category_of_prefix hallows with hnil | hprivate
    · exact .inl (by rw [hnil]; rfl)
    · refine .inr ⟨hprivate, ?_⟩
      rw [hb]
      refine hw.word.not_breaks_of_append (by decide) ?_ rest
      rintro rfl
      exact absurd hprivate (by decide)

def beforeMarker : Text := "fix label:\"a b\" "

theorem marker_stands_spread :
    "is:pr".toList <:+: (ofQuery "label:is:pr").sanitized ∧
    (tokenize (ofQuery "(author:é OR repo:a/b)").sanitized).head? = some markerToken ∧
      ∃ k ∈ tokenize (ofQuery (beforeMarker ++ marker)).sanitized, ∃ q : Qualifier,
        k.position = beforeMarker.length ∧ k.kind = .qualifier q ∧ q.key = "is".toList ∧
          q.negated = false ∧
          (q.value = "pr".toList ∨ Text.lower q.value = "private".toList ∧ ¬ Breaks []) := by
  have hlabel : (ofQuery "label:is:pr").isValid = true := by decide +kernel
  have hmissing : (ofQuery "(author:é OR repo:a/b)").isValid = true := by decide +kernel
  have hthere : (ofQuery (beforeMarker ++ marker)).isValid = true := by decide +kernel
  have hs : (ofQuery (beforeMarker ++ marker)).sanitized = beforeMarker ++ (marker ++ []) := by
    decide +kernel
  have hlast : beforeMarker.getLast? = some ' ' := by decide
  have hrests : Rests beforeMarker := by
    refine ⟨by decide, fun c hc => ?_⟩
    rw [hlast] at hc
    obtain rfl := Option.some.inj hc
    decide
  exact ⟨(marker_stands hlabel).1, (marker_stands hmissing).2.1 (by decide +kernel),
    (marker_stands hthere).2.2 beforeMarker [] hs hrests⟩

def AsksForPulls (t : Text) : Prop :=
  ∃ q ∈ qualifiersIn t, q.key = "is".toList ∧ q.value = "pr".toList ∧ q.negated = false

instance (t : Text) : Decidable (AsksForPulls t) := List.decidableBEx _ _

/-- A label that holds the marker keeps it from being put in front. -/
theorem marker_in_label :
    (ofQuery "label:is:pr author:octocat").isValid = true ∧
      ¬ AsksForPulls (ofQuery "label:is:pr author:octocat").sanitized := by
  decide +kernel

end Validation

end PullGauge
