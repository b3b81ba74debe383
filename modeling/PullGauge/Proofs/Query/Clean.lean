import Mathlib
import PullGauge.Proofs.Query.Nesting
import PullGauge.Proofs.Query.Stability

/-!
# Queries in which nothing is wrong

Validation finds no problem in a query exactly if its quotes come in pairs, its parentheses are
balanced, no operator is doubled, and every token is in order. Each of these is seen from the
parts of the query: a piece without quotes and separators changes neither quotes nor parentheses,
the tokens at a word are those before it, the word, and those behind it, and blanks or the marker
in front bring no problem. So a query that is not blank is accepted exactly if it fits when it
is completed and is clean without its angle brackets.
-/

namespace PullGauge

namespace Token

theorem holds_isPlain (quoted : Bool) {t : Text} (h : t.IsPlain) : holds quoted t = true := by
  cases quoted with
  | false => exact holds_of_isPlain h
  | true => exact holds_of_not_mem fun hq => (h _ hq).1 rfl

theorem oddQuotes_of_isPlain {t : Text} (h : t.IsPlain) : oddQuotes t = false :=
  oddQuotes_of_not_mem fun hq => (h _ hq).1 rfl

theorem WordAt.tokenize_eq {t a w b : Text} (h : WordAt t a w b) :
    tokenize t =
      tokenize a ++ ofWord w a.length :: (tokenize b).map (shift (a.length + w.length)) := by
  rw [tokenize, h.parts, scan_append (h.before.splits _), scan_word h.word h.after,
    scan_none_eq (0 + a.length + w.length), Nat.zero_add]
  rfl

theorem WordAt.qualifiersIn_eq {t a w b : Text} (h : WordAt t a w b) :
    qualifiersIn t =
      qualifiersIn a ++ ((ofWord w a.length).asQualifier?.toList ++ qualifiersIn b) := by
  have hshift : asQualifier? ∘ shift (a.length + w.length) = asQualifier? := rfl
  rw [qualifiersIn, h.tokenize_eq, List.filterMap_append, List.filterMap_cons,
    List.filterMap_map, hshift]
  cases (ofWord w a.length).asQualifier? with
  | none => rfl
  | some q => rfl

end Token

namespace Validation

open Token (WordAt oddQuotes isParen ofWord shift)

variable {t a w b : Text}

def operatorMarks : Text := "&|!"

theorem repeatedOperators_eq : repeatedOperators = operatorMarks.map fun c => [c, c] := by decide

structure IsClean (t : Text) : Prop where
  quotes : oddQuotes t = false
  parens : balanced t = true
  operators : ∀ c ∈ operatorMarks, ¬ [c, c] <:+: t
  cased : ∀ k ∈ tokenize t, isMiscased k = false
  qualifiers : ∀ q ∈ qualifiersIn t, qualifierProblem? q = none

theorem problemsOf_eq_nil_iff : problemsOf t = [] ↔ IsClean t := by
  have hquotes : t.count '"' % 2 = 0 ↔ oddQuotes t = false := by
    rw [oddQuotes, decide_eq_false_iff_not]
    omega
  have hcased : operatorProblems (tokenize t) = [] ↔ ∀ k ∈ tokenize t, isMiscased k = false := by
    simp [operatorProblems]
  have hqualifiers : qualifierProblems (tokenize t) = [] ↔
      ∀ q ∈ qualifiersIn t, qualifierProblem? q = none := List.filterMap_eq_nil_iff
  have hoperators : (repeatedOperators.filter fun o => Text.has o t) = [] ↔
      ∀ c ∈ operatorMarks, ¬ [c, c] <:+: t := by
    rw [List.filter_eq_nil_iff, repeatedOperators_eq, List.forall_mem_map]
    simp only [Text.has_iff]
  have hshape : shapeProblems t = [] ↔ oddQuotes t = false ∧ balanced t = true ∧
      ∀ c ∈ operatorMarks, ¬ [c, c] <:+: t := by
    rw [← hquotes, ← hoperators, shapeProblems, List.append_eq_nil_iff, List.append_eq_nil_iff,
      List.map_eq_nil_iff, and_assoc]
    simp
  rw [problemsOf, List.append_eq_nil_iff, List.append_eq_nil_iff, hshape, hcased, hqualifiers]
  constructor
  · rintro ⟨⟨⟨hq, hp, ho⟩, hc⟩, hx⟩
    exact ⟨hq, hp, ho, hc, hx⟩
  · intro h
    exact ⟨⟨⟨h.quotes, h.parens, h.operators⟩, h.cased⟩, h.qualifiers⟩

theorem isMiscased_shift (k : Nat) (x : Token) : isMiscased (x.shift k) = isMiscased x := rfl

theorem cased_iff (h : WordAt t a w b) :
    (∀ k ∈ tokenize t, isMiscased k = false) ↔
      (∀ k ∈ tokenize a, isMiscased k = false) ∧ isMiscased (ofWord w a.length) = false ∧
        ∀ k ∈ tokenize b, isMiscased k = false := by
  rw [h.tokenize_eq, List.forall_mem_append, List.forall_mem_cons, List.forall_mem_map]
  simp only [isMiscased_shift]

theorem qualifiers_iff (h : WordAt t a w b) :
    (∀ q ∈ qualifiersIn t, qualifierProblem? q = none) ↔
      (∀ q ∈ qualifiersIn a, qualifierProblem? q = none) ∧
        (∀ q ∈ (ofWord w a.length).asQualifier?, qualifierProblem? q = none) ∧
          ∀ q ∈ qualifiersIn b, qualifierProblem? q = none := by
  rw [h.qualifiersIn_eq, List.forall_mem_append, List.forall_mem_append]
  simp only [Option.mem_toList, Option.mem_def]

theorem filter_isParen_of_isPlain {piece : Text} (h : piece.IsPlain) :
    piece.filter isParen = [] := by
  rw [List.filter_eq_nil_iff]
  intro c hc hp
  have hs := (h c hc).2
  rw [Token.isSeparator_of_isParen hp] at hs
  exact absurd hs (by decide)

theorem balanced_append (h : balanced a = true) (t : Text) : balanced (a ++ t) = balanced t := by
  have hnested : Nested (a.filter isParen) := by
    rw [nested_iff, balanced_filter]
    exact ⟨List.all_filter.trans (by simp), h⟩
  rw [← balanced_filter, List.filter_append, balanced, hnested.balancedFrom_append, ← balanced,
    balanced_filter]

theorem balanced_piece {piece : Text} (h : piece.IsPlain) (before after : Text) :
    balanced (before ++ (piece ++ after)) = balanced (before ++ after) := by
  rw [← balanced_filter, ← balanced_filter (before ++ after), List.filter_append,
    List.filter_append, List.filter_append, filter_isParen_of_isPlain h, List.nil_append]

theorem oddQuotes_piece {piece : Text} (h : piece.IsPlain) (before after : Text) :
    oddQuotes (before ++ (piece ++ after)) = oddQuotes (before ++ after) := by
  rw [Token.oddQuotes_append, Token.oddQuotes_append, Token.oddQuotes_append,
    Token.oddQuotes_of_isPlain h, Bool.false_xor]

theorem isClean_congr {s : Text} (hquotes : oddQuotes s = oddQuotes t)
    (hparens : balanced s = balanced t)
    (hoperators : ∀ c ∈ operatorMarks, ([c, c] <:+: s ↔ [c, c] <:+: t))
    (hcased : (∀ k ∈ tokenize s, isMiscased k = false) ↔ ∀ k ∈ tokenize t, isMiscased k = false)
    (hqualifiers : (∀ q ∈ qualifiersIn s, qualifierProblem? q = none) ↔
      ∀ q ∈ qualifiersIn t, qualifierProblem? q = none) : IsClean s ↔ IsClean t := by
  constructor
  · intro h
    exact ⟨hquotes ▸ h.quotes, hparens ▸ h.parens,
      fun c hc => mt (hoperators c hc).2 (h.operators c hc), hcased.1 h.cased,
      hqualifiers.1 h.qualifiers⟩
  · intro h
    exact ⟨hquotes.trans h.quotes, hparens.trans h.parens,
      fun c hc => mt (hoperators c hc).1 (h.operators c hc), hcased.2 h.cased,
      hqualifiers.2 h.qualifiers⟩

theorem not_mem_operatorMarks_of_isBlank {c : Char} (hb : Text.isBlank c = true) :
    c ∉ operatorMarks := by
  intro hc
  have hmarks : ∀ d ∈ operatorMarks, Text.isBlank d = false := Text.forall_mem_of_all (by decide)
  rw [hmarks c hc] at hb
  exact absurd hb (by decide)

theorem isClean_cons_blank {c : Char} (hb : Text.isBlank c = true) :
    IsClean (c :: t) ↔ IsClean t := by
  have hs : Token.isSeparator c = true := Token.isSeparator_of_isBlank hb
  have hparen : isParen c = false := Token.not_isParen_of_isBlank hb
  have htokens : tokenize (c :: t) = (tokenize t).map (shift 1) := by
    rw [tokenize, Token.scan_none_blank hb, Token.scan_none_eq]
  refine isClean_congr ?_ ?_ (fun d hd => ?_) ?_ (by rw [qualifiersIn_blank hb])
  · rw [Token.oddQuotes_cons, Token.beq_quote_of_separator hs, Bool.xor_false]
  · rw [← balanced_filter, List.filter_cons_of_neg (by simp [hparen]), balanced_filter]
  · have hne : c ≠ d := fun h => not_mem_operatorMarks_of_isBlank hb (h ▸ hd)
    have hcons := doubled_infix_append_cons hne (a := []) (b := t)
    simpa using hcons
  · rw [htokens, List.forall_mem_map]
    simp only [isMiscased_shift]

theorem isClean_append_blank (ha : IsClean a) (t : Text) :
    IsClean (a ++ ' ' :: t) ↔ IsClean t := by
  have hsplits : Token.Splits a (' ' :: t) := ⟨ha.quotes, .inl (breaks_blank t)⟩
  have hblank : IsClean (' ' :: t) ↔ IsClean t := isClean_cons_blank (by decide)
  rw [← hblank]
  refine isClean_congr ?_ (balanced_append ha.parens _) (fun c hc => ?_) ?_ ?_
  · rw [Token.oddQuotes_append, ha.quotes, Bool.false_xor]
  · have hne : ' ' ≠ c := fun h => absurd (h ▸ hc) (by decide)
    rw [doubled_infix_append_cons hne, or_iff_right (ha.operators c hc)]
    simpa using (doubled_infix_append_cons hne (a := []) (b := t)).symm
  · rw [Token.tokenize_append hsplits, List.forall_mem_append, List.forall_mem_map,
      and_iff_right ha.cased]
    simp only [isMiscased_shift]
  · rw [qualifiersIn_append hsplits, List.forall_mem_append, and_iff_right ha.qualifiers]

theorem isClean_joined {parts : List Text} (h : ∀ p ∈ parts, IsClean p) :
    IsClean (joined parts) := by
  refine joined_induction (P := fun ps t => (∀ p ∈ ps, IsClean p) → IsClean t) ?_ ?_ ?_ parts h
  · exact fun _ => problemsOf_eq_nil_iff.1 (by decide)
  · exact fun p hp => hp p (List.mem_singleton_self p)
  · intro p q parts ih hparts
    rw [List.forall_mem_cons] at hparts
    exact (isClean_append_blank hparts.1 _).2 (ih hparts.2)

theorem isClean_append_blanks {lead : Text} (hl : ∀ c ∈ lead, Text.isBlank c = true) (t : Text) :
    IsClean (lead ++ t) ↔ IsClean t := by
  induction lead with
  | nil => rfl
  | cons c lead ih =>
    rw [List.forall_mem_cons] at hl
    rw [List.cons_append, isClean_cons_blank hl.1, ih hl.2]

theorem stripAngles_marker_append (t : Text) :
    stripAngles (marker ++ ' ' :: t) = marker ++ ' ' :: stripAngles t := by
  have hmarker : (marker ++ [' ']).filter (fun c => c != '<' && c != '>') = marker ++ [' '] := by
    decide
  rw [stripAngles, List.append_cons, List.filter_append, hmarker, ← stripAngles,
    ← List.append_cons]

theorem isClean_marker : IsClean marker := problemsOf_eq_nil_iff.1 (by decide)

theorem isClean_marker_append (t : Text) : IsClean (marker ++ ' ' :: t) ↔ IsClean t :=
  isClean_append_blank isClean_marker t

theorem isValid_iff {query : Text} (hne : Text.trim query ≠ []) :
    (ofQuery query).isValid = true ↔
      (complete (Text.trim query)).length ≤ lengthLimit ∧
        IsClean (stripAngles (Text.trim query)) := by
  have hcomplete : IsClean (stripAngles (complete (Text.trim query))) ↔
      IsClean (stripAngles (Text.trim query)) := by
    unfold complete
    split_ifs
    · rfl
    · rw [stripAngles_marker_append, isClean_marker_append]
  have hempty : (Text.trim query).isEmpty = false := by simpa using hne
  have hlong : (if (complete (Text.trim query)).length > lengthLimit then [Problem.tooLong]
      else []) = [] ↔ (complete (Text.trim query)).length ≤ lengthLimit := by
    split_ifs with hl
    · simp [Nat.not_le.2 hl]
    · simp [Nat.not_lt.1 hl]
  rw [← hcomplete, ← problemsOf_eq_nil_iff, ← hlong]
  simp only [ofQuery, hempty, Bool.false_eq_true, if_false, List.isEmpty_iff,
    List.append_eq_nil_iff]

end Validation

end PullGauge
