import Mathlib
import PullGauge.Query.Complexity
import PullGauge.Proofs.Query.Joining

/-!
# Queries that grow

When a blank and more text are put behind a query, its tokens stay where they are, and only a last
word whose quote was never closed goes on. Such a word is no operator, and the key of a qualifier
stands before its quote. So nothing that makes a query involved is lost: the operators and
parentheses, the dates, and the words between blanks, which do not heed quotes at all.
-/

namespace PullGauge

namespace Text

theorem splitAtFirst_append {c : Char} {t a b : Text} (h : splitAtFirst [c] t = some (a, b))
    (v : Text) : splitAtFirst [c] (t ++ v) = some (a, b ++ v) := by
  induction t generalizing a with
  | nil => simp [splitAtFirst] at h
  | cons d t ih =>
    by_cases hd : c = d
    · simp [splitAtFirst, List.isPrefixOf, hd] at h ⊢
      obtain ⟨rfl, rfl⟩ := h
      exact ⟨rfl, rfl⟩
    · simp only [splitAtFirst, List.isPrefixOf, beq_eq_false_iff_ne.2 hd, Bool.false_and,
        Bool.false_eq_true, if_false, List.cons_append] at h ⊢
      obtain ⟨⟨x, y⟩, hx, hy⟩ := Option.map_eq_some_iff.1 h
      obtain ⟨rfl, rfl⟩ := Prod.mk.inj hy
      rw [ih hx]
      rfl

theorem wordsFrom_append_blank {c : Char} (hc : isBlank c = true) (w a b : Text) :
    wordsFrom w (a ++ c :: b) = wordsFrom w a ++ words b := by
  have hclose (w : Text) (ws : List Text) : closeWord w ws = closeWord w [] ++ ws := by
    unfold closeWord
    split_ifs <;> rfl
  induction a generalizing w with
  | nil =>
    have hstart : wordsFrom w (c :: b) = closeWord w (words b) := by
      rw [wordsFrom, if_pos hc]
      rfl
    rw [List.nil_append, hstart, hclose]
    rfl
  | cons d a ih =>
    rw [List.cons_append, wordsFrom, wordsFrom]
    split_ifs with hd
    · rw [ih, hclose, hclose w (wordsFrom [] a), List.append_assoc]
    · exact ih (d :: w)

theorem words_append_blank {c : Char} (hc : isBlank c = true) (a b : Text) :
    words (a ++ c :: b) = words a ++ words b :=
  wordsFrom_append_blank hc [] a b

end Text

namespace Token

variable {t a w b s : Text} {c : Char} {k : Token}

theorem ParenAt.append_right (h : ParenAt t a c b) (s : Text) : ParenAt (t ++ s) a c (b ++ s) :=
  ⟨by rw [h.parts, List.append_assoc, List.cons_append], h.before, h.paren⟩

theorem WordAt.append_right (h : WordAt t a w b) (hs : Breaks s) :
    ∃ v rest, WordAt (t ++ s) a (w ++ v) rest ∧ (v = [] ∨ oddQuotes w = true) := by
  by_cases hodd : oddQuotes w = true
  · obtain rfl : b = [] := h.after.resolve_right fun hb => by simp [hodd] at hb
    obtain ⟨v, rest, rfl, hv, hrest⟩ := exists_word true s
    refine ⟨v, rest, ⟨by simp [h.parts], h.before, ⟨by simp [h.word.1], ?_⟩, ?_⟩, .inr hodd⟩
    · rw [holds_append, h.word.2, hodd]
      simpa using hv
    · refine hrest.imp_right fun ⟨hq, _, hb⟩ => ⟨?_, hb⟩
      rw [oddQuotes_append, hodd, hq]
  · have heven : oddQuotes w = false := by simpa using hodd
    have hbreaks : Breaks (b ++ s) := by
      rcases h.after with rfl | ⟨-, hb⟩
      · exact hs
      · intro c hc
        cases b with
        | nil => exact hs c hc
        | cons d b => exact hb c hc
    exact ⟨[], b ++ s, ⟨by simp [h.parts], h.before, by simpa using h.word,
      .inr ⟨by simpa using heven, hbreaks⟩⟩, .inl rfl⟩

theorem mem_tokenize_append (hk : k ∈ tokenize t) (hs : Breaks s) :
    k ∈ tokenize (t ++ s) ∨ ∃ w v p, k = ofWord w p ∧ oddQuotes w = true ∧
      ofWord (w ++ v) p ∈ tokenize (t ++ s) := by
  rcases mem_tokenize_iff.1 hk with ⟨a, w, b, h, rfl⟩ | ⟨a, c, b, h, rfl⟩
  · obtain ⟨v, rest, hword, hv⟩ := h.append_right hs
    have hmem : ofWord (w ++ v) a.length ∈ tokenize (t ++ s) :=
      mem_tokenize_iff.2 (.inl ⟨a, w ++ v, rest, hword, rfl⟩)
    rcases hv with rfl | hodd
    · exact .inl (by simpa using hmem)
    · exact .inr ⟨w, v, a.length, rfl, hodd, hmem⟩
  · exact .inl (mem_tokenize_iff.2 (.inr ⟨a, c, b ++ s, h.append_right s, rfl⟩))

theorem not_mem_operators_of_quote (h : '"' ∈ w) : w ∉ operators := by
  have hall : ∀ o ∈ operators, '"' ∉ o := by decide
  exact fun ho => hall w ho h

theorem quote_mem_of_oddQuotes (h : oddQuotes w = true) : '"' ∈ w := by
  by_contra hn
  rw [oddQuotes_of_not_mem hn] at h
  cases h

theorem negation_append (hne : w ≠ []) (v : Text) :
    negation (w ++ v) = ((negation w).1, (negation w).2 ++ v) := by
  cases w with
  | nil => exact absurd rfl hne
  | cons d w => by_cases hd : d = '-' <;> simp [negation, hd]

theorem qualifier?_append {q : Qualifier} (h : qualifier? w = some q) (v : Text) :
    qualifier? (w ++ v) = some ⟨q.key, q.raw ++ v, q.negated⟩ := by
  have hne : w ≠ [] := by
    rintro rfl
    simp [qualifier?, negation, Text.splitAtFirst] at h
  simp only [qualifier?, negation_append hne] at h ⊢
  split at h
  · rename_i key raw hsplit
    rw [Text.splitAtFirst_append hsplit]
    dsimp only
    split_ifs at h with hkey
    obtain rfl := Option.some.inj h
    rw [if_pos hkey]
  · cases h

end Token

namespace Complexity

open Token (kindOf ofWord oddQuotes Breaks)

def rank : Complexity → Nat
  | .simple => 0
  | .moderate => 1
  | .complex => 2

theorem rank_injective : Function.Injective rank := by
  intro a b h
  cases a <;> cases b <;> first | rfl | cases h

instance : LinearOrder Complexity := LinearOrder.lift' rank rank_injective

def grade (combined dated : Bool) (count : Nat) : Complexity :=
  if combined || decide (8 < count) then .complex
  else if dated || decide (4 < count) then .moderate
  else .simple

theorem ofQuery_eq_grade (query : Text) : ofQuery query =
    grade ((tokenize query).any combines) ((tokenize query).any isDated)
      (Text.words query).length := rfl

theorem grade_mono {combined dated combined' dated' : Bool} {count count' : Nat}
    (hc : combined = true → combined' = true) (hd : dated = true → dated' = true)
    (hcount : count ≤ count') : grade combined dated count ≤ grade combined' dated' count' := by
  have hgrows {b b' : Bool} (hb : b = true → b' = true) (n : Nat)
      (h : (b || decide (n < count)) = true) : (b' || decide (n < count')) = true := by
    simp only [Bool.or_eq_true, decide_eq_true_eq] at h ⊢
    exact h.imp hb fun hn => hn.trans_le hcount
  change (grade combined dated count).rank ≤ (grade combined' dated' count').rank
  by_cases hcomplex : (combined' || decide (8 < count')) = true
  · rw [grade, grade, if_pos hcomplex]
    split_ifs <;> decide
  · rw [grade, grade, if_neg hcomplex, if_neg (mt (hgrows hc 8) hcomplex)]
    by_cases hmoderate : (dated' || decide (4 < count')) = true
    · rw [if_pos hmoderate]
      split_ifs <;> decide
    · rw [if_neg hmoderate, if_neg (mt (hgrows hd 4) hmoderate)]

variable {w v t s : Text} {p : Nat}

theorem combines_ofWord_of_oddQuotes (h : oddQuotes w = true) : combines (ofWord w p) = false := by
  have hop : w ∉ Token.operators :=
    Token.not_mem_operators_of_quote (Token.quote_mem_of_oddQuotes h)
  cases hq : Token.qualifier? w <;> simp [combines, ofWord, kindOf, hop, hq]

theorem isDated_ofWord_append (h : isDated (ofWord w p) = true) (v : Text) :
    isDated (ofWord (w ++ v) p) = true := by
  rw [isDated, Token.asQualifier?_ofWord] at h ⊢
  cases hq : Token.qualifier? w with
  | none => simp [hq] at h
  | some q =>
    rw [hq] at h
    rw [Token.qualifier?_append hq v]
    exact h

theorem any_combines_append (hs : Breaks s) (h : (tokenize t).any combines = true) :
    (tokenize (t ++ s)).any combines = true := by
  obtain ⟨k, hk, hcombines⟩ := List.any_eq_true.1 h
  rcases Token.mem_tokenize_append hk hs with hk | ⟨w, v, p, rfl, hodd, -⟩
  · exact List.any_eq_true.2 ⟨k, hk, hcombines⟩
  · rw [combines_ofWord_of_oddQuotes hodd] at hcombines
    cases hcombines

theorem any_isDated_append (hs : Breaks s) (h : (tokenize t).any isDated = true) :
    (tokenize (t ++ s)).any isDated = true := by
  obtain ⟨k, hk, hdated⟩ := List.any_eq_true.1 h
  rcases Token.mem_tokenize_append hk hs with hk | ⟨w, v, p, rfl, -, hmem⟩
  · exact List.any_eq_true.2 ⟨k, hk, hdated⟩
  · exact List.any_eq_true.2 ⟨_, hmem, isDated_ofWord_append hdated v⟩

/-- A query never becomes less involved when a blank and more text are put behind it. -/
theorem ofQuery_le_append : simple < moderate ∧ moderate < complex ∧
    ∀ query more : Text, ofQuery query ≤ ofQuery (query ++ ' ' :: more) := by
  refine ⟨by decide, by decide, fun query more => ?_⟩
  have hbreaks : Breaks (' ' :: more) := by
    rintro c ⟨⟩
    decide
  have hcount : (Text.words query).length ≤ (Text.words (query ++ ' ' :: more)).length := by
    rw [Text.words_append_blank (by decide), List.length_append]
    exact Nat.le_add_right ..
  rw [ofQuery_eq_grade, ofQuery_eq_grade]
  exact grade_mono (any_combines_append hbreaks) (any_isDated_append hbreaks) hcount

/-- An open quote takes in an operator and a parenthesis, and the date before it stays one. -/
example : ofQuery "created:\"2024" = .moderate ∧ ofQuery "created:\"2024 OR (x" = .moderate ∧
    ofQuery "created:\"2024 OR (x\" )" = .complex := by decide +kernel

end Complexity

end PullGauge
