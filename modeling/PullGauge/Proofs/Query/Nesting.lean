import Mathlib
import PullGauge.Proofs.Query.Parts
import PullGauge.Query.Filter

/-!
# Parentheses between quotes

Validation counts the parentheses of a query character by character, while the tokenizer makes
a bracket of a parenthesis only outside quotes. Both see the same parentheses in the same
order, so validation reports a query exactly when the parentheses in the texts of all its
tokens, taken in their order, are not well nested. That is a judgement of the brackets alone
where the parentheses within each word are well nested by themselves, and not elsewhere.
-/

namespace PullGauge

open Token (isParen)
open Validation (balancedFrom balanced)

inductive Nested : Text → Prop where
  | nil : Nested []
  | wrap {inside rest : Text} (hi : Nested inside) (hr : Nested rest) :
      Nested ('(' :: inside ++ ')' :: rest)

namespace Nested

def Closing : Nat → Text → Prop
  | 0, t => Nested t
  | d + 1, t => ∃ inside rest, t = inside ++ ')' :: rest ∧ Nested inside ∧ Closing d rest

theorem Closing.wrap {d : Nat} {inside rest : Text} (hi : Nested inside) (hr : Closing d rest) :
    Closing d ('(' :: inside ++ ')' :: rest) := by
  cases d with
  | zero => exact Nested.wrap hi hr
  | succ d =>
    obtain ⟨between, last, hrest, hb, hl⟩ := hr
    refine ⟨'(' :: inside ++ ')' :: between, last, ?_, Nested.wrap hi hb, hl⟩
    rw [hrest]
    simp

theorem balancedFrom_append {n : Text} (h : Nested n) (d : Nat) (t : Text) :
    balancedFrom d (n ++ t) = balancedFrom d t := by
  induction h generalizing d t with
  | nil => rfl
  | @wrap inside rest _ _ ihi ihr =>
    have hparts : '(' :: inside ++ ')' :: rest ++ t = '(' :: (inside ++ ')' :: (rest ++ t)) := by
      simp
    have hopen (r : Text) : balancedFrom d ('(' :: r) = balancedFrom (d + 1) r := rfl
    have hclose (r : Text) : balancedFrom (d + 1) (')' :: r) = balancedFrom d r := rfl
    rw [hparts, hopen, ihi, hclose, ihr]

theorem closing_of_balancedFrom {t : Text} (ht : ∀ c ∈ t, isParen c = true) {d : Nat}
    (h : balancedFrom d t = true) : Closing d t := by
  induction t generalizing d with
  | nil =>
    obtain rfl : d = 0 := by simpa [balancedFrom] using h
    exact Nested.nil
  | cons c t ih =>
    have htail : ∀ e ∈ t, isParen e = true := fun e he => ht e (by simp [he])
    have hc : c = '(' ∨ c = ')' := by simpa [isParen] using ht c (by simp)
    rcases hc with rfl | rfl
    · obtain ⟨inside, rest, rfl, hi, hr⟩ := ih htail (d := d + 1) h
      exact Closing.wrap hi hr
    · cases d with
      | zero => simp [balancedFrom] at h
      | succ d => exact ⟨[], t, rfl, Nested.nil, ih htail h⟩

theorem isParen_of_mem {t : Text} (h : Nested t) : ∀ c ∈ t, isParen c = true := by
  induction h with
  | nil => simp
  | @wrap inside rest _ _ ihi ihr =>
    intro c hc
    have hcases : c = '(' ∨ c ∈ inside ∨ c = ')' ∨ c ∈ rest := by simpa using hc
    rcases hcases with rfl | hi | rfl | hr
    · decide
    · exact ihi c hi
    · decide
    · exact ihr c hr

end Nested

theorem nested_iff (t : Text) : Nested t ↔ t.all isParen = true ∧ balanced t = true := by
  rw [List.all_eq_true]
  constructor
  · intro h
    have hempty := h.balancedFrom_append 0 []
    rw [List.append_nil] at hempty
    refine ⟨h.isParen_of_mem, ?_⟩
    rw [balanced, hempty]
    rfl
  · intro ⟨ht, hb⟩
    exact Nested.closing_of_balancedFrom ht (d := 0) hb

instance : DecidablePred Nested := fun t => decidable_of_iff _ (nested_iff t).symm

namespace Token

/-- The parentheses in the text of a token, those between quotes as well. -/
def parens (k : Token) : Text := k.text.filter isParen

def bracket? (k : Token) : Option Char :=
  match k.kind with
  | .leftParen => some '('
  | .rightParen => some ')'
  | _ => none

theorem bracket?_paren {c : Char} (h : isParen c = true) (p : Nat) :
    (paren c p).bracket? = some c := by
  have hc : c = '(' ∨ c = ')' := by simpa [isParen] using h
  rcases hc with rfl | rfl
  · rfl
  · rfl

theorem bracket?_ofWord (w : Text) (p : Nat) : (ofWord w p).bracket? = none := by
  unfold bracket? ofWord kindOf
  by_cases ho : operators.contains w = true
  · simp only [ho, if_true]
  · simp only [ho, if_false, Bool.false_eq_true]
    cases qualifier? w with
    | none => rfl
    | some q => rfl

theorem parens_paren {c : Char} (h : isParen c = true) (p : Nat) : (paren c p).parens = [c] := by
  simp [parens, paren, h]

theorem parens_of_cuts {p : Nat} {t : Text} {ts : List Token} (h : Cuts p t ts) :
    ts.flatMap parens = t.filter isParen := by
  induction h with
  | done p => rfl
  | blank hc _ ih => rw [ih, List.filter_cons_of_neg (by simp [not_isParen_of_isBlank hc])]
  | bracket hc _ ih =>
    rw [List.flatMap_cons, ih, parens_paren hc, List.filter_cons_of_pos hc, List.singleton_append]
  | last hw => rw [List.flatMap_singleton, parens, ofWord]
  | word _ _ _ _ ih => rw [List.flatMap_cons, ih, List.filter_append, parens, ofWord]

end Token

theorem parens_tokenize (t : Text) : (tokenize t).flatMap Token.parens = t.filter isParen :=
  Token.parens_of_cuts (Token.cuts_scan 0 t)

def brackets (ts : List Token) : Text := ts.filterMap Token.bracket?

theorem balancedFrom_parens {p : Nat} {t : Text} {ts : List Token} (h : Token.Cuts p t ts)
    (hn : ∀ k ∈ ts, k.bracket? = none → Nested k.parens) (d : Nat) :
    balancedFrom d (ts.flatMap Token.parens) = balancedFrom d (brackets ts) := by
  have hword {w : Text} {q : Nat} {us : List Token}
      (hw : Nested (Token.ofWord w q).parens) (e : Nat) :
      balancedFrom e ((Token.ofWord w q :: us).flatMap Token.parens) =
        balancedFrom e (us.flatMap Token.parens) := by
    rw [List.flatMap_cons, hw.balancedFrom_append]
  have hnone (w : Text) (q : Nat) (us : List Token) :
      brackets (Token.ofWord w q :: us) = brackets us :=
    List.filterMap_cons_none (Token.bracket?_ofWord w q)
  induction h generalizing d with
  | done p => rfl
  | blank _ _ ih => exact ih hn d
  | @bracket p c t ts hc _ ih =>
    have hsome : brackets (Token.paren c p :: ts) = c :: brackets ts :=
      List.filterMap_cons_some (Token.bracket?_paren hc p)
    have htail (e : Nat) := ih (fun k hk => hn k (by simp [hk])) e
    rw [List.flatMap_cons, Token.parens_paren hc, hsome, List.singleton_append]
    unfold balancedFrom
    simp only [htail]
  | last hw =>
    rw [hword (hn _ (by simp) (Token.bracket?_ofWord ..)), hnone]
    rfl
  | word _ _ _ _ ih =>
    rw [hword (hn _ (by simp) (Token.bracket?_ofWord ..)), hnone]
    exact ih (fun k hk => hn k (by simp [hk])) d

namespace Validation

theorem take_complaint (rule : ValueRule) (key value : Text) :
    (rule.complaint key value).take 3 = ['I', 'n', 'v'] := by
  cases rule <;> rfl

theorem eq_unmatchedParentheses {p : Problem}
    (h : p.message = Problem.unmatchedParentheses.message) : p = .unmatchedParentheses := by
  have hthis : Problem.unmatchedParentheses.message.take 3 = ['U', 'n', 'm'] := rfl
  have hother (hp : p.message.take 3 ≠ ['U', 'n', 'm']) : False := hp (by rw [h, hthis])
  cases p with
  | unmatchedParentheses => rfl
  | unmatchedQuote => exact absurd h (by decide +kernel)
  | badValue rule key value =>
    have htake : (Problem.badValue rule key value).message.take 3 = ['I', 'n', 'v'] :=
      take_complaint rule key value
    exact (hother (by rw [htake]; decide)).elim
  | repeatedOperator operator =>
    have htake : (Problem.repeatedOperator operator).message.take 3 = ['R', 'e', 'p'] := rfl
    exact (hother (by rw [htake]; decide)).elim
  | unsupportedKey key =>
    have htake : (Problem.unsupportedKey key).message.take 3 = ['U', 'n', 's'] := rfl
    exact (hother (by rw [htake]; decide)).elim
  | empty => exact absurd h (by decide +kernel)
  | tooLong => exact absurd h (by decide +kernel)
  | operatorCase => exact absurd h (by decide +kernel)

theorem not_mem_qualifierProblems (ts : List Token) :
    Problem.unmatchedParentheses ∉ qualifierProblems ts := by
  intro h
  obtain ⟨q, -, hq⟩ := List.mem_filterMap.1 h
  unfold qualifierProblem? at hq
  split_ifs at hq
  · obtain ⟨rule, -, hr⟩ := Option.bind_eq_some_iff.1 hq
    split_ifs at hr
    exact absurd (Option.some.inj hr) (by nofun)
  · exact absurd (Option.some.inj hq) (by nofun)

theorem mem_problemsOf_iff (t : Text) :
    Problem.unmatchedParentheses ∈ problemsOf t ↔ balanced t = false := by
  have hq := not_mem_qualifierProblems (tokenize t)
  have ho : Problem.unmatchedParentheses ∉ operatorProblems (tokenize t) := by
    unfold operatorProblems
    split_ifs <;> simp
  have hs : Problem.unmatchedParentheses ∈ shapeProblems t ↔ balanced t = false := by
    unfold shapeProblems
    split_ifs <;> simp_all
  simp only [problemsOf, List.mem_append, hq, ho, hs, or_false]

def Complains (query : Text) : Prop :=
  Problem.unmatchedParentheses.message ∈ (ofQuery query).problems.map Problem.message

instance (query : Text) : Decidable (Complains query) := inferInstanceAs (Decidable (_ ∈ _))

theorem complains_iff {query : Text} (h : Text.trim query ≠ []) :
    Complains query ↔ balanced (ofQuery query).sanitized = false := by
  have hmessage : Complains query ↔ Problem.unmatchedParentheses ∈ (ofQuery query).problems := by
    constructor
    · intro hm
      obtain ⟨p, hp, hpm⟩ := List.mem_map.1 hm
      rwa [eq_unmatchedParentheses hpm] at hp
    · exact List.mem_map_of_mem
  have hne : (Text.trim query).isEmpty = false := by simpa using h
  rw [hmessage, ← mem_problemsOf_iff]
  simp only [ofQuery, hne, Bool.false_eq_true, if_false, List.mem_append]
  constructor
  · intro hp
    rcases hp with hp | hp
    · split_ifs at hp <;> simp at hp
    · exact hp
  · exact Or.inr

/-- Validation complains of the parentheses of a query exactly if those in the texts of all its
tokens are not well nested. Where those within each word are well nested by themselves, this
comes to the brackets alone. -/
theorem complains_iff_not_nested {query : Text} (h : Text.trim query ≠ []) :
    (Complains query ↔
      ¬ Nested ((tokenize (ofQuery query).sanitized).flatMap Token.parens)) ∧
    ((∀ k ∈ tokenize (ofQuery query).sanitized, k.bracket? = none → Nested k.parens) →
      (Complains query ↔ ¬ Nested (brackets (tokenize (ofQuery query).sanitized)))) := by
  have hnested (t : Text) (ht : ∀ c ∈ t, isParen c = true) :
      balanced t = false ↔ ¬ Nested t := by
    have hall : t.all isParen = true := List.all_eq_true.2 ht
    rw [nested_iff, hall, eq_self, true_and, Bool.not_eq_true]
  have hparens := parens_tokenize (ofQuery query).sanitized
  have hbracket (k : Token) (c : Char) (hc : k.bracket? = some c) : isParen c = true := by
    unfold Token.bracket? at hc
    split at hc
    · rw [← Option.some.inj hc]; decide
    · rw [← Option.some.inj hc]; decide
    · exact absurd hc (by nofun)
  rw [complains_iff h, ← balanced_filter, ← hparens]
  constructor
  · refine hnested _ fun c hc => ?_
    rw [hparens] at hc
    exact (List.mem_filter.1 hc).2
  · intro hwords
    have hcount := balancedFrom_parens (Token.cuts_scan 0 (ofQuery query).sanitized) hwords 0
    rw [balanced, tokenize, hcount]
    refine hnested _ fun c hc => ?_
    obtain ⟨k, -, hk⟩ := List.mem_filterMap.1 hc
    exact hbracket k c hk

def grouped : Text := "((is:pr label:\"a (b)\" OR draft:true)"

theorem grouped_complains : Complains grouped ∧ ¬ Nested (brackets (tokenize grouped)) := by
  have hne : Text.trim grouped ≠ [] := by decide +kernel
  have hs : (ofQuery grouped).sanitized = grouped := by decide +kernel
  have hwords : ∀ k ∈ tokenize (ofQuery grouped).sanitized, k.bracket? = none →
      Nested k.parens := by decide +kernel
  have hopen : ¬ Nested (brackets (tokenize grouped)) := by decide +kernel
  refine ⟨((complains_iff_not_nested hne).2 hwords).2 ?_, hopen⟩
  rwa [hs]

/-- The query of a filter for the label `:)`. It has no brackets at all. -/
def smiling : Text := "is:pr label:\":)\""

theorem smiling_complains :
    Filter.write { labels := [":)"] } = .ok smiling ∧
      (ofQuery smiling).sanitized = smiling ∧ smiling.count '"' % 2 = 0 ∧
      Nested (brackets (tokenize smiling)) ∧ Complains smiling := by
  have hw : Filter.write { labels := [":)"] } = .ok smiling := rfl
  exact ⟨hw, by decide +kernel⟩

end Validation

end PullGauge
