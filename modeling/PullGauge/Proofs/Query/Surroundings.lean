import Mathlib
import PullGauge.Proofs.Query.Clean

/-!
# The word around a piece

A piece of a query that holds neither quotes nor separators stands within one word, and where that
word begins and ends depends on nothing but what stands around the piece. So when such a piece is
replaced by another, the tokens before and behind it are the same, and the query has no problem
exactly if none of the doubled operators came up and the one word that has changed is in order.
-/

namespace PullGauge

namespace Text

theorem trim_append_piece {piece : Text} (hp : IsEdged piece) (a b : Text) :
    trim (a ++ (piece ++ b)) =
      a.dropWhile isBlank ++ (piece ++ dropTrailing isBlank b) := by
  obtain ⟨hne, hhead, hlast⟩ := hp
  have hstart : (a ++ (piece ++ b)).dropWhile isBlank =
      a.dropWhile isBlank ++ (piece ++ b) := by
    have hpiece : (piece ++ b).dropWhile isBlank = piece ++ b :=
      dropWhile_of_head (by rwa [List.head?_append_of_ne_nil _ hne])
    rw [List.dropWhile_append, hpiece]
    split_ifs with ha
    · rw [List.isEmpty_iff.1 ha, List.nil_append]
    · rfl
  have hend : dropTrailing isBlank (a.dropWhile isBlank ++ piece ++ b) =
      a.dropWhile isBlank ++ piece ++ dropTrailing isBlank b := by
    have hlast' : ∀ c ∈ (a.dropWhile isBlank ++ piece).reverse.head?, isBlank c = false := by
      rw [List.head?_reverse]
      rwa [List.getLast?_append_of_ne_nil _ hne]
    rw [dropTrailing, List.reverse_append, List.dropWhile_append, dropWhile_of_head hlast',
      dropTrailing]
    split_ifs with hb
    · rw [List.isEmpty_iff.1 hb, List.reverse_reverse, List.reverse_nil, List.append_nil]
    · rw [List.reverse_append, List.reverse_reverse]
  rw [trim, trimBy, hstart, ← List.append_assoc, hend, List.append_assoc]

end Text

namespace Token

theorem exists_last_word (t : Text) :
    ∃ a u, t = a ++ u ∧ Rests a ∧ holds false u = true := by
  induction t using List.reverseRecOn with
  | nil => exact ⟨[], [], rfl, .nil, rfl⟩
  | append_singleton t c ih =>
    obtain ⟨a, u, rfl, ha, hu⟩ := ih
    by_cases hc : (c == '"' || oddQuotes u || !isSeparator c) = true
    · refine ⟨a, u ++ [c], by rw [List.append_assoc], ha, ?_⟩
      rw [holds_append, hu, Bool.false_xor, Bool.true_and, holds, hc]
      rfl
    · simp only [Bool.or_eq_true, not_or, Bool.not_eq_true, Bool.not_eq_false'] at hc
      refine ⟨a ++ u ++ [c], [], by rw [List.append_nil], ⟨?_, ?_⟩, rfl⟩
      · rw [oddQuotes_append, oddQuotes_append, ha.1, hc.1.2, oddQuotes_cons, hc.1.1]
        rfl
      · intro d hd
        rw [List.getLast?_append_of_ne_nil _ (by simp)] at hd
        obtain rfl := Option.some.inj hd
        exact hc.2

structure Around (before after a u v rest : Text) : Prop where
  begins : before = a ++ u
  ends : after = v ++ rest
  wordAt : ∀ piece : Text, piece ≠ [] → piece.IsPlain →
    WordAt (before ++ (piece ++ after)) a (u ++ (piece ++ v)) rest

theorem exists_around (before after : Text) :
    ∃ a u v rest, Around before after a u v rest := by
  obtain ⟨a, u, rfl, ha, hu⟩ := exists_last_word before
  obtain ⟨v, rest, rfl, hv, hrest⟩ := exists_word (oddQuotes u) after
  refine ⟨a, u, v, rest, rfl, rfl, fun piece hne hp => ⟨by simp, ha, ⟨by simp [hne], ?_⟩, ?_⟩⟩
  · rw [holds_append, holds_append, hu, holds_isPlain _ hp, oddQuotes_of_isPlain hp]
    simpa using hv
  · refine hrest.imp_right fun ⟨hq, _, hb⟩ => ⟨?_, hb⟩
    rw [oddQuotes_append, oddQuotes_append, oddQuotes_of_isPlain hp, Bool.false_xor, hq]

end Token

namespace Validation

open Token (Around ofWord)

theorem IsClean.replace_iff {before after u v rest old new : Text}
    (hc : IsClean (before ++ (old ++ after))) (ha : Around before after a u v rest)
    (hold : old ≠ [] ∧ old.IsPlain) (hnew : new ≠ [] ∧ new.IsPlain) :
    IsClean (before ++ (new ++ after)) ↔
      (∀ c ∈ operatorMarks, ¬ [c, c] <:+: before ++ (new ++ after)) ∧
        isMiscased (ofWord (u ++ (new ++ v)) a.length) = false ∧
          ∀ q ∈ (ofWord (u ++ (new ++ v)) a.length).asQualifier?, qualifierProblem? q = none := by
  have hwas := ha.wordAt old hold.1 hold.2
  have his := ha.wordAt new hnew.1 hnew.2
  obtain ⟨hbefore, -, hbehind⟩ := (cased_iff hwas).1 hc.cased
  obtain ⟨hfirst, -, hlast⟩ := (qualifiers_iff hwas).1 hc.qualifiers
  constructor
  · intro h
    exact ⟨h.operators, ((cased_iff his).1 h.cased).2.1, ((qualifiers_iff his).1 h.qualifiers).2.1⟩
  · intro ⟨ho, hm, hq⟩
    refine ⟨?_, ?_, ho, (cased_iff his).2 ⟨hbefore, hm, hbehind⟩,
      (qualifiers_iff his).2 ⟨hfirst, hq, hlast⟩⟩
    · rw [oddQuotes_piece hnew.2, ← oddQuotes_piece hold.2, hc.quotes]
    · rw [balanced_piece hnew.2, ← balanced_piece hold.2, hc.parens]

theorem not_infix_piece {c : Char} {before middle after : Text} {first last : Char}
    (hf : first ≠ c) (hl : last ≠ c) (hm : ¬ [c, c] <:+: middle) (hb : ¬ [c, c] <:+: before)
    (ha : ¬ [c, c] <:+: after) :
    ¬ [c, c] <:+: before ++ (first :: (middle ++ [last]) ++ after) := by
  have hparts : before ++ (first :: (middle ++ [last]) ++ after) =
      before ++ first :: (middle ++ last :: after) := by simp
  rw [hparts, doubled_infix_append_cons hf, doubled_infix_append_cons hl]
  exact fun h => h.elim hb fun h => h.elim hm ha

end Validation

end PullGauge
