import PullGauge.Proofs.Query.Words

/-!
# Qualifiers of a query

Filters and searches look at the qualifiers of a query only. Those of a row of parts with
blanks between them are those of the parts, as long as no part leaves a quote open. Each
qualifier is written by a word, so that where no quote is written every value is plain: it
holds neither blanks nor parentheses.
-/

namespace PullGauge

open Token (oddQuotes holds IsWord Splits Breaks isSeparator WordAt)

def qualifiersIn (t : Text) : List Qualifier := (tokenize t).filterMap Token.asQualifier?

theorem qualifiersIn_append {a t : Text} (h : Splits a t) :
    qualifiersIn (a ++ t) = qualifiersIn a ++ qualifiersIn t := by
  have hs : Token.asQualifier? ∘ Token.shift a.length = Token.asQualifier? := rfl
  rw [qualifiersIn, Token.tokenize_append h, List.filterMap_append, List.filterMap_map, hs]
  rfl

theorem qualifiersIn_blank {c : Char} (hc : Text.isBlank c = true) (t : Text) :
    qualifiersIn (c :: t) = qualifiersIn t := by
  have hs : isSeparator c = true := by simp [isSeparator, hc]
  have hr : Token.Rests [c] := Token.Rests.nil.cons hs
  have hn : qualifiersIn [c] = [] := by
    rw [qualifiersIn, tokenize, Token.scan_none_blank hc]
    rfl
  rw [← List.singleton_append, qualifiersIn_append (hr.splits t), hn, List.nil_append]

theorem qualifiersIn_append_blank {a : Text} (ha : oddQuotes a = false) {c : Char}
    (hc : Text.isBlank c = true) (t : Text) :
    qualifiersIn (a ++ c :: t) = qualifiersIn a ++ qualifiersIn t := by
  have hb : Breaks (c :: t) := by simp [Breaks, isSeparator, hc]
  rw [qualifiersIn_append ⟨ha, .inl hb⟩, qualifiersIn_blank hc]

theorem qualifiersIn_intercalate {parts : List Text} (h : ∀ p ∈ parts, oddQuotes p = false) :
    qualifiersIn (List.intercalate [' '] parts) = parts.flatMap qualifiersIn := by
  induction parts with
  | nil => rfl
  | cons p parts ih =>
    cases parts with
    | nil => simp [List.intercalate]
    | cons q parts =>
      have hp : List.intercalate [' '] (p :: q :: parts) =
          p ++ ' ' :: List.intercalate [' '] (q :: parts) := by
        simp [List.intercalate]
      rw [hp, qualifiersIn_append_blank (h p (by simp)) (by decide),
        ih fun r hr => h r (by simp [hr])]
      rfl

namespace Token

theorem kindOf_of_qualifier? {w : Text} {q : Qualifier} (h : qualifier? w = some q) :
    kindOf w = .qualifier q := by
  have hoperators : ∀ o ∈ operators, qualifier? o = none := by decide
  have hop : w ∉ operators := fun ho => by simp [hoperators w ho] at h
  simp [kindOf, hop, h]

theorem asQualifier?_ofWord (w : Text) (p : Nat) : (ofWord w p).asQualifier? = qualifier? w := by
  cases hq : qualifier? w with
  | some q => rw [asQualifier?, ofWord, kindOf_of_qualifier? hq]
  | none => by_cases ho : w ∈ operators <;> simp [asQualifier?, ofWord, kindOf, ho, hq]

theorem asQualifier?_paren (c : Char) (p : Nat) : (paren c p).asQualifier? = none := by
  by_cases hc : c = '(' <;> simp [asQualifier?, paren, hc]

end Token

theorem qualifiersIn_word {w : Text} (hw : IsWord w) :
    qualifiersIn w = (Token.qualifier? w).toList := by
  rw [qualifiersIn, Token.tokenize_word hw]
  cases hq : Token.qualifier? w <;> simp [Token.asQualifier?_ofWord, hq]

theorem exists_word_of_mem_qualifiersIn {t : Text} {q : Qualifier} (h : q ∈ qualifiersIn t) :
    ∃ a w b, WordAt t a w b ∧ Token.qualifier? w = some q := by
  obtain ⟨k, hk, hq⟩ := List.mem_filterMap.1 h
  rcases Token.mem_tokenize_iff.1 hk with ⟨a, w, b, hw, rfl⟩ | ⟨a, c, b, -, rfl⟩
  · rw [Token.asQualifier?_ofWord] at hq
    exact ⟨a, w, b, hw, hq⟩
  · rw [Token.asQualifier?_paren] at hq
    cases hq

theorem raw_subset_of_qualifier? {w : Text} {q : Qualifier} (h : Token.qualifier? w = some q) :
    ∀ c ∈ q.raw, c ∈ w := by
  intro c hc
  have hn : ∀ d ∈ (Token.negation w).2, d ∈ w := by
    unfold Token.negation
    split
    · exact fun d hd => List.mem_cons_of_mem _ hd
    · exact fun d hd => hd
  simp only [Token.qualifier?] at h
  split at h
  · rename_i key raw hs
    split_ifs at h
    obtain rfl := Option.some.inj h
    exact hn c (by rw [Text.eq_of_splitAtFirst hs]; exact List.mem_append_right _ hc)
  · simp at h

def Text.IsPlain (t : Text) : Prop := ∀ c ∈ t, c ≠ '"' ∧ isSeparator c = false

instance (t : Text) : Decidable t.IsPlain := List.decidableBAll _ t

theorem holds_of_isPlain {t : Text} (h : t.IsPlain) : holds false t = true := by
  induction t with
  | nil => rfl
  | cons c t ih =>
    obtain ⟨hq, hs⟩ := h c (by simp)
    have hb : (c == '"') = false := by simpa using hq
    simpa [holds, hb, hs] using ih fun d hd => h d (by simp [hd])

theorem isPlain_of_holds {t : Text} (hq : '"' ∉ t) (h : holds false t = true) : t.IsPlain := by
  induction t with
  | nil => exact fun c hc => absurd hc (by simp)
  | cons c t ih =>
    rw [List.mem_cons, not_or] at hq
    have hb : (c == '"') = false := by simpa using Ne.symm hq.1
    simp only [holds, hb, Bool.false_or, Bool.xor_false, Bool.and_eq_true,
      Bool.not_eq_true'] at h
    intro d hd
    rcases List.mem_cons.1 hd with rfl | hd
    · exact ⟨Ne.symm hq.1, h.1⟩
    · exact ih hq.2 h.2 d hd

theorem isPlain_of_mem_qualifiersIn {t : Text} (ht : '"' ∉ t) {q : Qualifier}
    (h : q ∈ qualifiersIn t) : q.raw.IsPlain := by
  obtain ⟨a, w, b, hw, hq⟩ := exists_word_of_mem_qualifiersIn h
  have hn : '"' ∉ w := fun hc => ht (by rw [hw.parts]; simp [hc])
  intro c hc
  exact isPlain_of_holds hn hw.word.2 c (raw_subset_of_qualifier? hq c hc)

namespace Text

theorem splitAtFirst_of_not_mem {c : Char} {a : Text} (h : c ∉ a) (b : Text) :
    splitAtFirst [c] (a ++ c :: b) = some (a, b) := by
  induction a with
  | nil => simp [splitAtFirst]
  | cons d a ih =>
    rw [List.mem_cons, not_or] at h
    simp [splitAtFirst, List.isPrefixOf, h.1, ih h.2]

end Text

namespace Token

theorem holds_append (quoted : Bool) (a b : Text) :
    holds quoted (a ++ b) = (holds quoted a && holds (quoted ^^ oddQuotes a) b) := by
  induction a generalizing quoted with
  | nil => simp [holds]
  | cons c a ih =>
    have hq : (quoted ^^ (c == '"') ^^ oddQuotes a) = (quoted ^^ oddQuotes (c :: a)) := by
      rw [Token.oddQuotes_cons, Bool.xor_comm (oddQuotes a), Bool.xor_assoc]
    rw [List.cons_append, holds, ih, hq, holds, Bool.and_assoc]

theorem holds_of_not_mem {t : Text} (h : '"' ∉ t) : holds true t = true := by
  induction t with
  | nil => rfl
  | cons c t ih =>
    rw [List.mem_cons, not_or] at h
    have hb : (c == '"') = false := by simpa using Ne.symm h.1
    simpa [holds, hb] using ih h.2

def IsKey (key : Text) : Prop :=
  key.IsPlain ∧ ':' ∉ key ∧ isQualifierKey key = true ∧ Text.lower key = key

instance (key : Text) : Decidable (IsKey key) :=
  inferInstanceAs (Decidable (_ ∧ _ ∧ _ ∧ _))

theorem qualifier?_of_isKey {key : Text} (hk : IsKey key) (raw : Text) :
    qualifier? (key ++ ':' :: raw) = some ⟨key, raw, false⟩ := by
  obtain ⟨-, hc, hq, hl⟩ := hk
  have hn : negation (key ++ ':' :: raw) = (false, key ++ ':' :: raw) := by
    cases key with
    | nil => rfl
    | cons c key =>
      have : c ≠ '-' := by
        rintro rfl
        exact absurd hq (by simp [isQualifierKey, Text.isAsciiLetter])
      simp [negation, this]
  simp [qualifier?, hn, Text.splitAtFirst_of_not_mem hc, hq, hl]

end Token

theorem Token.isWord_of_isKey {key raw : Text} (hk : Token.IsKey key)
    (hw : holds false raw = true) : IsWord (key ++ ':' :: raw) := by
  have hc : isSeparator ':' = false := by decide
  refine ⟨by simp, ?_⟩
  rw [Token.holds_append, holds_of_isPlain hk.1,
    Token.oddQuotes_of_not_mem fun h => (hk.1 _ h).1 rfl]
  simp [holds, hc, hw]

theorem qualifiersIn_of_isKey {key raw : Text} (hk : Token.IsKey key)
    (hw : holds false raw = true) :
    qualifiersIn (key ++ ':' :: raw) = [⟨key, raw, false⟩] := by
  rw [qualifiersIn_word (Token.isWord_of_isKey hk hw), Token.qualifier?_of_isKey hk]
  rfl

end PullGauge
