import Mathlib
import PullGauge.Proofs.Query.Words

/-!
# Cutting a query into tokens

The tokens of a query are non-empty stretches of it, one behind the other, with nothing but
blanks outside them. Each is a parenthesis or a word, and a word takes in separators between
quotes only and ends where it cannot go on. These conditions leave no choice: two lists of
tokens that satisfy them agree, by induction on where a token begins, since what one list
begins at a place the other one has to cover.
-/

namespace PullGauge.Token

open Text (isBlank)

def stop (k : Token) : Nat := k.position + k.text.length

def Covers (k : Token) (i : Nat) : Prop := k.position ≤ i ∧ i < k.stop

def IsParenthesis (k : Token) : Prop :=
  k.kind = .leftParen ∧ k.text = ['('] ∨ k.kind = .rightParen ∧ k.text = [')']

def KeepsQuoted (w : Text) : Prop :=
  ∀ a c b, w = a ++ c :: b → isSeparator c = true → oddQuotes a = true

/-- A word of `t` that takes in separators between quotes only, and could not go on. -/
structure IsMaximalWord (t : Text) (k : Token) : Prop where
  kind : k.kind = kindOf k.text
  quoted : KeepsQuoted k.text
  ends : ∀ c, t[k.stop]? = some c → isSeparator c = true
  even : k.stop < t.length → oddQuotes k.text = false

/-- The tokens are stretches of `t` in order, blanks apart all of it, and none could be longer. -/
structure IsSegmentation (t : Text) (ts : List Token) : Prop where
  nonempty : ∀ k ∈ ts, k.text ≠ []
  slice : ∀ k ∈ ts, (t.drop k.position).take k.text.length = k.text
  increasing : ts.Pairwise fun j k => j.position < k.position
  apart : ts.Pairwise fun j k => j.stop ≤ k.position
  blank : ∀ i c, t[i]? = some c → (∀ k ∈ ts, ¬ k.Covers i) → isBlank c = true
  piece : ∀ k ∈ ts, k.IsParenthesis ∨ k.IsMaximalWord t

theorem Cuts.le_position {p : Nat} {t : Text} {ts : List Token} (h : Cuts p t ts) :
    ∀ k ∈ ts, p ≤ k.position := by
  induction h with
  | done p => simp
  | blank hc h ih => exact fun k hk => Nat.le_of_succ_le (ih k hk)
  | bracket hc h ih =>
    intro k hk
    rcases List.mem_cons.1 hk with rfl | hk
    · exact le_rfl
    · exact Nat.le_of_succ_le (ih k hk)
  | last hw => simp [ofWord]
  | @word p w t ts hw he hb h ih =>
    intro k hk
    rcases List.mem_cons.1 hk with rfl | hk
    · exact le_rfl
    · exact le_trans (Nat.le_add_right p w.length) (ih k hk)

theorem Cuts.pairwise_stop_le {p : Nat} {t : Text} {ts : List Token} (h : Cuts p t ts) :
    ts.Pairwise fun j k => j.stop ≤ k.position := by
  induction h with
  | done p => exact .nil
  | blank hc h ih => exact ih
  | bracket hc h ih => exact .cons h.le_position ih
  | last hw => exact List.pairwise_singleton ..
  | word hw he hb h ih => exact .cons h.le_position ih

theorem Cuts.isBlank_of_uncovered {p : Nat} {t : Text} {ts : List Token} (h : Cuts p t ts) {i : Nat}
    {c : Char} (hc : t[i]? = some c) (hk : ∀ k ∈ ts, ¬ k.Covers (p + i)) : isBlank c = true := by
  induction h generalizing i with
  | done p => simp at hc
  | @blank p d t ts hd h ih =>
    cases i with
    | zero =>
      obtain rfl : d = c := by simpa using hc
      exact hd
    | succ i => exact ih (by simpa using hc) (by simpa [Nat.add_assoc, Nat.add_comm 1] using hk)
  | @bracket p d t ts hd h ih =>
    rw [List.forall_mem_cons] at hk
    cases i with
    | zero => exact absurd (⟨le_rfl, by simp [stop, paren]⟩ : (paren d p).Covers (p + 0)) hk.1
    | succ i => exact ih (by simpa using hc) (by simpa [Nat.add_assoc, Nat.add_comm 1] using hk.2)
  | @last p w hw =>
    have hi : i < w.length := (List.getElem?_eq_some_iff.1 hc).1
    exact absurd ⟨Nat.le_add_right p i, by simpa [stop, ofWord] using hi⟩
      (hk (ofWord w p) (by simp))
  | @word p w t ts hw he hb h ih =>
    rw [List.forall_mem_cons] at hk
    by_cases hi : i < w.length
    · exact absurd ⟨Nat.le_add_right p i, by simpa [stop, ofWord] using hi⟩ hk.1
    · have hp : p + w.length + (i - w.length) = p + i := by omega
      rw [List.getElem?_append_right (by omega)] at hc
      exact ih hc (by rw [hp]; exact hk.2)

theorem holds_iff {quoted : Bool} {w : Text} :
    holds quoted w = true ↔
      ∀ a c b, w = a ++ c :: b → isSeparator c = true → (quoted ^^ oddQuotes a) = true := by
  induction w generalizing quoted with
  | nil => simp [holds]
  | cons d w ih =>
    have hq (a : Text) : (quoted ^^ (d == '"') ^^ oddQuotes a) = (quoted ^^ oddQuotes (d :: a)) := by
      rw [oddQuotes_cons, Bool.xor_comm (oddQuotes a), Bool.xor_assoc]
    rw [holds, Bool.and_eq_true, ih]
    constructor
    · rintro ⟨hd, hw⟩ a c b hparts hc
      cases a with
      | nil =>
        obtain ⟨rfl, rfl⟩ := List.cons.inj hparts
        simpa [hc, beq_quote_of_separator hc] using hd
      | cons e a =>
        obtain ⟨rfl, rfl⟩ := List.cons.inj hparts
        rw [← hq]
        exact hw a c b rfl hc
    · intro h
      refine ⟨?_, fun a c b hparts hc => ?_⟩
      · by_cases hd : isSeparator d = true
        · have := h [] d w rfl hd
          simp_all [oddQuotes_nil]
        · simp [hd]
      · rw [hq]
        exact h (d :: a) c b (by rw [hparts]; rfl) hc

theorem IsWord.keepsQuoted {w : Text} (hw : IsWord w) : KeepsQuoted w := by
  intro a c b hparts hc
  simpa using holds_iff.1 hw.2 a c b hparts hc

theorem isParenthesis_paren {c : Char} (hc : isParen c = true) (p : Nat) :
    (paren c p).IsParenthesis := by
  rcases Bool.or_eq_true_iff.1 hc with h | h
  · obtain rfl := beq_iff_eq.1 h
    exact .inl ⟨rfl, rfl⟩
  · obtain rfl := beq_iff_eq.1 h
    exact .inr ⟨rfl, rfl⟩

theorem WordAt.isMaximalWord {t a w b : Text} (h : WordAt t a w b) :
    (ofWord w a.length).IsMaximalWord t where
  kind := rfl
  quoted := h.word.keepsQuoted
  ends c hc := by
    have hb : b.head? = some c := by
      simpa [stop, ofWord, h.parts, List.head?_eq_getElem?, List.getElem?_append_right] using hc
    rcases h.after with rfl | ⟨-, hbreak⟩
    · simp at hb
    · exact hbreak c hb
  even hlt := by
    have hb : b ≠ [] := by
      rintro rfl
      simp [stop, ofWord, h.parts] at hlt
    exact (h.after.resolve_left hb).1

theorem isSegmentation_tokenize (t : Text) : IsSegmentation t (tokenize t) := by
  have hcuts : Cuts 0 t (tokenize t) := cuts_scan 0 t
  have hpiece (k : Token) (hk : k ∈ tokenize t) :
      k.text ≠ [] ∧ (t.drop k.position).take k.text.length = k.text ∧
        (k.IsParenthesis ∨ k.IsMaximalWord t) := by
    rcases mem_tokenize_iff.1 hk with ⟨a, w, b, h, rfl⟩ | ⟨a, c, b, h, rfl⟩
    · exact ⟨h.word.1, by simp [ofWord, h.parts], .inr h.isMaximalWord⟩
    · exact ⟨by simp [paren], by simp [paren, h.parts], .inl (isParenthesis_paren h.paren _)⟩
  refine ⟨fun k hk => (hpiece k hk).1, fun k hk => (hpiece k hk).2.1, ?_, hcuts.pairwise_stop_le, ?_,
    fun k hk => (hpiece k hk).2.2⟩
  · refine hcuts.pairwise_stop_le.imp_of_mem fun {j k} hj _ hjk => ?_
    have := List.length_pos_iff.2 (hpiece j hj).1
    rw [stop] at hjk
    omega
  · intro i c hc hk
    exact hcuts.isBlank_of_uncovered hc (by simpa using hk)

/-! The conditions leave no choice. -/

theorem IsParenthesis.exists_paren {k : Token} (h : k.IsParenthesis) :
    ∃ c, isParen c = true ∧ k = paren c k.position := by
  obtain ⟨kind, text, position⟩ := k
  rcases h with ⟨rfl, rfl⟩ | ⟨rfl, rfl⟩
  · exact ⟨'(', rfl, rfl⟩
  · exact ⟨')', rfl, rfl⟩

namespace IsSegmentation

variable {t : Text} {ts us : List Token} {j k : Token}

theorem getElem?_text (h : IsSegmentation t ts) (hk : k ∈ ts) {i : Nat} (hi : i < k.text.length) :
    t[k.position + i]? = k.text[i]? := by
  rw [← h.slice k hk, List.getElem?_take_of_lt hi, List.getElem?_drop]

theorem stop_le (h : IsSegmentation t ts) (hj : j ∈ ts) (hk : k ∈ ts)
    (hlt : j.position < k.position) : j.stop ≤ k.position := by
  have hpair : ts.Pairwise fun j k => (j.position < k.position → j.stop ≤ k.position) ∧
      (k.position < j.position → k.stop ≤ j.position) :=
    h.increasing.imp₂ (fun j k hi ha => ⟨fun _ => ha, fun hgt => absurd hi (by omega)⟩) h.apart
  have hsymm : Std.Symm fun j k : Token => (j.position < k.position → j.stop ≤ k.position) ∧
      (k.position < j.position → k.stop ≤ j.position) := ⟨fun _ _ h => ⟨h.2, h.1⟩⟩
  exact (hpair.forall_of_forall (fun k _ => by simp) hj hk).1 hlt

theorem exists_head (h : IsSegmentation t ts) (hk : k ∈ ts) :
    ∃ c, t[k.position]? = some c ∧ (isParen c = true ∧ k = paren c k.position ∨
      isSeparator c = false ∧ k.IsMaximalWord t) := by
  obtain ⟨c, r, hc⟩ := List.exists_cons_of_ne_nil (h.nonempty k hk)
  have ht : t[k.position]? = some c := by
    simpa [hc] using h.getElem?_text hk (i := 0) (by simp [hc])
  refine ⟨c, ht, (h.piece k hk).imp (fun hp => ?_) fun hw => ⟨?_, hw⟩⟩
  · obtain ⟨d, hd, he⟩ := hp.exists_paren
    obtain rfl : d = c := by
      rw [he] at hc
      exact (List.cons.inj hc).1
    exact ⟨hd, he⟩
  · by_contra hs
    exact absurd (hw.quoted [] c r hc (by simpa using hs)) (by simp)

theorem not_length_lt (h : IsSegmentation t ts) (h' : IsSegmentation t us) (hj : j ∈ ts)
    (hk : k ∈ us) (hp : j.position = k.position) (hjw : j.IsMaximalWord t)
    (hkw : k.IsMaximalWord t) : ¬ j.text.length < k.text.length := by
  intro hlt
  have hc : t[j.stop]? = some k.text[j.text.length] := by
    rw [stop, hp, h'.getElem?_text hk hlt, List.getElem?_eq_getElem hlt]
  have hpre : k.text.take j.text.length = j.text := by
    rw [← h'.slice k hk, List.take_take, Nat.min_eq_left hlt.le, ← hp, h.slice j hj]
  have hparts : k.text = j.text ++ k.text[j.text.length] :: k.text.drop (j.text.length + 1) := by
    have := (List.take_append_drop j.text.length k.text).symm
    rwa [hpre, List.drop_eq_getElem_cons hlt] at this
  have heven := hjw.even (List.getElem?_eq_some_iff.1 hc).1
  rw [hkw.quoted _ _ _ hparts (hjw.ends _ hc)] at heven
  exact absurd heven (by decide)

theorem eq_of_position_eq (h : IsSegmentation t ts) (h' : IsSegmentation t us) (hj : j ∈ ts)
    (hk : k ∈ us) (hp : j.position = k.position) : j = k := by
  obtain ⟨c, hc, hjc⟩ := h.exists_head hj
  obtain ⟨d, hd, hkc⟩ := h'.exists_head hk
  obtain rfl : c = d := by simpa [hp, hd] using hc.symm
  rcases hjc with ⟨hcp, hjp⟩ | ⟨hcs, hjw⟩ <;> rcases hkc with ⟨hdp, hkp⟩ | ⟨hds, hkw⟩
  · rw [hjp, hkp, hp]
  · simp [isSeparator_of_isParen hcp] at hds
  · simp [isSeparator_of_isParen hdp] at hcs
  · have hlen : j.text.length = k.text.length :=
      le_antisymm (not_lt.1 (h'.not_length_lt h hk hj hp.symm hkw hjw))
        (not_lt.1 (h.not_length_lt h' hj hk hp hjw hkw))
    have htext : j.text = k.text := by rw [← h.slice j hj, ← h'.slice k hk, hp, hlen]
    have hkind : j.kind = k.kind := by rw [hjw.kind, hkw.kind, htext]
    cases j
    cases k
    simp_all

theorem mem_of_mem (h : IsSegmentation t ts) (h' : IsSegmentation t us) (hk : k ∈ ts) :
    k ∈ us := by
  induction hn : k.position using Nat.strongRecOn generalizing ts us k with
  | _ n ih =>
    obtain ⟨c, hc, hkc⟩ := h.exists_head hk
    have hblank : isBlank c = false := by
      rcases hkc with hp | hs
      · exact isBlank_of_isParen hp.1
      · exact (Bool.or_eq_false_iff.1 hs.1).1
    have hcover : ∃ j ∈ us, j.Covers k.position := by
      by_contra hno
      have hb := h'.blank k.position c hc fun j hj hcov => hno ⟨j, hj, hcov⟩
      rw [hblank] at hb
      exact absurd hb (by decide)
    obtain ⟨j, hj, hle, hlt⟩ := hcover
    rcases hle.lt_or_eq with hjk | hjk
    · have hjt := ih j.position (hn ▸ hjk) h' h hj rfl
      exact absurd (h.stop_le hjt hk hjk) (by omega)
    · rwa [← h'.eq_of_position_eq h hj hk hjk]

theorem unique (h : IsSegmentation t ts) (h' : IsSegmentation t us) : ts = us := by
  have hne {l : List Token} (hl : IsSegmentation t l) : l.Nodup :=
    hl.increasing.imp fun hlt he => by simp [he] at hlt
  have hperm : ts.Perm us := (List.perm_ext_iff_of_nodup (hne h) (hne h')).2 fun k =>
    ⟨h.mem_of_mem h', h'.mem_of_mem h⟩
  exact hperm.eq_of_pairwise (fun j k _ _ hjk hkj => absurd hjk (by omega))
    h.increasing h'.increasing

end IsSegmentation

/-- The tokens of a query cut it into the words and parentheses between its blanks, and
nothing else does. -/
theorem isSegmentation_iff {t : Text} {ts : List Token} :
    IsSegmentation t ts ↔ ts = tokenize t :=
  ⟨fun h => h.unique (isSegmentation_tokenize t), fun h => h ▸ isSegmentation_tokenize t⟩

/-- Words and parentheses side by side, a quote in the middle of a word, and one never closed. -/
example : (tokenize "(a\"b (\"c)\"d )").map (fun k => (String.ofList k.text, k.position)) =
    [("(", 0), ("a\"b (\"c", 1), (")", 8), ("\"d )", 9)] := by decide

end PullGauge.Token
