import Mathlib
import PullGauge.Query.Token

/-!
# Scanning a query word by word

A scan is at rest where no word is open. A text brings it to rest when it holds an even
number of quotes and ends in a separator, and what is scanned before a point of rest and
behind it does not interact. A word is what a scan takes in one piece: its separators all
stand between quotes. The tokens of a query are thus its parentheses and words, each of
them standing between points of rest.
-/

namespace PullGauge.Token

open Text (isBlank)

def isSeparator (c : Char) : Bool := isBlank c || isParen c

def oddQuotes (t : Text) : Bool := decide (t.count '"' % 2 = 1)

def holds : Bool → Text → Bool
  | _, [] => true
  | quoted, c :: r =>
    (c == '"' || quoted || !isSeparator c) && holds (quoted ^^ (c == '"')) r

def IsWord (w : Text) : Prop := w ≠ [] ∧ holds false w = true

def Rests (t : Text) : Prop := oddQuotes t = false ∧ ∀ c ∈ t.getLast?, isSeparator c = true

def Breaks (t : Text) : Prop := ∀ c ∈ t.head?, isSeparator c = true

def Splits (a t : Text) : Prop :=
  oddQuotes a = false ∧ (Breaks t ∨ ∀ c ∈ a.getLast?, isSeparator c = true)

def shift (k : Nat) (t : Token) : Token := { t with position := t.position + k }

theorem not_separator_quote : isSeparator '"' = false := by decide

theorem beq_quote_of_separator {c : Char} (h : isSeparator c = true) : (c == '"') = false := by
  rw [beq_eq_false_iff_ne]
  rintro rfl
  rw [not_separator_quote] at h
  exact absurd h (by decide)

@[simp] theorem oddQuotes_nil : oddQuotes [] = false := rfl

theorem oddQuotes_cons (c : Char) (t : Text) : oddQuotes (c :: t) = (oddQuotes t ^^ (c == '"')) := by
  by_cases h : c = '"'
  · subst h
    simp only [oddQuotes, List.count_cons_self, beq_self_eq_true, Bool.xor_true]
    rw [Bool.eq_not, ne_eq, decide_eq_decide]
    omega
  · have hb : (c == '"') = false := by simpa using h
    rw [oddQuotes, List.count_cons_of_ne h, hb, Bool.xor_false, oddQuotes]

@[simp]
theorem oddQuotes_append (a b : Text) : oddQuotes (a ++ b) = (oddQuotes a ^^ oddQuotes b) := by
  induction a with
  | nil => simp
  | cons c a ih =>
    rw [List.cons_append, oddQuotes_cons, ih, oddQuotes_cons, Bool.xor_assoc, Bool.xor_assoc,
      Bool.xor_comm (oddQuotes b)]

theorem oddQuotes_of_not_mem {t : Text} (h : '"' ∉ t) : oddQuotes t = false := by
  simp [oddQuotes, List.count_eq_zero_of_not_mem h]

theorem isBlank_of_isParen {c : Char} (h : isParen c = true) : isBlank c = false := by
  rcases Bool.or_eq_true_iff.1 h with h | h
  · rw [beq_iff_eq.1 h]; decide
  · rw [beq_iff_eq.1 h]; decide

theorem not_isParen_of_isBlank {c : Char} (h : isBlank c = true) : isParen c = false := by
  by_contra hp
  rw [isBlank_of_isParen (by simpa using hp)] at h
  exact absurd h (by decide)

theorem scan_none_blank {c : Char} (h : isBlank c = true) (p : Nat) (t : Text) :
    scan p none (c :: t) = scan (p + 1) none t := by
  simp [scan, h]

theorem scan_none_paren {c : Char} (h : isParen c = true) (p : Nat) (t : Text) :
    scan p none (c :: t) = paren c p :: scan (p + 1) none t := by
  simp [scan, h, isBlank_of_isParen h]

theorem scan_none_letter {c : Char} (h : isSeparator c = false) (p : Nat) (t : Text) :
    scan p none (c :: t) = scan (p + 1) (some ⟨p, [c], c == '"'⟩) t := by
  obtain ⟨hb, hp⟩ := Bool.or_eq_false_iff.1 h
  simp [scan, hb, hp]

theorem scan_some_held {c : Char} {b : Begun}
    (h : (c == '"' || b.inQuotes || !isSeparator c) = true) (p : Nat) (t : Text) :
    scan p (some b) (c :: t) =
      scan (p + 1) (some ⟨b.start, c :: b.reversed, b.inQuotes ^^ (c == '"')⟩) t := by
  by_cases hc : c = '"'
  · simp [scan, hc]
  · have hs : (b.inQuotes || !(isBlank c || isParen c)) = true := by
      simpa [hc, isSeparator] using h
    have hb : (c == '"') = false := by simpa using hc
    rw [scan, if_neg hc, if_pos hs, hb, Bool.xor_false]

theorem scan_some_separator {c : Char} {b : Begun} (hq : b.inQuotes = false)
    (h : isSeparator c = true) (p : Nat) (t : Text) :
    scan p (some b) (c :: t) = b.finish :: scan p none (c :: t) := by
  have hc : c ≠ '"' := by
    rintro rfl
    exact absurd h (by decide)
  by_cases hp : isParen c = true
  · rw [scan_none_paren hp]
    simp [scan, hc, hq, hp]
  · have hb : isBlank c = true := by simpa [isSeparator, hp] using h
    rw [scan_none_blank hb]
    simp [scan, hc, hq, hb, hp]

theorem scan_holds {w : Text} {b : Begun} (h : holds b.inQuotes w = true) (p : Nat) (t : Text) :
    scan p (some b) (w ++ t) =
      scan (p + w.length)
        (some ⟨b.start, w.reverse ++ b.reversed, b.inQuotes ^^ oddQuotes w⟩) t := by
  induction w generalizing b p with
  | nil => simp
  | cons c w ih =>
    simp only [holds, Bool.and_eq_true] at h
    rw [List.cons_append, scan_some_held h.1, ih h.2]
    have hp : p + 1 + w.length = p + (c :: w).length := by simp only [List.length_cons]; omega
    have hq : (b.inQuotes ^^ (c == '"') ^^ oddQuotes w) = (b.inQuotes ^^ oddQuotes (c :: w)) := by
      rw [oddQuotes_cons, Bool.xor_comm (oddQuotes w), Bool.xor_assoc]
    simp [hp, hq]

@[simp] theorem scan_some_nil (p : Nat) (b : Begun) : scan p (some b) [] = [b.finish] := rfl

theorem scan_some_breaks {b : Begun} (hq : b.inQuotes = false) (p : Nat) {t : Text}
    (ht : Breaks t) : scan p (some b) t = b.finish :: scan p none t := by
  cases t with
  | nil => rfl
  | cons c t => exact scan_some_separator hq (ht c rfl) p t

theorem scan_word {w t : Text} (hw : IsWord w) (ht : t = [] ∨ oddQuotes w = false ∧ Breaks t)
    (p : Nat) : scan p none (w ++ t) = ofWord w p :: scan (p + w.length) none t := by
  obtain ⟨hne, hh⟩ := hw
  cases w with
  | nil => exact absurd rfl hne
  | cons c w =>
    simp only [holds, Bool.or_false, Bool.and_eq_true, Bool.or_eq_true] at hh
    have hc : isSeparator c = false := by
      rcases hh.1 with h | h
      · rw [beq_iff_eq.1 h]; exact not_separator_quote
      · simpa using h
    have hw : holds (c == '"') w = true := by simpa using hh.2
    rw [List.cons_append, scan_none_letter hc, scan_holds (b := ⟨p, [c], c == '"'⟩) hw]
    have hp : p + 1 + w.length = p + (c :: w).length := by simp only [List.length_cons]; omega
    have hf : Begun.finish ⟨p, w.reverse ++ [c], (c == '"') ^^ oddQuotes w⟩ = ofWord (c :: w) p := by
      simp [Begun.finish]
    rcases ht with rfl | ⟨he, ht⟩
    · rw [scan_some_nil, hf]
      rfl
    · rw [oddQuotes_cons, Bool.xor_comm] at he
      rw [scan_some_breaks he _ ht, hf, hp]

theorem tokenize_word {w : Text} (hw : IsWord w) : tokenize w = [ofWord w 0] := by
  have h := scan_word hw (t := []) (.inl rfl) 0
  rw [List.append_nil] at h
  exact h

def Begun.shift (k : Nat) (b : Begun) : Begun := { b with start := b.start + k }

theorem scan_none_separator {c : Char} (h : isSeparator c = true) (p : Nat) (t : Text) :
    scan p none (c :: t) =
      (if isParen c then [paren c p] else []) ++ scan (p + 1) none t := by
  by_cases hc : isParen c = true
  · rw [scan_none_paren hc, if_pos hc]
    rfl
  · have hb : isBlank c = true := by simpa [isSeparator, hc] using h
    rw [scan_none_blank hb, if_neg hc, List.nil_append]

theorem scan_none_separator_shift {c : Char} {t : Text} (h : isSeparator c = true) (k p : Nat)
    (ht : scan (p + 1 + k) none t = (scan (p + 1) none t).map (shift k)) :
    scan (p + k) none (c :: t) = (scan p none (c :: t)).map (shift k) := by
  rw [scan_none_separator h, scan_none_separator h, List.map_append, ← ht, Nat.add_right_comm]
  split <;> rfl

theorem scan_shift (k p : Nat) (b : Option Begun) (t : Text) :
    scan (p + k) (b.map (Begun.shift k)) t = (scan p b t).map (shift k) := by
  induction t generalizing p b with
  | nil => cases b <;> rfl
  | cons c t ih =>
    have hp : p + k + 1 = p + 1 + k := by omega
    cases b with
    | none =>
      by_cases hs : isSeparator c = true
      · exact scan_none_separator_shift hs k p (ih (p + 1) none)
      · have hl : isSeparator c = false := by simpa using hs
        rw [Option.map_none, scan_none_letter hl, scan_none_letter hl, hp]
        exact ih (p + 1) (some ⟨p, [c], c == '"'⟩)
    | some b =>
      rw [Option.map_some]
      by_cases hh : (c == '"' || b.inQuotes || !isSeparator c) = true
      · rw [scan_some_held (b := b.shift k) hh, scan_some_held hh, hp]
        exact ih (p + 1) (some ⟨b.start, c :: b.reversed, b.inQuotes ^^ (c == '"')⟩)
      · simp only [Bool.or_eq_true, not_or, Bool.not_eq_true, Bool.not_eq_false'] at hh
        rw [scan_some_separator (b := b.shift k) hh.1.2 hh.2, scan_some_separator hh.1.2 hh.2,
          scan_none_separator_shift hh.2 k p (ih (p + 1) none)]
        rfl

theorem scan_none_eq (p : Nat) (t : Text) : scan p none t = (tokenize t).map (shift p) := by
  have h := scan_shift p 0 none t
  rw [Nat.zero_add] at h
  exact h

theorem Rests.nil : Rests [] := ⟨rfl, by simp⟩

theorem Rests.splits {a : Text} (h : Rests a) (t : Text) : Splits a t := ⟨h.1, .inr h.2⟩

theorem Rests.cons {c : Char} {a : Text} (hc : isSeparator c = true) (h : Rests a) :
    Rests (c :: a) := by
  refine ⟨by rw [oddQuotes_cons, h.1, beq_quote_of_separator hc]; rfl, ?_⟩
  cases a with
  | nil => simpa using hc
  | cons d a => simpa using h.2

theorem scan_append_of_quiet {a t : Text} {b : Option Begun}
    (hq : (b.any Begun.inQuotes ^^ oddQuotes a) = false)
    (hs : Breaks t ∨ (a = [] → b = none) ∧ ∀ c ∈ a.getLast?, isSeparator c = true) (p : Nat) :
    scan p b (a ++ t) = scan p b a ++ scan (p + a.length) none t := by
  induction a generalizing p b with
  | nil =>
    cases b with
    | none => rfl
    | some b =>
      rcases hs with ht | hs
      · rw [List.nil_append, scan_some_breaks (by simpa using hq) p ht]
        rfl
      · exact absurd (hs.1 rfl) (by simp)
  | cons c a ih =>
    have hp : p + (c :: a).length = p + 1 + a.length := by simp only [List.length_cons]; omega
    -- the condition for what follows `c`, once a word open behind `c` cannot be the last thing
    have hnext {b' : Option Begun} (hb : isSeparator c = true → a = [] → b' = none) :
        Breaks t ∨ (a = [] → b' = none) ∧ ∀ d ∈ a.getLast?, isSeparator d = true := by
      rcases hs with ht | ⟨-, hs⟩
      · exact .inl ht
      · cases a with
        | nil => exact .inr ⟨hb (hs c rfl), by simp⟩
        | cons d a => exact .inr ⟨by simp, by simpa using hs⟩
    rw [oddQuotes_cons] at hq
    -- a separator outside quotes is scanned from rest
    have hsep (hc : isSeparator c = true) (ho : oddQuotes a = false) :
        scan p none (c :: (a ++ t)) =
          scan p none (c :: a) ++ scan (p + (c :: a).length) none t := by
      rw [scan_none_separator hc, scan_none_separator hc p a, List.append_assoc, hp,
        ih (by simpa using ho) (hnext fun _ _ => rfl)]
    rw [List.cons_append]
    cases b with
    | none =>
      by_cases hc : isSeparator c = true
      · exact hsep hc (by simpa [beq_quote_of_separator hc] using hq)
      · have hl : isSeparator c = false := by simpa using hc
        rw [scan_none_letter hl, scan_none_letter hl, hp]
        refine ih ?_ (hnext fun h => absurd h hc) (p + 1)
        simpa [Bool.xor_comm] using hq
    | some b =>
      by_cases hh : (c == '"' || b.inQuotes || !isSeparator c) = true
      · rw [scan_some_held hh, scan_some_held hh, hp]
        refine ih ?_ (hnext fun hc ha => ?_) (p + 1)
        · simpa [Bool.xor_comm, Bool.xor_left_comm] using hq
        · -- held though it is a separator: the quote open before it stays open
          have hb : b.inQuotes = true := by simpa [beq_quote_of_separator hc, hc] using hh
          simp [hb, ha, beq_quote_of_separator hc] at hq
      · simp only [Bool.or_eq_true, not_or, Bool.not_eq_true, Bool.not_eq_false'] at hh
        rw [scan_some_separator hh.1.2 hh.2, scan_some_separator hh.1.2 hh.2, List.cons_append,
          hsep hh.2 (by simpa [hh.1.2, beq_quote_of_separator hh.2] using hq)]

theorem scan_append {a t : Text} (h : Splits a t) (p : Nat) :
    scan p none (a ++ t) = scan p none a ++ scan (p + a.length) none t :=
  scan_append_of_quiet (by simpa using h.1) (h.2.imp_right fun hs => ⟨fun _ => rfl, hs⟩) p

theorem tokenize_append {a t : Text} (h : Splits a t) :
    tokenize (a ++ t) = tokenize a ++ (tokenize t).map (shift a.length) := by
  rw [tokenize, scan_append h, Nat.zero_add, scan_none_eq a.length]
  rfl

theorem exists_word (quoted : Bool) (t : Text) :
    ∃ w rest, t = w ++ rest ∧ holds quoted w = true ∧
      (rest = [] ∨ (quoted ^^ oddQuotes w) = false ∧ rest ≠ [] ∧ Breaks rest) := by
  induction t generalizing quoted with
  | nil => exact ⟨[], [], rfl, rfl, .inl rfl⟩
  | cons c t ih =>
    by_cases hc : (c == '"' || quoted || !isSeparator c) = true
    · obtain ⟨w, rest, rfl, hw, hr⟩ := ih (quoted ^^ (c == '"'))
      refine ⟨c :: w, rest, rfl, by simp [holds, hc, hw], ?_⟩
      rwa [oddQuotes_cons, Bool.xor_comm (oddQuotes w), ← Bool.xor_assoc]
    · simp only [Bool.or_eq_true, not_or, Bool.not_eq_true, Bool.not_eq_false'] at hc
      refine ⟨[], c :: t, rfl, rfl, .inr ⟨?_, by simp, by simpa [Breaks] using hc.2⟩⟩
      rw [oddQuotes_nil, Bool.xor_false, hc.1.2]

theorem IsWord.not_breaks {w : Text} (hw : IsWord w) (t : Text) : ¬ Breaks (w ++ t) := by
  obtain ⟨hne, hh⟩ := hw
  cases w with
  | nil => exact absurd rfl hne
  | cons c w =>
    intro hb
    have hc : isSeparator c = true := hb c rfl
    simp [holds, hc, beq_quote_of_separator hc] at hh

/-- A word that stands between points of rest, behind `a` and before `b`. -/
structure WordAt (t a w b : Text) : Prop where
  parts : t = a ++ (w ++ b)
  before : Rests a
  word : IsWord w
  after : b = [] ∨ oddQuotes w = false ∧ Breaks b

structure ParenAt (t a : Text) (c : Char) (b : Text) : Prop where
  parts : t = a ++ c :: b
  before : oddQuotes a = false
  paren : isParen c = true

theorem isSeparator_of_isParen {c : Char} (h : isParen c = true) : isSeparator c = true := by
  simp [isSeparator, h]

theorem ofWord_mem_scan {t a w b : Text} (h : WordAt t a w b) (p : Nat) :
    ofWord w (p + a.length) ∈ scan p none t := by
  rw [h.parts, scan_append (h.before.splits _), scan_word h.word h.after]
  simp

theorem paren_mem_scan {t a b : Text} {c : Char} (h : ParenAt t a c b) (p : Nat) :
    paren c (p + a.length) ∈ scan p none t := by
  have hb : Breaks (c :: b) := by simpa [Breaks] using isSeparator_of_isParen h.paren
  rw [h.parts, scan_append ⟨h.before, .inl hb⟩, scan_none_paren h.paren]
  simp

theorem WordAt.cons {c : Char} {t a w b : Text} (hc : isSeparator c = true) (h : WordAt t a w b) :
    WordAt (c :: t) (c :: a) w b :=
  ⟨by rw [h.parts, List.cons_append], h.before.cons hc, h.word, h.after⟩

theorem ParenAt.cons {c d : Char} {t a b : Text} (hc : isSeparator c = true)
    (h : ParenAt t a d b) : ParenAt (c :: t) (c :: a) d b :=
  ⟨by rw [h.parts, List.cons_append],
    by rw [oddQuotes_cons, h.before, beq_quote_of_separator hc]; rfl, h.paren⟩

theorem WordAt.append {v t a w b : Text} (hv : oddQuotes v = false) (ht : Breaks t)
    (h : WordAt t a w b) : WordAt (v ++ t) (v ++ a) w b := by
  refine ⟨by rw [h.parts, List.append_assoc], ⟨?_, ?_⟩, h.word, h.after⟩
  · rw [oddQuotes_append, hv, h.before.1]
    rfl
  · have ha : a ≠ [] := by
      rintro rfl
      exact h.word.not_breaks b (by simpa [h.parts] using ht)
    rw [List.getLast?_append_of_ne_nil _ ha]
    exact h.before.2

theorem ParenAt.append {v t a b : Text} {c : Char} (hv : oddQuotes v = false)
    (h : ParenAt t a c b) : ParenAt (v ++ t) (v ++ a) c b :=
  ⟨by rw [h.parts, List.append_assoc], by rw [oddQuotes_append, hv, h.before]; rfl, h.paren⟩

/-- The tokens `ts` cut a text that begins at offset `p`: it is a row of blanks, parentheses and
words, and behind a word that is not the last piece a separator follows outside quotes. -/
inductive Cuts : Nat → Text → List Token → Prop where
  | done (p : Nat) : Cuts p [] []
  | blank {p : Nat} {c : Char} {t : Text} {ts : List Token} (hc : isBlank c = true)
      (rest : Cuts (p + 1) t ts) : Cuts p (c :: t) ts
  | bracket {p : Nat} {c : Char} {t : Text} {ts : List Token} (hc : isParen c = true)
      (rest : Cuts (p + 1) t ts) : Cuts p (c :: t) (paren c p :: ts)
  | last {p : Nat} {w : Text} (hw : IsWord w) : Cuts p w [ofWord w p]
  | word {p : Nat} {w t : Text} {ts : List Token} (hw : IsWord w) (he : oddQuotes w = false)
      (ht : Breaks t) (rest : Cuts (p + w.length) t ts) : Cuts p (w ++ t) (ofWord w p :: ts)

theorem cuts_scan (p : Nat) (t : Text) : Cuts p t (scan p none t) := by
  induction hn : t.length using Nat.strongRecOn generalizing t p with
  | _ n ih =>
    cases t with
    | nil => exact .done p
    | cons c t =>
      have ht : t.length < n := by simp [← hn]
      by_cases hb : isBlank c = true
      · rw [scan_none_blank hb]
        exact .blank hb (ih _ ht (p + 1) t rfl)
      by_cases hp : isParen c = true
      · rw [scan_none_paren hp]
        exact .bracket hp (ih _ ht (p + 1) t rfl)
      have hc : ¬ Breaks (c :: t) := fun h => by simpa [isSeparator, hb, hp] using h c rfl
      obtain ⟨w, rest, hw, hh, hr⟩ := exists_word false (c :: t)
      rw [hw] at hc hn ⊢
      have hne : w ≠ [] := by
        rintro rfl
        rcases hr with rfl | ⟨-, -, h⟩
        · exact hc (by simp [Breaks])
        · exact hc h
      rcases hr with rfl | ⟨he, -, hbreak⟩
      · rw [scan_word ⟨hne, hh⟩ (.inl rfl), List.append_nil]
        exact .last ⟨hne, hh⟩
      · have he : oddQuotes w = false := by simpa using he
        have hlt : rest.length < n := by
          have := List.length_pos_iff.2 hne
          rw [List.length_append] at hn
          omega
        rw [scan_word ⟨hne, hh⟩ (.inr ⟨he, hbreak⟩)]
        exact .word ⟨hne, hh⟩ he hbreak (ih _ hlt (p + w.length) rest rfl)

theorem stands_of_cuts {p : Nat} {t : Text} {ts : List Token} (h : Cuts p t ts) {k : Token}
    (hk : k ∈ ts) :
    (∃ a w b, WordAt t a w b ∧ k = ofWord w (p + a.length)) ∨
      ∃ a c b, ParenAt t a c b ∧ k = paren c (p + a.length) := by
  have hp (q : Nat) (c : Char) (a : Text) : q + 1 + a.length = q + (c :: a).length := by
    rw [List.length_cons]
    omega
  induction h with
  | done p => simp at hk
  | @blank p c t ts hc h ih =>
    have hs : isSeparator c = true := by simp [isSeparator, hc]
    rcases ih hk with ⟨a, w, b, h, rfl⟩ | ⟨a, d, b, h, rfl⟩
    · exact .inl ⟨c :: a, w, b, h.cons hs, by rw [hp]⟩
    · exact .inr ⟨c :: a, d, b, h.cons hs, by rw [hp]⟩
  | @bracket p c t ts hc h ih =>
    have hs := isSeparator_of_isParen hc
    rcases List.mem_cons.1 hk with rfl | hk
    · exact .inr ⟨[], c, t, ⟨rfl, rfl, hc⟩, rfl⟩
    rcases ih hk with ⟨a, w, b, h, rfl⟩ | ⟨a, d, b, h, rfl⟩
    · exact .inl ⟨c :: a, w, b, h.cons hs, by rw [hp]⟩
    · exact .inr ⟨c :: a, d, b, h.cons hs, by rw [hp]⟩
  | @last p w hw =>
    obtain rfl := List.mem_singleton.1 hk
    exact .inl ⟨[], w, [], ⟨by simp, .nil, hw, .inl rfl⟩, rfl⟩
  | @word p w t ts hw he hb h ih =>
    rcases List.mem_cons.1 hk with rfl | hk
    · exact .inl ⟨[], w, t, ⟨rfl, .nil, hw, .inr ⟨he, hb⟩⟩, rfl⟩
    rcases ih hk with ⟨a, v, b, h, rfl⟩ | ⟨a, d, b, h, rfl⟩
    · exact .inl ⟨w ++ a, v, b, h.append he hb, by rw [List.length_append, Nat.add_assoc]⟩
    · exact .inr ⟨w ++ a, d, b, h.append he, by rw [List.length_append, Nat.add_assoc]⟩

/-- The tokens of a query are the words and the parentheses that stand in it. -/
theorem mem_tokenize_iff {t : Text} {k : Token} :
    k ∈ tokenize t ↔ (∃ a w b, WordAt t a w b ∧ k = ofWord w a.length) ∨
      ∃ a c b, ParenAt t a c b ∧ k = paren c a.length := by
  constructor
  · intro hk
    simpa using stands_of_cuts (cuts_scan 0 t) hk
  · rintro (⟨a, w, b, h, rfl⟩ | ⟨a, c, b, h, rfl⟩)
    · simpa [tokenize] using ofWord_mem_scan h 0
    · simpa [tokenize] using paren_mem_scan h 0

end PullGauge.Token
