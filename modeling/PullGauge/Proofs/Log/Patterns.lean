import Mathlib
import PullGauge.Log.Masking
import PullGauge.Proofs.Text.Blanks
import PullGauge.Proofs.Text.Trimming

/-!
# Patterns of credentials

Four patterns say which stretches of a text give a credential away, and each comes in two parts:
what masking keeps of the stretch, and what it drops. The shapes find these stretches: a shape
takes a match of its pattern off the head of a text, and fails only where nothing matches.
-/

namespace PullGauge.Masking

open Text (foldChar isBlank isWordChar)

/-- What a pattern says of a stretch of text between two neighbours. The stretch comes in two
parts: masking keeps the first one. -/
abbrev Pattern := Option Char → Text → Text → Option Char → Prop

def OccursAt (P : Pattern) (before : Option Char) (t : Text) : Prop :=
  ∃ kept gone rest, t = kept ++ (gone ++ rest) ∧ P before kept gone rest.head?

def Occurs (P : Pattern) (t : Text) : Prop := ∃ a b, t = a ++ b ∧ OccursAt P a.getLast? b

def schemePattern : Pattern := fun _ word gone _ =>
  word.map foldChar ∈ schemeWords ∧ ∃ blanks value, gone = blanks ++ value ∧
    blanks ≠ [] ∧ (∀ c ∈ blanks, isBlank c = true) ∧
    value ≠ [] ∧ ∀ c ∈ value, isSchemeValueChar c = true

def tokenPattern (marks : List Text) (inToken : Char → Bool) : Pattern :=
  fun before kept gone after =>
    kept = [] ∧ isWordAt before = false ∧ isWordAt after = false ∧
      ∃ mark ∈ marks, ∃ value, gone = mark ++ value ∧ tokenLength ≤ value.length ∧
        ∀ c ∈ value, inToken c = true

def isSign (c : Char) : Bool := c == ':' || c == '='

def IsLead (lead : Text) : Prop :=
  ∃ quote blanks sign blanks' opening, lead = quote ++ (blanks ++ sign :: (blanks' ++ [opening])) ∧
    quote.length ≤ 1 ∧ (∀ c ∈ quote, isQuote c = true) ∧ (∀ c ∈ blanks, isBlank c = true) ∧
    isSign sign = true ∧ (∀ c ∈ blanks', isBlank c = true) ∧ isQuote opening = true

def assignmentPattern : Pattern := fun _ name gone _ =>
  name.map foldChar ∈ secretWords ∧ ∃ lead value closing, gone = lead ++ (value ++ [closing]) ∧
    IsLead lead ∧ value ≠ [] ∧ (∀ c ∈ value, isQuote c = false) ∧ isQuote closing = true

/-- A shape finds what a pattern matches, and replaces it by what is kept and a tail. -/
structure Describes (P : Pattern) (tail : Text) (shape : Shape) : Prop where
  of_some : ∀ {before t n out}, shape before t = some (n, out) →
    ∃ kept gone rest, t = kept ++ (gone ++ rest) ∧ P before kept gone rest.head? ∧ gone ≠ [] ∧
      n = (kept ++ gone).length ∧ out = kept ++ tail
  of_none : ∀ {before t}, shape before t = none → ¬ OccursAt P before t

section Heads

theorem dropFolded_eq_some_iff {w t rest : Text} :
    Text.dropFolded w t = some rest ↔ ∃ k, t = k ++ rest ∧ k.map foldChar = w := by
  induction w generalizing t with
  | nil => simp [Text.dropFolded, eq_comm]
  | cons d w ih =>
    cases t with
    | nil => simp [Text.dropFolded]
    | cons c t =>
      simp only [Text.dropFolded]
      by_cases hc : foldChar c = d
      · rw [if_pos hc, ih]
        constructor
        · rintro ⟨k, rfl, rfl⟩
          exact ⟨c :: k, rfl, by rw [List.map_cons, hc]⟩
        · rintro ⟨k, hk, hw⟩
          cases k with
          | nil => simp at hw
          | cons e k =>
            obtain ⟨rfl, rfl⟩ := List.cons.inj hk
            exact ⟨k, rfl, (List.cons.inj hw).2⟩
      · rw [if_neg hc]
        refine ⟨nofun, ?_⟩
        rintro ⟨k, hk, hw⟩
        cases k with
        | nil => simp at hw
        | cons e k =>
          obtain ⟨rfl, rfl⟩ := List.cons.inj hk
          exact absurd (List.cons.inj hw).1 hc

def PrefixFree (words : List Text) : Prop := ∀ u ∈ words, ∀ v ∈ words, u <+: v → u = v

instance (words : List Text) : Decidable (PrefixFree words) :=
  inferInstanceAs (Decidable (∀ u ∈ words, ∀ v ∈ words, u <+: v → u = v))

theorem PrefixFree.eq {words : List Text} (hw : PrefixFree words) (f : Char → Char)
    {k k' rest rest' : Text} (hk : k.map f ∈ words) (hk' : k'.map f ∈ words)
    (h : k ++ rest = k' ++ rest') : k = k' := by
  have hlen : k.length = k'.length := by
    rcases List.append_eq_append_iff.1 h with ⟨s, rfl, -⟩ | ⟨s, rfl, -⟩
    · have := hw _ hk _ hk' (by simp)
      simpa using congrArg List.length this
    · have := hw _ hk' _ hk (by simp)
      simpa using (congrArg List.length this).symm
  exact (List.append_inj h hlen).1

theorem wordAtHead_eq_some {words : List Text} {t k rest : Text}
    (h : wordAtHead words t = some (k, rest)) : t = k ++ rest ∧ k.map foldChar ∈ words := by
  obtain ⟨w, hw, hd⟩ := List.exists_of_findSome?_eq_some h
  obtain ⟨r, hr, he⟩ := Option.map_eq_some_iff.1 hd
  obtain ⟨rfl, rfl⟩ := Prod.mk.inj he
  obtain ⟨k, rfl, rfl⟩ := dropFolded_eq_some_iff.1 hr
  simpa using hw

theorem wordAtHead_append {words : List Text} (hwords : PrefixFree words) {k : Text}
    (hk : k.map foldChar ∈ words) (rest : Text) :
    wordAtHead words (k ++ rest) = some (k, rest) := by
  cases h : wordAtHead words (k ++ rest) with
  | none =>
    have := List.findSome?_eq_none_iff.1 h _ hk
    rw [dropFolded_eq_some_iff.2 ⟨k, rfl, rfl⟩] at this
    simp at this
  | some found =>
    obtain ⟨k', rest'⟩ := found
    obtain ⟨hparts, hk'⟩ := wordAtHead_eq_some h
    obtain rfl := hwords.eq foldChar hk hk' hparts
    rw [List.append_cancel_left hparts]

theorem exists_span (p : Char → Bool) (t : Text) :
    ∃ v r, t = v ++ r ∧ (∀ c ∈ v, p c = true) ∧ ∀ c ∈ r.head?, p c = false := by
  refine ⟨t.takeWhile p, t.dropWhile p, List.takeWhile_append_dropWhile.symm,
    fun c hc => List.mem_takeWhile_imp hc, Text.head?_dropWhile_not⟩

theorem takeWhile_append_of_head {p : Char → Bool} {v r : Text} (hv : ∀ c ∈ v, p c = true)
    (hr : ∀ c ∈ r.head?, p c = false) : (v ++ r).takeWhile p = v := by
  rw [List.takeWhile_append_of_pos hv]
  cases r with
  | nil => simp
  | cons c r => simp [hr c rfl]

theorem dropWhile_append_of_head {p : Char → Bool} {v r : Text} (hv : ∀ c ∈ v, p c = true)
    (hr : ∀ c ∈ r.head?, p c = false) : (v ++ r).dropWhile p = r := by
  rw [List.dropWhile_append_of_pos hv, Text.dropWhile_of_head hr]

end Heads

/-! ## A scheme and its value -/

theorem isBlank_of_isSchemeValueChar {c : Char} (h : isSchemeValueChar c = true) :
    isBlank c = false := by
  by_contra hb
  have hfalse : isSchemeValueChar c = false :=
    Text.eq_false_of_isBlank (by decide +kernel) (by simpa using hb)
  simp [h] at hfalse

theorem schemeShape_append {word blanks value rest : Text} (hword : word.map foldChar ∈ schemeWords)
    (hblanks : ∀ c ∈ blanks, isBlank c = true)
    (hend : ∀ c ∈ (value ++ rest).head?, isBlank c = false)
    (hvalue : ∀ c ∈ value, isSchemeValueChar c = true)
    (hrest : ∀ c ∈ rest.head?, isSchemeValueChar c = false) (before : Option Char) :
    schemeShape before (word ++ (blanks ++ (value ++ rest))) =
      if blanks = [] ∨ value = [] then none
      else some (word.length + blanks.length + value.length, word ++ " [REDACTED]".toList) := by
  have hfree : PrefixFree schemeWords := by decide
  simp only [schemeShape, wordAtHead_append hfree hword, takeWhile_append_of_head hblanks hend,
    List.drop_left, takeWhile_append_of_head hvalue hrest, Bool.or_eq_true, List.isEmpty_iff]

theorem describes_scheme : Describes schemePattern " [REDACTED]" schemeShape where
  of_some := by
    intro before t n out h
    cases hw : wordAtHead schemeWords t with
    | none => simp [schemeShape, hw] at h
    | some found =>
      obtain ⟨word, after⟩ := found
      obtain ⟨rfl, hword⟩ := wordAtHead_eq_some hw
      obtain ⟨blanks, after, rfl, hblanks, hend⟩ := exists_span isBlank after
      obtain ⟨value, rest, rfl, hvalue, hrest⟩ := exists_span isSchemeValueChar after
      rw [schemeShape_append hword hblanks hend hvalue hrest] at h
      split_ifs at h with hempty
      rw [not_or] at hempty
      obtain ⟨rfl, rfl⟩ := Prod.mk.inj (Option.some.inj h)
      exact ⟨word, blanks ++ value, rest, by simp,
        ⟨hword, blanks, value, rfl, hempty.1, hblanks, hempty.2, hvalue⟩,
        by simp [hempty.1], by simp [Nat.add_assoc], rfl⟩
  of_none := by
    intro before t h hocc
    obtain ⟨word, gone, rest, rfl, hword, blanks, value, rfl, hbne, hblanks, hvne, hvalue⟩ := hocc
    obtain ⟨more, rest, rfl, hmore, hrest⟩ := exists_span isSchemeValueChar rest
    have hall : ∀ c ∈ value ++ more, isSchemeValueChar c = true := by
      simpa [or_imp, forall_and] using And.intro hvalue hmore
    have hend : ∀ c ∈ (value ++ more ++ rest).head?, isBlank c = false := by
      intro c hc
      rw [List.append_assoc, List.head?_append_of_ne_nil _ hvne] at hc
      exact isBlank_of_isSchemeValueChar (hvalue c (List.mem_of_head? hc))
    have := schemeShape_append hword hblanks hend hall hrest before
    simp_all

/-! ## Access tokens -/

def isTokenChar (c : Char) : Bool := isAlphanumeric c || c == '_'

theorem isWordChar_of_isTokenChar {c : Char} (h : isTokenChar c = true) : isWordChar c = true := by
  have hlt : c.toNat < 128 := by
    simp only [isTokenChar, isAlphanumeric, Text.isAsciiLetter, Text.isAsciiDigit, Bool.or_eq_true,
      Bool.and_eq_true, decide_eq_true_eq, beq_iff_eq, Char.le_def, UInt32.le_iff_toNat_le] at h
    rcases h with h | rfl
    · have hz : 'z'.val.toNat = 122 := rfl
      have hZ : 'Z'.val.toNat = 90 := rfl
      have h9 : '9'.val.toNat = 57 := rfl
      rw [Char.toNat]
      omega
    · decide
  rwa [isWordChar, if_pos hlt]

structure IsFamily (marks : List Text) (inToken : Char → Bool) : Prop where
  prefixFree : PrefixFree marks
  head : ∀ mark ∈ marks, mark.head? = some 'g'
  low : ∀ mark ∈ marks, '_' ∈ mark
  mark_chars : ∀ mark ∈ marks, ∀ c ∈ mark, isTokenChar c = true
  chars : ∀ c, inToken c = true → isTokenChar c = true

theorem isFamily_classic : IsFamily classicMarks isAlphanumeric where
  prefixFree := by decide
  head := by decide
  low := by decide
  mark_chars mark hm := List.all_eq_true.1 (List.all_eq_true.1
    (by decide : (classicMarks.all fun m => m.all isTokenChar) = true) mark hm)
  chars c h := by rw [isTokenChar, h, Bool.true_or]

theorem isFamily_fineGrained : IsFamily ["github_pat_"] fun c => isAlphanumeric c || c == '_' where
  prefixFree := by decide
  head := by decide
  low := by decide
  mark_chars mark hm := by
    rw [List.mem_singleton.1 hm]
    exact List.all_eq_true.1 (by decide)
  chars c h := h

section Tokens

variable {marks : List Text} {inToken : Char → Bool}

theorem find?_marks (hf : IsFamily marks inToken) {mark : Text} (hm : mark ∈ marks) (rest : Text) :
    marks.find? (fun m => m.isPrefixOf (mark ++ rest)) = some mark := by
  cases h : marks.find? (fun m => m.isPrefixOf (mark ++ rest)) with
  | none => simpa using List.find?_eq_none.1 h mark hm
  | some found =>
    have hp := List.find?_some h
    obtain ⟨r, hr⟩ := List.isPrefixOf_iff_prefix.1 hp
    have heq : found = mark := hf.prefixFree.eq id (by simpa using List.mem_of_find?_eq_some h)
      (by simpa using hm) hr
    rw [heq]

theorem tokenShape_append (hf : IsFamily marks inToken) {before : Option Char} {mark value rest : Text}
    (hbefore : isWordAt before = false) (hm : mark ∈ marks) (hvalue : ∀ c ∈ value, inToken c = true)
    (hrest : ∀ c ∈ rest.head?, inToken c = false) :
    tokenShape marks inToken before (mark ++ (value ++ rest)) =
      if value.length < tokenLength ∨ isWordAt rest.head? = true then none
      else some (mark.length + value.length, "[TOKEN_REDACTED]".toList) := by
  simp only [tokenShape, hbefore, find?_marks hf hm, List.drop_left,
    takeWhile_append_of_head hvalue hrest, Bool.or_eq_true, decide_eq_true_eq, Bool.false_eq_true,
    if_false]

theorem describes_token (hf : IsFamily marks inToken) :
    Describes (tokenPattern marks inToken) "[TOKEN_REDACTED]" (tokenShape marks inToken) where
  of_some := by
    intro before t n out h
    cases hb : isWordAt before with
    | true => simp [tokenShape, hb] at h
    | false =>
      cases hm : marks.find? fun m => m.isPrefixOf t with
      | none => simp [tokenShape, hb, hm] at h
      | some mark =>
        have hmem := List.mem_of_find?_eq_some hm
        have hp : mark.isPrefixOf t = true := by simpa using List.find?_some hm
        obtain ⟨after, rfl⟩ := List.isPrefixOf_iff_prefix.1 hp
        obtain ⟨value, rest, rfl, hvalue, hrest⟩ := exists_span inToken after
        rw [tokenShape_append hf hb hmem hvalue hrest] at h
        split_ifs at h with hshort
        rw [not_or, not_lt, Bool.not_eq_true] at hshort
        obtain ⟨rfl, rfl⟩ := Prod.mk.inj (Option.some.inj h)
        have hne : mark ++ value ≠ [] := by
          intro he
          have := hf.head mark hmem
          simp_all
        exact ⟨[], mark ++ value, rest, by simp,
          ⟨rfl, hb, hshort.2, mark, hmem, value, rfl, hshort.1, hvalue⟩, hne, by simp, rfl⟩
  of_none := by
    intro before t h hocc
    obtain ⟨kept, gone, rest, rfl, rfl, hb, hafter, mark, hm, value, rfl, hlen, hvalue⟩ := hocc
    have hrest : ∀ c ∈ rest.head?, inToken c = false := by
      intro c hc
      by_contra hin
      rw [Option.mem_def.1 hc] at hafter
      have := isWordChar_of_isTokenChar (hf.chars c (by simpa using hin))
      simp [isWordAt, this] at hafter
    rw [List.nil_append, List.append_assoc, tokenShape_append hf hb hm hvalue hrest] at h
    simp [hafter, Nat.not_lt.2 hlen] at h

end Tokens

/-! ## Assignments -/

theorem dropOne?_cons {p : Char → Bool} {c : Char} (hc : p c = true) (r : Text) :
    dropOne? p (c :: r) = some r := by
  simp [dropOne?, hc]

theorem dropOne?_eq_some_iff {p : Char → Bool} {t r : Text} :
    dropOne? p t = some r ↔ ∃ c, p c = true ∧ t = c :: r := by
  cases t with
  | nil => simp [dropOne?]
  | cons c t =>
    by_cases hc : p c = true
    · simp [dropOne?, hc]
    · simp only [dropOne?, hc]
      constructor
      · nofun
      · rintro ⟨d, hd, h⟩
        obtain ⟨rfl, rfl⟩ := List.cons.inj h
        exact absurd hd hc

theorem eq_of_isSign {c : Char} (h : isSign c = true) : c = ':' ∨ c = '=' := by
  simpa [isSign] using h

theorem eq_of_isQuote {c : Char} (h : isQuote c = true) : c = '\x27' ∨ c = '"' := by
  simpa [isQuote] using h

theorem isBlank_of_isSign {c : Char} (h : isSign c = true) : isBlank c = false := by
  rcases eq_of_isSign h with rfl | rfl <;> decide

theorem isQuote_of_isSign {c : Char} (h : isSign c = true) : isQuote c = false := by
  rcases eq_of_isSign h with rfl | rfl <;> decide

theorem isWordChar_of_isSign {c : Char} (h : isSign c = true) : isWordChar c = false := by
  rcases eq_of_isSign h with rfl | rfl <;> decide

theorem isBlank_of_isQuote {c : Char} (h : isQuote c = true) : isBlank c = false := by
  rcases eq_of_isQuote h with rfl | rfl <;> decide

theorem isWordChar_of_isQuote {c : Char} (h : isQuote c = true) : isWordChar c = false := by
  rcases eq_of_isQuote h with rfl | rfl <;> decide

theorem isQuote_of_isBlank {c : Char} (h : isBlank c = true) : isQuote c = false := by
  by_contra hq
  rw [isBlank_of_isQuote (by simpa using hq)] at h
  exact absurd h (by decide)

theorem exists_optional (p : Char → Bool) (t : Text) :
    ∃ q, t = q ++ (dropOne? p t).getD t ∧ q.length ≤ 1 ∧ ∀ c ∈ q, p c = true := by
  cases h : dropOne? p t with
  | none => exact ⟨[], by simp⟩
  | some r =>
    obtain ⟨c, hc, rfl⟩ := dropOne?_eq_some_iff.1 h
    exact ⟨[c], by simp [hc]⟩

theorem getD_dropOne?_append {p : Char → Bool} {q v : Text} (hlen : q.length ≤ 1)
    (hq : ∀ c ∈ q, p c = true) (hv : ∀ c ∈ v.head?, p c = false) :
    (dropOne? p (q ++ v)).getD (q ++ v) = v := by
  match q, hlen with
  | [c], _ => simp [dropOne?, hq c (by simp)]
  | [], _ =>
    cases v with
    | nil => rfl
    | cons c v => simp [dropOne?, hv c rfl]

theorem exists_of_dropAssigned? {t r : Text} (h : dropAssigned? t = some r) :
    ∃ lead value closing, t = lead ++ (value ++ closing :: r) ∧ IsLead lead ∧ value ≠ [] ∧
      (∀ c ∈ value, isQuote c = false) ∧ isQuote closing = true := by
  obtain ⟨quote, ht, hlen, hquote⟩ := exists_optional isQuote t
  simp only [dropAssigned?, Option.bind_eq_bind, Option.bind_eq_some_iff] at h
  generalize (dropOne? isQuote t).getD t = t₁ at ht h
  obtain ⟨t₂, h₂, t₃, h₃, h₄⟩ := h
  obtain ⟨blanks, u₁, rfl, hblanks, hu₁⟩ := exists_span isBlank t₁
  rw [dropWhile_append_of_head hblanks hu₁] at h₂
  obtain ⟨sign, hsign, rfl⟩ := dropOne?_eq_some_iff.1 h₂
  obtain ⟨blanks', u₂, rfl, hblanks', hu₂⟩ := exists_span isBlank t₂
  rw [dropWhile_append_of_head hblanks' hu₂] at h₃
  obtain ⟨opening, hopen, rfl⟩ := dropOne?_eq_some_iff.1 h₃
  obtain ⟨value, u₃, rfl, hvalue, hu₃⟩ := exists_span (fun c => !isQuote c) t₃
  rw [takeWhile_append_of_head hvalue hu₃, List.drop_left] at h₄
  split_ifs at h₄ with hempty
  obtain ⟨closing, hclosing, rfl⟩ := dropOne?_eq_some_iff.1 h₄
  exact ⟨quote ++ (blanks ++ sign :: (blanks' ++ [opening])), value, closing, by simp [ht],
    ⟨quote, blanks, sign, blanks', opening, rfl, hlen, hquote, hblanks, hsign, hblanks', hopen⟩,
    by simpa using hempty, by simpa using hvalue, hclosing⟩

theorem dropAssigned?_append {lead value rest : Text} {closing : Char} (hlead : IsLead lead)
    (hne : value ≠ []) (hvalue : ∀ c ∈ value, isQuote c = false) (hclosing : isQuote closing = true) :
    dropAssigned? (lead ++ (value ++ closing :: rest)) = some rest := by
  obtain ⟨quote, blanks, sign, blanks', opening, rfl, hlen, hquote, hblanks, hsign, hblanks', hopen⟩ :=
    hlead
  have hassoc : quote ++ (blanks ++ sign :: (blanks' ++ [opening])) ++ (value ++ closing :: rest) =
      quote ++ (blanks ++ sign :: (blanks' ++ opening :: (value ++ closing :: rest))) := by simp
  rw [hassoc]
  set u := value ++ closing :: rest with hu
  have hfirst : ∀ c ∈ (blanks ++ sign :: (blanks' ++ opening :: u)).head?, isQuote c = false := by
    intro c hc
    cases blanks with
    | nil => exact Option.some.inj hc ▸ isQuote_of_isSign hsign
    | cons b blanks => exact Option.some.inj hc ▸ isQuote_of_isBlank (hblanks b (by simp))
  have hspan {bs : Text} (hbs : ∀ c ∈ bs, isBlank c = true) {c : Char} (hc : isBlank c = false)
      (v : Text) : (bs ++ c :: v).dropWhile isBlank = c :: v :=
    dropWhile_append_of_head hbs (by simpa using hc)
  have htake : u.takeWhile (fun c => !isQuote c) = value :=
    takeWhile_append_of_head (by simpa using hvalue) (by simpa using hclosing)
  have hsign' : dropOne? (fun c => c == ':' || c == '=') (sign :: (blanks' ++ opening :: u)) =
      some (blanks' ++ opening :: u) := dropOne?_cons hsign _
  have hempty : value.isEmpty = false := by simpa using hne
  simp only [dropAssigned?, getD_dropOne?_append hlen hquote hfirst,
    hspan hblanks (isBlank_of_isSign hsign), hsign',
    hspan hblanks' (isBlank_of_isQuote hopen), dropOne?_cons hopen, Option.bind_eq_bind,
    Option.bind_some, htake, hempty, Bool.false_eq_true, if_false]
  rw [hu, List.drop_left, dropOne?_cons hclosing]

theorem describes_assignment : Describes assignmentPattern ": [REDACTED]" assignmentShape where
  of_some := by
    intro before t n out h
    cases hw : wordAtHead secretWords t with
    | none => simp [assignmentShape, hw] at h
    | some found =>
      obtain ⟨name, after⟩ := found
      obtain ⟨rfl, hname⟩ := wordAtHead_eq_some hw
      simp only [assignmentShape, hw] at h
      obtain ⟨rest, hrest, he⟩ := Option.map_eq_some_iff.1 h
      obtain ⟨lead, value, closing, rfl, hlead, hne, hvalue, hclosing⟩ := exists_of_dropAssigned? hrest
      obtain ⟨rfl, rfl⟩ := Prod.mk.inj he
      exact ⟨name, lead ++ (value ++ [closing]), rest, by simp,
        ⟨hname, lead, value, closing, rfl, hlead, hne, hvalue, hclosing⟩, by simp,
        by simp only [List.length_append, List.length_cons, List.length_nil]; omega, rfl⟩
  of_none := by
    intro before t h hocc
    obtain ⟨name, gone, rest, rfl, hname, lead, value, closing, rfl, hlead, hne, hvalue, hclosing⟩ :=
      hocc
    have hassoc : lead ++ (value ++ [closing]) ++ rest = lead ++ (value ++ closing :: rest) := by simp
    have hfree : PrefixFree secretWords := by decide
    simp [assignmentShape, wordAtHead_append hfree hname, hassoc,
      dropAssigned?_append hlead hne hvalue hclosing] at h

end PullGauge.Masking
