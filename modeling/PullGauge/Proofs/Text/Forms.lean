import Mathlib
import PullGauge.Proofs.Query.Qualifiers
import PullGauge.Text.Percent

/-!
# Encoded texts read back

Each encoding is undone piece by piece, whatever follows: a character by the octets that write
it, an octet by a percent sign and two digits. What is encoded for a form holds neither of the
marks that stand between its keys and values, so a form is cut where it was joined.
-/

namespace PullGauge.Text

namespace Utf8

theorem decodeFrom_first {b : Nat} {s : Begun} (h : first b = .ok s) (r : List Nat) :
    decodeFrom none (b :: r) = decodeFrom (some s) r := by
  rw [decodeFrom, h]

theorem decodeFrom_more {s : Begun} {b : Nat} (hb : s.low ≤ b ∧ b ≤ s.high) (h : 1 < s.missing)
    (r : List Nat) : decodeFrom (some s) (b :: r) =
      decodeFrom (some ⟨s.bits * 0x40 + (b - 0x80), s.missing - 1, 0x80, 0xbf⟩) r := by
  rw [decodeFrom, if_pos hb, if_neg (by omega)]

theorem decodeFrom_last {s : Begun} {b : Nat} (hb : s.low ≤ b ∧ b ≤ s.high) (h : s.missing = 1)
    (r : List Nat) : decodeFrom (some s) (b :: r) =
      Char.ofNat (s.bits * 0x40 + (b - 0x80)) :: decodeFrom none r := by
  rw [decodeFrom, if_pos hb, if_pos h.le]

theorem first_of_two {k : Nat} (hlow : 2 ≤ k) (hhigh : k < 0x20) :
    first (0xc0 + k) = .ok ⟨k, 1, 0x80, 0xbf⟩ := by
  unfold first
  rw [if_neg (by omega), if_neg (by omega), if_pos (by omega), Nat.add_sub_cancel_left]

theorem first_of_three {k : Nat} (h : k < 0x10) : first (0xe0 + k) =
    .ok ⟨k, 2, if k = 0 then 0xa0 else 0x80, if k = 0xd then 0x9f else 0xbf⟩ := by
  interval_cases k <;> rfl

theorem first_of_four {k : Nat} (h : k < 5) : first (0xf0 + k) =
    .ok ⟨k, 3, if k = 0 then 0x90 else 0x80, if k = 4 then 0x8f else 0xbf⟩ := by
  interval_cases k <;> rfl

theorem decodeFrom_encodeChar (c : Char) (r : List Nat) :
    decodeFrom none (encodeChar c ++ r) = c :: decodeFrom none r := by
  have hvalid : c.toNat < 0xd800 ∨ 0xdfff < c.toNat ∧ c.toNat < 0x110000 := c.valid
  have hchar : Char.ofNat c.toNat = c := Char.ofNat_toNat c
  unfold encodeChar
  generalize c.toNat = n at hvalid hchar
  dsimp only
  -- the first octet tells how many follow, and each of these adds six bits
  split_ifs with hone htwo hthree
  · have hfirst : first n = .error (some (Char.ofNat n)) := by rw [first, if_pos hone]
    rw [List.singleton_append, decodeFrom, hfirst, hchar]
  · have hbits : n / 0x40 * 0x40 + (0x80 + n % 0x40 - 0x80) = n := by omega
    rw [List.cons_append, decodeFrom_first (first_of_two (by omega) (by omega)),
      List.singleton_append, decodeFrom_last (by dsimp only; omega) rfl, hbits, hchar]
  · have hbits : (n / 0x1000 * 0x40 + (0x80 + n / 0x40 % 0x40 - 0x80)) * 0x40 +
        (0x80 + n % 0x40 - 0x80) = n := by omega
    rw [List.cons_append, decodeFrom_first (first_of_three (by omega)), List.cons_append,
      decodeFrom_more (by dsimp only; split_ifs <;> omega) Nat.one_lt_two, List.singleton_append,
      decodeFrom_last (by dsimp only; omega) rfl, hbits, hchar]
  · have hbits : ((n / 0x40000 * 0x40 + (0x80 + n / 0x1000 % 0x40 - 0x80)) * 0x40 +
        (0x80 + n / 0x40 % 0x40 - 0x80)) * 0x40 + (0x80 + n % 0x40 - 0x80) = n := by omega
    rw [List.cons_append, decodeFrom_first (first_of_four (by omega)), List.cons_append,
      decodeFrom_more (by dsimp only; split_ifs <;> omega) (Nat.lt_add_left 1 Nat.one_lt_two),
      List.cons_append, decodeFrom_more (by dsimp only; omega) Nat.one_lt_two,
      List.singleton_append, decodeFrom_last (by dsimp only; omega) rfl, hbits, hchar]

theorem decode_encode (t : Text) : decode (encode t) = t := by
  induction t with
  | nil => rfl
  | cons c t ih =>
    rw [encode, List.flatMap_cons, decode, decodeFrom_encodeChar]
    exact congrArg (c :: ·) ih

theorem lt_of_mem_encodeChar {c : Char} {b : Nat} (h : b ∈ encodeChar c) : b < 0x100 := by
  have hvalid : c.toNat < 0xd800 ∨ 0xdfff < c.toNat ∧ c.toNat < 0x110000 := c.valid
  unfold encodeChar at h
  dsimp only at h
  split_ifs at h <;> simp only [List.mem_cons, List.not_mem_nil, or_false] at h <;> omega

end Utf8

theorem hexValue?_upperHexDigit {n : Nat} (h : n < 0x10) :
    hexValue? (upperHexDigit n) = some n := by
  interval_cases n <;> decide

theorem percentOctets_percentOctet {b : Nat} (h : b < 0x100) (r : Text) :
    percentOctets (percentOctet b ++ r) = b :: percentOctets r := by
  have hb : 16 * (b / 16) + b % 16 = b := by omega
  rw [percentOctet, List.cons_append, List.cons_append, List.singleton_append, percentOctets,
    hexValue?_upperHexDigit (by omega), hexValue?_upperHexDigit (by omega)]
  dsimp only
  rw [hb]

theorem percentOctets_flatMap {octets : List Nat} (h : ∀ b ∈ octets, b < 0x100) (r : Text) :
    percentOctets (octets.flatMap percentOctet ++ r) = octets ++ percentOctets r := by
  induction octets with
  | nil => rfl
  | cons b octets ih =>
    rw [List.forall_mem_cons] at h
    rw [List.flatMap_cons, List.append_assoc, percentOctets_percentOctet h.1, ih h.2]
    rfl

theorem percentOctets_cons {c : Char} (h : c ≠ '%') (r : Text) :
    percentOctets (c :: r) = Utf8.encodeChar c ++ percentOctets r := by
  rw [percentOctets.eq_def]
  split
  · rename_i heq
    cases heq
  · rename_i heq
    exact absurd (List.head_eq_of_cons_eq heq) h
  · rename_i heq
    cases heq
    rfl

variable {keep : Char → Bool}

theorem percentOctets_percentEncode (hkeep : keep '%' = false) (t r : Text) :
    percentOctets (percentEncode keep t ++ r) = Utf8.encode t ++ percentOctets r := by
  induction t with
  | nil => rfl
  | cons c t ih =>
    rw [percentEncode, List.flatMap_cons, List.append_assoc, Utf8.encode, List.flatMap_cons,
      List.append_assoc]
    split_ifs with hc
    · have hne : c ≠ '%' := by
        rintro rfl
        rw [hkeep] at hc
        cases hc
      rw [List.singleton_append, percentOctets_cons hne]
      exact congrArg _ ih
    · rw [percentOctets_flatMap fun b hb => Utf8.lt_of_mem_encodeChar hb]
      exact congrArg _ ih

theorem percentDecode_percentEncode (hkeep : keep '%' = false) (t : Text) :
    percentDecode (percentEncode keep t) = t := by
  have hoctets := percentOctets_percentEncode hkeep t []
  rw [List.append_nil, percentOctets, List.append_nil] at hoctets
  rw [percentDecode, hoctets, Utf8.decode_encode]

theorem percentEncode_of_all {t : Text} (h : ∀ c ∈ t, keep c = true) :
    percentEncode keep t = t := by
  induction t with
  | nil => rfl
  | cons c t ih =>
    rw [List.forall_mem_cons] at h
    rw [percentEncode, List.flatMap_cons, if_pos h.1]
    exact congrArg (c :: ·) (ih h.2)

def octetChars : Text := "%0123456789ABCDEF"

theorem mem_octetChars {b : Nat} (h : b < 0x100) {c : Char} (hc : c ∈ percentOctet b) :
    c ∈ octetChars := by
  have hdigit : ∀ n < 16, upperHexDigit n ∈ octetChars := by decide
  rw [percentOctet, List.mem_cons, List.mem_cons, List.mem_singleton] at hc
  rcases hc with rfl | rfl | rfl
  · decide
  · exact hdigit _ (by omega)
  · exact hdigit _ (by omega)

theorem keep_or_mem_of_mem_percentEncode {t : Text} {c : Char} (h : c ∈ percentEncode keep t) :
    keep c = true ∨ c ∈ octetChars := by
  obtain ⟨d, -, hd⟩ := List.mem_flatMap.1 h
  split_ifs at hd with hkeep
  · rw [List.mem_singleton.1 hd]
    exact .inl hkeep
  · obtain ⟨b, hb, hc⟩ := List.mem_flatMap.1 hd
    exact .inr (mem_octetChars (Utf8.lt_of_mem_encodeChar hb) hc)

theorem splitAtFirst_eq_none {c : Char} {t : Text} (h : c ∉ t) :
    splitAtFirst [c] t = none := by
  induction t with
  | nil => rfl
  | cons d t ih =>
    rw [List.mem_cons, not_or] at h
    simp [splitAtFirst, List.isPrefixOf, h.1, ih h.2]

theorem cut_intercalate {sep : Char} {piece : Text} {more : List Text}
    (h : ∀ p ∈ piece :: more, sep ∉ p) :
    cut sep (List.intercalate [sep] (piece :: more)) = piece :: more := by
  induction more generalizing piece with
  | nil => rw [List.intercalate_singleton, cut_of_not_mem (h piece (List.mem_cons_self ..))]
  | cons next more ih =>
    rw [List.forall_mem_cons] at h
    rw [List.intercalate_cons_cons, List.append_assoc, List.singleton_append,
      cut_append_sep h.1, ih h.2]

theorem mem_or_exists_of_mem_intercalate {sep : Text} {pieces : List Text} {c : Char}
    (h : c ∈ List.intercalate sep pieces) : c ∈ sep ∨ ∃ p ∈ pieces, c ∈ p := by
  induction pieces with
  | nil => cases h
  | cons piece more ih =>
    cases more with
    | nil =>
      rw [List.intercalate_singleton] at h
      exact .inr ⟨piece, List.mem_singleton_self piece, h⟩
    | cons next more =>
      rw [List.intercalate_cons_cons, List.append_assoc] at h
      rcases List.mem_append.1 h with h | h
      · exact .inr ⟨piece, List.mem_cons_self .., h⟩
      · rcases List.mem_append.1 h with h | h
        · exact .inl h
        · exact (ih h).imp_right fun ⟨p, hp, hc⟩ => ⟨p, List.mem_cons_of_mem _ hp, hc⟩

namespace Form

def isEncoded (c : Char) : Bool := isPlain c || c == '+' || c == '%'

theorem isEncoded_of_mem_encode {t : Text} {c : Char} (h : c ∈ encode t) : isEncoded c = true := by
  have hoctets : ∀ d ∈ octetChars, isEncoded d = true := forall_mem_of_all (by decide)
  obtain ⟨d, hd, rfl⟩ := List.mem_map.1 h
  split_ifs with hspace
  · rfl
  · rcases keep_or_mem_of_mem_percentEncode hd with hkeep | hmem
    · rw [beq_eq_false_iff_ne.2 hspace, Bool.or_false] at hkeep
      rw [isEncoded, hkeep]
      rfl
    · exact hoctets d hmem

theorem not_mem_encode {c : Char} (hc : isEncoded c = false) (t : Text) : c ∉ encode t := by
  intro h
  rw [isEncoded_of_mem_encode h] at hc
  cases hc

theorem decode_encode (t : Text) : decode (encode t) = t := by
  have hspaces : (encode t).map (fun c => if c = '+' then ' ' else c) =
      percentEncode (fun c => isPlain c || c == ' ') t := by
    have hoctets : ∀ c ∈ octetChars, c ≠ '+' := forall_mem_of_all (by decide)
    have hplain : (isPlain '+' || '+' == ' ') = false := by decide
    rw [encode, List.map_map, List.map_congr_left, List.map_id']
    intro c hc
    by_cases hspace : c = ' '
    · simp [hspace]
    · have hplus : c ≠ '+' := by
        rcases keep_or_mem_of_mem_percentEncode hc with hkeep | hmem
        · rintro rfl
          rw [hplain] at hkeep
          cases hkeep
        · exact hoctets c hmem
      simp [hspace, hplus]
  rw [decode, hspaces, percentDecode_percentEncode (by decide)]

theorem encode_of_isPlain {t : Text} (h : ∀ c ∈ t, isPlain c = true) : encode t = t := by
  have hkept : percentEncode (fun c => isPlain c || c == ' ') t = t := by
    refine percentEncode_of_all ?_
    intro c hc
    rw [h c hc]
    rfl
  have hspace : isPlain ' ' = false := by decide
  rw [encode, hkept, List.map_congr_left, List.map_id']
  intro c hc
  rw [if_neg]
  rintro rfl
  rw [h _ hc] at hspace
  cases hspace

def writePair (pair : Text × Text) : Text := encode pair.1 ++ '=' :: encode pair.2

theorem readPair_writePair (pair : Text × Text) : readPair (writePair pair) = pair := by
  rw [readPair, writePair, splitAtFirst_of_not_mem (not_mem_encode (by decide) _)]
  dsimp only
  rw [decode_encode, decode_encode]

theorem not_mem_writePair (pair : Text × Text) : '&' ∉ writePair pair := by
  have hmark (t : Text) : '&' ∉ encode t := not_mem_encode (by decide) t
  simp [writePair, hmark]

theorem read_write (pairs : List (Text × Text)) : read (write pairs) = pairs := by
  have hwrite : write pairs = List.intercalate ['&'] (pairs.map writePair) := rfl
  cases pairs with
  | nil => rfl
  | cons pair more =>
    have hnone : ∀ p ∈ (pair :: more).map writePair, '&' ∉ p := by
      rintro p hp
      obtain ⟨q, -, rfl⟩ := List.mem_map.1 hp
      exact not_mem_writePair q
    have hfull : ∀ p ∈ (pair :: more).map writePair, (!p.isEmpty) = true := by
      rintro p hp
      obtain ⟨q, -, rfl⟩ := List.mem_map.1 hp
      simp [writePair]
    rw [List.map_cons] at hnone hfull hwrite
    rw [read, hwrite, cut_intercalate hnone, List.filter_eq_self.2 hfull, ← List.map_cons,
      List.map_map]
    exact (List.map_congr_left fun p _ => readPair_writePair p).trans (List.map_id' _)

theorem isEncoded_or_mem_of_mem_write {pairs : List (Text × Text)} {c : Char}
    (h : c ∈ write pairs) : isEncoded c = true ∨ c ∈ ['&', '='] := by
  obtain hmark | ⟨piece, hpiece, hc⟩ := mem_or_exists_of_mem_intercalate h
  · exact .inr (List.mem_cons.2 (.inl (List.mem_singleton.1 hmark)))
  · obtain ⟨⟨key, value⟩, -, rfl⟩ := List.mem_map.1 hpiece
    rcases List.mem_append.1 hc with hc | hc
    · exact .inl (isEncoded_of_mem_encode hc)
    · rcases List.mem_cons.1 hc with rfl | hc
      · exact .inr (by decide)
      · exact .inl (isEncoded_of_mem_encode hc)

end Form

end PullGauge.Text
