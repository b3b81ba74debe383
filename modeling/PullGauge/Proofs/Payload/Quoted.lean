import Mathlib
import PullGauge.Payload.Reading
import PullGauge.Payload.Writing

/-!
# Quoted texts are read back

In ASCII a character is written in one of four forms: as it is, as a short escape, as one unit
or as a pair of units. Whoever reads a quoted text meets these forms and no others, so each
reader needs one lemma about a form with anything behind it.
-/

namespace PullGauge

namespace Text

theorem hexValue?_lowerHexDigit {d : Nat} (h : d < 16) : hexValue? (lowerHexDigit d) = some d := by
  have hall : ∀ d < 16, hexValue? (lowerHexDigit d) = some d := by decide
  exact hall d h

theorem exists_of_mem_lowerHex {c : Char} {width n : Nat} (h : c ∈ lowerHex width n) :
    ∃ d < 16, c = lowerHexDigit d := by
  induction width generalizing n with
  | zero => simp [lowerHex] at h
  | succ width ih =>
    rcases List.mem_append.1 h with h | h
    · exact ih h
    · exact ⟨n % 16, Nat.mod_lt n (by decide), List.mem_singleton.1 h⟩

/-- The forms in which a character stands between quotes where only ASCII may stand. -/
inductive IsEscape (c : Char) : Text → Prop where
  | plain (hspace : ¬ c < ' ') (hquote : c ≠ '"') (hslash : c ≠ '\\') : IsEscape c [c]
  | short {e : Char} (he : Payload.Reading.shortEscape? e = some c) : IsEscape c ['\\', e]
  | unit (h : c.toNat < 0x10000) : IsEscape c ('\\' :: 'u' :: lowerHex 4 c.toNat)
  | pair (h : 0x10000 ≤ c.toNat) :
    IsEscape c ('\\' :: 'u' :: lowerHex 4 (0xd800 + (c.toNat - 0x10000) / 0x400) ++
      '\\' :: 'u' :: lowerHex 4 (0xdc00 + (c.toNat - 0x10000) % 0x400))

theorem isEscape_doubleEscape {c : Char} (h : c ≤ '~') : IsEscape c (doubleEscape c) := by
  unfold doubleEscape
  split_ifs with hquote hslash hline hreturn htab hfeed hback hcontrol
  · subst hquote
    exact .short rfl
  · subst hslash
    exact .short rfl
  · subst hline
    exact .short rfl
  · subst hreturn
    exact .short rfl
  · subst htab
    exact .short rfl
  · subst hfeed
    exact .short rfl
  · subst hback
    exact .short rfl
  · refine .unit ?_
    have hlt : c.toNat < ' '.toNat := hcontrol
    exact hlt.trans (by decide)
  · exact .plain hcontrol hquote hslash

theorem isEscape_asciiEscape (c : Char) : IsEscape c (asciiEscape c) := by
  unfold asciiEscape
  split_ifs with hascii hunit
  · exact isEscape_doubleEscape hascii
  · exact .unit hunit
  · exact .pair (by omega)

theorem IsEscape.ne_nil {c : Char} {t : Text} (h : IsEscape c t) : t ≠ [] := by
  cases h <;> simp

theorem length_le_flatMap_asciiEscape (t : Text) : t.length ≤ (t.flatMap asciiEscape).length := by
  induction t with
  | nil => simp
  | cons c t ih =>
    have hc : 0 < (asciiEscape c).length := List.length_pos_iff.2 (isEscape_asciiEscape c).ne_nil
    rw [List.flatMap_cons, List.length_append, List.length_cons]
    omega

end Text

namespace Payload.Reading

theorem unit?_lowerHex {n : Nat} (h : n < 0x10000) (r : Text) :
    unit? (Text.lowerHex 4 n ++ r) = some (n, r) := by
  have hdigit (k : Nat) : Text.hexValue? (Text.lowerHexDigit (k % 16)) = some (k % 16) :=
    Text.hexValue?_lowerHexDigit (Nat.mod_lt k (by decide))
  simp only [Text.lowerHex, List.nil_append, List.cons_append, unit?, hdigit, Option.bind_eq_bind,
    Option.bind_some, Option.some.injEq, Prod.mk.injEq, and_true]
  omega

theorem pair?_of_lt {n : Nat} (h : n < 0xd800 ∨ 0xdc00 ≤ n) (r : Text) : pair? n r = none := by
  have hno : ¬ (0xd800 ≤ n ∧ n < 0xdc00) := by omega
  unfold pair?
  split
  · rw [if_neg hno]
  · rfl

theorem toNat_lt (c : Char) : c.toNat < 0xd800 ∨ 0xdfff < c.toNat ∧ c.toNat < 0x110000 := c.valid

theorem pair?_lowerHex {c : Char} (h : 0x10000 ≤ c.toNat) (r : Text) :
    pair? (0xd800 + (c.toNat - 0x10000) / 0x400)
      ('\\' :: 'u' :: (Text.lowerHex 4 (0xdc00 + (c.toNat - 0x10000) % 0x400) ++ r)) =
      some (c, r) := by
  have hc := toNat_lt c
  have hhigh : 0xd800 ≤ 0xd800 + (c.toNat - 0x10000) / 0x400 ∧
      0xd800 + (c.toNat - 0x10000) / 0x400 < 0xdc00 := by omega
  have hlow : 0xdc00 ≤ 0xdc00 + (c.toNat - 0x10000) % 0x400 ∧
      0xdc00 + (c.toNat - 0x10000) % 0x400 < 0xe000 := by omega
  have hcode : 0x10000 + (0xd800 + (c.toNat - 0x10000) / 0x400 - 0xd800) * 0x400 +
      (0xdc00 + (c.toNat - 0x10000) % 0x400 - 0xdc00) = c.toNat := by omega
  have hunit := unit?_lowerHex (by omega : 0xdc00 + (c.toNat - 0x10000) % 0x400 < 0x10000) r
  simp only [pair?, if_pos hhigh, hunit, if_pos hlow, hcode, Char.ofNat_toNat]

theorem unitChar_toNat (c : Char) : unitChar c.toNat = c := by
  have hc := toNat_lt c
  have hno : ¬ (0xd800 ≤ c.toNat ∧ c.toNat < 0xe000) := by omega
  rw [unitChar, if_neg hno, Char.ofNat_toNat]

theorem quotedRest_append {c : Char} {e : Text} (h : Text.IsEscape c e) (fuel : Nat) (r : Text) :
    quotedRest (fuel + 1) (e ++ r) = (quotedRest fuel r).map fun (t, r) => (c :: t, r) := by
  have hslash : ¬ '\\' < ' ' := by decide
  cases h with
  | plain hspace hquote hslash =>
    cases hq : quotedRest fuel r <;> simp [quotedRest, hspace, hquote, hslash, hq]
  | @short e he =>
    have hu : e ≠ 'u' := by
      rintro rfl
      simp [shortEscape?] at he
    cases hq : quotedRest fuel r <;> simp [quotedRest, hslash, he, hq]
  | unit hlt =>
    have hc := toNat_lt c
    have hunit := unit?_lowerHex hlt r
    have hpair := pair?_of_lt (by omega : c.toNat < 0xd800 ∨ 0xdc00 ≤ c.toNat) r
    cases hq : quotedRest fuel r <;>
      simp [quotedRest, hslash, hunit, hpair, unitChar_toNat, hq]
  | pair hge =>
    have hc := toNat_lt c
    have hunit := unit?_lowerHex (by omega : 0xd800 + (c.toNat - 0x10000) / 0x400 < 0x10000)
      ('\\' :: 'u' :: (Text.lowerHex 4 (0xdc00 + (c.toNat - 0x10000) % 0x400) ++ r))
    have hpair := pair?_lowerHex hge r
    cases hq : quotedRest fuel r <;>
      simp [quotedRest, hslash, hunit, hpair, hq]

theorem quotedRest_flatMap {t : Text} {fuel : Nat} (h : t.length < fuel) (r : Text) :
    quotedRest fuel (t.flatMap Text.asciiEscape ++ '"' :: r) = some (t, r) := by
  induction t generalizing fuel with
  | nil =>
    obtain ⟨fuel, rfl⟩ : ∃ k, fuel = k + 1 := ⟨fuel - 1, by simp at h; omega⟩
    simp [quotedRest]
  | cons c t ih =>
    obtain ⟨fuel, rfl⟩ : ∃ k, fuel = k + 1 := ⟨fuel - 1, by simp at h; omega⟩
    rw [List.flatMap_cons, List.append_assoc, quotedRest_append (Text.isEscape_asciiEscape c),
      ih (by simpa using h)]
    rfl

end Payload.Reading

namespace Payload

theorem read?_asciiQuoted (t : Text) : read? (Text.asciiQuoted t) = some (.text t) := by
  have hlength := Text.length_le_flatMap_asciiEscape t
  have hrest : Reading.quotedRest ((t.flatMap Text.asciiEscape ++ ['"']).length + 1)
      (t.flatMap Text.asciiEscape ++ ['"']) = some (t, []) := by
    refine Reading.quotedRest_flatMap ?_ []
    rw [List.length_append]
    omega
  have hskip : Reading.skip (Text.asciiQuoted t) = Text.asciiQuoted t := rfl
  rw [read?, hskip]
  simp only [Text.asciiQuoted, List.cons_append, Reading.value?, hrest]
  rfl

end Payload

end PullGauge
