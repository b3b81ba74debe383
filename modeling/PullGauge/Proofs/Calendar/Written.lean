import Mathlib
import PullGauge.Query.Filter

/-!
# Written dates

A date is written in ten characters that fix its year, its month and its day, so it is
read back from them. The digits of a padded number are peeled off from the right, and a
reader takes them from the left: `go_add` lets both meet.
-/

namespace PullGauge

namespace Text

theorem length_padZeros (width : Nat) (t : Text) :
    (padZeros width t).length = max width t.length := by
  rw [padZeros, List.length_append, List.length_replicate]
  omega

theorem padZeros_ofNat_of_lt {n : Nat} (h : n < 10) : padZeros 1 (ofNat n) = [n.digitChar] := by
  rw [ofNat, Nat.toDigits_of_lt_base h]
  rfl

theorem padZeros_ofNat_succ {width : Nat} (hw : 0 < width) (n : Nat) :
    padZeros (width + 1) (ofNat n) =
      padZeros width (ofNat (n / 10)) ++ [(n % 10).digitChar] := by
  by_cases h : n < 10
  · have hz : padZeros width ['0'] = List.replicate width '0' := by
      obtain ⟨k, rfl⟩ : ∃ k, width = k + 1 := ⟨width - 1, by omega⟩
      rw [List.replicate_succ']
      rfl
    rw [ofNat, ofNat, Nat.toDigits_of_lt_base h, Nat.div_eq_of_lt h, Nat.mod_eq_of_lt h,
      Nat.toDigits_zero, hz]
    rfl
  · rw [ofNat, ofNat, Nat.toDigits_of_base_le (by decide) (by omega), padZeros, padZeros,
      List.length_append, List.append_assoc, List.length_singleton, Nat.add_sub_add_right]

theorem length_ofNat_le {n width : Nat} (hw : 0 < width) (h : n < 10 ^ width) :
    (ofNat n).length ≤ width := (Nat.length_toDigits_le_iff (by decide) hw).2 h

theorem length_padZeros_ofNat {n width : Nat} (hw : 0 < width) (h : n < 10 ^ width) :
    (padZeros width (ofNat n)).length = width := by
  rw [length_padZeros, Nat.max_eq_left (length_ofNat_le hw h)]

theorem mem_of_isDigit {c : Char} (h : c.isDigit = true) : c ∈ "0123456789".toList := by
  have hlt : c.toNat < 0x80 := by
    simp only [Char.isDigit, Bool.and_eq_true, decide_eq_true_eq] at h
    exact lt_of_le_of_lt (UInt32.le_iff_toNat_le.1 h.2) (by decide)
  have hall : ∀ n < 0x80, (Char.ofNat n).isDigit = true → Char.ofNat n ∈ "0123456789".toList := by
    decide
  simpa using hall c.toNat hlt (by simpa using h)

theorem mem_of_mem_padZeros {c : Char} {width n : Nat} (h : c ∈ padZeros width (ofNat n)) :
    c ∈ "0123456789".toList := by
  rcases List.mem_append.1 h with h | h
  · rw [List.eq_of_mem_replicate h]; decide
  · exact mem_of_isDigit (Nat.isDigit_of_mem_toDigits (by decide) (by decide) h)

theorem asciiDigit?_digitChar {d : Nat} (h : d < 10) : asciiDigit? d.digitChar = some d := by
  have : ∀ d < 10, asciiDigit? (Nat.digitChar d) = some d := by decide
  exact this d h

theorem Utf8.size_of_ascii {t : Text} (h : ∀ c ∈ t, c.toNat < 0x80) : Utf8.size t = t.length := by
  rw [size, encode]
  induction t with
  | nil => rfl
  | cons c t ih =>
    have hc : encodeChar c = [c.toNat] := by simp [encodeChar, h c (by simp)]
    rw [List.flatMap_cons, hc, List.length_append, ih fun d hd => h d (by simp [hd])]
    simp [Nat.add_comm]

end Text

open Calendar

namespace Reading

theorem go_add (v j k : Nat) (t : Text) :
    digits.go v (j + k) t = (digits.go v j t).bind fun (v, t) => digits.go v k t := by
  induction j generalizing v t with
  | zero => simp [digits.go]
  | succ j ih =>
    rw [Nat.add_right_comm]
    cases t with
    | nil => rfl
    | cons c t =>
      simp only [digits.go]
      cases Text.asciiDigit? c with
      | none => rfl
      | some d => exact ih _ _

theorem go_padZeros {width n : Nat} (hw : 0 < width) (h : n < 10 ^ width) (v : Nat) (t : Text) :
    digits.go v width (Text.padZeros width (Text.ofNat n) ++ t) =
      some (10 ^ width * v + n, t) := by
  induction width, hw using Nat.le_induction generalizing n t with
  | base =>
    rw [Text.padZeros_ofNat_of_lt h]
    simp [digits.go, Text.asciiDigit?_digitChar h]
  | succ k hk ih =>
    have hn : n / 10 < 10 ^ k := by
      rw [Nat.div_lt_iff_lt_mul (by decide), ← Nat.pow_succ]
      exact h
    have hd : n % 10 < 10 := Nat.mod_lt n (by decide)
    rw [Text.padZeros_ofNat_succ hk, List.append_assoc, go_add, ih hn]
    simp only [Option.bind_some, List.singleton_append, digits.go, Text.asciiDigit?_digitChar hd]
    have hk : 10 ^ (k + 1) * v = 10 * (10 ^ k * v) := by rw [Nat.pow_succ, Nat.mul_comm _ 10, Nat.mul_assoc]
    rw [hk]
    congr 2
    omega

theorem digits_padZeros {width n : Nat} (hw : 0 < width) (h : n < 10 ^ width) (t : Text) :
    digits width (Text.padZeros width (Text.ofNat n) ++ t) = some (n, t) := by
  rw [digits, go_padZeros hw h]
  simp

end Reading

namespace Date

theorem fields_lt (d : Date) : d.year < 10 ^ 4 ∧ d.month < 10 ^ 2 ∧ d.day < 10 ^ 2 := by
  obtain ⟨⟨-, hy⟩, ⟨-, hm⟩, -, hd⟩ := d.isDate
  have hl : monthLength d.year d.month ≤ 31 := by
    unfold monthLength
    split_ifs <;> decide
  have : lastYear = 9999 := rfl
  omega

@[simp] theorem length_write (d : Date) : d.write.length = 10 := by
  obtain ⟨hy, hm, hd⟩ := d.fields_lt
  simp only [write, List.length_append, List.length_cons, Text.length_padZeros_ofNat, hy, hm, hd,
    Nat.zero_lt_succ]

theorem mem_of_mem_write {c : Char} {d : Date} (h : c ∈ d.write) :
    c ∈ "0123456789-".toList := by
  have hdigit : ∀ e ∈ "0123456789".toList, e ∈ "0123456789-".toList :=
    Text.forall_mem_of_all (by decide)
  simp only [write, List.mem_append, List.mem_cons] at h
  rcases h with (h | rfl | h) | rfl | h
  · exact hdigit c (Text.mem_of_mem_padZeros h)
  · decide
  · exact hdigit c (Text.mem_of_mem_padZeros h)
  · decide
  · exact hdigit c (Text.mem_of_mem_padZeros h)

theorem dateAtHead_write (d : Date) : Reading.dateAtHead d.write = some d := by
  obtain ⟨hy, hm, hd⟩ := d.fields_lt
  have hmonth (t : Text) : Text.padZeros 2 (Text.ofNat d.month) ++ t =
      (d.month / 10).digitChar :: (d.month % 10).digitChar :: t := by
    rw [Text.padZeros_ofNat_succ (by decide), Text.padZeros_ofNat_of_lt (by omega)]
    rfl
  have hw : (d.month / 10).digitChar ≠ 'W' := by
    have : ∀ n < 10, Nat.digitChar n ≠ 'W' := by decide
    exact this _ (by omega)
  have hrest := Reading.digits_padZeros (by decide) hm ('-' :: Text.padZeros 2 (Text.ofNat d.day))
  have hlast := Reading.digits_padZeros (by decide) hd []
  rw [hmonth] at hrest
  rw [List.append_nil] at hlast
  rw [write, List.append_assoc, List.cons_append, hmonth, Reading.dateAtHead]
  simp [Reading.digits_padZeros (by decide) hy, hw, hrest, Reading.hyphen, hlast, make?, d.isDate]

theorem read?_write (d : Date) : read? d.write = some d := by
  have hsize : Text.Utf8.size d.write = 10 := by
    rw [Text.Utf8.size_of_ascii, length_write]
    have hascii : ∀ c ∈ "0123456789-".toList, c.toNat < 0x80 := Text.forall_mem_of_all (by decide)
    exact fun c hc => hascii c (mem_of_mem_write hc)
  rw [read?, hsize, if_pos (by decide), dateAtHead_write]

end Date

end PullGauge
