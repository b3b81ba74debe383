import Mathlib
import PullGauge.Number.Reading
import PullGauge.Proofs.Calendar.Written
import PullGauge.Proofs.Text.Trimming

/-!
# Written integers

An integer is written in decimal digits, behind a minus sign if it is negative. It is read back
as it was written unless it has more digits than are read.
-/

namespace PullGauge

namespace Text

theorem isDigit_of_mem_ofNat {n : Nat} {c : Char} (h : c ∈ ofNat n) : c.isDigit = true :=
  Nat.isDigit_of_mem_toDigits (by decide) (by decide) h

theorem isDigit_of_mem {n : Nat} {c : Char} (h : c ∈ ofNat n) : isDigit c = true := by
  have hall : ∀ c ∈ "0123456789".toList, isDigit c = true := forall_mem_of_all (by decide)
  exact hall c (mem_of_isDigit (isDigit_of_mem_ofNat h))

theorem notMem_of_isDigit {t : Text} {c : Char} (h : ∀ d ∈ t, isDigit d = true)
    (hc : isDigit c = false) : c ∉ t := by
  intro hm
  rw [h c hm] at hc
  exact Bool.noConfusion hc

@[simp] theorem ofNat_ne_nil (n : Nat) : ofNat n ≠ [] := by
  have hlength : 0 < (ofNat n).length := Nat.length_toDigits_pos
  exact List.length_pos_iff.1 hlength

theorem ofNat_injective : Function.Injective ofNat := by
  intro m n h
  have hread := congrArg (fun t => Nat.ofDigitChars 10 t 0) h
  simpa only [ofNat, Nat.ofDigitChars_ten_toDigits] using hread

theorem ofInt_of_nonneg {i : Int} (h : 0 ≤ i) : ofInt i = ofNat i.toNat := by
  obtain ⟨n, rfl⟩ := Int.eq_ofNat_of_zero_le h
  rfl

theorem ofInt_injective : Function.Injective ofInt := by
  intro i j h
  -- a sign is no digit
  have hsign {n : Nat} {t : Text} : ofNat n ≠ '-' :: t := by
    intro he
    have hdigit := isDigit_of_mem_ofNat (he ▸ List.mem_cons_self ..)
    revert hdigit
    decide
  cases i with
  | ofNat m =>
    cases j with
    | ofNat n => rw [ofNat_injective h]
    | negSucc n => exact absurd h hsign
  | negSucc m =>
    cases j with
    | ofNat n => exact absurd h.symm hsign
    | negSucc n =>
      have hnext := ofNat_injective (List.tail_eq_of_cons_eq h)
      rw [Nat.succ.inj hnext]

theorem digitsValue_ofNat (n : Nat) : digitsValue (ofNat n) = n := by
  have hvalue : ∀ c ∈ "0123456789".toList, (digitValue? c).getD 0 = c.toNat - '0'.toNat :=
    forall_mem_of_all (by decide)
  have hstep : ∀ k, ∀ c ∈ ofNat n,
      10 * k + (digitValue? c).getD 0 = 10 * k + (c.toNat - '0'.toNat) := by
    intro k c hc
    rw [hvalue c (mem_of_isDigit (isDigit_of_mem_ofNat hc))]
  rw [digitsValue, List.foldl_ext _ _ _ hstep]
  exact Nat.ofDigitChars_ten_toDigits

def integerChars : Text := "-0123456789"

theorem mem_integerChars_of_mem_ofNat {n : Nat} {c : Char} (h : c ∈ ofNat n) : c ∈ integerChars :=
  List.mem_cons_of_mem _ (mem_of_isDigit (isDigit_of_mem_ofNat h))

theorem mem_integerChars {i : Int} {c : Char} (h : c ∈ ofInt i) : c ∈ integerChars := by
  cases i with
  | ofNat n => exact mem_integerChars_of_mem_ofNat h
  | negSucc n =>
    rcases List.mem_cons.1 h with rfl | h
    · decide
    · exact mem_integerChars_of_mem_ofNat h

end Text

namespace Reading

theorem digitRunFrom_append {t rest : Text} (h : ∀ c ∈ t, Text.isDigit c = true)
    (hrest : ∀ c ∈ rest.head?, Text.isDigit c = false ∧ c ≠ '_') (inside : Bool) :
    digitRunFrom inside (t ++ rest) = (t, rest) := by
  induction t generalizing inside with
  | nil =>
    cases rest with
    | nil => rfl
    | cons c rest =>
      obtain ⟨hdigit, hline⟩ := hrest c rfl
      simp [digitRunFrom, hdigit, hline]
  | cons c t ih =>
    rw [List.cons_append, digitRunFrom, if_pos (h c (by simp)), ih fun d hd => h d (by simp [hd])]

theorem digitRunFrom_of_isDigit {t : Text} (h : ∀ c ∈ t, Text.isDigit c = true) (inside : Bool) :
    digitRunFrom inside t = (t, []) := by
  have hrun := @digitRunFrom_append t [] h nofun inside
  rwa [List.append_nil] at hrun

theorem sign_of_isDigit {t : Text} (h : ∀ c ∈ t.head?, Text.isDigit c = true) :
    sign t = (false, t) := by
  rw [sign.eq_def]
  split
  · exact absurd (h _ rfl) (by decide)
  · exact absurd (h _ rfl) (by decide)
  · rfl

theorem sign_ofNat (n : Nat) : sign (Text.ofNat n) = (false, Text.ofNat n) :=
  sign_of_isDigit fun _ hc => Text.isDigit_of_mem (List.mem_of_head? hc)

theorem integer?_of_sign {t : Text} (ht : ∀ c ∈ t, c ∈ Text.integerChars) {negative : Bool}
    {n : Nat} (hs : sign t = (negative, Text.ofNat n)) : integer? t =
      if (Text.ofNat n).length ≤ digitLimit then some (signed negative n) else none := by
  have hblank : ∀ c ∈ Text.integerChars, Text.isNumberBlank c = false :=
    Text.forall_mem_of_all (by decide)
  have htrim : Text.trimBy Text.isNumberBlank t = t :=
    Text.trimBy_of_ends (fun c hc => hblank c (ht c (List.mem_of_head? hc)))
      (fun c hc => hblank c (ht c (List.mem_of_getLast? hc)))
  have hrun : digitRun (Text.ofNat n) = (Text.ofNat n, []) :=
    digitRunFrom_of_isDigit (fun c hc => Text.isDigit_of_mem hc) false
  have hvalue := Text.digitsValue_ofNat n
  obtain ⟨c, u, hu⟩ := List.exists_cons_of_ne_nil (Text.ofNat_ne_nil n)
  unfold integer?
  rw [htrim, hs]
  dsimp only
  rw [hrun]
  rw [hu] at hvalue ⊢
  dsimp only
  rw [hvalue]

theorem integer?_ofNat (n : Nat) : integer? (Text.ofNat n) =
    if (Text.ofNat n).length ≤ digitLimit then some (n : Int) else none :=
  integer?_of_sign (fun _ hc => Text.mem_integerChars_of_mem_ofNat hc) (sign_ofNat n)

theorem integer?_ofInt (i : Int) : integer? (Text.ofInt i) =
    if (Text.ofNat i.natAbs).length ≤ digitLimit then some i else none := by
  cases i with
  | ofNat n => exact integer?_ofNat n
  | negSucc n =>
    have hs : sign (Text.ofInt (.negSucc n)) = (true, Text.ofNat (n + 1)) := rfl
    exact integer?_of_sign (fun _ hc => Text.mem_integerChars hc) hs

end Reading

end PullGauge
