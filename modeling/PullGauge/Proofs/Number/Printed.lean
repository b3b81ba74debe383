import Mathlib
import PullGauge.Number.Basic
import PullGauge.Number.Written
import PullGauge.Proofs.Number.Integers
import PullGauge.Proofs.Number.Rounding

/-!
# Printed numbers

A decimal is written with its digits in positional notation, padded with zeros where the point
stands outside of them, or with one digit before the point and an exponent. Either text is read
back as a decimal of the same sign and the same value, though seldom with the same coefficient. A
double is rounded as its text is: the result is the multiple nearest to the number printed.
-/

namespace PullGauge

namespace Text

theorem foldl_digitsValue (n : Nat) (t : Text) :
    t.foldl (fun n c => 10 * n + (digitValue? c).getD 0) n = n * 10 ^ t.length + digitsValue t := by
  induction t generalizing n with
  | nil => simp [digitsValue]
  | cons c t ih =>
    rw [digitsValue, List.foldl_cons, List.foldl_cons, ih, ih (10 * 0 + _), List.length_cons]
    ring

theorem digitsValue_append (s t : Text) :
    digitsValue (s ++ t) = digitsValue s * 10 ^ t.length + digitsValue t := by
  rw [digitsValue, List.foldl_append, foldl_digitsValue]
  rfl

theorem digitsValue_zeros (n : Nat) : digitsValue (List.replicate n '0') = 0 := by
  induction n with
  | zero => rfl
  | succ n ih => rw [List.replicate_succ', digitsValue_append, ih, Nat.zero_mul]; decide

@[simp]
theorem digitsValue_zeros_append (n : Nat) (t : Text) :
    digitsValue (List.replicate n '0' ++ t) = digitsValue t := by
  rw [digitsValue_append, digitsValue_zeros, Nat.zero_mul, Nat.zero_add]

@[simp]
theorem digitsValue_append_zeros (t : Text) (n : Nat) :
    digitsValue (t ++ List.replicate n '0') = digitsValue t * 10 ^ n := by
  rw [digitsValue_append, digitsValue_zeros, List.length_replicate, Nat.add_zero]

theorem isDigit_of_mem_zeros {n : Nat} {c : Char} (h : c ∈ List.replicate n '0') :
    isDigit c = true := by
  rw [List.eq_of_mem_replicate h]
  decide

end Text

namespace Reading

variable {whole fraction rest : Text} {e : Int}

def signedDecimal? (t : Text) : Option Decimal := decimal? (sign t).1 (sign t).2

theorem digitRun_point (hw : ∀ c ∈ whole, Text.isDigit c = true) (rest : Text) :
    digitRun (whole ++ '.' :: rest) = (whole, '.' :: rest) := by
  refine digitRunFrom_append hw (fun c hc => ?_) false
  obtain rfl : '.' = c := Option.some.inj hc
  decide

theorem digitRun_exponent (hw : ∀ c ∈ whole, Text.isDigit c = true)
    (hrest : ∀ c ∈ rest.head?, c = 'e') : digitRun (whole ++ rest) = (whole, rest) := by
  refine digitRunFrom_append hw (fun c hc => ?_) false
  rw [hrest c hc]
  decide

theorem decimal?_point (negative : Bool) (rest : Text) (hne : whole ≠ [])
    (hw : ∀ c ∈ whole, Text.isDigit c = true) (hf : ∀ c ∈ fraction, Text.isDigit c = true)
    (hrest : ∀ c ∈ rest.head?, c = 'e') (he : exponent? rest = some e) :
    decimal? negative (whole ++ '.' :: (fraction ++ rest)) =
      some ⟨negative, Text.digitsValue (whole ++ fraction), e - fraction.length⟩ := by
  simp only [decimal?, digitRun_point hw, digitRun_exponent hf hrest]
  simp [hne, he]

theorem decimal?_whole (negative : Bool) (rest : Text) (hne : whole ≠ [])
    (hw : ∀ c ∈ whole, Text.isDigit c = true)
    (hrest : ∀ c ∈ rest.head?, c = 'e') (he : exponent? rest = some e) :
    decimal? negative (whole ++ rest) = some ⟨negative, Text.digitsValue whole, e⟩ := by
  simp only [decimal?, digitRun_exponent hw hrest]
  cases rest with
  | nil => simp [hne, he]
  | cons c rest =>
    obtain rfl : c = 'e' := hrest c rfl
    simp [hne, he]

theorem signed_natAbs (e : Int) : signed (decide (e < 0)) e.natAbs = e := by
  by_cases he : e < 0
  · rw [signed, if_pos (decide_eq_true he)]
    omega
  · rw [signed, if_neg (by simpa using he)]
    omega

theorem exponent?_written (width : Nat) (e : Int) :
    exponent? ('e' :: (if e < 0 then '-' else '+') ::
      Text.padZeros width (Text.ofNat e.natAbs)) = some e := by
  have hdigits : ∀ c ∈ Text.padZeros width (Text.ofNat e.natAbs), Text.isDigit c = true := by
    intro c hc
    rcases List.mem_append.1 hc with hzero | hdigit
    · exact Text.isDigit_of_mem_zeros hzero
    · exact Text.isDigit_of_mem hdigit
  have hvalue : Text.digitsValue (Text.padZeros width (Text.ofNat e.natAbs)) = e.natAbs := by
    rw [Text.padZeros, Text.digitsValue_zeros_append, Text.digitsValue_ofNat]
  have hrun : digitRun (Text.padZeros width (Text.ofNat e.natAbs)) = (_, []) :=
    digitRunFrom_of_isDigit hdigits false
  have hne : Text.padZeros width (Text.ofNat e.natAbs) ≠ [] :=
    List.append_ne_nil_of_right_ne_nil _ (Text.ofNat_ne_nil _)
  obtain ⟨c, t, ht⟩ := List.exists_cons_of_ne_nil hne
  rw [ht] at hrun hvalue ⊢
  have hsigned := signed_natAbs e
  by_cases he : e < 0
  · rw [decide_eq_true he] at hsigned
    simp only [exponent?, if_pos he, sign, hrun, hvalue, hsigned, true_or, if_true]
  · rw [decide_eq_false he] at hsigned
    simp only [exponent?, if_neg he, sign, hrun, hvalue, hsigned, true_or, if_true]

end Reading

namespace NumberStyle

variable {digits : Text} (style : NumberStyle) (negative : Bool)

theorem exists_decimal?_point {whole fraction : Text} (hne : whole ≠ [])
    (hw : ∀ c ∈ whole, Text.isDigit c = true) (hf : ∀ c ∈ fraction, Text.isDigit c = true)
    {value : Rat}
    (hvalue : Decimal.scaleTen (Text.digitsValue (whole ++ fraction)) (-fraction.length) = value) :
    ∃ c e, Reading.decimal? negative (whole ++ '.' :: fraction) = some ⟨negative, c, e⟩ ∧
      Decimal.scaleTen c e = value := by
  have hread := Reading.decimal?_point negative [] hne hw hf nofun rfl
  rw [List.append_nil] at hread
  refine ⟨_, _, hread, ?_⟩
  rw [Int.zero_sub]
  exact hvalue

theorem exists_decimal?_padded (hne : digits ≠ []) (hd : ∀ c ∈ digits, Text.isDigit c = true)
    (n : Nat) :
    ∃ c e, Reading.decimal? negative (digits ++ List.replicate n '0' ++
        (if style.keepsFraction then ['.', '0'] else [])) = some ⟨negative, c, e⟩ ∧
      Decimal.scaleTen c e = Decimal.scaleTen (Text.digitsValue digits) n := by
  have hwhole : ∀ c ∈ digits ++ List.replicate n '0', Text.isDigit c = true :=
    List.forall_mem_append.2 ⟨hd, fun _ hc => Text.isDigit_of_mem_zeros hc⟩
  have hnonempty := List.append_ne_nil_of_left_ne_nil hne (List.replicate n '0')
  split_ifs with hkeeps
  · refine exists_decimal?_point negative hnonempty hwhole
      (fun c hc => Text.isDigit_of_mem_zeros (n := 1) hc) ?_
    change Decimal.scaleTen (Text.digitsValue (_ ++ List.replicate 1 '0')) _ = _
    rw [List.append_assoc, ← List.replicate_add, Text.digitsValue_append_zeros,
      ← Decimal.scaleTen_add, List.length_replicate]
    congr 1
    omega
  · refine ⟨_, _, Reading.decimal?_whole negative [] hnonempty hwhole nofun rfl, ?_⟩
    rw [Text.digitsValue_append_zeros, ← Decimal.scaleTen_add, Int.zero_add]

theorem exists_decimal?_positional (hne : digits ≠ []) (hd : ∀ c ∈ digits, Text.isDigit c = true)
    (point : Int) :
    ∃ c e, Reading.decimal? negative (style.positional digits point) = some ⟨negative, c, e⟩ ∧
      Decimal.scaleTen c e =
        Decimal.scaleTen (Text.digitsValue digits) (point - digits.length) := by
  unfold positional
  dsimp only
  by_cases hpoint : point ≤ 0
  · rw [if_pos hpoint]
    refine exists_decimal?_point negative (List.cons_ne_nil '0' [])
      (fun c hc => Text.isDigit_of_mem_zeros (n := 1) hc)
      (List.forall_mem_append.2 ⟨fun c hc => Text.isDigit_of_mem_zeros hc, hd⟩) ?_
    change Decimal.scaleTen (Text.digitsValue (List.replicate 1 '0' ++ _)) _ = _
    rw [Text.digitsValue_zeros_append, Text.digitsValue_zeros_append, List.length_append,
      List.length_replicate]
    congr 1
    omega
  rw [if_neg hpoint]
  by_cases hpad : digits.length ≤ point.toNat
  · rw [if_pos hpad]
    obtain ⟨c, e, hread, hscale⟩ := exists_decimal?_padded style negative hne hd
      (point.toNat - digits.length)
    refine ⟨c, e, hread, hscale.trans ?_⟩
    congr 1
    omega
  · rw [if_neg hpad]
    have hnonempty : digits.take point.toNat ≠ [] := by
      rw [← List.length_pos_iff, List.length_take]
      omega
    refine exists_decimal?_point negative hnonempty (fun c hc => hd c (List.mem_of_mem_take hc))
      (fun c hc => hd c (List.mem_of_mem_drop hc)) ?_
    rw [List.take_append_drop, List.length_drop]
    congr 1
    omega

theorem decimal?_scientific (hne : digits ≠ []) (hd : ∀ c ∈ digits, Text.isDigit c = true)
    (point : Int) : Reading.decimal? negative (style.scientific digits point) =
      some ⟨negative, Text.digitsValue digits, point - digits.length⟩ := by
  have hexponent := Reading.exponent?_written style.exponentWidth (point - 1)
  obtain ⟨c, more, rfl⟩ := List.exists_cons_of_ne_nil hne
  obtain ⟨hc, hmore⟩ := List.forall_mem_cons.1 hd
  have hwhole : ∀ d ∈ [c], Text.isDigit d = true := List.forall_mem_singleton.2 hc
  have hmark (t : Text) : ∀ d ∈ ('e' :: t).head?, d = 'e' := fun _ h => (Option.some.inj h).symm
  cases more with
  | nil =>
    exact Reading.decimal?_whole negative _ (List.cons_ne_nil c []) hwhole (hmark _) hexponent
  | cons d more =>
    have hread := Reading.decimal?_point negative _ (List.cons_ne_nil c []) hwhole hmore
      (hmark _) hexponent
    refine Eq.trans ?_ (hread.trans ?_)
    · simp [scientific]
    · congr 2
      simp
      omega

theorem isDigit_of_head?_positional (hne : digits ≠ [])
    (hd : ∀ c ∈ digits, Text.isDigit c = true) (point : Int) :
    ∀ c ∈ (style.positional digits point).head?, Text.isDigit c = true := by
  obtain ⟨a, more, rfl⟩ := List.exists_cons_of_ne_nil hne
  have ha : Text.isDigit a = true := hd a (List.mem_cons_self ..)
  intro c hc
  unfold positional at hc
  dsimp only at hc
  split_ifs at hc with hpoint hpad
  · obtain rfl : '0' = c := Option.some.inj hc
    decide
  · exact Option.some.inj hc ▸ ha
  · exact Option.some.inj hc ▸ ha
  · obtain ⟨n, hn⟩ : ∃ n, point.toNat = n + 1 := ⟨point.toNat - 1, by omega⟩
    rw [hn] at hc
    exact Option.some.inj hc ▸ ha

theorem isDigit_of_head?_scientific (hne : digits ≠ [])
    (hd : ∀ c ∈ digits, Text.isDigit c = true) (point : Int) :
    ∀ c ∈ (style.scientific digits point).head?, Text.isDigit c = true := by
  obtain ⟨a, more, rfl⟩ := List.exists_cons_of_ne_nil hne
  intro c hc
  exact Option.some.inj hc ▸ hd a (List.mem_cons_self ..)

end NumberStyle

namespace Reading

theorem exists_signedDecimal?_of_magnitude {body : Text} {d : Decimal}
    (h : (∀ c ∈ body.head?, Text.isDigit c = true) ∧
      ∃ c e, decimal? d.negative body = some ⟨d.negative, c, e⟩ ∧
        Decimal.scaleTen c e = Decimal.scaleTen d.coefficient d.exponent) :
    ∃ r, signedDecimal? (if d.negative then '-' :: body else body) = some r ∧
      r.negative = d.negative ∧ r.value = d.value := by
  obtain ⟨hhead, c, e, hread, hscale⟩ := h
  have hsign : sign (if d.negative then '-' :: body else body) = (d.negative, body) := by
    cases d.negative with
    | false => exact sign_of_isDigit hhead
    | true => rfl
  refine ⟨⟨d.negative, c, e⟩, ?_, rfl, ?_⟩
  · rw [signedDecimal?, hsign, hread]
  · rw [Decimal.value, Decimal.value, hscale]

end Reading

namespace NumberStyle

variable (style : NumberStyle)

theorem exists_signedDecimal?_writeDecimal (d : Decimal) :
    ∃ r, Reading.signedDecimal? (style.writeDecimal d) = some r ∧ r.negative = d.negative ∧
      r.value = d.value := by
  have hne := Text.ofNat_ne_nil d.coefficient
  have hd : ∀ c ∈ Text.ofNat d.coefficient, Text.isDigit c = true := fun _ hc =>
    Text.isDigit_of_mem hc
  have hvalue := Text.digitsValue_ofNat d.coefficient
  refine Reading.exists_signedDecimal?_of_magnitude ?_
  split_ifs with hzero
  · obtain ⟨c, e, hread, hscale⟩ := exists_decimal?_positional style d.negative hne hd 1
    refine ⟨isDigit_of_head?_positional style hne hd 1, c, e, hread, hscale.trans ?_⟩
    rw [hvalue, hzero, Decimal.scaleTen_eq, Decimal.scaleTen_eq, Nat.cast_zero, zero_mul, zero_mul]
  · obtain ⟨c, e, hread, hscale⟩ := exists_decimal?_positional style d.negative hne hd
      (d.exponent + (Text.ofNat d.coefficient).length)
    refine ⟨isDigit_of_head?_positional style hne hd _, c, e, hread, hscale.trans ?_⟩
    rw [hvalue, add_sub_cancel_right]
  · refine ⟨isDigit_of_head?_scientific style hne hd _, _, _,
      decimal?_scientific style d.negative hne hd _, ?_⟩
    rw [hvalue, add_sub_cancel_right]

theorem mem_positional {digits : Text} {point : Int} {c : Char}
    (h : c ∈ style.positional digits point) : c ∈ digits ∨ c = '0' ∨ c = '.' := by
  unfold positional at h
  grind [List.mem_of_mem_take, List.mem_of_mem_drop]

theorem mem_scientific {digits : Text} {point : Int} {c : Char}
    (h : c ∈ style.scientific digits point) :
    c ∈ digits ∨ c ∈ Text.ofNat (point - 1).natAbs ∨ c ∈ ['0', '.', 'e', '+', '-'] := by
  unfold scientific Text.padZeros at h
  grind [List.mem_of_mem_take, List.mem_of_mem_drop]

def numeralChars : Text := "0123456789.e+-"

theorem mem_numeralChars {d : Decimal} {c : Char} (h : c ∈ style.writeDecimal d) :
    c ∈ numeralChars := by
  have hnat {n : Nat} (hc : c ∈ Text.ofNat n) : c ∈ numeralChars := by
    have hsub : ∀ c ∈ ("0123456789" : Text), c ∈ numeralChars := Text.forall_mem_of_all (by decide)
    exact hsub c (Text.mem_of_isDigit (Text.isDigit_of_mem_ofNat hc))
  have hpositional {point : Int} (hc : c ∈ style.positional (Text.ofNat d.coefficient) point) :
      c ∈ numeralChars := by
    rcases mem_positional style hc with hdigit | rfl | rfl
    · exact hnat hdigit
    all_goals decide
  have hscientific {point : Int} (hc : c ∈ style.scientific (Text.ofNat d.coefficient) point) :
      c ∈ numeralChars := by
    have hmarks : ∀ c ∈ ['0', '.', 'e', '+', '-'], c ∈ numeralChars :=
      Text.forall_mem_of_all (by decide)
    rcases mem_scientific style hc with hdigit | hexponent | hmark
    · exact hnat hdigit
    · exact hnat hexponent
    · exact hmarks c hmark
  have hminus : '-' ∈ numeralChars := by decide
  unfold writeDecimal at h
  grind

end NumberStyle

variable {x : Float}

theorem NumberStyle.write_of_isFinite (style : NumberStyle) (hx : Binary64.isFinite x = true) :
    style.write x = style.writeDecimal (Shortest.decimal x) := by
  rw [write, Binary64.isNaN_of_isFinite hx, hx]
  rfl

theorem Number.roundText_writeDecimal (style : NumberStyle) (d : Decimal) (places : Int) :
    roundText places (style.writeDecimal d) = (d.round places).map Decimal.toDouble := by
  have hplain : ∀ c ∈ NumberStyle.numeralChars, Text.isNumberBlank c = false ∧ c ≠ '_' :=
    Text.forall_mem_of_all (by decide)
  have hchars (c : Char) (hc : c ∈ style.writeDecimal d) :=
    hplain c (NumberStyle.mem_numeralChars style hc)
  have htrim := Text.trimBy_of_ends (fun c hc => (hchars c (List.mem_of_head? hc)).1)
    (fun c hc => (hchars c (List.mem_of_getLast? hc)).1)
  have hfilter : (style.writeDecimal d).filter (· != '_') = style.writeDecimal d :=
    List.filter_eq_self.2 fun c hc => bne_iff_ne.2 (hchars c hc).2
  obtain ⟨r, hread, hsign, hvalue⟩ := style.exists_signedDecimal?_writeDecimal d
  rw [Reading.signedDecimal?] at hread
  rw [roundText, htrim, hfilter]
  simp only [hread, Decimal.round_congr hsign hvalue]

/-- A finite double is rounded from the decimal that its text writes, to the multiple of the last
place that is nearest to it, or of two that are as near to the one away from zero. It is refused if
the coefficient of the result is too long, or if the places are too many for any number. The
multiple moves with the decimal, changes its sign with it, and is the decimal itself if that has no
more places. -/
theorem roundHalfUp_of_printed (places : Nat) :
    (∀ x : Float, Binary64.isFinite x = true → ∃ (d : Decimal) (q : Rat) (c : Nat),
      Reading.signedDecimal? (NumberStyle.plain.write x) = some d ∧
      Number.roundText places (NumberStyle.plain.write x) = Binary64.roundHalfUp x places ∧
      q = Exact.roundHalfUp d.value places ∧ c = |q| * 10 ^ places ∧
      IsRounding (10 ^ places)⁻¹ d.value q ∧
      (∀ k : Int, |q - d.value| ≤ |k * (10 ^ places)⁻¹ - d.value|) ∧
      (places ≤ Decimal.placesLimit ∧ Decimal.digitCount c ≤ Decimal.precision →
        ∃ r, d.round places = .ok r ∧ r.value = q ∧
          Binary64.roundHalfUp x places = .ok r.toDouble) ∧
      (¬ (places ≤ Decimal.placesLimit ∧ Decimal.digitCount c ≤ Decimal.precision) →
        Binary64.roundHalfUp x places = .error .tooPrecise)) ∧
    (Monotone fun r : Rat => Exact.roundHalfUp r places) ∧
    (∀ r : Rat, Exact.roundHalfUp (-r) places = -Exact.roundHalfUp r places) ∧
    ∀ k : Int, Exact.roundHalfUp (k * (10 ^ places)⁻¹) places = k * (10 ^ places)⁻¹ := by
  have hstep : Decimal.scaleTen 1 (-places) = (10 ^ places)⁻¹ := by
    rw [Decimal.scaleTen_one, zpow_neg, zpow_natCast]
  refine ⟨fun x hx => ?_, fun _ _ h => Exact.roundHalfUp_mono places h,
    fun r => Exact.roundHalfUp_neg r places,
    fun k => Exact.roundHalfUp_of_multiple ⟨k, by rw [hstep]⟩⟩
  have hround := Binary64.roundHalfUp_of_isFinite hx places
  have htext := Number.roundText_writeDecimal NumberStyle.plain (Shortest.decimal x) places
  obtain ⟨d, hread, hsign, hvalue⟩ :=
    NumberStyle.plain.exists_signedDecimal?_writeDecimal (Shortest.decimal x)
  rw [← NumberStyle.write_of_isFinite _ hx] at hread htext
  rw [← Decimal.round_congr hsign hvalue, Decimal.round_eq] at hround
  have hrounding := Exact.isRounding_roundHalfUp d.value places
  have hcoefficient := Decimal.coefficientAt_eq d places
  rw [zpow_natCast] at hcoefficient
  have hfits : |Exact.roundHalfUp d.value places| * 10 ^ places < 10 ^ Decimal.precision ↔
      Decimal.digitCount (d.coefficientAt (-places)) ≤ Decimal.precision := by
    rw [← hcoefficient, Decimal.digitCount_le_iff (by decide)]
    exact_mod_cast Iff.rfl
  rw [hstep] at hrounding
  refine ⟨d, _, d.coefficientAt (-places), hread, ?text, rfl, hcoefficient, hrounding,
    hrounding.nearest, fun h => ?fits, fun h => ?refused⟩
  case text => rw [htext, Binary64.roundHalfUp_of_isFinite hx]
  case fits =>
    rw [← hfits] at h
    rw [if_pos h] at hround
    exact ⟨d.atPlaces places, by rw [Decimal.round_eq, if_pos h], d.value_atPlaces places, hround⟩
  case refused =>
    rw [← hfits] at h
    rw [hround, if_neg h]
    rfl

theorem roundHalfUp_of_printed_quarter : Binary64.isFinite (-0.25) = true ∧ ∃ d r,
    Reading.signedDecimal? (NumberStyle.plain.write (-0.25)) = some d ∧ d.value = -(1 / 4) ∧
    d.round 1 = .ok r ∧ r.value = -(3 / 10) ∧ Binary64.roundHalfUp (-0.25) 1 = .ok r.toDouble := by
  have hx : Binary64.isFinite (-0.25) = true := by decide
  obtain ⟨d, q, c, hread, -, hq, hc, -, -, hfits, -⟩ := (roundHalfUp_of_printed 1).1 _ hx
  have hwritten : Reading.signedDecimal? (NumberStyle.plain.write (-0.25)) =
      some ⟨true, 25, -2⟩ := by
    decide +kernel
  obtain rfl := Option.some.inj (hread.symm.trans hwritten)
  obtain rfl : q = -(3 / 10) := hq.trans (by decide +kernel)
  obtain rfl : c = 3 := by
    have hthree : |(-(3 / 10) : Rat)| * 10 ^ 1 = (3 : Nat) := by norm_num
    exact_mod_cast hc.trans hthree
  obtain ⟨r, hround, hvalue, hdouble⟩ := hfits (by decide)
  exact ⟨hx, _, r, hread, by decide +kernel, hround, hvalue, hdouble⟩

/-- Too many places are refused even where the result is zero, which has a single digit. -/
theorem roundHalfUp_zero_of_placesLimit_lt : ∃ (d : Decimal) (q : Rat) (c : Nat),
    Reading.signedDecimal? (NumberStyle.plain.write 0.0) = some d ∧
    IsRounding (10 ^ 2000055)⁻¹ d.value q ∧ c = |q| * 10 ^ 2000055 ∧
    Decimal.digitCount c ≤ Decimal.precision ∧
    Binary64.roundHalfUp 0.0 2000055 = .error .tooPrecise := by
  have hvalue : (⟨false, 0, -1⟩ : Decimal).value = 0 := by decide +kernel
  refine ⟨⟨false, 0, -1⟩, 0, 0, by decide +kernel, ?_, ?_, by decide, ?_⟩
  · rw [hvalue]
    exact IsRounding.zero (by positivity)
  · rw [abs_zero, zero_mul, Nat.cast_zero]
  · rfl

end PullGauge
