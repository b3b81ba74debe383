import PullGauge.Text.Basic

/-!
# Texts in letters, digits and hyphens

A text is written as its ASCII characters and, behind a hyphen, numbers that say where its
other characters go: in the order of their code points, and from left to right, how many
places and code points lie between one and the next. A number is a row of digits of base
36, least first, of which the last is below a threshold; the thresholds follow the size of
the numbers before. A number that was written is read again whatever follows it
(`number?_number`).
-/

namespace PullGauge.Text.Punycode

def digit (n : Nat) : Char := if n < 26 then Char.ofNat (0x61 + n) else Char.ofNat (0x16 + n)

def digitValue? (c : Char) : Option Nat :=
  let n := c.toNat
  if 0x61 ≤ n ∧ n ≤ 0x7A then some (n - 0x61)
  else if 0x41 ≤ n ∧ n ≤ 0x5A then some (n - 0x41)
  else if 0x30 ≤ n ∧ n ≤ 0x39 then some (n - 0x16)
  else none

theorem digitValue?_digit {n : Nat} (h : n < 36) : digitValue? (digit n) = some n := by
  have all : ∀ m ∈ List.range 36, digitValue? (digit m) = some m := by decide
  exact all n (List.mem_range.mpr h)

/-- A digit below this one is the last; `place` is 36 for the first digit, 72 for the next. -/
def threshold (bias place : Nat) : Nat := max 1 (min 26 (place - bias))

theorem threshold_pos (bias place : Nat) : 1 ≤ threshold bias place := Nat.le_max_left ..

theorem threshold_le (bias place : Nat) : threshold bias place ≤ 26 := by
  unfold threshold
  omega

def number (bias place n : Nat) : Text :=
  let t := threshold bias place
  if n < t then [digit n]
  else digit (t + (n - t) % (36 - t)) :: number bias (place + 36) ((n - t) / (36 - t))
termination_by n
decreasing_by
  have := threshold_pos bias place
  exact Nat.lt_of_le_of_lt (Nat.div_le_self _ _) (by omega)

def number? (bias : Nat) : Nat → Nat → Nat → Text → Option (Nat × Text)
  | _, _, _, [] => none
  | place, weight, sum, c :: r =>
    match digitValue? c with
    | none => none
    | some d =>
      let t := threshold bias place
      if d < t then some (sum + d * weight, r)
      else number? bias (place + 36) (weight * (36 - t)) (sum + d * weight) r

theorem length_of_number? {bias place weight sum : Nat} {t : Text} {p : Nat × Text}
    (h : number? bias place weight sum t = some p) : p.2.length < t.length := by
  induction t generalizing place weight sum with
  | nil => simp [number?] at h
  | cons c r ih =>
    simp only [number?] at h
    split at h
    · simp at h
    · split at h
      · simp only [Option.some.injEq] at h
        subst h
        simp
      · have := ih h
        simp only [List.length_cons]
        omega

theorem number?_number (bias place weight sum n : Nat) (rest : Text) :
    number? bias place weight sum (number bias place n ++ rest) = some (sum + n * weight, rest) := by
  induction n using Nat.strongRecOn generalizing place weight sum with
  | _ n ih =>
    rw [number]
    have h1 := threshold_pos bias place
    have h2 := threshold_le bias place
    split
    · next h =>
      simp [number?, digitValue?_digit (show n < 36 by omega), h]
    · next h =>
      have pos : 0 < 36 - threshold bias place := by omega
      have small := Nat.mod_lt (n - threshold bias place) pos
      have lower : (n - threshold bias place) / (36 - threshold bias place) < n :=
        Nat.lt_of_le_of_lt (Nat.div_le_self _ _) (by omega)
      have whole := Nat.mod_add_div (n - threshold bias place) (36 - threshold bias place)
      simp only [List.cons_append, number?, digitValue?_digit (show threshold bias place +
        (n - threshold bias place) % (36 - threshold bias place) < 36 by omega)]
      rw [if_neg (by omega), ih _ lower, Nat.add_assoc]
      congr 2
      rw [Nat.mul_comm weight, ← Nat.mul_assoc, ← Nat.add_mul, Nat.mul_comm _ (36 - _)]
      congr 2
      omega

def settle (gap bias : Nat) : Nat :=
  if 455 < gap then settle (gap / 35) (bias + 36) else bias + 36 * gap / (gap + 38)
termination_by gap
decreasing_by exact Nat.div_lt_self (by omega) (by omega)

/-- The bias after a gap; `count` characters stand by then, and the first gap counts less. -/
def adapt (gap count : Nat) (first : Bool) : Nat :=
  let gap := if first then gap / 700 else gap / 2
  settle (gap + gap / count) 0

def firstBias : Nat := 72

def basicEnd : Nat := 0x80

def isBasic (c : Char) : Bool := decide (c.toNat < basicEnd)

structure Writer where
  out : Text
  gap : Nat
  bias : Nat
  first : Bool
  count : Nat

def Writer.pass (n : Nat) (w : Writer) (c : Char) : Writer :=
  if c.toNat < n then { w with gap := w.gap + 1 }
  else if c.toNat = n then
    { out := w.out ++ number w.bias 36 w.gap, gap := 0
      bias := adapt w.gap (w.count + 1) w.first, first := false, count := w.count + 1 }
  else w

def Writer.points (t : Text) (next : Nat) (w : Writer) : List Nat → Writer
  | [] => w
  | n :: r =>
    let w := t.foldl (pass n) { w with gap := w.gap + (n - next) * (w.count + 1) }
    points t (n + 1) { w with gap := w.gap + 1 } r

def write (t : Text) : Text :=
  let basic := t.filter isBasic
  let points := ((t.filter fun c => !isBasic c).map Char.toNat).mergeSort.eraseDups
  let w := Writer.points t basicEnd ⟨[], 0, firstBias, true, basic.length⟩ points
  (if basic.isEmpty then [] else basic ++ ['-']) ++ w.out

def insertAll (bias point place : Nat) (first : Bool) (out : Text) (t : Text) : Option Text :=
  if t.isEmpty then some out
  else
    match _ : number? bias 36 1 0 t with
    | none => none
    | some (gap, rest) =>
      let count := out.length + 1
      let point := point + (place + gap) / count
      let place := (place + gap) % count
      if point.isValidChar then
        insertAll (adapt gap count first) point (place + 1) false
          (out.take place ++ Char.ofNat point :: out.drop place) rest
      else none
termination_by t.length
decreasing_by exact length_of_number? ‹_›

def read? (t : Text) : Option Text :=
  let numbers := trailing (· != '-') t
  insertAll firstBias basicEnd 0 true (t.take (t.length - numbers.length - 1)) numbers

end PullGauge.Text.Punycode
