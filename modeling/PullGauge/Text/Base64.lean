import PullGauge.Text.Basic

/-!
# Base 64

Three octets are written as four digits of six bits. A rest of one or two octets is filled
up with zero bits, and equals signs stand in the place of the digits that are missing, so
that the length is always a multiple of four (`length_write`).
-/

namespace PullGauge.Text.Base64

def digit (n : Nat) : Char :=
  if n < 26 then Char.ofNat (0x41 + n)
  else if n < 52 then Char.ofNat (0x61 + (n - 26))
  else if n < 62 then Char.ofNat (0x30 + (n - 52))
  else if n = 62 then '+'
  else '/'

def write : List Nat → Text
  | [] => []
  | [a] => [digit (a / 4), digit (a % 4 * 16), '=', '=']
  | [a, b] => [digit (a / 4), digit (a % 4 * 16 + b / 16), digit (b % 16 * 4), '=']
  | a :: b :: c :: r =>
    digit (a / 4) :: digit (a % 4 * 16 + b / 16) :: digit (b % 16 * 4 + c / 64) ::
      digit (c % 64) :: write r

theorem length_write (octets : List Nat) :
    (write octets).length = 4 * ((octets.length + 2) / 3) := by
  fun_induction write octets with
  | case1 => rfl
  | case2 a => simp
  | case3 a b => simp
  | case4 a b c r ih =>
    simp only [List.length_cons, ih]
    omega

end PullGauge.Text.Base64
