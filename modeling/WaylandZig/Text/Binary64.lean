import WaylandZig.Text.Numeral

/-! # Host tools: numbers of binary precision

Numbers that have at most 53 significant binary digits. A fraction is rounded to the nearest of them,
and their decimal forms are rounded from the exact value, so that no error comes in between. Of two that
are equally near, the even one is taken.
-/
namespace WaylandZig

/-- The number `mantissa * 2 ^ exponent`. -/
structure Binary64 where
  mantissa : Nat
  exponent : Int
  deriving DecidableEq, Repr

namespace Binary64

/-- The whole number nearest to `n / d`. -/
def nearest (n d : Nat) : Nat :=
  let q := n / d
  let twice := 2 * (n % d)
  if twice > d || (twice == d && q % 2 == 1) then q + 1 else q

/-- A fraction times a power of a base. -/
def scaled (n d base : Nat) (e : Int) : Nat × Nat :=
  if 0 ≤ e then (n * base.pow e.toNat, d) else (n, d * base.pow (-e).toNat)

/-- The least exponent, and the greatest. -/
def minExponent : Int := -1074

def maxExponent : Int := 971

/-- The exponent of the numbers among which the nearest to a fraction is found. -/
def exponentFor (n d : Nat) : Int :=
  let e := (n.log2 : Int) - d.log2 - 52
  let (a, b) := scaled n d 2 (-e)
  max (if a / b < Nat.pow 2 52 then e - 1 else e) minExponent

/-- The number nearest to `n / d`, unless that is too large. -/
def ofFraction? (n d : Nat) : Option Binary64 :=
  if n = 0 ∨ d = 0 then some ⟨0, minExponent⟩
  else
    let e := exponentFor n d
    let (a, b) := scaled n d 2 (-e)
    let m := nearest a b
    let (m, e) := if m = Nat.pow 2 53 then (Nat.pow 2 52, e + 1) else (m, e)
    if e > maxExponent then none else some ⟨m, e⟩

/-- The exact value as a fraction. -/
def fraction (x : Binary64) : Nat × Nat := scaled x.mantissa 1 2 x.exponent

/-- A number in front of its last `places` digits, which stand behind a point. -/
def withPoint (places : Nat) (pointAlways : Bool) (n : Nat) : Bytes :=
  let digits := Numeral.padded 10 (places + 1) n
  let front := digits.take (digits.length - places)
  if places = 0 && !pointAlways then digits
  else front ++ [Ascii.dot] ++ digits.drop (digits.length - places)

/-- The number with a fixed count of decimal places. -/
def fixed (places : Nat) (pointAlways : Bool) (x : Binary64) : Bytes :=
  let (n, d) := x.fraction
  withPoint places pointAlways (nearest (n * Nat.pow 10 places) d)

/-- The exponent of the first decimal digit of a fraction. -/
def decimalExponent (n d : Nat) : Int :=
  let guess : Int := (Numeral.decimal n).length - (Numeral.decimal d).length
  let (a, b) := scaled n d 10 (-guess)
  if a < b then guess - 1 else guess

/-- The digits of a number, of which `places` stand behind the first, and the exponent of the first. -/
def leading (places : Nat) (x : Binary64) : Nat × Int :=
  let (n, d) := x.fraction
  if n = 0 then (0, 0)
  else
    let e := decimalExponent n d
    let (a, b) := scaled n d 10 ((places : Int) - e)
    let m := nearest a b
    if m = Nat.pow 10 (places + 1) then (Nat.pow 10 places, e + 1) else (m, e)

def exponentText (e : Int) : Bytes :=
  [0x65, if e < 0 then Ascii.dash else Ascii.plus] ++ Numeral.padded 10 2 e.natAbs

/-- The number with one digit in front of the point and an exponent. -/
def scientific (places : Nat) (pointAlways : Bool) (x : Binary64) : Bytes :=
  let (m, e) := x.leading places
  withPoint places pointAlways m ++ exponentText e

/-- A text without the zeros at the end of its places, and without the point if none are left. -/
def shortened (s : Bytes) : Bytes :=
  if !s.contains Ascii.dot then s
  else
    let kept := (s.reverse.dropWhile (· == Ascii.zero)).reverse
    if kept.getLast? = some Ascii.dot then kept.dropLast else kept

/-- The number with a count of significant digits, in the form that suits its size. -/
def general (digits : Nat) (full : Bool) (x : Binary64) : Bytes :=
  let digits := max digits 1
  let (m, e) := x.leading (digits - 1)
  let trim := fun (s : Bytes) => if full then s else shortened s
  if -4 ≤ e && e < digits then trim (x.fixed ((digits : Int) - 1 - e).toNat full)
  else trim (withPoint (digits - 1) full m) ++ exponentText e

end Binary64

end WaylandZig
