import WaylandZig.Text.Numeral

/-! # TOML numbers

Integers fit in 64 bits with sign and may be written in base two, eight or sixteen. Floats are only
checked: that they are well formed, and that they do not exceed the largest double.
-/
namespace WaylandZig.Toml

def isHex (b : UInt8) : Bool := (Numeral.digitValue? 16 b).isSome

/-- Every underscore stands behind a digit, and a digit stands at the end. -/
def underscoresFit (afterDigit : Bool) : Bytes → Bool
  | [] => afterDigit
  | b :: rest => (b != Ascii.underscore || afterDigit) && underscoresFit (isHex b) rest

def withoutUnderscores (s : Bytes) : Bytes := s.filter (· != Ascii.underscore)

def withoutSign : Bytes → Bytes
  | Ascii.plus :: rest => rest
  | Ascii.dash :: rest => rest
  | s => s

/-- A zero in front of other digits. -/
def hasLeadingZero (digits : Bytes) : Bool := digits.head? == some Ascii.zero && digits.length > 1

def decimal? (s : Bytes) : Option Int :=
  if underscoresFit false s && !hasLeadingZero (withoutSign s) then
    Numeral.int64? (withoutUnderscores s)
  else none

/-- The digits of a number in another base. -/
def inBase? (base : Nat) (digits : Bytes) : Option Int :=
  if digits.head? != some Ascii.underscore && underscoresFit false digits then
    (Numeral.nat? base (withoutUnderscores digits)).bind fun n =>
      if n < Nat.pow 2 63 then some (n : Int) else none
  else none

/-- The first number that rounds to infinity. -/
def overflow : Nat := Nat.pow 2 1024 - Nat.pow 2 970

/-- Whether `m * 10 ^ e` is below the first number that rounds to infinity. The count of digits
decides all but the numbers of 309 digits. -/
def isFinite (m : Nat) (e : Int) : Bool :=
  let size : Int := (Numeral.decimal m).length + e
  if m = 0 ∨ size ≤ 308 then true
  else if 309 < size then false
  else if 0 ≤ e then m * Nat.pow 10 e.toNat < overflow
  else m < overflow * Nat.pow 10 (-e).toNat

/-- The part of a number before the first byte of the class, and what follows that byte. -/
def cutAt (isMark : UInt8 → Bool) (s : Bytes) : Bytes × Option Bytes :=
  let front := s.takeWhile fun b => !isMark b
  (front, (s.drop front.length).tail?)

def isExponentMark (b : UInt8) : Bool := b == 0x65 || b == 0x45

/-- Digits with underscores between them. -/
def digits? (s : Bytes) : Option Bytes :=
  let plain := withoutUnderscores s
  if underscoresFit false s && plain.all Ascii.isDigit then some plain else none

/-- A part that may be missing but not empty. -/
def optionalDigits? : Option Bytes → Option Bytes
  | none => some []
  | some s => digits? s

def exponent? : Option Bytes → Option Int
  | none => some 0
  | some s =>
    (digits? (withoutSign s)).bind fun ds =>
      (Numeral.nat? 10 ds).map fun n => if s.head? = some Ascii.dash then -(n : Int) else n

/-- A float other than infinity and NaN: whole part, fraction, exponent. -/
def isFloat (s : Bytes) : Bool :=
  let (mantissa, exponent) := cutAt isExponentMark s
  let (whole, fraction) := cutAt (· == Ascii.dot) (withoutSign mantissa)
  match digits? whole, optionalDigits? fraction, exponent? exponent with
  | some w, some f, some e =>
    !hasLeadingZero whole && isFinite ((Numeral.nat? 10 (w ++ f)).getD 0) (e - f.length)
  | _, _, _ => false

end WaylandZig.Toml
