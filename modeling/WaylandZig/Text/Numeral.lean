import WaylandZig.Ascii

/-! # Numerals

Writing and reading of whole numbers in base ten and base sixteen. A digit string is read as a
whole: one byte that is no digit of the base makes it no numeral.
-/
namespace WaylandZig.Numeral

def digit (d : Nat) : UInt8 := if d < 10 then UInt8.ofNat (0x30 + d) else UInt8.ofNat (0x57 + d)

/-- The digits of `n`, most significant first, in front of `tail`. -/
def digitsInto (base : Nat) : Nat → Nat → Bytes → Bytes
  | 0, _, tail => tail
  | fuel + 1, n, tail =>
    let tail := digit (n % base) :: tail
    if n / base = 0 then tail else digitsInto base fuel (n / base) tail

/-- The shortest numeral of `n`, with lower-case letters for digits above nine. -/
def ofNat (base n : Nat) : Bytes := digitsInto base (n + 1) n []

def decimal (n : Nat) : Bytes := ofNat 10 n

def hex (n : Nat) : Bytes := ofNat 16 n

def ofInt : Int → Bytes
  | .ofNat n => decimal n
  | .negSucc n => Ascii.dash :: decimal (n + 1)

/-- At least `width` digits, filled up with zeros in front. -/
def padded (base width n : Nat) : Bytes :=
  List.replicate (width - (ofNat base n).length) 0x30 ++ ofNat base n

def digitValue? (base : Nat) (b : UInt8) : Option Nat :=
  let value? :=
    if Ascii.isDigit b then some (b.toNat - 0x30)
    else if 0x61 ≤ b && b ≤ 0x66 then some (b.toNat - 0x57)
    else if 0x41 ≤ b && b ≤ 0x46 then some (b.toNat - 0x37)
    else none
  value?.filter (· < base)

/-- The number that a non-empty digit string denotes. -/
def nat? (base : Nat) : Bytes → Option Nat
  | [] => none
  | ds => ds.foldlM (fun n b => (digitValue? base b).map (n * base + ·)) 0

/-- A number that fits in 64 bits. -/
def uint64? (base : Nat) (s : Bytes) : Option UInt64 :=
  (nat? base s).bind fun n => if n < Nat.pow 2 64 then some (UInt64.ofNat n) else none

/-- A decimal numeral with an optional sign whose value fits in 64 bits with sign. -/
def int64? (s : Bytes) : Option Int :=
  match s with
  | Ascii.dash :: ds =>
    (nat? 10 ds).bind fun n => if n ≤ Nat.pow 2 63 then some (-(n : Int)) else none
  | Ascii.plus :: ds => (nat? 10 ds).bind fun n => if n < Nat.pow 2 63 then some (n : Int) else none
  | ds => (nat? 10 ds).bind fun n => if n < Nat.pow 2 63 then some (n : Int) else none

end WaylandZig.Numeral
