import WaylandZig.Text.Numeral

/-! # TOML dates and times

A date, a time, or both with an optional offset. They are only checked: every field has its width
and its range, and the day is one of the month.
-/
namespace WaylandZig.Toml

/-- The bytes that a date or a time is made of. -/
def isDateTimeByte (b : UInt8) : Bool :=
  Ascii.isDigit b || b == Ascii.dash || b == Ascii.colon || b == Ascii.space || b == Ascii.dot
    || b == Ascii.plus || b == 0x54 || b == 0x74 || b == 0x5A || b == 0x7A

/-- A number of exactly `width` digits. -/
def field? (width : Nat) (s : Bytes) : Option (Nat × Bytes) :=
  if (s.take width).length = width then
    (Numeral.nat? 10 (s.take width)).map fun n => (n, s.drop width)
  else none

def mark? (b : UInt8) : Bytes → Option Bytes
  | c :: rest => if c = b then some rest else none
  | [] => none

def isLeapYear (year : Nat) : Bool := year % 4 == 0 && (year % 100 != 0 || year % 400 == 0)

def daysIn (year month : Nat) : Nat :=
  if month = 2 then (if isLeapYear year then 29 else 28)
  else if [4, 6, 9, 11].contains month then 30
  else 31

def date? (s : Bytes) : Option Bytes := do
  let (year, s) ← field? 4 s
  let (month, s) ← field? 2 (← mark? Ascii.dash s)
  let (day, s) ← field? 2 (← mark? Ascii.dash s)
  if 1 ≤ month ∧ month ≤ 12 ∧ 1 ≤ day ∧ day ≤ daysIn year month then some s else none

/-- Skips a fraction of a second, if one follows. -/
def skipFraction : Bytes → Bytes
  | Ascii.dot :: d :: rest =>
    if Ascii.isDigit d then rest.dropWhile Ascii.isDigit else Ascii.dot :: d :: rest
  | s => s

/-- Hours and minutes; seconds may be left out. -/
def time? (s : Bytes) : Option Bytes := do
  let (hour, s) ← field? 2 s
  let (minute, s) ← field? 2 (← mark? Ascii.colon s)
  if hour < 24 ∧ minute < 60 then
    match mark? Ascii.colon s with
    | none => some s
    | some s =>
      let (second, s) ← field? 2 s
      if second < 60 then some (skipFraction s) else none
  else none

/-- An offset from universal time, up to a whole day. -/
def offset? : Bytes → Option Bytes
  | [] => none
  | b :: rest =>
    if b = 0x5A then some rest
    else if b = Ascii.plus ∨ b = Ascii.dash then do
      let (hour, s) ← field? 2 rest
      let (minute, s) ← field? 2 (← mark? Ascii.colon s)
      if hour ≤ 24 ∧ minute ≤ 60 then some s else none
    else none

/-- Upper case for the letters, and the letter between date and time for a space. -/
def normalized (s : Bytes) : Bytes :=
  s.map fun b => if b = Ascii.space then 0x54 else Ascii.toUpper b

def isDateTime (s : Bytes) : Bool :=
  let s := normalized s
  match date? s with
  | none => time? s == some []
  | some [] => true
  | some rest =>
    match (mark? 0x54 rest).bind time? with
    | none => false
    | some rest => rest.isEmpty || offset? rest == some []

end WaylandZig.Toml
