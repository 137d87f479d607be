import WaylandZig.Text.Numeral

/-! # Host tools: modes of files

The permissions of files as they are written: in octal digits, or as clauses that set, add or take away
permissions of the owner, the group and the others.
-/
namespace WaylandZig.Mode

/-- The bits of one class of users for each that a letter names. -/
def whoBits? (b : UInt8) : Option Nat :=
  List.lookup b [(0x75, 0o700), (0x67, 0o070), (0x6F, 0o007), (0x61, 0o777)]

/-- The permissions that a letter stands for, the same for each class of users. The large letter means
execution where some class has it already, and the name of a class what that class has. -/
def permission? (mode : Nat) (b : UInt8) : Option Nat :=
  let triple := fun (n : Nat) => (n % 8) * 0o111
  match b with
  | 0x72 => some 0o444
  | 0x77 => some 0o222
  | 0x78 => some 0o111
  | 0x58 => some (if mode &&& 0o111 = 0 then 0 else 0o111)
  | 0x75 => some (triple (mode / 64))
  | 0x67 => some (triple (mode / 8))
  | 0x6F => some (triple mode)
  | _ => none

def isSign (b : UInt8) : Bool := b == Ascii.plus || b == Ascii.dash || b == Ascii.equals

/-- Changes the bits of some classes, of which `held` keep what they are. -/
def change (sign : UInt8) (who held bits mode : Nat) : Nat :=
  let bits := bits &&& who &&& (0o777 - held)
  if sign = Ascii.plus then mode ||| bits
  else if sign = Ascii.dash then mode &&& (0o7777 - bits)
  else (mode &&& (0o7777 - who)) ||| bits

/-- The changes of a clause behind its classes: signs with permissions. -/
def actions? (who held : Nat) : Nat → Bytes → Nat → Option Nat
  | _, [], mode => some mode
  | 0, _, _ => none
  | fuel + 1, sign :: rest, mode =>
    if !isSign sign then none
    else
      let letters := rest.takeWhile fun b => !isSign b
      match letters.mapM (permission? mode) with
      | some bits =>
        actions? who held fuel (rest.drop letters.length)
          (change sign who held (bits.foldl (· ||| ·) 0) mode)
      | none => none

/-- Applies one clause. Without classes it speaks of all, except for the bits in `mask`. -/
def clause? (mask : Nat) (s : Bytes) (mode : Nat) : Option Nat :=
  let classes := s.takeWhile fun b => (whoBits? b).isSome
  let rest := s.drop classes.length
  let who := (classes.filterMap whoBits?).foldl (· ||| ·) 0
  if rest.isEmpty then none
  else if classes.isEmpty then actions? 0o777 mask rest.length rest mode
  else actions? who 0 rest.length rest mode

def symbolic? (mask : Nat) (s : Bytes) (mode : Nat) : Option Nat :=
  (s.splitOn Ascii.comma).foldlM (fun mode c => clause? mask c mode) mode

/-- The mode that a text makes of another. -/
def result? (mask : Nat) (s : Bytes) (mode : Nat) : Option Nat :=
  match Numeral.nat? 8 s with
  | some n => if n < 0o10000 then some n else none
  | none => symbolic? mask s mode

/-- The letters for the permissions of three classes in a mode. -/
def letters (mode : Nat) : List Bytes :=
  [mode / 64, mode / 8, mode].map fun n =>
    (if n / 4 % 2 = 1 then [0x72] else []) ++ (if n / 2 % 2 = 1 then [0x77] else [])
      ++ if n % 2 = 1 then [0x78] else []

/-- The permissions of each class as a clause. -/
def clauses (mode : Nat) : Bytes :=
  Bytes.joinWith "," (List.zipWith (fun (c l : Bytes) => c ++ "=" ++ l) ["u", "g", "o"] (letters mode))

end WaylandZig.Mode
