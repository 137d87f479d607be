import WaylandZig.Command.Program
import WaylandZig.Text.Binary64

/-! # Host tools: printing arguments

The tools that write their arguments: as they are, with the escapes in them read, or put in the places
that a format marks.
-/
namespace WaylandZig.Print

/-- What a letter behind a backslash stands for. -/
def control? (b : UInt8) : Option UInt8 :=
  List.lookup b [(0x61, 0x07), (0x62, 0x08), (0x65, 0x1B), (0x66, 0x0C), (0x6E, 0x0A), (0x72, 0x0D),
    (0x74, 0x09), (0x76, 0x0B), (0x5C, 0x5C)]

/-- The byte that an escape stands for behind its backslash, and how many bytes the escape takes. What
is no escape leaves the backslash as it is. -/
def escape (s : Bytes) : UInt8 × Nat :=
  let digits := (s.take 3).takeWhile fun b => 0x30 ≤ b && b ≤ 0x37
  match Numeral.nat? 8 digits, s.head?.bind control? with
  | some n, _ => (UInt8.ofNat n, digits.length)
  | none, some c => (c, 1)
  | none, none => (Ascii.backslash, 0)

/-- The escapes of an argument, in which an octal one has a zero more in front. -/
def argumentEscape (s : Bytes) : UInt8 × Nat :=
  match s with
  | Ascii.zero :: d :: rest =>
    if 0x30 ≤ d && d ≤ 0x37 then
      let (b, n) := escape (d :: rest)
      (b, n + 1)
    else escape s
  | _ => escape s

/-- An argument with its escapes read, the first `owed` bytes being the rest of one already read. The
escape `\c` ends all printing. -/
def unescapeFrom : Nat → Bytes → Bytes × Bool
  | _, [] => ([], false)
  | owed + 1, _ :: rest => unescapeFrom owed rest
  | 0, b :: rest =>
    if b ≠ Ascii.backslash then
      let (text, stopped) := unescapeFrom 0 rest
      (b :: text, stopped)
    else if rest.head? = some 0x63 then ([], true)
    else
      let (c, n) := argumentEscape rest
      let (text, stopped) := unescapeFrom n rest
      (c :: text, stopped)

def unescape (s : Bytes) : Bytes × Bool := unescapeFrom 0 s

/-- Arguments with a blank between them, up to an escape that ends printing. -/
def words : List Bytes → Bytes × Bool
  | [] => ([], false)
  | arg :: rest =>
    match unescape arg with
    | (text, true) => (text, true)
    | (text, false) =>
      if rest.isEmpty then (text, false)
      else
        let (more, stopped) := words rest
        (text ++ [Ascii.space] ++ more, stopped)

/-- Prints its arguments as a line with their escapes read. -/
def echoEscaped : Program := fun c =>
  let silent := c.arguments.head? == some (Bytes.ofString "-n")
  let (text, stopped) := words (if silent then c.arguments.tail else c.arguments)
  c.ignored.print (if silent || stopped then text else text ++ [Ascii.newline])

/-- Whether an argument is a cluster of the letters that `echo` takes. -/
def isEchoOption (arg : Bytes) : Bool :=
  arg.length > 1 && arg.startsWith "-" && arg.tail.all fun b => b == 0x6E || b == 0x65 || b == 0x45

/-- Prints its arguments as a line, with their escapes read if that is asked for. -/
def echo : Program := fun c =>
  let letters := (c.arguments.takeWhile isEchoOption).flatMap List.tail
  let operands := c.arguments.dropWhile isEchoOption
  let reads := (letters.filter (· != 0x6E)).getLast? == some 0x65
  let (text, stopped) := if reads then words operands else (Bytes.joinWith " " operands, false)
  c.ignored.print (if letters.contains 0x6E || stopped then text else text ++ [Ascii.newline])

/-- How an argument is to be printed. -/
structure Directive where
  flags : Bytes := []
  width : Nat := 0
  precision? : Option Nat := none
  conversion : UInt8
  deriving DecidableEq, Repr

/-- Formats that are being filled: the arguments left, what has been printed, and what went wrong. -/
structure Filling where
  left : List Bytes
  text : Bytes := []
  faults : List Bytes := []
  status : Nat := 0
  stopped : Bool := false
  deriving DecidableEq, Repr

namespace Filling

def add (f : Filling) (s : Bytes) : Filling := { f with text := f.text ++ s }

def blame (f : Filling) (fault : Bytes) (status : Nat) : Filling :=
  { f with faults := f.faults ++ [fault], status := status }

def halt (f : Filling) (fault : Bytes) (status : Nat) : Filling :=
  { f.blame fault status with stopped := true }

end Filling

/-- A text in a field of at least some width. -/
def aligned (d : Directive) (s : Bytes) : Bytes :=
  let gap := Bytes.spaces (d.width - s.length)
  if d.flags.contains Ascii.dash then s ++ gap else gap ++ s

/-- A number with its sign in a field, filled up with zeros where that is asked for. -/
def alignedNumber (d : Directive) (sign digits : Bytes) : Bytes :=
  let digits := List.replicate ((d.precision?.getD 1) - digits.length) Ascii.zero ++ digits
  let zeros :=
    if d.flags.contains Ascii.zero && !d.flags.contains Ascii.dash && d.precision?.isNone then
      List.replicate (d.width - sign.length - digits.length) Ascii.zero
    else []
  aligned d (sign ++ zeros ++ digits)

/-- Why an argument is not the number that was asked for. -/
inductive NumberFault where
  | notNumber
  | notComplete
  | outOfRange
  deriving DecidableEq, Repr

/-- A number at the front of an argument: the sign, the digits behind it with the base they are in, and
how many bytes all of that takes. -/
structure Numerals where
  negative : Bool
  base : Nat
  digits : Bytes
  taken : Nat

def isWhite (b : UInt8) : Bool := b == Ascii.space || (0x09 ≤ b && b ≤ 0x0D)

/-- The sign in front of a number, and the rest. -/
def signed (s : Bytes) : Bool × Bytes :=
  match s with
  | Ascii.dash :: rest => (true, rest)
  | Ascii.plus :: rest => (false, rest)
  | _ => (false, s)

def numeralsOf (s : Bytes) : Numerals :=
  let (negative, body) := signed (s.dropWhile isWhite)
  let isHex := fun (b : UInt8) => (Numeral.digitValue? 16 b).isSome
  let hex := (body.startsWith "0x" || body.startsWith "0X") && ((body.drop 2).head?.map isHex).getD false
  let base := if hex then 16 else if body.startsWith "0" then 8 else 10
  let behind := body.drop (if hex then 2 else 0)
  let digits := behind.takeWhile fun b => (Numeral.digitValue? base b).isSome
  let taken := s.length - behind.length + digits.length
  ⟨negative, base, digits, if digits.isEmpty then 0 else taken⟩

/-- The number that an argument stands for, and what is wrong with it. A quote stands in front of a byte
whose number is meant. Numbers with a sign have 63 bits, and others 64. -/
def wholeOf (withSign : Bool) (s : Bytes) : Int × Option NumberFault :=
  match s with
  | Ascii.quote :: rest => ((rest.headD 0).toNat, none)
  | Ascii.apostrophe :: rest => ((rest.headD 0).toNat, none)
  | _ =>
    let r := numeralsOf s
    let n := (Numeral.nat? r.base r.digits).getD 0
    let most : Nat := if withSign then Nat.pow 2 63 - 1 else Nat.pow 2 64 - 1
    let least : Nat := if withSign then Nat.pow 2 63 else Nat.pow 2 64 - 1
    let value : Int :=
      if r.negative then
        if n > least then if withSign then -(least : Int) else most else -(n : Int)
      else if n > most then most else n
    let tooLarge := n > if r.negative then least else most
    (value, if r.taken < s.length then
        some (if r.taken = 0 then .notNumber else .notComplete)
      else if tooLarge then some .outOfRange
      else none)

/-- The number at the front of an argument. -/
def numberOf (s : Bytes) : Int := (wholeOf true s).1

/-- A number with places behind its point, or one that is none. -/
inductive Real where
  | finite (negative : Bool) (x : Binary64)
  | infinite (negative : Bool)
  | undefined (negative : Bool)
  deriving DecidableEq, Repr

/-- The exponent at the front of a text, and how many bytes it takes. -/
def exponentOf (s : Bytes) : Int × Nat :=
  match s with
  | b :: rest =>
    let (negative, body) := signed rest
    let digits := body.takeWhile Ascii.isDigit
    let n := min ((Numeral.nat? 10 digits).getD 0) 100000
    if (b == 0x65 || b == 0x45) && !digits.isEmpty then
      (if negative then -(n : Int) else n, 1 + (rest.length - body.length) + digits.length)
    else (0, 0)
  | [] => (0, 0)

/-- The exponents beyond which a number is surely too large or too small. -/
def exponentLimit : Int := 400

/-- The number nearest to decimal digits with an exponent. -/
def realOfDigits (negative : Bool) (digits : Bytes) (exponent : Int) : Real :=
  let n := (Numeral.nat? 10 digits).getD 0
  let size := exponent + (Numeral.decimal n).length
  if n = 0 || size < -exponentLimit then .finite negative ⟨0, Binary64.minExponent⟩
  else if size > exponentLimit then .infinite negative
  else
    let (a, b) := Binary64.scaled n 1 10 exponent
    match Binary64.ofFraction? a b with
    | some x => .finite negative x
    | none => .infinite negative

/-- The number with places that an argument stands for, and what is wrong with it. -/
def realOf (s : Bytes) : Real × Option NumberFault :=
  match s with
  | Ascii.quote :: rest => (realOfDigits false (Numeral.decimal (rest.headD 0).toNat) 0, none)
  | Ascii.apostrophe :: rest => (realOfDigits false (Numeral.decimal (rest.headD 0).toNat) 0, none)
  | _ =>
    let (negative, body) := signed (s.dropWhile isWhite)
    let words : List (Bytes × Real) := [("infinity", .infinite negative), ("inf", .infinite negative),
      ("nan", .undefined negative)]
    let complete := fun (left : Nat) => if left = 0 then none else some NumberFault.notComplete
    match words.find? fun w => Ascii.eqFold (body.take w.1.length) w.1 with
    | some (w, r) => (r, complete (body.length - w.length))
    | none =>
      let whole := numeralsOf s
      let front := body.takeWhile Ascii.isDigit
      let behind := body.drop front.length
      let places := if behind.head? = some Ascii.dot then behind.tail.takeWhile Ascii.isDigit else []
      let point := if behind.head? = some Ascii.dot then 1 else 0
      if front.isEmpty && places.isEmpty then
        (realOfDigits false [] 0, if s.isEmpty then none else some .notNumber)
      else if whole.base = 16 then
        let n := (Numeral.nat? 16 whole.digits).getD 0
        (realOfDigits negative (Numeral.decimal n) 0, complete (s.length - whole.taken))
      else
        let rest := behind.drop (point + places.length)
        let (e, n) := exponentOf rest
        let r := realOfDigits negative (front ++ places) (e - places.length)
        let fault? := complete (rest.length - n)
        let lost := match r with
          | .finite _ x => x.mantissa = 0 && (front ++ places).any (· != Ascii.zero)
          | _ => true
        (r, if fault?.isNone && lost then some .outOfRange else fault?)

/-- Digits of a number without sign, as its conversion writes them. -/
def digitsOf (conversion : UInt8) (n : Nat) : Bytes :=
  match conversion with
  | 0x6F => Numeral.ofNat 8 n
  | 0x78 => Numeral.hex n
  | 0x58 => (Numeral.hex n).map Ascii.toUpper
  | _ => Numeral.decimal n

def signOf (d : Directive) (n : Int) : Bytes :=
  if n < 0 then "-" else if d.flags.contains Ascii.plus then "+"
  else if d.flags.contains Ascii.space then " " else []

/-- The mark that shows the base of a number where that is asked for. -/
def baseMark (d : Directive) (n : Int) : Bytes :=
  if !d.flags.contains Ascii.hash || n = 0 then []
  else if d.conversion = 0x78 then "0x"
  else if d.conversion = 0x58 then "0X"
  else if d.conversion = 0x6F then "0"
  else []

/-- The form of a number that a conversion letter asks for, without its sign. -/
def realForm (d : Directive) (x : Binary64) : Bytes :=
  let full := d.flags.contains Ascii.hash
  let places := d.precision?.getD 6
  match Ascii.toLower d.conversion with
  | 0x66 => x.fixed places full
  | 0x65 => x.scientific places full
  | _ => x.general places full

/-- A number with places in its field. Only finite ones are filled up with zeros. -/
def alignedReal (d : Directive) (r : Real) : Bytes :=
  let signFor := fun (negative : Bool) => signOf d (if negative then -1 else 0)
  let plain := { d with flags := d.flags.filter (· != Ascii.zero) }
  let text := match r with
    | .finite negative x => alignedNumber { d with precision? := none } (signFor negative) (realForm d x)
    | .infinite negative => aligned plain (signFor negative ++ "inf")
    | .undefined negative => aligned plain (signFor negative ++ "nan")
  if Ascii.isUpper d.conversion then text.map Ascii.toUpper else text

/-- Prints one argument. `wording` says how a tool complains of one that is no number. -/
def apply (wording : Bytes → NumberFault → Bytes) (d : Directive) (source : Bytes) (f : Filling) : Filling :=
  let arg := f.left.headD []
  let f := { f with left := f.left.tail }
  let cut := fun (s : Bytes) => match d.precision? with
    | some n => s.take n
    | none => s
  match d.conversion with
  | 0x73 => f.add (aligned d (cut arg))
  | 0x63 => f.add (aligned d [arg.headD 0])
  | 0x62 =>
    let (text, stopped) := unescape arg
    { f.add (aligned d (cut text)) with stopped := stopped }
  | c =>
    if [0x64, 0x69, 0x6F, 0x75, 0x78, 0x58].contains c then
      let (n, fault?) := wholeOf (c == 0x64 || c == 0x69) arg
      let f := match fault? with
        | some fault => f.blame (wording arg fault) 1
        | none => f
      if c = 0x64 || c = 0x69 then
        f.add (alignedNumber d (signOf d n) (Numeral.decimal n.natAbs))
      else f.add (alignedNumber d (baseMark d n) (digitsOf c (n % Int.pow 2 64).toNat))
    else if [0x65, 0x66, 0x67, 0x45, 0x46, 0x47].contains c then
      let (r, fault?) := realOf arg
      let f := match fault? with
        | some fault => f.blame (wording arg fault) 1
        | none => f
      f.add (alignedReal d r)
    else f.halt ([Ascii.percent] ++ source ++ ": invalid directive") 2

/-- The directive behind a percent sign, and how many bytes it takes. A star takes its number from the
arguments. -/
def directive (s : Bytes) (left : List Bytes) : Directive × Nat × List Bytes :=
  let flags := s.takeWhile fun b => [Ascii.hash, Ascii.dash, Ascii.plus, Ascii.space, Ascii.zero].contains b
  let number := fun (s : Bytes) (left : List Bytes) =>
    if s.startsWith "*" then (numberOf (left.headD []), 1, left.tail)
    else
      let digits := s.takeWhile Ascii.isDigit
      ((((Numeral.nat? 10 digits).getD 0 : Nat) : Int), digits.length, left)
  let (width, n, left) := number (s.drop flags.length) left
  let behind : Bytes := s.drop (flags.length + n)
  let flags := if width < 0 then Ascii.dash :: flags else flags
  let taken := s.length - behind.length
  if behind.startsWith "." then
    let (precision, m, left) := number behind.tail left
    let conversion := (behind.drop (m + 1)).headD 0
    (⟨flags, width.natAbs, if precision < 0 then none else some precision.natAbs, conversion⟩,
      taken + m + 2, left)
  else (⟨flags, width.natAbs, none, behind.headD 0⟩, taken + 1, left)

/-- Fills a format once. -/
def fill (wording : Bytes → NumberFault → Bytes) : Nat → Bytes → Filling → Filling
  | 0, _, f => f
  | _, [], f => f
  | fuel + 1, b :: rest, f =>
    if f.stopped then f
    else if b = Ascii.backslash then
      let (c, n) := escape rest
      fill wording fuel (rest.drop n) (f.add [c])
    else if b ≠ Ascii.percent then fill wording fuel rest (f.add [b])
    else if Bytes.startsWith rest "%" then fill wording fuel rest.tail (f.add [b])
    else
      let (d, n, left) := directive rest f.left
      if d.conversion = 0 then f.halt "missing format character" 2
      else
        fill wording fuel (rest.drop n) (apply wording d (rest.take n) { f with left := left })

/-- Fills the format again while it takes arguments and some are left. -/
def fillAll (wording : Bytes → NumberFault → Bytes) (format : Bytes) : Nat → Filling → Filling
  | 0, f => f
  | rounds + 1, f =>
    let filled := fill wording (format.length + 1) format f
    if filled.stopped || filled.left.isEmpty || filled.left.length = f.left.length then filled
    else fillAll wording format rounds filled

/-- Prints a format filled with arguments, which complains under some name. -/
def printfWith (wording : Bytes → NumberFault → Bytes) (c : Call) (format : Bytes) (args : List Bytes) :
    ProgramResult :=
  let f := fillAll wording format (args.length + 1) { left := args }
  let blamed := f.faults.foldl (fun r fault => Program.complaint c fault r f.status) c.ignored
  blamed.print f.text

/-- The format and its arguments, behind a mark that ends options. -/
def formatAndArguments (args : List Bytes) : List Bytes :=
  if args.head? = some (Bytes.ofString "--") then args.tail else args

def outOfRangeText : Bytes := ": Numerical result out of range"

/-- The tool as a file of its own puts what it complains of in quotes. -/
def printf : Program := fun c =>
  match formatAndArguments c.arguments with
  | [] => Program.refuse c "missing operand" 1
  | format :: args =>
    printfWith (fun arg fault => Quoting.text arg ++ match fault with
      | .notNumber => ": expected a numeric value"
      | .notComplete => ": value not completely converted"
      | .outOfRange => outOfRangeText) c format args

/-- The tool as a part of the command language. -/
def printfBuiltin : Program := fun c =>
  match formatAndArguments c.arguments with
  | [] => Program.complaint c "usage: printf format [arg ...]" c.ignored 2
  | format :: args =>
    printfWith (fun arg fault => arg ++ match fault with
      | .notNumber => ": expected numeric value"
      | .notComplete => ": not completely converted"
      | .outOfRange => outOfRangeText) c format args

end WaylandZig.Print
