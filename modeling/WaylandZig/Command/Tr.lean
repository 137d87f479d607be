import WaylandZig.Command.Program
import WaylandZig.Text.ByteClass

/-! # Host tools: replacing bytes

The tool that replaces the bytes of one set by those of another, deletes bytes, and squeezes runs of
equal bytes. A set is written with ranges, escapes, named classes and repeated bytes.
-/
namespace WaylandZig.Tr

/-- A byte of a set as it is written. An escaped byte has no other meaning. -/
structure SetByte where
  byte : UInt8
  escaped : Bool
  deriving DecidableEq, Repr

inductive Element where
  | one (b : UInt8)
  | range (first last : UInt8)
  | named (name : Bytes)
  | equivalent (b : UInt8)
  | repeated (b : UInt8) (count : Nat)
  deriving DecidableEq, Repr

inductive Fault where
  | reversedRange (first last : UInt8)
  | noClassName
  | noEquivalent
  | unknownClass (name : Bytes)
  | longEquivalent (text : Bytes)
  | repeatCount (text : Bytes)
  | repeatInFirst
  | repeatTwice
  | repeatUnused
  | equivalentInSecond
  | classInSecond
  | misaligned
  | emptySecond
  | classAtEnd
  | complementedClass
  deriving DecidableEq, Repr

/-- What a letter behind a backslash stands for. -/
def control? (b : UInt8) : Option UInt8 :=
  List.lookup b [(0x61, 0x07), (0x62, 0x08), (0x66, 0x0C), (0x6E, 0x0A), (0x72, 0x0D), (0x74, 0x09),
    (0x76, 0x0B), (0x5C, 0x5C)]

def controlLetter? (b : UInt8) : Option UInt8 :=
  List.lookup b [(0x07, 0x61), (0x08, 0x62), (0x0C, 0x66), (0x0A, 0x6E), (0x0D, 0x72), (0x09, 0x74),
    (0x0B, 0x76), (0x5C, 0x5C)]

/-- A byte that can be printed as itself, and any other as its octal escape. -/
def octalOrSelf (b : UInt8) : Bytes :=
  if ByteClass.isGraph b || b == Ascii.space then [b]
  else Ascii.backslash :: Numeral.padded 8 3 b.toNat

/-- A byte as it can be written in a set. -/
def printable (b : UInt8) : Bytes :=
  match controlLetter? b with
  | some letter => [Ascii.backslash, letter]
  | none => octalOrSelf b

def Fault.text : Fault → Bytes
  | .reversedRange first last =>
    "range-endpoints of '" ++ octalOrSelf first ++ "-" ++ octalOrSelf last
      ++ "' are in reverse collating sequence order"
  | .noClassName => "missing character class name '[::]'"
  | .noEquivalent => "missing equivalence class character '[==]'"
  | .unknownClass name => "invalid character class " ++ Quoting.text (name.flatMap printable)
  | .longEquivalent text =>
    text.flatMap printable ++ ": equivalence class operand must be a single character"
  | .repeatCount text =>
    "invalid repeat count " ++ Quoting.text (text.flatMap printable) ++ " in [c*n] construct"
  | .repeatInFirst => "the [c*] repeat construct may not appear in string1"
  | .repeatTwice => "only one [c*] repeat construct may appear in string2"
  | .repeatUnused => "the [c*] construct may appear in string2 only when translating"
  | .equivalentInSecond => "[=c=] expressions may not appear in string2 when translating"
  | .classInSecond =>
    "when translating, the only character classes that may appear in\nstring2 are 'upper' and 'lower'"
  | .misaligned => "misaligned [:upper:] and/or [:lower:] construct"
  | .emptySecond => "when not truncating set1, string2 must be non-empty"
  | .classAtEnd =>
    "when translating with string1 longer than string2,\nthe latter string must not end with a character class"
  | .complementedClass =>
    "when translating with complemented character classes,\nstring2 must map all characters in the domain to one"

def isOctal (b : UInt8) : Bool := 0x30 ≤ b && b ≤ 0x37

/-- The digits of an octal escape: up to three, as long as they stay within a byte. -/
def octalDigits (s : Bytes) : Bytes :=
  let digits := (s.take 3).takeWhile isOctal
  if ((Numeral.nat? 8 digits).getD 0) < 256 then digits else digits.take 2

/-- Reads the escapes of a set, the first `owed` bytes being the rest of one already read. -/
def setBytesFrom : Nat → Bytes → List SetByte
  | _, [] => []
  | owed + 1, _ :: rest => setBytesFrom owed rest
  | 0, b :: rest =>
    if b ≠ Ascii.backslash then ⟨b, false⟩ :: setBytesFrom 0 rest
    else
      let digits := octalDigits rest
      match digits, rest with
      | _ :: _, _ =>
        ⟨UInt8.ofNat ((Numeral.nat? 8 digits).getD 0), true⟩ :: setBytesFrom digits.length rest
      | [], c :: _ => ⟨(control? c).getD c, true⟩ :: setBytesFrom 1 rest
      | [], [] => [⟨b, false⟩]

def setBytes (s : Bytes) : List SetByte := setBytesFrom 0 s

/-- The doubts about a set: an octal escape that is cut short, and a backslash at the end. -/
def warningsFrom : Nat → Bytes → List Bytes
  | _, [] => []
  | owed + 1, _ :: rest => warningsFrom owed rest
  | 0, b :: rest =>
    if b ≠ Ascii.backslash then warningsFrom 0 rest
    else
      let digits := octalDigits rest
      match (rest.take 3).takeWhile isOctal, rest with
      | [x, y, z], _ =>
        if digits.length = 3 then warningsFrom 3 rest
        else
          ("the ambiguous octal escape \\" ++ [x, y, z] ++ " is being\n\tinterpreted as the 2-byte sequence \\0"
            ++ [x, y] ++ ", " ++ [z]) :: warningsFrom 2 rest
      | _ :: _, _ => warningsFrom digits.length rest
      | [], [] => ["an unescaped backslash at end of string is not portable"]
      | [], _ :: _ => warningsFrom 1 rest

def warnings (s : Bytes) : List Bytes := warningsFrom 0 s

def isSign (b : UInt8) (s : SetByte) : Bool := s.byte == b && !s.escaped

/-- The length of what stands in front of a sign and a closing bracket. -/
def closingOffset? (sign : UInt8) : List SetByte → Option Nat
  | a :: b :: rest =>
    if isSign sign a && isSign Ascii.closeBracket b then some 0
    else (closingOffset? sign (b :: rest)).map (· + 1)
  | _ => none

/-- The number in a repetition: octal if it begins with a zero. -/
def repeatCount? (digits : Bytes) : Option Nat :=
  Numeral.nat? (if digits.startsWith "0" then 8 else 10) digits

/-- A repetition such as `a*3]` behind its opening bracket, and how many bytes it takes. Without a
number it stands for as many bytes as are needed, which is written as zero. -/
def repetition? (s : List SetByte) : Except Fault (Option (Element × Nat)) :=
  match s with
  | b :: mark :: rest =>
    if !isSign Ascii.star mark then .ok none
    else
      let number := rest.takeWhile fun d => !d.escaped && d.byte != Ascii.closeBracket
      match rest.drop number.length with
      | close :: _ =>
        let digits := number.map SetByte.byte
        if close.escaped then .ok none
        else if digits.isEmpty then .ok (some (.repeated b.byte 0, 3))
        else match repeatCount? digits with
          | some n => .ok (some (.repeated b.byte n, digits.length + 3))
          | none => .error (.repeatCount digits)
      | [] => .ok none
  | _ => .ok none

/-- A class such as `:alpha:]` or `=a=]` behind its opening bracket, and how many bytes it takes. -/
def class? (s : List SetByte) : Except Fault (Option (Element × Nat)) :=
  match s with
  | sign :: rest =>
    if !(isSign Ascii.colon sign || isSign Ascii.equals sign) then .ok none
    else match closingOffset? sign.byte rest with
      | none => .ok none
      | some n =>
        let name := (rest.take n).map SetByte.byte
        let starred := (repetition? (sign :: rest)).toOption.join.isSome
        let colon := sign.byte == Ascii.colon
        if name.isEmpty then .error (if colon then .noClassName else .noEquivalent)
        else if colon then
          if (ByteClass.named? name).isSome then .ok (some (.named name, n + 3))
          else if starred then .ok none
          else .error (.unknownClass name)
        else match name with
          | [b] => .ok (some (.equivalent b, n + 3))
          | _ => if starred then .ok none else .error (.longEquivalent name)
  | [] => .ok none

/-- What a bracket introduces, if it introduces something. -/
def bracketed? (s : List SetByte) : Except Fault (Option (Element × Nat)) := do
  match ← class? s with
  | some found => return some found
  | none => repetition? s

/-- The elements of a set. The last two bytes can only stand for themselves. -/
def elementsFrom : Nat → List SetByte → Except Fault (List Element)
  | 0, _ => .ok []
  | fuel + 1, b :: c :: d :: rest => do
    let tail := c :: d :: rest
    match ← if isSign Ascii.openBracket b then bracketed? tail else pure none with
    | some (e, n) => return e :: (← elementsFrom fuel (tail.drop n))
    | none =>
      if isSign Ascii.dash c then
        if b.byte > d.byte then throw (.reversedRange b.byte d.byte)
        return .range b.byte d.byte :: (← elementsFrom fuel rest)
      else return .one b.byte :: (← elementsFrom fuel tail)
  | _ + 1, short => .ok (short.map fun b => .one b.byte)

def elements (s : Bytes) : Except Fault (List Element) :=
  elementsFrom (s.length + 1) (setBytes s)

def caseNames : List Bytes := ["lower", "upper"]

/-- A byte of a set in its order, with the name of the case class it came from, and whether it is the
first of its element. -/
structure Cell where
  byte : UInt8
  case? : Option Bytes
  first : Bool
  deriving DecidableEq, Repr

/-- No set needs more repetitions than this. -/
def maxRepeat : Nat := 256

def Element.bytes : Element → Bytes
  | .one b => [b]
  | .range first last =>
    (List.range (last.toNat + 1 - first.toNat)).map fun k => first + UInt8.ofNat k
  | .named name => ByteClass.allBytes.filter ((ByteClass.named? name).getD fun _ => false)
  | .equivalent b => [b]
  | .repeated b count => List.replicate (min count maxRepeat) b

def Element.case? : Element → Option Bytes
  | .named name => if caseNames.contains name then some name else none
  | _ => none

def Element.cells (e : Element) : List Cell :=
  e.bytes.zipIdx.map fun (b, k) => ⟨b, e.case?, k == 0⟩

def isIndefinite (e : Element) : Bool := e matches .repeated _ 0

def isNamed (e : Element) : Bool := e matches .named _

def plainCells (s : Bytes) : List Cell := s.map fun b => ⟨b, none, true⟩

/-- The bytes of a set, or those that are not in it. -/
def members (complement : Bool) (es : List Element) : Bytes :=
  let all := es.flatMap Element.bytes
  if complement then ByteClass.allBytes.filter fun b => !all.contains b else all

/-- The rest of the element that a cell begins. -/
def skipElement (cells : List Cell) : List Cell := cells.dropWhile fun c => !c.first

/-- Refuses a case class of the second set that does not meet one of the first. -/
def aligned : Nat → List Cell → List Cell → Bool
  | fuel + 1, a :: first, b :: second =>
    if b.case?.isSome then
      a.first && a.case?.isSome && aligned fuel (skipElement first) (skipElement second)
    else aligned fuel first second
  | _, [], b :: _ => !(b.first && b.case?.isSome)
  | _, _, _ => true

/-- The pairs of bytes that two sets match up. Case classes that meet are matched letter by letter. -/
def pairs : Nat → List Cell → List Cell → List (UInt8 × UInt8)
  | fuel + 1, a :: first, b :: second =>
    match a.case?, b.case? with
    | some x, some y =>
      let letters := (Element.named x).bytes
      (if x = y then [] else letters.map fun c =>
        (c, if x = "lower" then Ascii.toUpper c else Ascii.toLower c))
        ++ pairs fuel (skipElement first) (skipElement second)
    | _, _ => (a.byte, b.byte) :: pairs fuel first second
  | _, _, _ => []

structure Mode where
  complement : Bool := false
  delete : Bool := false
  squeeze : Bool := false
  truncate : Bool := false
  deriving DecidableEq, Repr

/-- The second set of a replacement: its open repetition filled up to the length of the first, and its
last byte repeated to that length. -/
def extended (m : Mode) (length : Nat) (second : List Element) : Except Fault (List Cell) := do
  let cells := second.flatMap Element.cells
  let filled := second.flatMap fun e =>
    match e with
    | .repeated b 0 => (Element.repeated b (length - cells.length)).cells
    | e => e.cells
  if length ≤ filled.length ∨ m.truncate then return filled
  match second.getLast?, filled.getLast? with
  | some (.named _), _ => throw .classAtEnd
  | _, some last =>
    return filled ++ plainCells (List.replicate (length - filled.length) last.byte)
  | _, none => throw .emptySecond

/-- The replacement of each byte of the first set. A later pair counts more than an earlier one. -/
def replacements (m : Mode) (first second : List Element) : Except Fault (List (UInt8 × UInt8)) := do
  if second.any fun e => e matches .equivalent _ then throw .equivalentInSecond
  if second.any fun e => isNamed e && e.case?.isNone then throw .classInSecond
  let source := if m.complement then plainCells (members true first) else first.flatMap Element.cells
  let steps := source.length + 1
  if !m.complement && second.any (·.case?.isSome)
      && !aligned steps source (second.flatMap Element.cells) then throw .misaligned
  let target ← extended m source.length second
  let uniform := target.length = source.length ∧ (target.map Cell.byte).eraseDups.length = 1
  if m.complement && first.any isNamed && !uniform then throw .complementedClass
  return (pairs steps source target).reverse

/-- Drops the bytes of a set that repeat the byte in front of them. -/
def squeezed (set : Bytes) : Option UInt8 → Bytes → Bytes
  | _, [] => []
  | last?, b :: rest =>
    if last? = some b ∧ set.contains b then squeezed set last? rest
    else b :: squeezed set (some b) rest

/-- What the tool does to a text. -/
def action (m : Mode) (first : List Element) (second? : Option (List Element)) :
    Except Fault (Bytes → Bytes) := do
  if first.any isIndefinite then throw .repeatInFirst
  match second? with
  | none =>
    let set := members m.complement first
    if m.delete then return fun s => s.filter fun b => !set.contains b
    else return squeezed set none
  | some second =>
    if (second.filter isIndefinite).length > 1 then throw .repeatTwice
    if m.delete then
      if second.any isIndefinite then throw .repeatUnused
      let set := members m.complement first
      return fun s => squeezed (members false second) none (s.filter fun b => !set.contains b)
    else
      let pairs ← replacements m first second
      let table := ByteClass.allBytes.map fun b => (pairs.lookup b).getD b
      let replace := fun (b : UInt8) => table[b.toNat]?.getD b
      let set := (pairs.map Prod.snd) ++ members false second
      return fun s => if m.squeeze then squeezed set none (s.map replace) else s.map replace

def Mode.ofOptions (opts : Program.Options) : Mode :=
  let has := fun (b : UInt8) => opts.any fun o => o.1 == b
  ⟨has 0x63 || has 0x43, has 0x64, has 0x73, has 0x74⟩

def table : Program.OptionTable :=
  { flags := "AcCdst"
    long := [("complement", 0x63), ("delete", 0x64), ("squeeze-repeats", 0x73),
      ("truncate-set1", 0x74)]
    anywhere := false }

/-- Why the number of sets does not fit what the tool is to do. -/
def misuse? (m : Mode) (args : List Bytes) : Option Bytes :=
  let fewest := if m.delete = m.squeeze then 2 else 1
  let most := if m.delete && !m.squeeze then 1 else 2
  if args.isEmpty then some "missing operand"
  else if args.length < fewest then
    some ("missing operand after " ++ Quoting.text ((args.getLast?).getD [])
      ++ "\nTwo strings must be given when "
      ++ if m.squeeze then "both deleting and squeezing repeats." else "translating.")
  else if args.length > most then
    let extra := "extra operand " ++ Quoting.text ((args[most]?).getD [])
    some (if args.length = 2 then
        extra ++ "\nOnly one string may be given when deleting without squeezing repeats."
      else extra)
  else none

def program : Program := Program.withOptions table 1 fun opts c =>
  let m := Mode.ofOptions opts
  match misuse? m c.arguments with
  | some text => Program.refuse c text 1
  | none =>
    let first := c.arguments.headD []
    let second? := c.arguments.tail.head?
    let made : Except Fault (Bytes → Bytes) := do
      action m (← elements first) (← second?.mapM elements)
    let read := if (elements first).isOk then first :: second?.toList else [first]
    let warned := (read.flatMap warnings).foldl
      (fun r w => Program.complaint c ("warning: " ++ w) r 0) c.ignored
    match made, Program.inputText c with
    | .error fault, _ => Program.complaint c fault.text warned 1
    | .ok _, .error e => Program.complaint c ("read error: " ++ Program.reason e) warned 1
    | .ok change, .ok text => { warned.print (change text) with unread := [] }

end WaylandZig.Tr
