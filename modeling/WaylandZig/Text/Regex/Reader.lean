import WaylandZig.Text.Regex

/-! # Host tools: reading regular expressions

The text of an expression is told apart into marks, which are then put together with a stack of the
groups that are still open. The basic way of writing has a backslash in front of most signs; the
extended way has none.
-/
namespace WaylandZig.Regex

inductive Fault where
  | trailingBackslash
  | unmatchedGroup
  | unmatchedClose
  | unmatchedSet
  | unmatchedInterval
  | nothingToRepeat
  | invalidReference
  deriving DecidableEq, Repr

def Fault.text : Fault → Bytes
  | .trailingBackslash => "Trailing backslash"
  | .unmatchedGroup => "Unmatched ( or \\("
  | .unmatchedClose => "Unmatched ) or \\)"
  | .unmatchedSet => "Unmatched [, [^, [:, [., or [="
  | .unmatchedInterval => "Unmatched \\\x7b"
  | .nothingToRepeat => "Invalid preceding regular expression"
  | .invalidReference => "Invalid back reference"

inductive Mark where
  | atom (r : Regex)
  | times (least : Nat) (most? : Option Nat)
  | opening
  | closing
  | bar

def literal (b : UInt8) : Regex := .one (· == b)

def lineStart : Regex := .edge fun before? _ => before?.isNone

def lineEnd : Regex := .edge fun _ after? => after?.isNone

def isWordByte (b? : Option UInt8) : Bool := (b?.map Ascii.isWord).getD false

/-- What a letter behind a backslash stands for in either way of writing. -/
def named? (b : UInt8) : Option Regex :=
  let table : List (Bytes × Regex) :=
    [("w", .one Ascii.isWord), ("W", .one fun b => !Ascii.isWord b),
      ("s", .one ByteClass.isSpace), ("S", .one fun b => !ByteClass.isSpace b),
      ("b", .edge fun x y => isWordByte x != isWordByte y),
      ("B", .edge fun x y => isWordByte x == isWordByte y),
      ("<", .edge fun x y => !isWordByte x && isWordByte y),
      (">", .edge fun x y => isWordByte x && !isWordByte y),
      ("\x60", lineStart), ("'", lineEnd)]
  table.lookup [b]

/-- The sign that a byte is with a backslash in basic and without one in extended expressions. -/
def sign? (b : UInt8) : Option Mark :=
  let table : List (Bytes × Mark) :=
    [("(", .opening), (")", .closing), ("|", .bar), ("+", .times 1 none), ("?", .times 0 (some 1))]
  table.lookup [b]

/-- The bounds between the braces of an interval, and what follows the closing brace. -/
def interval? (extended : Bool) (s : Bytes) : Option (Mark × Bytes) := do
  let close : Bytes := if extended then "\x7d" else "\\\x7d"
  let length ← s.find? close
  let rest := s.drop (length + close.length)
  match Bytes.cut Ascii.comma (s.take length) with
  | (least, none) => (Numeral.nat? 10 least).map fun n => (.times n (some n), rest)
  | (least, some most) =>
    let first ← if least.isEmpty then some 0 else Numeral.nat? 10 least
    if most.isEmpty then some (.times first none, rest)
    else (Numeral.nat? 10 most).map fun n => (.times first (some n), rest)

/-- The set behind an opening bracket, and what follows it. -/
def set? (s : Bytes) : Option ((UInt8 → Bool) × Bytes) :=
  let pattern := fun (s : Bytes) => s.map fun b => (⟨b, true⟩ : Shell.PatternByte)
  let read := fun (s : Bytes) => Shell.Pattern.members (s.length + 1) true (pattern s)
  let found? : Option ((UInt8 → Bool) × Shell.Pattern) := match s with
    | Ascii.caret :: rest => (read rest).map fun (accepts, rest) => ((fun c => !accepts c), rest)
    | s => read s
  found?.map fun (accepts, rest) => (accepts, Shell.Pattern.bytes rest)

/-- The mark at the front. At the start of a part a basic star is no sign, and only there and at its
end are the signs for the ends of a line signs in a basic expression. -/
def mark (extended start : Bool) (b : UInt8) (rest : Bytes) : Except Fault (Mark × Bytes) :=
  let plain : Except Fault (Mark × Bytes) := .ok (.atom (literal b), rest)
  let escaped := rest.head?.getD 0
  let signed? := if b = Ascii.backslash then if extended then none else (sign? escaped).map (·, rest.tail)
    else if extended then (sign? b).map (·, rest) else none
  let brace? : Option Bytes :=
    if b = Ascii.backslash then if !extended && escaped = Ascii.openBrace then some rest.tail else none
    else if extended && b = Ascii.openBrace then some rest else none
  match signed?, brace? with
  | some found, _ => .ok found
  | none, some inner =>
    match interval? extended inner with
    | some found => .ok found
    | none => if extended then plain else .error .unmatchedInterval
  | none, none =>
    if b = Ascii.backslash then
      match rest with
      | [] => .error .trailingBackslash
      | c :: rest =>
        if 0x31 ≤ c && c ≤ 0x39 then .ok (.atom (.reference (c - 0x30).toNat), rest)
        else .ok (.atom ((named? c).getD (literal c)), rest)
    else if b = Ascii.dot then .ok (.atom (.one fun _ => true), rest)
    else if b = Ascii.openBracket then
      match set? rest with
      | some (accepts, rest) => .ok (.atom (.one accepts), rest)
      | none => .error .unmatchedSet
    else if b = Ascii.star then
      if !start then .ok (.times 0 none, rest)
      else if extended then .error .nothingToRepeat
      else plain
    else if b = Ascii.caret then if extended || start then .ok (.atom lineStart, rest) else plain
    else if b = Ascii.dollar then
      if extended || rest.isEmpty || rest.startsWith "\\)" || rest.startsWith "\\|" then
        .ok (.atom lineEnd, rest)
      else plain
    else plain

/-- The marks of an expression. -/
def marksFrom (extended : Bool) : Nat → Bool → Bytes → Except Fault (List Mark)
  | 0, _, _ => .ok []
  | _, _, [] => .ok []
  | fuel + 1, start, b :: rest => do
    let (m, rest) ← mark extended start b rest
    let starting := match m with
      | .opening | .bar => true
      | _ => start && b == Ascii.caret
    return m :: (← marksFrom extended fuel starting rest)

/-- A group that is still open: its alternatives and the parts of the last of them, newest first. -/
structure Frame where
  index : Nat := 0
  branches : List Regex := []
  parts : List Regex := []

namespace Frame

def branch (f : Frame) : Regex := f.parts.reverse.foldr .sequence .empty

def regex (f : Frame) : Regex := f.branches.foldl (fun r earlier => .choice earlier r) f.branch

def add (f : Frame) (r : Regex) : Frame := { f with parts := r :: f.parts }

end Frame

/-- An expression a number of times. -/
def repeated (r : Regex) (least : Nat) (most? : Option Nat) : Regex :=
  let further := match most? with
    | none => .star r
    | some most =>
      (List.replicate (most - least) r).foldr (fun r rest => .choice (.sequence r rest) .empty) .empty
  (List.replicate least r).foldr .sequence further

/-- What is read of an expression: the groups that are open, the innermost first, and how many groups
there were. -/
structure Reading where
  frames : List Frame := [{}]
  groups : Nat := 0

def Reading.step (s : Reading) : Mark → Except Fault Reading
  | .atom r =>
    match r, s.frames with
    | .reference k, frame :: outer =>
      if s.groups < k then .error .invalidReference
      else .ok { s with frames := frame.add r :: outer }
    | r, frame :: outer => .ok { s with frames := frame.add r :: outer }
    | _, [] => .ok s
  | .times least most? =>
    match s.frames with
    | { index, branches, parts := r :: parts } :: outer =>
      .ok { s with frames := ⟨index, branches, repeated r least most? :: parts⟩ :: outer }
    | _ => .error .nothingToRepeat
  | .opening =>
    .ok { frames := { index := s.groups + 1 } :: s.frames, groups := s.groups + 1 }
  | .closing =>
    match s.frames with
    | frame :: outer :: rest =>
      .ok { s with frames := outer.add (.group frame.index frame.regex) :: rest }
    | _ => .error .unmatchedClose
  | .bar =>
    match s.frames with
    | frame :: outer =>
      .ok { s with frames := ⟨frame.index, frame.branch :: frame.branches, []⟩ :: outer }
    | [] => .ok s

/-- Reads an expression and counts its groups. -/
def read (extended : Bool) (s : Bytes) : Except Fault (Regex × Nat) := do
  let marks ← marksFrom extended (s.length + 1) true s
  let done ← marks.foldlM Reading.step {}
  match done.frames with
  | [frame] => return (frame.regex, done.groups)
  | _ => throw .unmatchedGroup

end WaylandZig.Regex
