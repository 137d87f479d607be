import WaylandZig.Xml.Fault

/-! # Reading position

What is left of a document, and the line that reading has reached. The line counts the newlines
that were taken, so a fault found at a cursor is reported on the line of the last byte taken.
-/
namespace WaylandZig.Xml

structure Cursor where
  line : Nat := 1
  rest : Bytes
  deriving Repr

namespace Cursor

def fault (c : Cursor) (what : Malformed) : Fault := .malformed c.line what

/-- The line after taking the byte `b`. -/
def lineAfter (line : Nat) (b : UInt8) : Nat := if b = Ascii.newline then line + 1 else line

def next? (c : Cursor) : Option (UInt8 × Cursor) :=
  match c.rest with
  | [] => none
  | b :: rest => some (b, ⟨lineAfter c.line b, rest⟩)

/-- Takes a byte where one must follow. -/
def next (c : Cursor) : Except Fault (UInt8 × Cursor) :=
  match c.next? with
  | some step => .ok step
  | none => .error (c.fault .endOfInput)

def isBlank (b : UInt8) : Bool :=
  b == Ascii.space || b == Ascii.carriageReturn || b == Ascii.newline || b == Ascii.tab

def skipBlanksFrom : Nat → Bytes → Cursor
  | line, [] => ⟨line, []⟩
  | line, b :: rest => if isBlank b then skipBlanksFrom (lineAfter line b) rest else ⟨line, b :: rest⟩

def skipBlanks (c : Cursor) : Cursor := skipBlanksFrom c.line c.rest

/-- Takes the longest run of name bytes. Input that ends with the run is a fault, since something
must follow every name. -/
def nameBytes (c : Cursor) : Except Fault (Bytes × Cursor) :=
  match c.rest.dropWhile isNameByte with
  | [] => .error (c.fault .endOfInput)
  | rest => .ok (c.rest.takeWhile isNameByte, ⟨c.line, rest⟩)

/-- Takes a name; no name byte at all, and a name of three parts, give none. -/
def plainName? (c : Cursor) : Except Fault (Option Bytes × Cursor) := do
  let (s, c) ← c.nameBytes
  if s.isEmpty then return (none, c)
  else if isName s then return (some s, c)
  else throw (c.fault (.invalidName s))

def name? (c : Cursor) : Except Fault (Option Name × Cursor) := do
  let (s?, c) ← c.plainName?
  return (s?.bind Name.ofBytes?, c)

/-- Takes a name where one must stand. -/
def name (c : Cursor) (missing : Malformed) : Except Fault (Name × Cursor) := do
  match ← c.name? with
  | (some n, c) => return (n, c)
  | (none, c) => throw (c.fault missing)

end Cursor

end WaylandZig.Xml
