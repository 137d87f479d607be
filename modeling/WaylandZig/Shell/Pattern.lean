import WaylandZig.Text.ByteClass

/-! # Host shell: patterns

Patterns that match a text as a whole: a question mark stands for any byte, a star for any bytes, and
brackets for one byte of a set. A quoted byte stands for itself only, and so does one behind a
backslash.
-/
namespace WaylandZig.Shell

/-- A byte of a pattern. Only an active byte can mean more than itself. -/
structure PatternByte where
  byte : UInt8
  active : Bool
  deriving DecidableEq, Repr

abbrev Pattern := List PatternByte

namespace Pattern

/-- What stands for one byte or, in the case of `many`, for any number of them. -/
inductive Atom where
  | one (accepts : UInt8 → Bool)
  | many

def bytes (p : Pattern) : Bytes := p.map PatternByte.byte

def isActive (b : UInt8) (p : PatternByte) : Bool := p.active && p.byte == b

/-- The name of a class such as `[:alpha:]` at the front, and what follows it. -/
def className? (p : Pattern) : Option (Bytes × Pattern) :=
  if !Bytes.startsWith p.bytes "[:" then none
  else
    let name := (p.bytes.drop 2).takeWhile (· != Ascii.colon)
    if Bytes.startsWith (p.bytes.drop (name.length + 2)) ":]" then some (name, p.drop (name.length + 4))
    else none

/-- The members of a set up to the bracket that closes it. The first member may be such a bracket. -/
def members : Nat → Bool → Pattern → Option ((UInt8 → Bool) × Pattern)
  | 0, _, _ => none
  | _, _, [] => none
  | fuel + 1, first, b :: rest =>
    let go := fun (accepts : UInt8 → Bool) (rest : Pattern) =>
      (members fuel false rest).map fun (others, rest) => ((fun c => accepts c || others c), rest)
    if isActive Ascii.closeBracket b && !first then some ((fun _ => false), rest)
    else if isActive Ascii.backslash b && !rest.isEmpty then
      go (fun c => rest.head?.any fun r => r.byte == c) rest.tail
    else
      match (className? (b :: rest)).bind fun (name, rest) => (ByteClass.named? name).map (·, rest) with
      | some (accepts, rest) => go accepts rest
      | none =>
        match rest with
        | dash :: last :: more =>
          if isActive Ascii.dash dash && !isActive Ascii.closeBracket last then
            go (fun c => b.byte ≤ c && c ≤ last.byte) more
          else go (· == b.byte) rest
        | _ => go (· == b.byte) rest

/-- The set behind an opening bracket, and what follows it. -/
def set? (p : Pattern) : Option ((UInt8 → Bool) × Pattern) :=
  match p with
  | b :: rest =>
    if isActive Ascii.exclamation b then
      (members (p.length + 1) true rest).map fun (accepts, rest) => ((fun c => !accepts c), rest)
    else members (p.length + 1) true p
  | [] => none

def atomsFrom : Nat → Pattern → List Atom
  | 0, _ => []
  | _, [] => []
  | fuel + 1, b :: rest =>
    if isActive Ascii.star b then .many :: atomsFrom fuel rest
    else if isActive Ascii.question b then .one (fun _ => true) :: atomsFrom fuel rest
    else if isActive Ascii.openBracket b then
      match set? rest with
      | some (accepts, rest) => .one accepts :: atomsFrom fuel rest
      | none => .one (· == b.byte) :: atomsFrom fuel rest
    else if isActive Ascii.backslash b && !rest.isEmpty then
      .one (fun c => rest.head?.any fun r => r.byte == c) :: atomsFrom fuel rest.tail
    else .one (· == b.byte) :: atomsFrom fuel rest

def atoms (p : Pattern) : List Atom := atomsFrom (p.length + 1) p

def suffixes : Bytes → List Bytes
  | [] => [[]]
  | b :: rest => (b :: rest) :: suffixes rest

def matchesAtoms : List Atom → Bytes → Bool
  | [], s => s.isEmpty
  | .many :: rest, s => (suffixes s).any (matchesAtoms rest)
  | .one accepts :: rest, b :: s => accepts b && matchesAtoms rest s
  | .one _ :: _, [] => false

def matchesText (p : Pattern) (s : Bytes) : Bool := matchesAtoms p.atoms s

/-- A pattern in which what stands behind a backslash is quoted instead. -/
def unescaped : Pattern → Pattern
  | [] => []
  | [b] => [b]
  | b :: c :: rest =>
    if isActive Ascii.backslash b then ⟨c.byte, false⟩ :: unescaped rest else b :: unescaped (c :: rest)

/-- Whether a pattern is more than a text. -/
def isWild (p : Pattern) : Bool :=
  p.unescaped.any fun b =>
    isActive Ascii.star b || isActive Ascii.question b || isActive Ascii.openBracket b

/-- Whether a pattern matches a text up to the zero byte that may end it. -/
def matchesUpToZero (p : Pattern) (s : Bytes) : Bool := p.matchesText (s.takeWhile (· != 0))

/-- A text without the shortest or the longest front that matches, if one does. -/
def trimFront (p : Pattern) (longest : Bool) (s : Bytes) : Bytes :=
  let lengths := List.range (s.length + 1)
  match (if longest then lengths.reverse else lengths).find? fun n => p.matchesUpToZero (s.take n) with
  | some n => s.drop n
  | none => s

/-- A text without the shortest or the longest end that matches, if one does. -/
def trimEnd (p : Pattern) (longest : Bool) (s : Bytes) : Bytes :=
  let lengths := List.range (s.length + 1)
  match (if longest then lengths else lengths.reverse).find? fun n => p.matchesUpToZero (s.drop n) with
  | some n => s.take n
  | none => s

end Pattern

end WaylandZig.Shell
