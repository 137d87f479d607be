import WaylandZig.Shell.Pattern
import WaylandZig.Text.Numeral

/-! # Host tools: regular expressions

Expressions over bytes, in the basic and the extended way of writing them, and the leftmost of their
longest matches in a line. The sets in brackets are those of patterns.
-/
namespace WaylandZig

inductive Regex where
  | empty
  | one (accepts : UInt8 → Bool)
  /-- A place, told by the bytes on its two sides. -/
  | edge (holds : Option UInt8 → Option UInt8 → Bool)
  | sequence (first second : Regex)
  | choice (first second : Regex)
  | star (body : Regex)
  | group (index : Nat) (body : Regex)
  | reference (index : Nat)

namespace Regex

/-- A place in a line: the byte in front of it, what follows, and the groups matched on the way. -/
structure Spot where
  before? : Option UInt8
  rest : Bytes
  left : Nat
  groups : List (Nat × Bytes) := []
  deriving DecidableEq, Repr

namespace Spot

def start (before? : Option UInt8) (rest : Bytes) : Spot := ⟨before?, rest, rest.length, []⟩

def advance (s : Spot) (n : Nat) : Spot :=
  { s with
    before? := if n = 0 then s.before? else s.rest[n - 1]?
    rest := s.rest.drop n
    left := s.left - n }

/-- Spots with the furthest in front, each of them once. -/
def tidy (spots : List Spot) : List Spot :=
  let furthest := spots.mergeSort fun a b => a.left ≤ b.left
  (furthest.splitBy fun a b => a.left == b.left).flatMap List.eraseDups

end Spot

/-- The spots that some repetitions of a step lead to. Each repetition has to move on. -/
def repetitions (step : Spot → List Spot) : Nat → List Spot → List Spot
  | 0, _ => []
  | fuel + 1, reached =>
    let next := Spot.tidy (reached.flatMap fun s => (step s).filter fun e => e.left < s.left)
    if next.isEmpty then [] else next ++ repetitions step fuel next

/-- Where the matches from a spot end, the longest first. Of two ways to one place that which matches
more in its earlier parts comes first. -/
def ends : Regex → Spot → List Spot
  | .empty, s => [s]
  | .one accepts, s =>
    match s.rest with
    | b :: _ => if accepts b then [s.advance 1] else []
    | [] => []
  | .edge holds, s => if holds s.before? s.rest.head? then [s] else []
  | .sequence first second, s => Spot.tidy ((first.ends s).flatMap fun e => second.ends e)
  | .choice first second, s => Spot.tidy (first.ends s ++ second.ends s)
  | .star body, s => Spot.tidy (repetitions (fun e => body.ends e) s.left [s] ++ [s])
  | .group index body, s =>
    (body.ends s).map fun e =>
      { e with groups := (index, s.rest.take (s.left - e.left)) :: e.groups.filter (·.1 != index) }
  | .reference index, s =>
    match s.groups.lookup index with
    | some text => if s.rest.startsWith text then [s.advance text.length] else []
    | none => []

/-- A match in a line: what stands in front of it, its text and groups, and what follows it. -/
structure Match where
  lead : Bytes
  text : Bytes
  groups : List (Nat × Bytes)
  rest : Bytes
  deriving DecidableEq, Repr

/-- The first match behind a byte. -/
def search (r : Regex) (before? : Option UInt8) (s : Bytes) : Option Match :=
  match (r.ends (Spot.start before? s)).head?, s with
  | some e, s => some ⟨[], s.take (s.length - e.left), e.groups, e.rest⟩
  | none, [] => none
  | none, b :: rest => (search r (some b) rest).map fun m => { m with lead := b :: m.lead }

def matchesWithin (r : Regex) (s : Bytes) : Bool := (r.search none s).isSome

/-- Takes letters of either case. -/
def anyCase : Regex → Regex
  | .one accepts => .one fun b => accepts (Ascii.toLower b) || accepts (Ascii.toUpper b)
  | .sequence first second => .sequence first.anyCase second.anyCase
  | .choice first second => .choice first.anyCase second.anyCase
  | .star body => .star body.anyCase
  | .group index body => .group index body.anyCase
  | r => r

end Regex

end WaylandZig
