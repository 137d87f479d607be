import WaylandZig.Bytes

/-! # UTF-8

A byte string read as text: the code points of its well-formed sequences, and one stray item for
each byte that belongs to none. No byte is lost, so text rules can drop items at either end and
put the bytes back together.
-/
namespace WaylandZig

inductive Rune where
  | char (c : Char)
  | stray (b : UInt8)
  deriving DecidableEq, Repr

namespace Rune

def bytes : Rune → Bytes
  | .char c => Bytes.ofChar c
  | .stray b => [b]

/-- The replacement character U+FFFD. -/
def replacement : Char := Char.ofNat 0xFFFD

/-- The code point shown for an item; a stray byte shows as the replacement character. -/
def shown : Rune → Char
  | .char c => c
  | .stray _ => replacement

end Rune

namespace Utf8

def isTail (b : UInt8) : Bool := 0x80 ≤ b && b ≤ 0xBF

def tailBits (b : UInt8) : Nat := b.toNat % 64

/-- The code point encoded at the front, with the number of bytes after the first that it takes.
Overlong forms, surrogates and values above U+10FFFF encode nothing. -/
def leading? : Bytes → Option (Char × Nat)
  | [] => none
  | a :: rest =>
    if a < 0x80 then some (Char.ofNat a.toNat, 0)
    else if a < 0xC0 then none
    else if a < 0xE0 then
      match rest with
      | b :: _ =>
        let n := (a.toNat - 0xC0) * 64 + tailBits b
        if isTail b && 0x80 ≤ n then some (Char.ofNat n, 1) else none
      | _ => none
    else if a < 0xF0 then
      match rest with
      | b :: c :: _ =>
        let n := (a.toNat - 0xE0) * 4096 + tailBits b * 64 + tailBits c
        if isTail b && isTail c && 0x800 ≤ n && !(0xD800 ≤ n && n ≤ 0xDFFF)
        then some (Char.ofNat n, 2) else none
      | _ => none
    else if a < 0xF8 then
      match rest with
      | b :: c :: d :: _ =>
        let n := (a.toNat - 0xF0) * 262144 + tailBits b * 4096 + tailBits c * 64 + tailBits d
        if isTail b && isTail c && isTail d && 0x10000 ≤ n && n ≤ 0x10FFFF
        then some (Char.ofNat n, 3) else none
      | _ => none
    else none

/-- Reads items from the front, the first `owed` bytes being the tail of an item already read. -/
def runesFrom : Nat → Bytes → List Rune
  | _, [] => []
  | owed + 1, _ :: rest => runesFrom owed rest
  | 0, b :: rest =>
    match leading? (b :: rest) with
    | some (c, owed) => .char c :: runesFrom owed rest
    | none => .stray b :: runesFrom 0 rest

def runes (s : Bytes) : List Rune := runesFrom 0 s

/-- The code points of a well-formed text. -/
def chars? (s : Bytes) : Option (List Char) :=
  (runes s).mapM fun
    | .char c => some c
    | .stray _ => none

/-- The text with every stray byte shown as the replacement character. -/
def shown (s : Bytes) : String := String.ofList ((runes s).map Rune.shown)

def ofRunes (rs : List Rune) : Bytes := rs.flatMap Rune.bytes

end Utf8

end WaylandZig
