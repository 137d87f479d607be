import WaylandZig.Text.Utf8

/-! # White space

Trimming and splitting at the white space code points: tab to carriage return, space, next line,
and the space separators with the line and paragraph separators.
-/
namespace WaylandZig.Space

def isSpace (c : Char) : Bool :=
  let n := c.toNat
  (0x09 ≤ n && n ≤ 0x0D) || n == 0x20 || n == 0x85 || n == 0xA0 || n == 0x1680
    || (0x2000 ≤ n && n ≤ 0x200A) || n == 0x2028 || n == 0x2029 || n == 0x202F || n == 0x205F
    || n == 0x3000

def isSpaceRune : Rune → Bool
  | .char c => isSpace c
  | .stray _ => false

/-- The text without the white space at its two ends. -/
def trim (s : Bytes) : Bytes :=
  Utf8.ofRunes
    ((((Utf8.runes s).dropWhile isSpaceRune).reverse.dropWhile isSpaceRune).reverse)

/-- The current word, then the words of the rest. -/
def collect : List Rune → Bytes → List Bytes
  | [], word => if word.isEmpty then [] else [word]
  | r :: rest, word =>
    if isSpaceRune r then
      if word.isEmpty then collect rest [] else word :: collect rest []
    else collect rest (word ++ r.bytes)

/-- The maximal runs without white space. -/
def words (s : Bytes) : List Bytes := collect (Utf8.runes s) []

end WaylandZig.Space
