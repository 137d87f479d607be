import WaylandZig.Ascii
import WaylandZig.Text.Utf8

/-! # Equality up to case

Names that a configuration knows are ASCII. A text is such a name up to case when its ASCII letters
differ from it only in case; besides these, the long s stands for `s` and the Kelvin sign for `k`.
-/
namespace WaylandZig.CaseFold

def foldRune : Rune → Bytes
  | .stray b => [b]
  | .char c =>
    if c.toNat = 0x17F then "s"
    else if c.toNat = 0x212A then "k"
    else (Bytes.ofChar c).map Ascii.toLower

def fold (s : Bytes) : Bytes := (Utf8.runes s).flatMap foldRune

def isName (name s : Bytes) : Bool := fold s == name

end WaylandZig.CaseFold
