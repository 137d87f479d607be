import WaylandZig.Ascii

/-! # Host tools: named byte classes

The classes of bytes that tools know by name, such as `alpha` and `space`. No byte above ASCII is in
any of them.
-/
namespace WaylandZig.ByteClass

def isBlank (b : UInt8) : Bool := b == Ascii.space || b == Ascii.tab

/-- Blanks and the controls that move to another line, column or page. -/
def isSpace (b : UInt8) : Bool := b == Ascii.space || (0x09 ≤ b && b ≤ 0x0D)

def isControl (b : UInt8) : Bool := b < 0x20 || b == 0x7F

def isGraph (b : UInt8) : Bool := 0x21 ≤ b && b ≤ 0x7E

def isHexDigit (b : UInt8) : Bool :=
  Ascii.isDigit b || (0x41 ≤ b && b ≤ 0x46) || (0x61 ≤ b && b ≤ 0x66)

def isAlphanumeric (b : UInt8) : Bool := Ascii.isLetter b || Ascii.isDigit b

def named? (name : Bytes) : Option (UInt8 → Bool) :=
  List.lookup name
    [("alnum", isAlphanumeric), ("alpha", Ascii.isLetter), ("blank", isBlank), ("cntrl", isControl),
      ("digit", Ascii.isDigit), ("graph", isGraph), ("lower", Ascii.isLower),
      ("print", fun b => isGraph b || b == Ascii.space),
      ("punct", fun b => isGraph b && !isAlphanumeric b), ("space", isSpace), ("upper", Ascii.isUpper),
      ("xdigit", isHexDigit)]

/-- Every byte in order. -/
def allBytes : Bytes := (List.range 256).map UInt8.ofNat

end WaylandZig.ByteClass
