import WaylandZig.Bytes

/-! # ASCII bytes

Names for the bytes that the formats of this library give a meaning to, and the byte classes that
their rules are stated in.
-/
namespace WaylandZig.Ascii

@[match_pattern] abbrev tab : UInt8 := 0x09
@[match_pattern] abbrev newline : UInt8 := 0x0A
@[match_pattern] abbrev carriageReturn : UInt8 := 0x0D
@[match_pattern] abbrev space : UInt8 := 0x20
@[match_pattern] abbrev exclamation : UInt8 := 0x21
@[match_pattern] abbrev quote : UInt8 := 0x22
@[match_pattern] abbrev hash : UInt8 := 0x23
@[match_pattern] abbrev dollar : UInt8 := 0x24
@[match_pattern] abbrev percent : UInt8 := 0x25
@[match_pattern] abbrev ampersand : UInt8 := 0x26
@[match_pattern] abbrev apostrophe : UInt8 := 0x27
@[match_pattern] abbrev openParen : UInt8 := 0x28
@[match_pattern] abbrev closeParen : UInt8 := 0x29
@[match_pattern] abbrev star : UInt8 := 0x2A
@[match_pattern] abbrev plus : UInt8 := 0x2B
@[match_pattern] abbrev comma : UInt8 := 0x2C
@[match_pattern] abbrev dash : UInt8 := 0x2D
@[match_pattern] abbrev dot : UInt8 := 0x2E
@[match_pattern] abbrev slash : UInt8 := 0x2F
@[match_pattern] abbrev zero : UInt8 := 0x30
@[match_pattern] abbrev one : UInt8 := 0x31
@[match_pattern] abbrev two : UInt8 := 0x32
@[match_pattern] abbrev colon : UInt8 := 0x3A
@[match_pattern] abbrev semicolon : UInt8 := 0x3B
@[match_pattern] abbrev less : UInt8 := 0x3C
@[match_pattern] abbrev equals : UInt8 := 0x3D
@[match_pattern] abbrev greater : UInt8 := 0x3E
@[match_pattern] abbrev question : UInt8 := 0x3F
@[match_pattern] abbrev atSign : UInt8 := 0x40
@[match_pattern] abbrev openBracket : UInt8 := 0x5B
@[match_pattern] abbrev backslash : UInt8 := 0x5C
@[match_pattern] abbrev closeBracket : UInt8 := 0x5D
@[match_pattern] abbrev caret : UInt8 := 0x5E
@[match_pattern] abbrev underscore : UInt8 := 0x5F
@[match_pattern] abbrev backquote : UInt8 := 0x60
@[match_pattern] abbrev openBrace : UInt8 := 0x7B
@[match_pattern] abbrev bar : UInt8 := 0x7C
@[match_pattern] abbrev closeBrace : UInt8 := 0x7D
@[match_pattern] abbrev tilde : UInt8 := 0x7E

def isUpper (b : UInt8) : Bool := 0x41 ≤ b && b ≤ 0x5A

def isLower (b : UInt8) : Bool := 0x61 ≤ b && b ≤ 0x7A

def isLetter (b : UInt8) : Bool := isUpper b || isLower b

def isDigit (b : UInt8) : Bool := 0x30 ≤ b && b ≤ 0x39

/-- Letters, digits and the underscore. -/
def isWord (b : UInt8) : Bool := isLetter b || isDigit b || b == underscore

def toLower (b : UInt8) : UInt8 := if isUpper b then b + 0x20 else b

def toUpper (b : UInt8) : UInt8 := if isLower b then b - 0x20 else b

/-- Equality up to the case of ASCII letters. -/
def eqFold (a b : Bytes) : Bool := a.map toLower == b.map toLower

end WaylandZig.Ascii
