import WaylandZig.Ascii
import WaylandZig.Text.Utf8

/-! # TOML source text

Which bytes can be a TOML text at all, and the classes of bytes that its rules are stated in. All
syntax is ASCII, so the rules read bytes; the rest of a text stands only in strings and comments.
-/
namespace WaylandZig.Toml

def isBlank (b : UInt8) : Bool := b == Ascii.space || b == Ascii.tab

def isNewline (b : UInt8) : Bool := b == Ascii.newline || b == Ascii.carriageReturn

def isBare (b : UInt8) : Bool := Ascii.isWord b || b == Ascii.dash

def isControl (b : UInt8) : Bool := (b < 0x20 && b != Ascii.tab && b != Ascii.newline) || b == 0x7F

/-- No control characters but tabs and newlines, and a carriage return only in front of a newline. -/
def isPlain : Bytes → Bool
  | [] => true
  | Ascii.carriageReturn :: Ascii.newline :: rest => isPlain rest
  | b :: rest => !isControl b && isPlain rest

/-- The text without a byte order mark in front. -/
def withoutMark : Bytes → Bytes
  | 0xFF :: 0xFE :: rest => rest
  | 0xFE :: 0xFF :: rest => rest
  | 0xEF :: 0xBB :: 0xBF :: rest => rest
  | s => s

def source? (s : Bytes) : Option Bytes :=
  let s := withoutMark s
  if isPlain s && (Utf8.chars? s).isSome then some s else none

def skipBlank (s : Bytes) : Bytes := s.dropWhile isBlank

/-- Skips blanks, newlines and comments; `inComment` tells that a comment has begun. -/
def skipFiller (inComment : Bool) : Bytes → Bytes
  | [] => []
  | b :: rest =>
    if isNewline b then skipFiller false rest
    else if inComment then skipFiller true rest
    else if isBlank b then skipFiller false rest
    else if b = Ascii.hash then skipFiller true rest
    else b :: rest

end WaylandZig.Toml
