import WaylandZig.Text.Numeral
import WaylandZig.Text.Printable

/-! # Quoted text

The double-quoted form in which names and paths appear in messages. Printable code points stand for
themselves; quote, backslash and everything else is escaped, so the form is one line of printable
text for any bytes.
-/
namespace WaylandZig.Quoted

def short? (c : Char) : Option Bytes :=
  match c.toNat with
  | 0x22 => some "\\\""
  | 0x5C => some "\\\\"
  | 0x07 => some "\\a"
  | 0x08 => some "\\b"
  | 0x0C => some "\\f"
  | 0x0A => some "\\n"
  | 0x0D => some "\\r"
  | 0x09 => some "\\t"
  | 0x0B => some "\\v"
  | _ => none

def escape : Rune → Bytes
  | .stray b => "\\x" ++ Numeral.padded 16 2 b.toNat
  | .char c =>
    match short? c with
    | some text => text
    | none =>
      if Printable.isPrintable c then Bytes.ofChar c
      else if c.toNat < 0x80 then "\\x" ++ Numeral.padded 16 2 c.toNat
      else if c.toNat < 0x10000 then "\\u" ++ Numeral.padded 16 4 c.toNat
      else "\\U" ++ Numeral.padded 16 8 c.toNat

def quote (s : Bytes) : Bytes := "\"" ++ (Utf8.runes s).flatMap escape ++ "\""

end WaylandZig.Quoted
