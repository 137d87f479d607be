import WaylandZig.Ascii
import WaylandZig.Text.Numeral
import WaylandZig.Text.Printable
import WaylandZig.Text.Space

/-! # Host tools: quoting in messages

Tools show what they were given in one of two ways: as text between typographic quotes, or as a word
that a shell would read back. Names of files take the second way only where the bare name would not
be read back.
-/
namespace WaylandZig.Quoting

def isShown (c : Char) : Bool := Printable.isPrintable c || (c.toNat ≥ 0xA0 && Space.isSpace c)

def octal (b : UInt8) : Bytes := Ascii.backslash :: Numeral.padded 8 3 b.toNat

/-- The letter that stands for a control behind a backslash. -/
def controlLetter? (n : Nat) : Option UInt8 :=
  List.lookup n [(0x07, 0x61), (0x08, 0x62), (0x09, 0x74), (0x0A, 0x6E), (0x0B, 0x76), (0x0C, 0x66),
    (0x0D, 0x72)]

/-- What cannot be shown is written as escapes, byte by byte. -/
def escaped? : Rune → Option Bytes
  | .stray b => some (octal b)
  | .char c =>
    match controlLetter? c.toNat with
    | some letter => some [Ascii.backslash, letter]
    | none => if isShown c then none else some ((Bytes.ofChar c).flatMap octal)

/-- An item of a text between typographic quotes: the backslash and the closing quote are escaped. -/
def textItem (r : Rune) : Bytes :=
  match escaped? r with
  | some text => text
  | none => if r = .char '\\' ∨ r = .char '’' then Ascii.backslash :: r.bytes else r.bytes

/-- A text in typographic quotes. -/
def text (s : Bytes) : Bytes := "‘" ++ (Utf8.runes s).flatMap textItem ++ "’"

/-- The items of a word in quotes, and the closing quote. Escapes have quotes of their own, which
`escaping` says are open. -/
def wordFrom (escaping : Bool) : List Rune → Bytes
  | [] => [Ascii.apostrophe]
  | r :: rest =>
    match escaped? r with
    | some codes => Bytes.ofString (if escaping then "" else "'$'") ++ codes ++ wordFrom true rest
    | none =>
      if r = .char '\'' then "'\\''" ++ wordFrom false rest
      else Bytes.ofString (if escaping then "''" else "") ++ r.bytes ++ wordFrom false rest

/-- Whether an item means itself between double quotes as well. A brace does so only alone, and two
signs only in front. -/
def isPlainInDoubleQuotes (alone first : Bool) (r : Rune) : Bool :=
  match r with
  | .stray _ => false
  | .char c =>
    if c = '\x7b' ∨ c = '\x7d' then alone
    else if c = '#' ∨ c = '~' then first
    else isShown c && !"!\"$&()*;<=>[^`|\\?".toList.contains c

/-- A word as a shell reads it back, always in quotes. An apostrophe is put in double quotes where
everything else means itself in them. -/
def word (s : Bytes) : Bytes :=
  let rs := Utf8.runes s
  let plain := rs.zipIdx.all fun (r, k) => isPlainInDoubleQuotes (rs.length = 1) (k = 0) r
  if rs.contains (.char '\'') && plain then "\"" ++ s ++ "\"" else "'" ++ wordFrom false rs

/-- Whether a shell or the reader of a message could take an item for something else than a part of a
name. -/
def isRisky (alone first : Bool) (r : Rune) : Bool :=
  match r with
  | .stray _ => true
  | .char c =>
    if c = '\x7b' ∨ c = '\x7d' then alone
    else if c = '#' ∨ c = '~' then first
    else !isShown c || " !\"$&()*;<=>[^`|\\?':".toList.contains c

/-- The name of a file in a message. -/
def name (s : Bytes) : Bytes :=
  let rs := Utf8.runes s
  if rs.isEmpty || rs.zipIdx.any fun (r, k) => isRisky (rs.length = 1) (k = 0) r then word s else s

end WaylandZig.Quoting
