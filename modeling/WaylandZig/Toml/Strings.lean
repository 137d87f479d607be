import WaylandZig.Text.Numeral
import WaylandZig.Toml.Source

/-! # TOML strings

Four forms: in double quotes with escapes or in apostrophes without, each on one line or, behind
three quotes, on several. The readers start behind the opening quotes and give the value and what
follows the closing ones.
-/
namespace WaylandZig.Toml

/-- A code point given by hexadecimal digits; surrogates are none. -/
def codePoint? (digits : Nat) (s : Bytes) : Option (Bytes × Bytes) :=
  let written := s.take digits
  match if written.length = digits then Numeral.nat? 16 written else none with
  | some n => if n.isValidChar then some (Bytes.ofChar (Char.ofNat n), s.drop digits) else none
  | none => none

/-- What the escape behind a backslash stands for. -/
def escape? : Bytes → Option (Bytes × Bytes)
  | [] => none
  | b :: rest =>
    if b = Ascii.quote ∨ b = Ascii.backslash then some ([b], rest)
    else if b = 0x62 then some ([0x08], rest)
    else if b = 0x74 then some ([Ascii.tab], rest)
    else if b = 0x6E then some ([Ascii.newline], rest)
    else if b = 0x66 then some ([0x0C], rest)
    else if b = 0x72 then some ([Ascii.carriageReturn], rest)
    else if b = 0x65 then some ([0x1B], rest)
    else if b = 0x78 then codePoint? 2 rest
    else if b = 0x75 then codePoint? 4 rest
    else if b = 0x55 then codePoint? 8 rest
    else none

/-- Puts bytes in front of what a reader found. -/
def inFront (lead : Bytes) (found : Option (Bytes × Bytes)) : Option (Bytes × Bytes) :=
  found.map fun (text, rest) => (lead ++ text, rest)

/-- A string in apostrophes. -/
def verbatim? (s : Bytes) : Option (Bytes × Bytes) :=
  match Bytes.cut Ascii.apostrophe s with
  | (text, some rest) => if text.any isNewline then none else some (text, rest)
  | _ => none

/-- A string in double quotes. Every round takes at least one byte. -/
def quotedFrom : Nat → Bytes → Option (Bytes × Bytes)
  | 0, _ => none
  | _, [] => none
  | rounds + 1, b :: rest =>
    if b = Ascii.quote then some ([], rest)
    else if b = Ascii.backslash then
      (escape? rest).bind fun (text, rest) => inFront text (quotedFrom rounds rest)
    else if isNewline b then none
    else inFront [b] (quotedFrom rounds rest)

def quoted? (s : Bytes) : Option (Bytes × Bytes) := quotedFrom (s.length + 1) s

/-- A newline right behind the opening quotes is no part of the value. -/
def withoutFirstNewline : Bytes → Bytes
  | Ascii.newline :: rest => rest
  | Ascii.carriageReturn :: Ascii.newline :: rest => rest
  | s => s

/-- A run of quotes inside a string of several lines: up to two are content, three close it, and
some more in front of these are content again. -/
def quoteRun (mark : UInt8) (s : Bytes) : Nat := (s.takeWhile (· == mark)).length

/-- The end of a string of several lines, with at most `spare` quotes in front of the three that close
it. -/
def closing? (mark : UInt8) (spare : Nat) (s : Bytes) : Option (Bytes × Bytes) :=
  let run := quoteRun mark s
  if run ≤ spare + 3 then some (List.replicate (run - 3) mark, s.drop run) else none

def verbatimLinesFrom : Nat → Bytes → Option (Bytes × Bytes)
  | 0, _ => none
  | _, [] => none
  | rounds + 1, b :: rest =>
    if 3 ≤ quoteRun Ascii.apostrophe (b :: rest) then closing? Ascii.apostrophe 2 (b :: rest)
    else inFront [b] (verbatimLinesFrom rounds rest)

def verbatimLines? (s : Bytes) : Option (Bytes × Bytes) :=
  verbatimLinesFrom (s.length + 1) (withoutFirstNewline s)

def isFiller (b : UInt8) : Bool := isBlank b || isNewline b

/-- A backslash at the end of a line takes the newline and all white space after it away. `spare` is
how many quotes may stand in front of the closing ones here. -/
def quotedLinesFrom : Nat → Nat → Bytes → Option (Bytes × Bytes)
  | 0, _, _ => none
  | _, _, [] => none
  | rounds + 1, spare, b :: rest =>
    if 3 ≤ quoteRun Ascii.quote (b :: rest) then closing? Ascii.quote spare (b :: rest)
    else if b = Ascii.backslash then
      if (rest.takeWhile isFiller).contains Ascii.newline then
        quotedLinesFrom rounds 2 (rest.dropWhile isFiller)
      else
        let spare := if rest.head? = some Ascii.backslash then 3 else 2
        (escape? rest).bind fun (text, rest) => inFront text (quotedLinesFrom rounds spare rest)
    else inFront [b] (quotedLinesFrom rounds 2 rest)

/-- Two quotes may stand in front of the closing ones, and behind an escaped backslash three. -/
def quotedLines? (s : Bytes) : Option (Bytes × Bytes) :=
  quotedLinesFrom (s.length + 1) 2 (withoutFirstNewline s)

end WaylandZig.Toml
