import WaylandZig.Toml.DateTime
import WaylandZig.Toml.Literal
import WaylandZig.Toml.Numbers
import WaylandZig.Toml.Strings

/-! # TOML grammar

Readers for keys, values and statements. Each gives what it read and the text that follows, or
nothing. Arrays and tables in braces may go over several lines and end in a comma.
-/
namespace WaylandZig.Toml

def keyPart? (s : Bytes) : Option (Bytes × Bytes) :=
  match s with
  | Ascii.quote :: rest => quoted? rest
  | Ascii.apostrophe :: rest => verbatim? rest
  | _ =>
    let name := s.takeWhile isBare
    if name.isEmpty then none else some (name, s.drop name.length)

/-- Parts with dots between them; the text that follows starts with no blank. -/
def keyFrom : Nat → Bytes → Option (Key × Bytes)
  | 0, _ => none
  | rounds + 1, s =>
    (keyPart? (skipBlank s)).bind fun (part, rest) =>
      match skipBlank rest with
      | Ascii.dot :: rest => (keyFrom rounds rest).map fun (parts, rest) => (part :: parts, rest)
      | rest => some ([part], rest)

def key? (s : Bytes) : Option (Key × Bytes) := keyFrom (s.length + 1) s

def isDecimalByte (b : UInt8) : Bool := Ascii.isDigit b || b == Ascii.underscore

def isFloatByte (b : UInt8) : Bool :=
  isDecimalByte b || isExponentMark b || b == Ascii.dot || b == Ascii.dash || b == Ascii.plus

/-- A decimal number. A dot or an exponent makes it a float. -/
def number? (s : Bytes) : Option (Literal × Bytes) :=
  let sign := s.length - (withoutSign s).length
  let whole := s.take (sign + ((s.drop sign).takeWhile isDecimalByte).length)
  match s.drop whole.length with
  | b :: rest =>
    if b = Ascii.dot ∨ isExponentMark b then
      let written := whole ++ (b :: rest).takeWhile isFloatByte
      if isFloat written then some (.float written, s.drop written.length) else none
    else (decimal? whole).map fun n => (.integer n, b :: rest)
  | [] => (decimal? whole).map fun n => (.integer n, [])

/-- The base that the byte behind a leading zero stands for. -/
def base? (b : UInt8) : Option Nat :=
  if b = 0x78 then some 16 else if b = 0x6F then some 8 else if b = 0x62 then some 2 else none

def numberInBase? (base : Nat) (s : Bytes) : Option (Literal × Bytes) :=
  let written := s.takeWhile fun b => (Numeral.digitValue? base b).isSome || b == Ascii.underscore
  (inBase? base written).map fun n => (.integer n, s.drop written.length)

/-- A value that starts with a digit: digits in front of a dash or a colon begin a date or a time. -/
def numberOrDate? (s : Bytes) : Option (Literal × Bytes) :=
  match (s.dropWhile Ascii.isDigit).head? with
  | some Ascii.dash | some Ascii.colon =>
    let run := s.takeWhile isDateTimeByte
    let written := (run.reverse.dropWhile (· == Ascii.space)).reverse
    if isDateTime written then some (.dateTime written, s.drop run.length) else none
  | _ =>
    match s with
    | Ascii.zero :: b :: rest =>
      match base? b with
      | some base => numberInBase? base rest
      | none => number? s
    | _ => number? s

/-- The values that are written as words. -/
def words : List (Bytes × Literal) :=
  [("true", .boolean true), ("false", .boolean false), ("inf", .float "inf"), ("nan", .float "nan"),
    ("+inf", .float "+inf"), ("-inf", .float "-inf"), ("+nan", .float "+nan"),
    ("-nan", .float "-nan")]

def word? (s : Bytes) : Option (Literal × Bytes) :=
  words.findSome? fun (w, v) => if s.startsWith w then some (v, s.drop w.length) else none

/-- A value other than an array or a table. -/
def scalar? (s : Bytes) : Option (Literal × Bytes) :=
  let text := Option.map fun (found : Bytes × Bytes) => (Literal.text found.1, found.2)
  match s with
  | Ascii.quote :: Ascii.quote :: Ascii.quote :: rest => text (quotedLines? rest)
  | Ascii.quote :: rest => text (quoted? rest)
  | Ascii.apostrophe :: Ascii.apostrophe :: Ascii.apostrophe :: rest => text (verbatimLines? rest)
  | Ascii.apostrophe :: rest => text (verbatim? rest)
  | _ =>
    (word? s).or
      (if (s.head?.map Ascii.isDigit).getD false then numberOrDate? s
       else if withoutSign s = s then none
       else number? s)

mutual

def valueFrom : Nat → Bytes → Option (Literal × Bytes)
  | 0, _ => none
  | rounds + 1, s =>
    match skipBlank s with
    | Ascii.openBracket :: rest =>
      (itemsFrom rounds rest).map fun (items, rest) => (.array items, rest)
    | Ascii.openBrace :: rest =>
      (entriesFrom rounds rest).map fun (entries, rest) => (.table entries, rest)
    | s => scalar? s

/-- The items of an array up to its closing bracket. -/
def itemsFrom : Nat → Bytes → Option (List Literal × Bytes)
  | 0, _ => none
  | rounds + 1, s =>
    match skipFiller false s with
    | Ascii.closeBracket :: rest => some ([], rest)
    | s =>
      (valueFrom rounds s).bind fun (value, rest) =>
        match skipFiller false rest with
        | Ascii.closeBracket :: rest => some ([value], rest)
        | Ascii.comma :: rest => (itemsFrom rounds rest).map fun (more, rest) => (value :: more, rest)
        | _ => none

/-- The entries of a table in braces up to its closing brace. -/
def entriesFrom : Nat → Bytes → Option (List (Key × Literal) × Bytes)
  | 0, _ => none
  | rounds + 1, s =>
    match skipFiller false s with
    | Ascii.closeBrace :: rest => some ([], rest)
    | s =>
      (key? s).bind fun (key, rest) =>
        match rest with
        | Ascii.equals :: rest =>
          (valueFrom rounds rest).bind fun (value, rest) =>
            match skipFiller false rest with
            | Ascii.closeBrace :: rest => some ([(key, value)], rest)
            | Ascii.comma :: rest =>
              (entriesFrom rounds rest).map fun (more, rest) => ((key, value) :: more, rest)
            | _ => none
        | _ => none

end

/-- A value. No value nests deeper than twice the length of its text. -/
def value? (s : Bytes) : Option (Literal × Bytes) := valueFrom (2 * s.length + 1) s

def statement? (s : Bytes) : Option (Statement × Bytes) :=
  match s with
  | Ascii.openBracket :: Ascii.openBracket :: rest =>
    match key? rest with
    | some (key, Ascii.closeBracket :: Ascii.closeBracket :: rest) => some (.tableArray key, rest)
    | _ => none
  | Ascii.openBracket :: rest =>
    match key? rest with
    | some (key, Ascii.closeBracket :: rest) => some (.table key, rest)
    | _ => none
  | _ =>
    match key? s with
    | some (key, Ascii.equals :: rest) =>
      (value? rest).map fun (value, rest) => (.assign key value, rest)
    | _ => none

/-- Whether a line may end here: only blanks and a comment are left on it. -/
def endsLine (s : Bytes) : Bool :=
  match skipBlank s with
  | [] => true
  | b :: _ => isNewline b || b == Ascii.hash

def statementsFrom : Nat → Bytes → Option (List Statement)
  | 0, _ => none
  | rounds + 1, s =>
    match skipFiller false s with
    | [] => some []
    | s =>
      (statement? s).bind fun (found, rest) =>
        if endsLine rest then (statementsFrom rounds rest).map (found :: ·) else none

/-- The statements of a text, each on a line of its own. -/
def statements? (s : Bytes) : Option (List Statement) :=
  (source? s).bind fun s => statementsFrom (s.length + 1) s

end WaylandZig.Toml
