import WaylandZig.Xml.Cursor

/-! # Character data

Text between tags, quoted attribute values and CDATA sections. References are replaced by what they
stand for outside CDATA, and each line end becomes a single newline.
-/
namespace WaylandZig.Xml

inductive TextKind where
  | content
  | quoted (mark : UInt8)
  | cdata
  deriving DecidableEq, Repr

/-- The code points that a document may hold. -/
def isAllowed (c : Char) : Bool :=
  let n := c.toNat
  n == 0x09 || n == 0x0A || n == 0x0D || (0x20 ≤ n && n ≤ 0xD7FF) || (0xE000 ≤ n && n ≤ 0xFFFD)
    || 0x10000 ≤ n

/-- The first thing in a text that may not stand in a document. -/
def illegal? (data : Bytes) : Option Malformed :=
  (Utf8.runes data).findSome? fun
    | .stray _ => some .invalidUtf8
    | .char c => if isAllowed c then none else some (.illegalCharacter c)

def namedCharacters : List (Bytes × Bytes) :=
  [("lt", "<"), ("gt", ">"), ("amp", "&"), ("apos", "'"), ("quot", "\"")]

/-- The text of a numeric reference; a surrogate stands for the replacement character. -/
def numericCharacter? (base : Nat) (digits : Bytes) : Option Bytes :=
  (Numeral.nat? base digits).bind fun n =>
    if n ≤ 0x10FFFF then
      some (Bytes.ofChar (if 0xD800 ≤ n ∧ n ≤ 0xDFFF then Rune.replacement else Char.ofNat n))
    else none

/-- Takes the closing semicolon of a reference and gives what the reference stands for. `written` is
the reference as far as it was read. -/
def closeReference (c : Cursor) (written : Bytes) (meaning? : Option Bytes) :
    Except Fault (Bytes × Cursor) :=
  match c.rest, meaning? with
  | [], _ => .error (c.fault .endOfInput)
  | Ascii.semicolon :: rest, some meaning => .ok (meaning, ⟨c.line, rest⟩)
  | Ascii.semicolon :: _, none => .error (c.fault (.badReference (written ++ ";")))
  | _, _ => .error (c.fault (.badReference written))

def numericReference (c : Cursor) (base : Nat) (lead : Bytes) : Except Fault (Bytes × Cursor) :=
  let isDigit := fun b => (Numeral.digitValue? base b).isSome
  let digits := c.rest.takeWhile isDigit
  closeReference ⟨c.line, c.rest.dropWhile isDigit⟩ (lead ++ digits) (numericCharacter? base digits)

/-- Takes a reference whose ampersand is already taken. -/
def reference (c : Cursor) : Except Fault (Bytes × Cursor) :=
  match c.rest with
  | Ascii.hash :: 0x78 :: rest => numericReference ⟨c.line, rest⟩ 16 "&#x"
  | Ascii.hash :: rest => numericReference ⟨c.line, rest⟩ 10 "&#"
  | _ => do
    let (name, c) ← c.nameBytes
    closeReference c ("&" ++ name) (if isName name then namedCharacters.lookup name else none)

/-- Reads on with `before` and `last` as the two bytes taken last and `out` as the text so far, in
reverse. Every round takes a byte, so the input bounds the rounds. -/
def textFrom (kind : TextKind) :
    Nat → UInt8 → UInt8 → Bytes → Cursor → Except Fault (Bytes × Cursor)
  | 0, _, _, _, c => .error (c.fault .endOfInput)
  | rounds + 1, before, last, out, c =>
    match c.next? with
    | none => if kind = .cdata then .error (c.fault .endInCdata) else .ok (out.reverse, c)
    | some (b, after) =>
      if before = Ascii.closeBracket ∧ last = Ascii.closeBracket ∧ b = Ascii.greater
          ∧ kind = .cdata then
        .ok ((out.drop 2).reverse, after)
      else if before = Ascii.closeBracket ∧ last = Ascii.closeBracket ∧ b = Ascii.greater
          ∧ kind = .content then
        .error (after.fault .strayCdataEnd)
      else if b = Ascii.less ∧ kind = .content then .ok (out.reverse, c)
      else if b = Ascii.less ∧ kind ≠ .cdata then .error (after.fault .lessInQuotes)
      else if kind = .quoted b then .ok (out.reverse, after)
      else if b = Ascii.ampersand ∧ kind ≠ .cdata then
        match reference after with
        | .error e => .error e
        | .ok (meaning, after) => textFrom kind rounds 0 0 (meaning.reverse ++ out) after
      else if b = Ascii.carriageReturn then
        textFrom kind rounds last b (Ascii.newline :: out) after
      else if last = Ascii.carriageReturn ∧ b = Ascii.newline then
        textFrom kind rounds last b out after
      else textFrom kind rounds last b (b :: out) after

/-- Takes character data up to its end: the next tag, the closing mark or the end of the section. -/
def characterData (kind : TextKind) (c : Cursor) : Except Fault (Bytes × Cursor) := do
  let (data, c) ← textFrom kind (c.rest.length + 1) 0 0 [] c
  match illegal? data with
  | some what => throw (c.fault what)
  | none => return (data, c)

end WaylandZig.Xml
