import WaylandZig.Xml.CharacterData

/-! # Tokens

A document as a run of tags, texts and parts that carry nothing for a reader of elements: comments,
processing instructions and directives.
-/
namespace WaylandZig.Xml

structure Attribute where
  name : Name
  value : Bytes
  deriving DecidableEq, Repr

inductive Token where
  | startTag (name : Name) (attributes : List Attribute)
  | emptyTag (name : Name) (attributes : List Attribute)
  | endTag (name : Name)
  | text (data : Bytes)
  | ignored
  deriving DecidableEq, Repr

/-- Takes the rest of a comment; two dashes only stand in front of its end. -/
def commentFrom : UInt8 → UInt8 → Nat → Bytes → Except Fault Cursor
  | _, _, line, [] => .error (.malformed line .endOfInput)
  | before, last, line, b :: rest =>
    let line := Cursor.lineAfter line b
    if before = Ascii.dash ∧ last = Ascii.dash then
      if b = Ascii.greater then .ok ⟨line, rest⟩ else .error (.malformed line .dashesInComment)
    else commentFrom last b line rest

/-- Where the reading of a directive stands. The bytes that open a comment do not count towards its
end; `left` of them follow the current one. -/
inductive DirectiveState where
  | markup (depth : Nat)
  | quoted (mark : UInt8) (depth : Nat)
  | commentStart (left depth : Nat)
  | comment (before last : UInt8) (depth : Nat)

/-- Takes a directive up to the bracket that closes it. Brackets nest; quoted ones and those in
comments do not count. -/
def directiveFrom : DirectiveState → Nat → Bytes → Except Fault Cursor
  | _, line, [] => .error (.malformed line .endOfInput)
  | state, line, b :: rest =>
    let line := Cursor.lineAfter line b
    match state with
    | .quoted mark depth =>
      directiveFrom (if b = mark then .markup depth else .quoted mark depth) line rest
    | .commentStart 0 depth => directiveFrom (.comment 0 0 depth) line rest
    | .commentStart (left + 1) depth => directiveFrom (.commentStart left depth) line rest
    | .comment before last depth =>
      if before = Ascii.dash ∧ last = Ascii.dash ∧ b = Ascii.greater then
        directiveFrom (.markup depth) line rest
      else directiveFrom (.comment last b depth) line rest
    | .markup depth =>
      if b = Ascii.quote ∨ b = Ascii.apostrophe then directiveFrom (.quoted b depth) line rest
      else if b = Ascii.greater then
        match depth with
        | 0 => .ok ⟨line, rest⟩
        | depth + 1 => directiveFrom (.markup depth) line rest
      else if b = Ascii.less then
        if Bytes.startsWith rest "!--" then directiveFrom (.commentStart 2 depth) line rest
        else directiveFrom (.markup (depth + 1)) line rest
      else directiveFrom (.markup depth) line rest

/-- The body of a processing instruction, in reverse so far. -/
def instructionFrom : UInt8 → Bytes → Nat → Bytes → Except Fault (Bytes × Cursor)
  | _, _, line, [] => .error (.malformed line .endOfInput)
  | last, out, line, b :: rest =>
    let line := Cursor.lineAfter line b
    if last = Ascii.question ∧ b = Ascii.greater then .ok ((out.drop 1).reverse, ⟨line, rest⟩)
    else instructionFrom b (b :: out) line rest

/-- The quoted value of `key=` in a declaration. A key that no quote follows is passed over, and the
search goes on behind the byte that follows it. -/
def declaredFrom (key : Bytes) : Nat → Bytes → Bytes
  | 0, _ => []
  | rounds + 1, s =>
    match s.find? key with
    | none => []
    | some offset =>
      match s.drop (offset + key.length) with
      | [] => []
      | mark :: rest =>
        if mark = Ascii.quote ∨ mark = Ascii.apostrophe then
          match Bytes.cut mark rest with
          | (value, some _) => value
          | (_, none) => []
        else declaredFrom key rounds rest

def declared (key s : Bytes) : Bytes := declaredFrom (key ++ "=") (s.length + 1) s

/-- Only version 1.0 in UTF-8 is read; a declaration that names neither is taken as such. -/
def checkDeclaration (body : Bytes) : Except Fault Unit :=
  let version := declared "version" body
  let encoding := declared "encoding" body
  if version ≠ [] ∧ version ≠ "1.0" then .error (.unsupportedVersion version)
  else if encoding ≠ [] ∧ ¬ Ascii.eqFold encoding "utf-8" then .error (.unsupportedEncoding encoding)
  else .ok ()

def instruction (c : Cursor) : Except Fault (Token × Cursor) := do
  match ← c.plainName? with
  | (none, c) => throw (c.fault .noTargetName)
  | (some target, c) =>
    let c := c.skipBlanks
    let (body, c) ← instructionFrom 0 [] c.line c.rest
    if target = "xml" then checkDeclaration body
    return (.ignored, c)

def readEndTag (c : Cursor) : Except Fault (Token × Cursor) := do
  let (name, c) ← c.name .noEndTagName
  let (b, c) ← c.skipBlanks.next
  if b = Ascii.greater then return (.endTag name, c) else throw (c.fault (.junkInEndTag name))

/-- Takes the bytes of `word` one by one. -/
def expect (missing : Malformed) : Bytes → Cursor → Except Fault Cursor
  | [], c => .ok c
  | w :: word, c => do
    let (b, c) ← c.next
    if b = w then expect missing word c else throw (c.fault missing)

/-- Takes what follows `<!`. -/
def declaration (c : Cursor) : Except Fault (Token × Cursor) := do
  let (b, c) ← c.next
  if b = Ascii.dash then
    let c ← expect .brokenCommentStart "-" c
    let c ← commentFrom 0 0 c.line c.rest
    return (.ignored, c)
  else if b = Ascii.openBracket then
    let c ← expect .brokenCdataStart "CDATA[" c
    let (data, c) ← characterData .cdata c
    return (.text data, c)
  else
    let c ← directiveFrom (.markup 0) c.line c.rest
    return (.ignored, c)

def attributeValue (c : Cursor) : Except Fault (Bytes × Cursor) := do
  let (b, c) ← c.next
  if b = Ascii.quote ∨ b = Ascii.apostrophe then characterData (.quoted b) c
  else throw (c.fault .noQuotedValue)

def readAttribute (c : Cursor) : Except Fault (Attribute × Cursor) := do
  let (name, c) ← c.name .noAttributeName
  let (b, c) ← c.skipBlanks.next
  if b = Ascii.equals then
    let (value, c) ← attributeValue c.skipBlanks
    return (⟨name, value⟩, c)
  else throw (c.fault .noEqualsSign)

/-- The rest of a start tag behind its name. Every round takes a byte. -/
def attributesFrom (name : Name) :
    Nat → List Attribute → Cursor → Except Fault (Token × Cursor)
  | 0, _, c => .error (c.fault .endOfInput)
  | rounds + 1, found, c => do
    let c := c.skipBlanks
    let (b, after) ← c.next
    if b = Ascii.slash then
      let after ← expect .brokenEmptyTag ">" after
      return (.emptyTag name found.reverse, after)
    else if b = Ascii.greater then return (.startTag name found.reverse, after)
    else
      let (a, c) ← readAttribute c
      attributesFrom name rounds (a :: found) c

def readStartTag (c : Cursor) : Except Fault (Token × Cursor) := do
  let (name, c) ← c.name .noElementName
  attributesFrom name (c.rest.length + 1) [] c

/-- Takes one token from input that is not at its end. -/
def Token.read (c : Cursor) : Except Fault (Token × Cursor) :=
  match c.rest with
  | Ascii.less :: rest =>
    match rest with
    | [] => .error (c.fault .endOfInput)
    | Ascii.slash :: rest => readEndTag ⟨c.line, rest⟩
    | Ascii.question :: rest => instruction ⟨c.line, rest⟩
    | Ascii.exclamation :: rest => declaration ⟨c.line, rest⟩
    | rest => readStartTag ⟨c.line, rest⟩
  | _ => do
    let (data, c) ← characterData .content c
    return (.text data, c)

end WaylandZig.Xml
