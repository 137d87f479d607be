import WaylandZig.Shell.Grammar

/-! # Host shell: words of the command language

Reading of tokens from the text of a script. What a byte means depends on where the word stands, and a
word may hold commands, so the reader of commands is a parameter here.
-/
namespace WaylandZig.Shell

inductive Token where
  | word (pieces : Word)
  | operator (s : Bytes)
  | redirect (stream? : Option Nat) (s : Bytes)
  | endOfFile

/-- The words that have a meaning of their own where a command begins. -/
def keywords : List Bytes :=
  ["!", "case", "do", "done", "elif", "else", "esac", "fi", "for", "if", "in", "then", "until", "while",
    [Ascii.openBrace], [Ascii.closeBrace]]

def Token.isKeyword : Token → Bool
  | .word w => ((plainText? w).map keywords.contains).getD false
  | _ => false

/-- Whether a token is this operator or keyword. -/
def Token.is (t : Token) (s : Bytes) : Bool :=
  match t with
  | .operator op => op == s
  | .word w => plainText? w == some s
  | _ => false

def Token.shown (t : Token) : Bytes :=
  match t with
  | .endOfFile => "end of file"
  | .redirect _ _ => "redirection"
  | .operator s => if s = [Ascii.newline] then "newline" else "\"" ++ s ++ "\""
  | .word w => if t.isKeyword then "\"" ++ rawText w ++ "\"" else "word"

/-- An alias whose value is being read: behind the value `left` bytes are left. -/
structure OpenAlias where
  name : Bytes
  left : Nat
  endsBlank : Bool

/-- The text still to be read. `owed` counts lines that were taken out from behind the current one, and
`pushed?` is a token that was put back. `opened` are the aliases that stand for a part of the text, and
`follows` says that the last token follows one whose value ends in a blank. -/
structure Source where
  rest : Bytes
  line : Nat := 1
  owed : Nat := 0
  pushed? : Option Token := none
  aliases : List (Bytes × Bytes) := []
  opened : List OpenAlias := []
  follows : Bool := false

structure SyntaxFault where
  line : Nat
  text : Bytes
  deriving DecidableEq, Repr

abbrev Reader := StateT Source (Except SyntaxFault)

def Source.drop (s : Source) (n : Nat) : Source :=
  let lines := (s.rest.take n).count Ascii.newline
  if lines = 0 then { s with rest := s.rest.drop n }
  else { s with rest := s.rest.drop n, line := s.line + lines + s.owed, owed := 0 }

/-- Drops the aliases whose value has been read. -/
def Source.closeAliases (s : Source) : Source :=
  let (closed, opened) := s.opened.partition fun a => s.rest.length ≤ a.left
  { s with opened := opened, follows := closed.any (·.endsBlank) }

/-- Puts the value of an alias in front of the text, unless it is being read already. -/
def Source.openAlias? (s : Source) (name : Bytes) : Option Source := do
  let value ← s.aliases.lookup name
  if s.opened.any fun a => a.name = name then none
  else
    let endsBlank := value.getLast? == some Ascii.space || value.getLast? == some Ascii.tab
    let opened : OpenAlias := ⟨name, s.rest.length, endsBlank⟩
    some { s with rest := value ++ s.rest, opened := opened :: s.opened }

/-- A length that bounds the text with the values of its aliases. -/
def Source.bound (s : Source) : Nat :=
  s.rest.length + 64 * (s.aliases.map fun a => a.2.length).foldr (· + ·) 0 + 2

namespace Reader

def fault {α : Type} (text : Bytes) : Reader α := do
  throw ⟨(← get).line, text⟩

def drop (n : Nat) : Reader Unit := modify (·.drop n)

def pushBack (t : Token) : Reader Unit := modify ({ · with pushed? := some t })

/-- Where a piece stands. Sums keep count of their open parentheses. -/
inductive Place where
  | bare
  | quotes
  | braces (quoted : Bool)
  | sum (depth : Nat)
  | here
  deriving DecidableEq, Repr

def Place.isQuoted : Place → Bool
  | .bare => false
  | .braces quoted => quoted
  | _ => true

/-- What is said when the text ends within. -/
def Place.unclosed? : Place → Option Bytes
  | .bare => none
  | .here => none
  | .quotes => some "Unterminated quoted string"
  | .braces true => some "Unterminated quoted string"
  | .braces false => some ("Missing '" ++ [Ascii.closeBrace] ++ "'")
  | .sum _ => some "Missing '))'"

def isBlank (b : UInt8) : Bool := b == Ascii.space || b == Ascii.tab

/-- The bytes that end a bare word. -/
def isBreak (b : UInt8) : Bool :=
  isBlank b || [Ascii.newline, Ascii.semicolon, Ascii.ampersand, Ascii.bar, Ascii.less, Ascii.greater,
    Ascii.openParen, Ascii.closeParen].contains b

/-- The number of bytes that end a place here, if it ends here. -/
def Place.closing? (p : Place) (s : Bytes) : Option Nat :=
  match p, s with
  | .bare, b :: _ => if isBreak b then some 0 else none
  | .quotes, Ascii.quote :: _ => some 1
  | .braces _, Ascii.closeBrace :: _ => some 1
  | .sum 0, Ascii.closeParen :: Ascii.closeParen :: _ => some 2
  | _, _ => none

/-- The place behind a byte. -/
def Place.after (p : Place) (b : UInt8) : Place :=
  match p, b with
  | .sum depth, Ascii.openParen => .sum (depth + 1)
  | .sum (depth + 1), Ascii.closeParen => .sum depth
  | p, _ => p

/-- The bytes that may mean more than themselves within a word. -/
def isSpecial (b : UInt8) : Bool :=
  isBreak b || [Ascii.backslash, Ascii.apostrophe, Ascii.quote, Ascii.dollar, Ascii.backquote,
    Ascii.closeBrace].contains b

def Place.text (p : Place) (s : Bytes) : Piece := if p.isQuoted then .literal s else .plain s

/-- The bytes that a backslash can take the meaning of within quotes. -/
def Place.escapes (p : Place) (b : UInt8) : Bool :=
  b == Ascii.backslash || b == Ascii.dollar || b == Ascii.backquote
    || (b == Ascii.quote && p != .here) || (b == Ascii.closeBrace && p == .braces true)

def isParameterSign (b : UInt8) : Bool :=
  [Ascii.atSign, Ascii.star, Ascii.hash, Ascii.question, Ascii.dash, Ascii.dollar,
    Ascii.exclamation].contains b

/-- The name of a parameter in braces. -/
def bracedName (s : Bytes) : Bytes :=
  match s with
  | [] => []
  | b :: _ =>
    if Ascii.isDigit b then s.takeWhile Ascii.isDigit
    else if Ascii.isWord b then s.takeWhile Ascii.isWord
    else if isParameterSign b then [b]
    else []

/-- The name of a parameter without braces, in which only one digit counts. -/
def bareName (s : Bytes) : Bytes :=
  if (s.head?.map Ascii.isDigit).getD false then s.take 1 else bracedName s

def fallbackOf? (b : UInt8) : Option Fallback :=
  List.lookup b [(Ascii.dash, .use), (Ascii.equals, .assign), (Ascii.question, .refuse),
    (Ascii.plus, .replace)]

/-- The text between backquotes with its escapes resolved, and how many bytes it takes with the closing
one. -/
def backquoted (quoted : Bool) : Bytes → Option (Bytes × Nat)
  | [] => none
  | Ascii.backquote :: _ => some ([], 1)
  | Ascii.backslash :: b :: rest =>
    let escaped := b == Ascii.backslash || b == Ascii.dollar || b == Ascii.backquote
      || (quoted && b == Ascii.quote)
    (backquoted quoted rest).map fun (text, n) =>
      (if escaped then b :: text else Ascii.backslash :: b :: text, n + 2)
  | b :: rest => (backquoted quoted rest).map fun (text, n) => (b :: text, n + 1)

/-- The pieces between quotes, which are a part of their word even if they have no bytes. Only the
arguments alone may be no part of it. -/
def asQuoted (w : Word) : Word :=
  match w with
  | [.parameter name .value true] => if name = "@" then w else .literal [] :: w
  | _ => .literal [] :: w

/-- Refuses a token, and says which one could have stood in its place if there is only one. -/
def unexpected {α : Type} (t : Token) (wanted? : Option Token) : Reader α :=
  let hint : Bytes := match wanted? with
    | some wanted => " (expecting " ++ wanted.shown ++ ")"
    | none => []
  fault (t.shown ++ " unexpected" ++ hint)

/-- Reads another text, which begins in some line, and goes on behind the current one. -/
def within {α : Type} (s : Bytes) (line : Nat) (read : Reader α) : Reader α := do
  let outer ← get
  set { outer with rest := s, line := line, owed := 0, pushed? := none, opened := [] }
  let a ← read
  set outer
  return a

/-- Blanks, comments and joined lines in front of a token: how many bytes they take. -/
def blankLength : Bytes → Nat
  | Ascii.backslash :: Ascii.newline :: rest => blankLength rest + 2
  | Ascii.hash :: rest => (rest.takeWhile (· != Ascii.newline)).length + 1
  | b :: rest => if isBlank b then blankLength rest + 1 else 0
  | [] => 0

def operators : List Bytes :=
  ["&&", "||", ";;", "&", "|", ";", "(", ")", "\n"]

def redirectOperators : List Bytes :=
  ["<<-", "<<", "<&", "<>", "<", ">>", ">&", ">|", ">"]

/-- The longest of some texts at the front. -/
def leading? (texts : List Bytes) (s : Bytes) : Option Bytes := texts.find? fun t => s.startsWith t

variable (commands : Reader Command)

/-- Reads the commands whose output is taken, up to the parenthesis that closes them. -/
def parenthesized (token : Reader Token) : Reader Command := do
  let body ← commands
  let t ← token
  if t.is ")" then return body else unexpected t (some (.operator ")"))

mutual

/-- The pieces from here to the end of the place, which is taken too unless it is a bare word. -/
def pieces : Nat → Place → Reader Word
  | 0, _ => fault "Too deeply nested"
  | fuel + 1, place => do
    let s := (← get).rest
    match s, place.closing? s with
    | [], _ =>
      match place.unclosed? with
      | some text => fault text
      | none => return []
    | _, some n =>
      drop n
      return []
    | b :: rest, none =>
      let here ← piece fuel place b rest
      return here ++ (← pieces fuel (place.after b))

/-- The piece that begins with the byte `b`, `rest` being what follows it. -/
def piece : Nat → Place → UInt8 → Bytes → Reader Word
  | 0, _, _, _ => fault "Too deeply nested"
  | fuel + 1, place, b, rest => do
    match b with
    | Ascii.backslash =>
      match rest with
      | [] =>
        drop 1
        return [.literal [b]]
      | c :: _ =>
        if c = Ascii.newline then
          drop 2
          return []
        else if !place.isQuoted || place.escapes c then
          drop 2
          return [.literal [c]]
        else
          drop 1
          return [.literal [b]]
    | Ascii.apostrophe =>
      if place.isQuoted then
        drop 1
        return [.literal [b]]
      else
        match Bytes.cut Ascii.apostrophe rest with
        | (text, some _) =>
          drop (text.length + 2)
          return [.literal text]
        | _ =>
          drop (rest.length + 1)
          fault "Unterminated quoted string"
    | Ascii.quote =>
      drop 1
      match place with
      | .here | .sum _ => return [.literal [b]]
      | _ =>
        return asQuoted (← pieces fuel .quotes)
    | Ascii.dollar =>
      drop 1
      match ← expansion fuel place.isQuoted with
      | some p => return [p]
      | none => return [place.text [b]]
    | Ascii.backquote =>
      match backquoted place.isQuoted rest with
      | some (text, n) =>
        drop (n + 1)
        return [.output (← within text 1 commands) place.isQuoted]
      | none =>
        drop (rest.length + 1)
        fault "EOF in backquote substitution"
    | _ =>
      let run := rest.takeWhile fun c => !isSpecial c
      let text := if isSpecial b then [b] else b :: run
      drop text.length
      return [place.text text]

/-- What a dollar sign introduces, if it introduces something. -/
def expansion : Nat → Bool → Reader (Option Piece)
  | 0, _ => fault "Too deeply nested"
  | fuel + 1, quoted => do
    let s := (← get).rest
    match s with
    | Ascii.openParen :: Ascii.openParen :: _ =>
      drop 2
      return some (.arithmetic (← pieces fuel (.sum 0)) quoted)
    | Ascii.openParen :: _ =>
      drop 1
      return some (.output (← parenthesized commands (token fuel)) quoted)
    | Ascii.openBrace :: _ =>
      drop 1
      return some (← braced fuel quoted)
    | _ =>
      let name := bareName s
      drop name.length
      return if name.isEmpty then none else some (.parameter name .value quoted)

/-- A parameter in braces. -/
def braced : Nat → Bool → Reader Piece
  | 0, _ => fault "Too deeply nested"
  | fuel + 1, quoted => do
    let s := (← get).rest
    let counted := bracedName s.tail
    if s.startsWith "#" && !counted.isEmpty && (s.drop (counted.length + 1)).head? == some Ascii.closeBrace
    then
      drop (counted.length + 2)
      return .parameter counted .length quoted
    else
      let name := bracedName s
      drop name.length
      return .parameter name (← use fuel name quoted) quoted

/-- What follows the name of a parameter in braces. -/
def use : Nat → Bytes → Bool → Reader Use
  | 0, _, _ => fault "Too deeply nested"
  | fuel + 1, name, quoted => do
    let s := (← get).rest
    let forEmpty := s.startsWith ":"
    let sign := if forEmpty then s.tail else s
    match name, sign.head?.bind fallbackOf?, s with
    | _ :: _, _, Ascii.closeBrace :: _ =>
      drop 1
      return .value
    | _ :: _, some kind, _ =>
      drop (if forEmpty then 2 else 1)
      return .fallback kind forEmpty (← pieces fuel (.braces quoted))
    | _ :: _, none, b :: c :: _ =>
      if b = Ascii.percent ∨ b = Ascii.hash then
        drop (if c = b then 2 else 1)
        return .trimmed (b == Ascii.percent) (c == b) (← pieces fuel (.braces false))
      else malformed fuel (if forEmpty then 2 else 1) quoted
    | [], _, Ascii.closeBrace :: _ => malformed fuel 0 quoted
    | _, _, _ => malformed fuel 1 quoted

/-- A parameter whose name or use is not one, with some bytes in front that mean nothing. -/
def malformed : Nat → Nat → Bool → Reader Use
  | 0, _, _ => fault "Too deeply nested"
  | fuel + 1, meaningless, quoted => do
    drop meaningless
    let _ ← pieces fuel (.braces quoted)
    return .malformed

/-- The next token, which may have been put back. -/
def token : Nat → Reader Token
  | 0 => fault "Too deeply nested"
  | fuel + 1 => do
    let source ← get
    match source.pushed? with
    | some t =>
      set { source with pushed? := none }
      return t
    | none =>
      drop (blankLength source.rest)
      modify Source.closeAliases
      let s := (← get).rest
      match leading? redirectOperators s, leading? operators s with
      | some op, _ =>
        drop op.length
        return .redirect none op
      | none, some op =>
        drop op.length
        return .operator op
      | none, none =>
        if s.isEmpty then return .endOfFile
        let word ← pieces fuel .bare
        match word, leading? redirectOperators (← get).rest with
        | [.plain [digit]], some op =>
          if Ascii.isDigit digit then
            drop op.length
            return .redirect (some (digit.toNat - 0x30)) op
          else return .word word
        | _, _ => return .word word

end

end Reader

end WaylandZig.Shell
