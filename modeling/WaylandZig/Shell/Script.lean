import WaylandZig.Shell.Reader

/-! # Host shell: scripts

Reading of commands from the text of a script, one complete line of commands at a time, so that a
fault is found only once everything in front of its line has been run.
-/
namespace WaylandZig.Shell

/-- The tokens that end a list of commands. -/
def Token.endsList (t : Token) : Bool :=
  match t with
  | .endOfFile => true
  | t =>
    ([(")" : Bytes), ";;", "do", "done", "elif", "else", "esac", "fi", "then", [Ascii.closeBrace]]).any
      t.is

namespace Reader

def keyword (s : Bytes) : Token := .word [.plain s]

/-- The builtins that no function may be named like. -/
def specialBuiltins : List Bytes :=
  [".", ":", "break", "continue", "eval", "exec", "exit", "export", "local", "readonly", "return", "set",
    "shift", "times", "trap", "unset"]

/-- The name and the rest of a word that assigns. -/
def assignment? : Word → Option (Bytes × Word)
  | .plain s :: rest =>
    match Bytes.cut Ascii.equals s with
    | (name, some value) =>
      if isName name then some (name, if value.isEmpty then rest else .plain value :: rest) else none
    | _ => none
  | _ => none

/-- The lines of a here document and those behind it. -/
def hereLines (delimiter : Bytes) (stripped : Bool) : List Bytes → List Bytes × Option (List Bytes)
  | [] => ([], none)
  | line :: rest =>
    let line := if stripped then line.dropWhile (· == Ascii.tab) else line
    if line = delimiter then ([], some rest)
    else
      let (body, after) := hereLines delimiter stripped rest
      (line :: body, after)

/-- Takes a here document out of the lines that follow the current one. -/
def hereText (delimiter : Bytes) (stripped : Bool) : Reader Bytes := do
  let s ← get
  match Bytes.cut Ascii.newline s.rest with
  | (_, none) => return []
  | (current, some following) =>
    match hereLines delimiter stripped (following.splitOn Ascii.newline) with
    | (body, some after) =>
      let rest := current ++ [Ascii.newline] ++ Bytes.joinWith [Ascii.newline] after
      set { s with rest := rest, owed := s.owed + body.length + 1 }
      return body.flatMap (· ++ [Ascii.newline])
    | (body, none) =>
      set { s with rest := current ++ [Ascii.newline], owed := s.owed + (body.length - 1) }
      return Bytes.joinWith [Ascii.newline] body

/-- Whether no part of a word is quoted. -/
def isUnquoted (w : Word) : Bool :=
  w.all fun
    | .literal _ => false
    | _ => true

variable (list : Bool → Reader Command)

/-- The depth that the words of a text cannot exceed. -/
def wordFuel : Reader Nat := do
  return 4 * (← get).bound + 16

def next : Reader Token := do token (list true) (← wordFuel)

/-- The next token that is no newline. -/
def significantFrom : Nat → Reader Token
  | 0 => next list
  | n + 1 => do
    let t ← next list
    if t.is [Ascii.newline] then significantFrom n else return t

def significant : Reader Token := do significantFrom list ((← get).bound)

/-- The token that comes from a word where a command is named: what its aliases stand for. -/
def unaliasedFrom : Nat → Token → Reader Token
  | 0, t => return t
  | n + 1, t => do
    match t with
    | .word w =>
      match (plainText? w).bind (← get).openAlias?, t.isKeyword with
      | some source, false =>
        set source
        unaliasedFrom n (← next list)
      | _, _ => return t
    | t => return t

def unaliased (t : Token) : Reader Token := do
  if (← get).aliases.isEmpty then return t else unaliasedFrom list (← get).bound t

def peekSignificant : Reader Token := do
  let t ← significant list
  pushBack t
  return t

def expect (wanted : Token) : Reader Unit := do
  let t ← significant list
  unless t.is (match wanted with
    | .operator s => s
    | .word w => rawText w
    | _ => []) do unexpected t (some wanted)

/-- The stream and the kind that a redirection operator stands for. -/
def redirectOf (op : Bytes) : Nat × RedirectKind :=
  (List.lookup op
    [("<", (0, .read)), ("<>", (0, .readWrite)), ("<&", (0, .duplicate)), ("<<", (0, .here)),
      ("<<-", (0, .here)), (">", (1, .write)), (">|", (1, .replace)), (">>", (1, .append)),
      (">&", (1, .duplicate))]).getD (1, .write)

/-- Reads what follows a redirection operator. -/
def redirectTo (stream? : Option Nat) (op : Bytes) : Reader Redirect := do
  let (stream, kind) := redirectOf op
  let stream := stream?.getD stream
  match ← next list with
  | .word w =>
    if kind = .here then
      let s ← get
      let text ← hereText (rawText w) (op == "<<-")
      let body ← if isUnquoted w then
          within text (s.line + s.owed + 1) (do pieces (list true) (← wordFuel) .here)
        else pure [Piece.literal text]
      return .mk stream kind body
    else return .mk stream kind w
  | t => unexpected t none

/-- The redirections that follow a command. -/
def redirectsFrom : Nat → Reader (List Redirect)
  | 0 => return []
  | n + 1 => do
    match ← next list with
    | .redirect stream? op =>
      let r ← redirectTo list stream? op
      return r :: (← redirectsFrom n)
    | t =>
      pushBack t
      return []

def redirects : Reader (List Redirect) := do redirectsFrom list ((← get).bound)

/-- A simple command as far as it has been read. -/
structure Draft where
  assignments : List (Bytes × Word) := []
  words : List Word := []
  redirects : List Redirect := []

def Draft.command (d : Draft) (line : Nat) : Command :=
  .simple line d.assignments d.words d.redirects

/-- The name that a parenthesis makes a function of. -/
def Draft.functionName? (d : Draft) : Option Bytes :=
  match d with
  | ⟨[], [w], []⟩ => some (rawText w)
  | _ => none

/-- Reads a simple command or, through `command`, the body of a function. -/
def simpleFrom (command : Reader Command) (line : Nat) : Nat → Draft → Reader Command
  | 0, d => return d.command line
  | n + 1, d => do
    let t ← next list
    match ← if d.words.isEmpty || (← get).follows then unaliased list t else pure t with
    | .word w =>
      match d.words, assignment? w with
      | [], some a => simpleFrom command line n { d with assignments := d.assignments ++ [a] }
      | _, _ => simpleFrom command line n { d with words := d.words ++ [w] }
    | .redirect stream? op =>
      let r ← redirectTo list stream? op
      simpleFrom command line n { d with redirects := d.redirects ++ [r] }
    | t =>
      match t.is "(", d.functionName? with
      | true, some name =>
        let t ← next list
        unless t.is ")" do unexpected t (some (.operator ")"))
        unless isName name && !specialBuiltins.contains name do fault "Bad function name"
        pushBack (← significant list)
        return .define name (← command)
      | _, _ =>
        pushBack t
        return d.command line

/-- Reads what follows the condition and the first commands of a conditional. -/
def branchFrom : Nat → Reader Command
  | 0 => fault "Too deeply nested"
  | n + 1 => do
    let condition ← list false
    expect list (keyword "then")
    let yes ← list false
    let t ← significant list
    if t.is "elif" then return .branch condition yes (← branchFrom n)
    else if t.is "else" then
      let no ← list false
      expect list (keyword "fi")
      return .branch condition yes no
    else if t.is "fi" then return .branch condition yes .nothing
    else unexpected t (some (keyword "fi"))

def loopBody : Reader Command := do
  expect list (keyword "do")
  let body ← list false
  expect list (keyword "done")
  return body

/-- The words that a loop goes through, up to the end of the line. -/
def wordsFrom : Nat → Reader (List Word)
  | 0 => return []
  | n + 1 => do
    match ← next list with
    | .word w => return w :: (← wordsFrom n)
    | t =>
      if t.is ";" || t.is [Ascii.newline] then return [] else unexpected t none

def eachClause (line : Nat) : Reader Command := do
  match ← next list with
  | .word w =>
    let name := rawText w
    unless isName name && isUnquoted w do fault "Bad for loop variable"
    let t ← significant list
    if t.is "in" then
      let words ← wordsFrom list ((← get).bound)
      return .each line name (some words) (← loopBody list)
    else
      unless t.is ";" do pushBack t
      return .each line name none (← loopBody list)
  | _ => fault "Bad for loop variable"

/-- The patterns of an arm behind the first. -/
def patternsFrom : Nat → Reader (List Word)
  | 0 => return []
  | n + 1 => do
    let t ← next list
    if t.is "|" then
      match ← next list with
      | .word w => return w :: (← patternsFrom n)
      | t => unexpected t (some (.operator ")"))
    else if t.is ")" then return []
    else unexpected t (some (.operator ")"))

def armsFrom : Nat → Reader (List Arm)
  | 0 => return []
  | n + 1 => do
    let t ← significant list
    if t.is "esac" then return []
    let t ← if t.is "(" then next list else pure t
    match t with
    | .word w =>
      let patterns ← patternsFrom list ((← get).bound)
      let arm := Arm.mk (w :: patterns) (← list true)
      let t ← significant list
      if t.is "esac" then return [arm]
      else if t.is ";;" then return arm :: (← armsFrom n)
      else unexpected t (some (.operator ";;"))
    | t => unexpected t (some (.operator ")"))

def chooseClause (line : Nat) : Reader Command := do
  match ← next list with
  | .word w =>
    expect list (keyword "in")
    return .choose line w (← armsFrom list ((← get).bound))
  | t => unexpected t (some (.word []))

/-- Reads a compound command behind its first token, if that begins one. -/
def compound? (t : Token) (line : Nat) : Option (Reader Command) :=
  if t.is "if" then some do branchFrom list ((← get).bound)
  else if t.is "while" || t.is "until" then some do
    let condition ← list false
    return .loop (t.is "while") condition (← loopBody list)
  else if t.is "for" then some (eachClause list line)
  else if t.is "case" then some (chooseClause list line)
  else if t.is [Ascii.openBrace] then some do
    let body ← list false
    expect list (keyword [Ascii.closeBrace])
    return body
  else if t.is "(" then some do
    let body ← list false
    expect list (.operator ")")
    return .subshell body
  else none

/-- The copy of the shell that is all a command consists of, without its redirections. -/
def bareCopy? : Command → Option Command
  | .subshell c => some (.subshell c)
  | .redirected _ (.subshell c) _ => some (.subshell c)
  | .sequence [c] => bareCopy? c
  | _ => none

/-- A compound command with the redirections behind it. Those of a group take the place of those of a
copy of the shell that it consists of. -/
def withRedirects (line : Nat) (c : Command) (rs : List Redirect) : Command :=
  if rs.isEmpty then c else .redirected line ((bareCopy? c).getD c) rs

/-- Reads one command. The body of a function is a command again. -/
def commandFrom : Nat → Reader Command
  | 0 => fault "Too deeply nested"
  | n + 1 => do
    let t ← unaliased list (← next list)
    let line := (← get).line
    match compound? list t line, t with
    | some read, _ =>
      let c ← read
      return withRedirects line c (← redirects list)
    | none, .operator _ => unexpected t none
    | none, .endOfFile => unexpected t none
    | none, _ =>
      if t.isKeyword then unexpected t none
      pushBack t
      simpleFrom list (commandFrom n) line ((← get).bound) {}

def command : Reader Command := do commandFrom list ((← get).bound)

/-- Reads the commands of a pipeline behind the first. -/
def stagesFrom : Nat → Reader (List Command)
  | 0 => return []
  | n + 1 => do
    let t ← next list
    if t.is "|" then
      pushBack (← significant list)
      let c ← command list
      return c :: (← stagesFrom n)
    else
      pushBack t
      return []

def pipeline : Reader Command := do
  let t ← next list
  let negated := t.is "!"
  unless negated do pushBack t
  let first ← command list
  let others ← stagesFrom list ((← get).bound)
  let c := if others.isEmpty then first else .pipeline (first :: others)
  return if negated then .negated c else c

/-- Reads the pipelines that connectives join to a command. -/
def joinedFrom : Nat → Command → Reader Command
  | 0, c => return c
  | n + 1, c => do
    let t ← next list
    if t.is "&&" || t.is "||" then
      pushBack (← significant list)
      let d ← pipeline list
      joinedFrom n (if t.is "&&" then .both c d else .either c d)
    else
      pushBack t
      return c

def joined : Reader Command := do
  let first ← pipeline list
  joinedFrom list ((← get).bound) first

def isSeparator (t : Token) : Bool := t.is ";" || t.is "&"

def separated (t : Token) (c : Command) : Command := if t.is "&" then .background c else c

/-- Reads commands up to a token that ends a list, which is left. -/
def listFrom : Nat → Reader (List Command)
  | 0 => return []
  | n + 1 => do
    let c ← joined list
    let t ← next list
    if isSeparator t || t.is [Ascii.newline] then
      let c := separated t c
      if (← peekSignificant list).endsList then return [c] else return c :: (← listFrom n)
    else
      pushBack t
      return [c]

def listStep (allowEmpty : Bool) : Reader Command := do
  let t ← peekSignificant list
  if t matches .endOfFile || (allowEmpty && t.endsList) then return .nothing
  return .sequence (← listFrom list ((← get).bound))

/-- Reads the rest of a line of commands. -/
def lineFrom : Nat → Reader (List Command)
  | 0 => return []
  | n + 1 => do
    let c ← joined list
    let t ← next list
    if isSeparator t then
      let c := separated t c
      match ← unaliased list (← next list) with
      | .endOfFile => return [c]
      | u =>
        if u.is [Ascii.newline] then return [c]
        pushBack u
        return c :: (← lineFrom n)
    else
      match t with
      | .endOfFile => return [c]
      | t => if t.is [Ascii.newline] then return [c] else unexpected t none

/-- Reads a list of commands, which may hold lists to a certain depth. -/
def listOf : Nat → Bool → Source → Except SyntaxFault (Command × Source)
  | 0, _, s => .error ⟨s.line, "Too deeply nested"⟩
  | fuel + 1, allowEmpty, s => listStep (listOf fuel) allowEmpty s

/-- Reads a whole text as the text of a here document. -/
def hereWord (text : Bytes) : Except SyntaxFault Word :=
  let source : Source := { rest := text }
  (pieces (listOf source.bound true) (4 * source.bound) .here source).map Prod.fst

/-- Reads the next line of commands; at the end of the text there is none. -/
def line : Reader (Option Command) := do
  let list := listOf ((← get).bound)
  match ← unaliased list (← next list) with
  | .endOfFile => return none
  | t =>
    if t.is [Ascii.newline] then return some .nothing
    pushBack t
    return some (.sequence (← lineFrom list ((← get).bound)))

end Reader

end WaylandZig.Shell
