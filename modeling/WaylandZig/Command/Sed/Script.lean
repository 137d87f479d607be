import WaylandZig.Text.Regex.Reader

/-! # Host tools: scripts of the stream editor

A script is a list of instructions, each for the lines that its selection names.
-/
namespace WaylandZig.Sed

inductive Address where
  | line (number : Nat)
  /-- Every so many lines from one on. -/
  | every (first step : Nat)
  | last
  | matching (r : Regex)

/-- Where a range of lines ends: at an address behind its first line, or some lines further. -/
inductive Bound where
  | address (a : Address)
  | further (count : Nat)

inductive Selection where
  | all
  | one (a : Address)
  | range (first : Address) (last : Bound)

/-- A part of a replacement: a text, or a group of the match, zero being all of it. -/
inductive Piece where
  | text (s : Bytes)
  | group (index : Nat)
  deriving DecidableEq, Repr

def Piece.index : Piece → Nat
  | .text _ => 0
  | .group n => n

structure Substitution where
  regex : Regex
  replacement : List Piece
  occurrence : Nat := 1
  everywhere : Bool := false
  printed : Bool := false

inductive Action where
  | opening
  | closing
  | label (name : Bytes)
  | jump (name : Bytes)
  | jumpIfReplaced (name : Bytes)
  | append (text : Bytes)
  | insert (text : Bytes)
  | change (text : Bytes)
  | delete
  | deleteFirst
  | print
  | printFirst
  | printNumber
  | next
  | appendNext
  | fromHold
  | appendHold
  | toHold
  | appendToHold
  | exchange
  | quit (printed : Bool) (status : Nat)
  | substitute (s : Substitution)
  | exchangeBytes (table : List (UInt8 × UInt8))

structure Instruction where
  index : Nat
  selection : Selection
  negated : Bool
  action : Action

/-- What is wrong with a script, and how many of its bytes had not been read then. -/
structure Fault where
  left? : Option Nat
  text : Bytes
  deriving DecidableEq, Repr

def failAt {α : Type} (rest text : Bytes) : Except Fault α := .error ⟨some rest.length, text⟩

def skipBlanks (s : Bytes) : Bytes := s.dropWhile ByteClass.isBlank

/-- The text up to a delimiter, which a backslash or the brackets of a set can hide. -/
def delimited? (hidden : Bool) (d : UInt8) : Nat → Bytes → Option (Bytes × Bytes)
  | 0, _ => none
  | _, [] => none
  | fuel + 1, b :: rest =>
    if b = d then some ([], rest)
    else if b = Ascii.backslash then
      match rest with
      | [] => none
      | c :: rest =>
        (delimited? hidden d fuel rest).map fun (text, after) =>
          (if c = d then c :: text else b :: c :: text, after)
    else if hidden && b = Ascii.openBracket then do
      let (_, behind) ← Regex.set? rest
      let (text, after) ← delimited? hidden d fuel behind
      some (b :: rest.take (rest.length - behind.length) ++ text, after)
    else (delimited? hidden d fuel rest).map fun (text, after) => (b :: text, after)

/-- What some letters behind a backslash stand for. -/
def control? (b : UInt8) : Option UInt8 := List.lookup b [(0x6E, 0x0A), (0x74, 0x09)]

/-- An expression with the controls in it read. -/
def withControls : Bytes → Bytes
  | [] => []
  | [b] => [b]
  | b :: c :: rest =>
    if b = Ascii.backslash then
      match control? c with
      | some control => control :: withControls rest
      | none => b :: c :: withControls rest
    else b :: withControls (c :: rest)

/-- The parts of a replacement. -/
def pieces : Bytes → List Piece
  | [] => []
  | [b] => [if b = Ascii.ampersand then .group 0 else .text [b]]
  | b :: c :: rest =>
    if b = Ascii.backslash then
      (if Ascii.isDigit c then .group (c - 0x30).toNat else .text [(control? c).getD c]) :: pieces rest
    else (if b = Ascii.ampersand then .group 0 else .text [b]) :: pieces (c :: rest)

/-- What reading a script keeps: whether expressions are extended, and the last of them. -/
structure Context where
  extended : Bool
  recent? : Option (Regex × Nat) := none

/-- The expression of a text. Without any it is the one before. -/
def Context.regex (c : Context) (text rest : Bytes) (anyCase : Bool) :
    Except Fault ((Regex × Nat) × Context) :=
  if text.isEmpty then
    match c.recent? with
    | some found => .ok (found, c)
    | none => .error ⟨none, "no previous regular expression"⟩
  else match Regex.read c.extended (withControls text) with
    | .error f => failAt rest f.text
    | .ok (r, groups) =>
      let found := (if anyCase then r.anyCase else r, groups)
      .ok (found, { c with recent? := some found })

def number (s : Bytes) : Nat × Bytes :=
  ((Numeral.nat? 10 (s.takeWhile Ascii.isDigit)).getD 0, s.dropWhile Ascii.isDigit)

/-- The address at the front, if there is one. -/
def address? (c : Context) (s : Bytes) : Except Fault ((Option Address × Context) × Bytes) :=
  match s with
  | [] => .ok ((none, c), s)
  | b :: rest =>
    let expression := fun (d : UInt8) (rest : Bytes) =>
      show Except Fault ((Option Address × Context) × Bytes) from
      match delimited? true d (rest.length + 1) rest with
      | none => failAt [] "unterminated address regex"
      | some (text, after) => do
        let anyCase := after.head? == some 0x49
        let after := if anyCase then after.tail else after
        let ((r, _), c) ← c.regex text after anyCase
        return ((some (.matching r), c), after)
    if Ascii.isDigit b then
      let (n, rest) := number s
      match rest with
      | Ascii.tilde :: rest => .ok ((some (.every n (number rest).1), c), (number rest).2)
      | rest => .ok ((some (.line n), c), rest)
    else if b = Ascii.dollar then .ok ((some .last, c), rest)
    else if b = Ascii.slash then expression b rest
    else if b = Ascii.backslash then
      match rest with
      | d :: rest => expression d rest
      | [] => failAt [] "unexpected \x60,'"
    else .ok ((none, c), s)

/-- The selection at the front. -/
def selection (c : Context) (s : Bytes) : Except Fault ((Selection × Context) × Bytes) := do
  match ← address? c s with
  | ((none, c), rest) => return ((.all, c), rest)
  | ((some first, c), rest) =>
    match skipBlanks rest with
    | Ascii.comma :: rest =>
      match skipBlanks rest with
      | Ascii.plus :: rest => return ((.range first (.further (number rest).1), c), (number rest).2)
      | rest =>
        match ← address? c rest with
        | ((some final, c), rest) => return ((.range first (.address final), c), rest)
        | ((none, _), rest) => failAt rest.tail "unexpected \x60,'"
    | _ => return ((.one first, c), rest)

/-- The end of an instruction. What closes a block is left to be read. -/
def ending (s : Bytes) : Except Fault Bytes :=
  match skipBlanks s with
  | [] => .ok []
  | b :: rest =>
    if b = Ascii.newline || b = Ascii.semicolon then .ok rest
    else if b = Ascii.closeBrace || b = Ascii.hash then .ok (b :: rest)
    else failAt rest "extra characters after command"

/-- The flags of a substitution. -/
def flags : Nat → Substitution × Bool → Bytes → Except Fault ((Substitution × Bool) × Bytes)
  | 0, s, rest => .ok (s, rest)
  | _, s, [] => .ok (s, [])
  | fuel + 1, (s, anyCase), b :: rest =>
    if b = 0x67 then
      if s.everywhere then failAt rest "multiple \x60g' options to \x60s' command"
      else flags fuel ({ s with everywhere := true }, anyCase) rest
    else if b = 0x70 then
      if s.printed then failAt rest "multiple \x60p' options to \x60s' command"
      else flags fuel ({ s with printed := true }, anyCase) rest
    else if b = 0x69 || b = 0x49 then flags fuel (s, true) rest
    else if Ascii.isDigit b then
      let (n, rest) := number (b :: rest)
      if n = 0 then failAt rest "number option to \x60s' command may not be zero"
      else flags fuel ({ s with occurrence := n }, anyCase) rest
    else if ByteClass.isBlank b then flags fuel (s, anyCase) rest
    else if b = Ascii.newline || b = Ascii.semicolon || b = Ascii.closeBrace || b = Ascii.hash then
      .ok ((s, anyCase), b :: rest)
    else failAt rest "unknown option to \x60s'"

/-- A substitution behind its letter. -/
def substitution (c : Context) (s : Bytes) : Except Fault ((Action × Context) × Bytes) := do
  let unterminated : Bytes := "unterminated \x60s' command"
  match s with
  | [] => failAt [] unterminated
  | d :: rest =>
    let some (text, rest) := delimited? true d (rest.length + 1) rest | failAt [] unterminated
    let some (replacement, rest) := delimited? false d (rest.length + 1) rest | failAt [] unterminated
    let parts := pieces replacement
    let draft : Substitution := { regex := .empty, replacement := parts }
    let ((draft, anyCase), rest) ← flags (rest.length + 1) (draft, false) rest
    let ((r, groups), c) ← c.regex text rest anyCase
    let largest := (parts.map Piece.index).foldl max 0
    if groups < largest then
      failAt rest ("invalid reference \\" ++ Numeral.decimal largest ++ " on \x60s' command's RHS")
    else return ((.substitute { draft with regex := r }, c), rest)

/-- A text with its controls and hidden bytes read. -/
def plainText (s : Bytes) : Bytes :=
  (pieces s).flatMap fun
    | .text t => t
    | .group 0 => [Ascii.ampersand]
    | .group n => Ascii.backslash :: Numeral.decimal n

/-- The table of bytes behind the letter of an exchange. -/
def exchange (s : Bytes) : Except Fault (Action × Bytes) := do
  let unterminated : Bytes := "unterminated \x60y' command"
  match s with
  | [] => failAt [] unterminated
  | d :: rest =>
    let some (sources, rest) := delimited? false d (rest.length + 1) rest | failAt [] unterminated
    let some (targets, rest) := delimited? false d (rest.length + 1) rest | failAt [] unterminated
    let sources := plainText sources
    let targets := plainText targets
    if sources.length ≠ targets.length then
      failAt rest "strings for \x60y' command are different lengths"
    else return (.exchangeBytes (sources.zip targets), rest)

/-- The lines of a text up to the first end of a line that no backslash hides. -/
def textLines : Bytes → Bytes × Bytes
  | [] => ([], [])
  | [b] => if b = Ascii.newline then ([], []) else ([b], [])
  | b :: c :: rest =>
    if b = Ascii.newline then ([], c :: rest)
    else if b = Ascii.backslash then
      let (text, after) := textLines rest
      (c :: text, after)
    else
      let (text, after) := textLines (c :: rest)
      (b :: text, after)

/-- The text behind a letter that adds lines, with its end. -/
def addedText (s : Bytes) : Except Fault (Bytes × Bytes) :=
  let added := fun (start : Bytes) =>
    let (text, rest) := textLines start
    .ok (text ++ [Ascii.newline], rest)
  match skipBlanks s with
  | [] => failAt [] "expected \\ after \x60a', \x60c' or \x60i'"
  | [Ascii.backslash] => .ok ([], [])
  | Ascii.backslash :: rest =>
    match skipBlanks rest with
    | Ascii.newline :: text => added text
    | _ => added rest
  | text => added text

/-- The name of a place in the script. -/
def labelName (s : Bytes) : Bytes × Bytes :=
  let s := skipBlanks s
  let inName := fun (b : UInt8) => !ByteClass.isSpace b && b != Ascii.semicolon
  (s.takeWhile inName, s.dropWhile inName)

/-- The instructions of one letter. -/
def simple? (b : UInt8) : Option Action :=
  let table : List (Bytes × Action) :=
    [("d", .delete), ("D", .deleteFirst), ("p", .print), ("P", .printFirst), ("=", .printNumber),
      ("n", .next), ("N", .appendNext), ("g", .fromHold), ("G", .appendHold), ("h", .toHold),
      ("H", .appendToHold), ("x", .exchange)]
  table.lookup [b]

/-- The action at the front. -/
def action (c : Context) (chosen : Selection) (s : Bytes) :
    Except Fault ((Action × Context) × Bytes) := do
  match s with
  | [] => failAt [] "missing command"
  | b :: rest =>
    let plainly := fun (found : Action × Bytes) =>
      (ending found.2).map fun rest => ((found.1, c), rest)
    if let some found := simple? b then plainly (found, rest)
    else if b = Ascii.openBrace then return ((.opening, c), rest)
    else if b = 0x73 then
      let (found, rest) ← substitution c rest
      return (found, ← ending rest)
    else if b = 0x79 then plainly (← exchange rest)
    else if b = 0x61 then (addedText rest).map fun (t, rest) => ((.append t, c), rest)
    else if b = 0x69 then (addedText rest).map fun (t, rest) => ((.insert t, c), rest)
    else if b = 0x63 then (addedText rest).map fun (t, rest) => ((.change t, c), rest)
    else if b = 0x62 then plainly (.jump (labelName rest).1, (labelName rest).2)
    else if b = 0x74 then plainly (.jumpIfReplaced (labelName rest).1, (labelName rest).2)
    else if b = 0x71 || b = 0x51 then
      match chosen with
      | .range _ _ => failAt rest "command only uses one address"
      | _ =>
        let (status, rest) := number (skipBlanks rest)
        plainly (.quit (b = 0x71) status, rest)
    else if b = Ascii.colon then
      match chosen, labelName rest with
      | .all, ([], _) => failAt rest "\":\" lacks a label"
      | .all, (name, rest) => return ((.label name, c), rest)
      | _, _ => failAt rest ": doesn't want any addresses"
    else failAt rest ("unknown command: \x60" ++ [b] ++ "'")

/-- Reads instructions, `depth` blocks being open. -/
def instructions : Nat → Context → Nat → Nat → Bytes → Except Fault (List Instruction)
  | 0, _, _, _, _ => .ok []
  | fuel + 1, c, index, depth, s => do
    match s.dropWhile fun b => ByteClass.isSpace b || b == Ascii.semicolon with
    | [] => if depth = 0 then return [] else .error ⟨none, "unmatched \x60\x7b'"⟩
    | Ascii.hash :: rest =>
      instructions fuel c index depth (rest.dropWhile (· != Ascii.newline))
    | Ascii.closeBrace :: rest =>
      if depth = 0 then failAt rest "unexpected \x60\x7d'"
      else
        let rest ← ending rest
        return ⟨index, .all, false, .closing⟩ :: (← instructions fuel c (index + 1) (depth - 1) rest)
    | s =>
      let ((chosen, c), rest) ← selection c s
      let rest := skipBlanks rest
      let negated := rest.head? == some Ascii.exclamation
      let rest := if negated then skipBlanks rest.tail else rest
      if negated && rest.head? == some Ascii.exclamation then failAt rest.tail "multiple \x60!'s"
      else
        let ((found, c), rest) ← action c chosen rest
        let depth := match found with
          | .opening => depth + 1
          | _ => depth
        return ⟨index, chosen, negated, found⟩ :: (← instructions fuel c (index + 1) depth rest)

def read (extended : Bool) (s : Bytes) : Except Fault (List Instruction) :=
  instructions (s.length + 1) { extended := extended } 0 0 s

end WaylandZig.Sed
