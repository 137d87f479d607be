import WaylandZig.Shell.Arithmetic
import WaylandZig.Shell.State

/-! # Host shell: expansion

How the pieces of words become text. Taking the output of a command runs it, so the way to run a
command is a parameter here, and every expansion leaves a new state.
-/
namespace WaylandZig.Shell

/-- The text of a word that is not split. The first separator stands between arguments. -/
def State.join (s : State) (ms : List Mark) : Bytes := Mark.text (s.separators.take 1) ms

variable (run : Command → State → State)

/-- A text without the newlines at its end. -/
def chomp (s : Bytes) : Bytes := (s.reverse.dropWhile (· == Ascii.newline)).reverse

/-- Runs a command in a copy of the shell whose output is kept apart. -/
def captured (c : Command) (s : State) : Bytes × State :=
  let k := s.outputs.length
  let inner := run (.subshell c)
    (({ s.copied with outputs := s.outputs ++ [[]] } : State).withChannel 1 (.output k))
  (inner.outputs[k]?.getD [], s.absorb inner)

/-- What a command writes, as the language takes it. The status of the shell stays what it was. -/
def outputOf (c : Command) (s : State) : Bytes × State :=
  let (text, after) := captured run c s
  (chomp (text.filter (· != 0)), { after with status := s.status, substituted := after.status })

/-- The arguments as marks: one field each or, for a quoted star, one field for all. -/
def argumentMarks (s : State) (name : Bytes) (quoted : Bool) : List Mark :=
  if quoted && name == "*" then
    Mark.ofText true (Bytes.joinWith (s.separators.take 1) s.arguments)
  else
    (s.arguments.map (Mark.ofText quoted)).intersperse [.gap] |>.flatten

def valueMarks (s : State) (name : Bytes) (quoted : Bool) : List Mark :=
  if name = "@" ∨ name = "*" then argumentMarks s name quoted
  else Mark.ofText quoted ((s.parameter? name).getD [])

/-- The marks of a value that is trimmed. The arguments are trimmed as one text. -/
def trimmedMarks (s : State) (name : Bytes) (quoted : Bool) (trim : Bytes → Bytes) : List Mark :=
  if name ≠ "@" ∧ name ≠ "*" then Mark.ofText quoted (trim ((s.parameter? name).getD []))
  else if quoted && name == "*" then
    Mark.ofText true (trim (Bytes.joinWith (s.separators.take 1) s.arguments))
  else
    let fields := Bytes.splitOn 0 (trim (Bytes.joinWith [0] s.arguments))
    (fields.map (Mark.ofText quoted)).intersperse [.gap] |>.flatten

/-- The length of a value; that of the arguments is the length of all of them as one text. -/
def lengthOf (s : State) (name : Bytes) : Nat :=
  if name = "@" ∨ name = "*" then (Bytes.joinWith (s.separators.take 1) s.arguments).length
  else ((s.parameter? name).getD []).length

/-- Whether a fallback applies because a parameter has no value. -/
def isMissing (s : State) (name : Bytes) (forEmpty : Bool) : Bool :=
  match s.parameter? name with
  | none => true
  | some value => forEmpty && value.isEmpty

/-- Whether a parameter has no value although scripts ask that every one has. -/
def lacks (s : State) (name : Bytes) : Bool := s.hasOption 0x75 && isMissing s name false

/-- Says that a parameter has no value. -/
def refuseMissing (s : State) (name : Bytes) (forEmpty : Bool) : State :=
  s.abort (name ++ ": parameter not set" ++ if forEmpty then " or null" else "")

/-- The value of an arithmetic expression, with the variables that it assigns. -/
def calculate (s : State) (text : Bytes) : Bytes × State :=
  let (r, given) := Arithmetic.run (fun x => (s.parameter? x).getD []) text
  let s := given.reverse.foldl (fun (s : State) (x, v) => s.assign x (Numeral.ofInt v)) s
  match r, s.jump? with
  | .ok n, _ => (Numeral.ofInt n, s)
  | .error _, some _ => ([], s)
  | .error .overflow, none => ([], s.crash Signal.arithmetic)
  | .error fault, none => ([], s.abort (fault.text text))

/-- The directory that a tilde with a name behind it stands for. Without a name it is the home that the
script knows of. -/
def homeOf? (s : State) (user : Bytes) : Option Bytes :=
  if user.isEmpty then s.parameter? "HOME"
  else if user = "root" then some "/root"
  else none

/-- The name behind a tilde at the front of a text, if the text goes on with a slash or ends there, and
nothing but the end of the word may follow its own end. -/
def tildeUser? (text : Bytes) (isLast : Bool) : Option Bytes :=
  match text with
  | Ascii.tilde :: rest =>
    let user := rest.takeWhile (· != Ascii.slash)
    if user.length < rest.length || isLast then some user else none
  | _ => none

/-- The marks of a word with the home of a user in place of the tilde at its front. -/
def homeMarks (s : State) (w : Word) (ms : List Mark) : List Mark :=
  match w with
  | .plain text :: rest =>
    match tildeUser? text rest.isEmpty with
    | some user =>
      match homeOf? s user with
      | some home => home.map .quoted ++ ms.drop (user.length + 1)
      | none => ms
    | none => ms
  | _ => ms

/-- The parts of a text between colons with homes in place of the tildes at their fronts. -/
def homesIn (s : State) (isFirst isLast : Bool) (text : Bytes) : Word :=
  let parts := (text.splitOn Ascii.colon).zipIdx
  let one := fun (part : Bytes) (k : Nat) =>
    let lead : Bytes := if k = 0 then [] else [Ascii.colon]
    let mayBegin := k > 0 || isFirst
    let ends := isLast || k + 1 < parts.length
    match if mayBegin then (tildeUser? part ends).bind fun u => (homeOf? s u).map (u, ·) else none with
    | some (user, home) =>
      [Piece.plain lead, .literal home, .plain (part.drop (user.length + 1))]
    | none => [.plain (lead ++ part)]
  parts.flatMap fun (part, k) => one part k

/-- A word that is assigned, in which every part behind a colon may begin with a tilde. -/
def withHomes (s : State) : Bool → Word → Word
  | _, [] => []
  | isFirst, .plain text :: rest =>
    (if text.contains Ascii.tilde then homesIn s isFirst rest.isEmpty text else [.plain text])
      ++ withHomes s false rest
  | _, p :: rest => p :: withHomes s false rest

mutual

/-- The marks of a word. In a word that stands in for a parameter even plain text can be split. -/
def marks (isSplit : Bool) : List Piece → State → List Mark × State
  | [], s => ([], s)
  | p :: rest, s =>
    if s.jump?.isSome then ([], s)
    else
      let (here, s) := pieceMarks isSplit p s
      let (others, s) := marks isSplit rest s
      (here ++ others, s)

def pieceMarks (isSplit : Bool) : Piece → State → List Mark × State
  | .plain text, s => (text.map (if isSplit then .expanded else .plain), s)
  | .literal text, s => (if text.isEmpty then [.empty] else text.map .quoted, s)
  | .output c quoted, s =>
    let (text, s) := outputOf run c s
    (Mark.ofText quoted text, s)
  | .arithmetic expression quoted, s =>
    let (ms, s) := marks false expression s
    let (text, s) := calculate s (s.join ms)
    (Mark.ofText quoted text, s)
  | .parameter name (.fallback kind forEmpty word) quoted, s =>
    match kind, isMissing s name forEmpty with
    | .use, true =>
      let (ms, after) := marks (!quoted) word s
      (if quoted then ms else homeMarks s word ms, after)
    | .assign, true =>
      let (ms, after) := marks false word s
      let (ms, s) := (if quoted then ms else homeMarks s word ms, after)
      (Mark.ofText quoted (s.join ms), s.assign name (s.join ms))
    | .refuse, true =>
      let (ms, after) := marks false word s
      let (ms, s) := (if quoted then ms else homeMarks s word ms, after)
      ([], if s.jump?.isSome then s
        else if word.isEmpty then refuseMissing s name forEmpty
        else s.abort (name ++ ": " ++ s.join ms))
    | .replace, true => (if quoted then [.empty] else [], s)
    | .replace, false =>
      let (ms, after) := marks (!quoted) word s
      (if quoted then ms else homeMarks s word ms, after)
    | _, false => (valueMarks s name quoted, s)
  | .parameter name (.trimmed atEnd longest pattern) quoted, s =>
    if lacks s name then ([], refuseMissing s name false)
    else
      let (ms, s) := marks false pattern s
      let p := Mark.pattern ms
      let trim := fun (s : Bytes) => if atEnd then p.trimEnd longest s else p.trimFront longest s
      (trimmedMarks s name quoted trim, s)
  | .parameter _ .malformed _, s => ([], s.abort "Bad substitution")
  | .parameter name .length quoted, s =>
    if lacks s name then ([], refuseMissing s name false)
    else (Mark.ofText quoted (Numeral.decimal (lengthOf s name)), s)
  | .parameter name .value quoted, s =>
    if lacks s name then ([], refuseMissing s name false) else (valueMarks s name quoted, s)

end

/-- The text of a word that is not split. -/
def expandText (w : Word) (s : State) : Bytes × State :=
  let (ms, after) := marks run false w s
  (after.join (homeMarks s w ms), after)

def expandPattern (w : Word) (s : State) : Pattern × State :=
  let (ms, s) := marks run false w s
  (Mark.pattern ms, s)

/-- The fields of a word, with names of files in place of patterns. -/
def expandWord (w : Word) (s : State) : List Bytes × State :=
  let (ms, after) := marks run false w s
  let (ms, s) := (homeMarks s w ms, after)
  let fields := Mark.fields s.separators ms
  (if s.hasOption 0x66 then fields.map Pattern.bytes else fields.flatMap (Pattern.paths s.files), s)

def expandWords : List Word → State → List Bytes × State
  | [], s => ([], s)
  | w :: rest, s =>
    let (here, s) := expandWord run w s
    let (others, s) := expandWords rest s
    (here ++ others, s)

end WaylandZig.Shell
