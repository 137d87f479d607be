import WaylandZig.Ascii

/-! # Host shell: the command language

The trees that a command script is read into. A word is a list of pieces, because only parts of it
may be quoted, and commands stand inside of words that take their output.

The shell belongs to the host that formatter commands run on, and not to the generator: see
`CommandHost`. All modules under `Shell` serve it alone.
-/
namespace WaylandZig.Shell

/-- What a word behind the name of a parameter is for. -/
inductive Fallback where
  | use
  | assign
  | refuse
  | replace
  deriving DecidableEq, Repr

inductive RedirectKind where
  | read
  | write
  | replace
  | append
  | readWrite
  | duplicate
  | here
  deriving DecidableEq, Repr

mutual

/-- A part of a word. Pattern characters have a meaning in plain text only. -/
inductive Piece where
  | plain (s : Bytes)
  | literal (s : Bytes)
  | parameter (name : Bytes) (use : Use) (quoted : Bool)
  | output (command : Command) (quoted : Bool)
  | arithmetic (expression : List Piece) (quoted : Bool)

/-- What is taken of a parameter. -/
inductive Use where
  | value
  | length
  | fallback (kind : Fallback) (forEmpty : Bool) (word : List Piece)
  | trimmed (atEnd longest : Bool) (pattern : List Piece)
  | malformed

/-- The text of a `here` redirection is its target. -/
inductive Redirect where
  | mk (stream : Nat) (kind : RedirectKind) (target : List Piece)

/-- A command, with the line it begins in where a message may name it. -/
inductive Command where
  | simple (line : Nat) (assignments : List (Bytes × List Piece)) (words : List (List Piece))
      (redirects : List Redirect)
  | redirected (line : Nat) (command : Command) (redirects : List Redirect)
  | pipeline (commands : List Command)
  | negated (command : Command)
  | both (first second : Command)
  | either (first second : Command)
  | sequence (commands : List Command)
  | background (command : Command)
  | subshell (command : Command)
  | branch (condition yes no : Command)
  | loop (whileTrue : Bool) (condition body : Command)
  | each (line : Nat) (name : Bytes) (words? : Option (List (List Piece))) (body : Command)
  | choose (line : Nat) (word : List Piece) (arms : List Arm)
  | define (name : Bytes) (body : Command)

/-- The commands for the words that one of the patterns matches. -/
inductive Arm where
  | mk (patterns : List (List Piece)) (body : Command)

end

abbrev Word := List Piece

/-- The command that does nothing. -/
def Command.nothing : Command := .sequence []

/-- The text of a word that is plain from end to end. -/
def plainText? (w : Word) : Option Bytes :=
  w.foldlM (fun text p =>
    match p with
    | .plain s => some (text ++ s)
    | _ => none) []

/-- The text that a word is written with, for words in which nothing is expanded. -/
def rawText (w : Word) : Bytes :=
  w.flatMap fun
    | .plain s => s
    | .literal s => s
    | _ => []

/-- Names begin with a letter or an underscore and go on with digits as well. -/
def isName : Bytes → Bool
  | [] => false
  | b :: rest => !Ascii.isDigit b && (b :: rest).all Ascii.isWord

end WaylandZig.Shell
