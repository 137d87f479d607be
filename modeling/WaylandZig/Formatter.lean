import WaylandZig.Log

/-! # Formatters

A formatter turns the source text of a unit into formatted text, or fails. It has a state that it may
change, since a command may write files. One kind of formatter pipes the text through a command that a
runner carries out, and one is a function of the path and the text alone. What commands there are and
what they do is up to the runner, which is a parameter wherever commands are run.
-/
namespace WaylandZig

/-- How a command ended. `failure?` is why it counts as failed, if it does. -/
structure CommandOutcome where
  stdout : Bytes := []
  stderr : Bytes := []
  exit : Int := 0
  failure? : Option Bytes := none
  deriving DecidableEq, Repr

/-- Runs a program with arguments on an input. -/
abbrev Runner (σ : Type) := Bytes → Bytes → List Bytes → σ → CommandOutcome × σ

structure CommandFault where
  command : List Bytes
  exit : Int
  stderr : Bytes
  cause : Bytes
  deriving DecidableEq, Repr

def CommandFault.detail (stderr : Bytes) : Bytes :=
  if (Space.trim stderr).isEmpty then [] else ": " ++ Space.trim stderr

def CommandFault.text (f : CommandFault) : Bytes :=
  Bytes.joinWith " " f.command ++ " exited with code " ++ Numeral.ofInt f.exit ++ detail f.stderr

inductive FormatFault where
  | command (fault : CommandFault)
  | canceled
  | failed (reason : Bytes)
  deriving DecidableEq, Repr

def FormatFault.text : FormatFault → Bytes
  | .command fault => fault.text
  | .canceled => "context canceled"
  | .failed reason => reason

/-- Formats the source text of the unit with that path. -/
abbrev Formatter (σ : Type) := Bytes → Bytes → σ → Except FormatFault Bytes × σ

namespace Formatter

variable {σ τ : Type}

/-- A function of the path and the text, which changes no state. -/
def ofFunction (f : Bytes → Bytes → Except FormatFault Bytes) : Formatter σ :=
  fun unit source state => (f unit source, state)

def unchanged : Formatter σ := ofFunction fun _ source => .ok source

/-- The same formatter in a state that has a second part. -/
def onFirst (f : Formatter σ) : Formatter (σ × τ) := fun unit source state =>
  ((f unit source state.1).1, ((f unit source state.1).2, state.2))

/-- The command that formats when none is given. -/
def defaultCommand : List Bytes := ["zig", "fmt", "--stdin"]

def commandLine (command : List Bytes) : List Bytes :=
  if command.isEmpty then defaultCommand else command

def ofOutcome (line : List Bytes) (outcome : CommandOutcome) : Except FormatFault Bytes :=
  if outcome.failure?.isSome ∨ outcome.exit ≠ 0 then
    .error (.command
      ⟨line, outcome.exit, outcome.stderr, outcome.failure?.getD "non-zero exit"⟩)
  else .ok outcome.stdout

/-- Pipes the text through a command, which is not run once the work has been called off. -/
def piped (run : Runner σ) (command : List Bytes) (canceled : Bool) : Formatter σ :=
  fun _ source state =>
    let line := commandLine command
    if canceled then (.error .canceled, state)
    else
      let (outcome, state) := run source (line.headD []) line.tail state
      (ofOutcome line outcome, state)

/-- The records of one logged call and its result. -/
def records (unit source : Bytes) (result : Except FormatFault Bytes) : List LogRecord :=
  let size := fun s : Bytes => Numeral.decimal s.length
  let started : LogRecord := ⟨.debug, "format started", [("unit", unit), ("bytes_in", size source)]⟩
  match result with
  | .error fault =>
    [started, ⟨.error, "format failed", [("unit", unit), ("error", fault.text)]⟩]
  | .ok out =>
    [started, ⟨.debug, "format completed",
      [("unit", unit), ("bytes_in", size source), ("bytes_out", size out)]⟩]

end Formatter

end WaylandZig
