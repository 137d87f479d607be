import WaylandZig.Command.Tools
import WaylandZig.Shell.Fields
import WaylandZig.Shell.Grammar
import WaylandZig.Shell.OptionScan
import WaylandZig.Shell.Signal

/-! # Host shell: state

What a script can see and change: the files, what is left of its inputs, what its outputs hold, its
parameters and variables, and where its numbered streams lead.
-/
namespace WaylandZig.Shell

/-- Where a stream leads: to an input that is read up, to an output that grows, to a file that is
written, or to nothing. -/
inductive Channel where
  | input (index : Nat)
  | output (index : Nat)
  | file (l : Location)
  | nowhere
  deriving DecidableEq, Repr

/-- Why the commands that follow are not run. A fault ends a script as an exit does, unless it is found
by a command that may fail. -/
inductive Jump where
  | exit
  | fault
  | leave
  | stop (loops : Nat)
  | resume (loops : Nat)
  | killed (signal : Nat)
  deriving DecidableEq, Repr

/-- What can be read from an input: a text, or a file from some place on. -/
inductive Input where
  | text (rest : Bytes)
  | file (l : Location) (offset : Nat)
  deriving DecidableEq, Repr

/-- A variable may have a nature without having a value. -/
structure Variable where
  value? : Option Bytes := none
  exported : Bool := false
  fixed : Bool := false
  deriving DecidableEq, Repr

/-- `name` is what messages begin with, `context` what commands are run on behalf of, `substituted` the
status of the last command whose output was taken, and `tested` says that a failure is not a reason to
end. `jobs` are the commands that were run in the background with their statuses, newest first, and
`found` the names of the programs that were looked up. A copy of a shell has no number of its own, so
that signals to it are `sent` to the shell it is a copy of. `lost` says that something was written to an
output that is closed. -/
structure State where
  files : FileTree
  inputs : List Input := []
  outputs : List Bytes := []
  channels : List (Nat × Channel) := []
  name : Bytes
  context : Bytes := []
  arguments : List Bytes := []
  bindings : List (Bytes × Variable) := []
  functions : List (Bytes × Command) := []
  replaced : List (Bytes × Option Variable) := []
  replacedOptions? : Option Bytes := none
  options : Bytes := []
  aliases : List (Bytes × Bytes) := []
  traps : List (Nat × Bytes) := []
  jobs : List (Nat × Nat) := []
  found : List Bytes := []
  scan : OptionScan := {}
  mask : Nat := 0o022
  pending : List Nat := []
  sent : List Nat := []
  isCopy : Bool := false
  lost : Bool := false
  status : Nat := 0
  substituted : Nat := 0
  line : Nat := 1
  loops : Nat := 0
  inFunction : Bool := false
  tested : Bool := false
  jump? : Option Jump := none

/-- The number that stands for the process of a script. Those it starts have the numbers behind it. -/
def processNumber : Nat := 4242

/-- Where programs are looked for if a script is not told. -/
def defaultPath : Bytes := "/usr/local/sbin:/usr/local/bin:/usr/sbin:/usr/bin:/sbin:/bin"

/-- The variables that every script begins with. -/
def initialVariables : List (Bytes × Variable) :=
  let given : List (Bytes × Bytes) :=
    [("IFS", " \t\n"), ("OPTIND", "1"), ("PATH", defaultPath), ("PPID", "4241"), ("PS1", "$ "),
      ("PS2", "> "), ("PS4", "+ ")]
  given.map fun (x, v) => (x, { value? := some v })

namespace State

def channel? (s : State) (stream : Nat) : Option Channel := s.channels.lookup stream

def withChannel (s : State) (stream : Nat) (c : Channel) : State :=
  { s with channels := (stream, c) :: s.channels.filter fun x => x.1 ≠ stream }

def withoutChannel (s : State) (stream : Nat) : State :=
  { s with channels := s.channels.filter fun x => x.1 ≠ stream }

/-- Makes a stream lead to a new input. -/
def openInput (s : State) (stream : Nat) (i : Input) : State :=
  ({ s with inputs := s.inputs ++ [i] } : State).withChannel stream (.input s.inputs.length)

def input? (s : State) (stream : Nat) : Option Input :=
  match s.channel? stream with
  | some (.input k) => s.inputs[k]?
  | _ => none

/-- The content of a file, of which a directory has none. -/
def contentAt (s : State) (l : Location) : Bytes :=
  match s.files.node? l with
  | some (.file _ content) => content
  | _ => []

/-- What can be read from a stream. -/
def readable (s : State) (stream : Nat) : Bytes :=
  match s.input? stream with
  | some (.text rest) => rest
  | some (.file l offset) => (s.contentAt l).drop offset
  | none => []

/-- Leaves only `rest` to be read from a stream. -/
def setReadable (s : State) (stream : Nat) (rest : Bytes) : State :=
  match s.channel? stream with
  | some (.input k) =>
    { s with inputs := s.inputs.modify k fun
        | .text _ => .text rest
        | .file l _ => .file l ((s.contentAt l).length - rest.length) }
  | _ => s

/-- Writes to a stream. -/
def emit (s : State) (stream : Nat) (text : Bytes) : State :=
  if text.isEmpty then s
  else match s.channel? stream with
    | some (.output k) => { s with outputs := s.outputs.modify k (· ++ text) }
    | some (.file l) =>
      match s.files.node? l with
      | some (.file mode old) => { s with files := s.files.put l (.file mode (old ++ text)) }
      | _ => s
    | some .nowhere => s
    | _ => { s with lost := s.lost || stream == 1 }

/-- Says what went wrong in the current line, and in which command if that is known. -/
def complainIn (s : State) (command text : Bytes) (status : Nat) : State :=
  let place := s.name ++ ": " ++ Numeral.decimal s.line ++ ": "
  let place := if command.isEmpty then place else place ++ command ++ ": "
  { s.emit 2 (place ++ text ++ "\n") with status := status }

def complain (s : State) (text : Bytes) (status : Nat) : State := s.complainIn s.context text status

def jump (s : State) (j : Jump) : State := { s with jump? := some j }

/-- Says what went wrong and ends the script. -/
def abort (s : State) (text : Bytes) : State := (s.complain text 2).jump .fault

/-- Whether the script is at its end. -/
def isEnding (s : State) : Bool := s.jump? == some .exit || s.jump? == some .fault

def binding? (s : State) (name : Bytes) : Option Variable := s.bindings.lookup name

def putVariable (s : State) (name : Bytes) (v : Variable) : State :=
  { s with bindings := (name, v) :: s.bindings.filter fun x => x.1 ≠ name }

def removeVariable (s : State) (name : Bytes) : State :=
  { s with bindings := s.bindings.filter fun x => x.1 ≠ name }

/-- What else changes with a variable: the reading of options starts anew when the variable that counts
them is assigned, and programs are looked for again when they may stand elsewhere. -/
def noticed (s : State) (name value : Bytes) : State :=
  if name = "PATH" then { s with found := [] }
  else if name = "OPTIND" then
    match Numeral.nat? 10 value with
    | some n => { s with scan := { next := max n 1 } }
    | none => s.abort ("Illegal number: " ++ value)
  else s

/-- Gives a variable a value, unless it is fixed. -/
def assign (s : State) (name value : Bytes) : State :=
  let v := (s.binding? name).getD {}
  if v.fixed then s.abort (name ++ ": is read only")
  else
    let exported := v.exported || s.options.contains 0x61
    (s.putVariable name { v with value? := some value, exported := exported }).noticed name value

/-- The letters of options in the order in which they are shown. -/
def optionOrder : Bytes := "pubaCEVvxsnmiIfe"

/-- The value of a parameter that has one. -/
def parameter? (s : State) (name : Bytes) : Option Bytes :=
  if name = "#" then some (Numeral.decimal s.arguments.length)
  else if name = "?" then some (Numeral.decimal s.status)
  else if name = "$" then some (Numeral.decimal processNumber)
  else if name = "-" then some (optionOrder.filter s.options.contains)
  else if name = "!" then s.jobs.head?.map fun j => Numeral.decimal j.1
  else if name = "0" then some s.name
  else if name = "@" ∨ name = "*" then some (Bytes.joinWith " " s.arguments)
  else match Numeral.nat? 10 name with
    | some n => s.arguments[n - 1]?
    | none => (s.binding? name).bind Variable.value?

/-- The bytes that separate fields. -/
def separators (s : State) : Bytes := ((s.binding? "IFS").bind Variable.value?).getD " \t\n"

def setOption (s : State) (on : Bool) (letter : UInt8) : State :=
  let others := s.options.filter (· != letter)
  { s with options := if on then others ++ [letter] else others }

def hasOption (s : State) (letter : UInt8) : Bool := s.options.contains letter

/-- Ends a process by a signal that nothing can hold up. -/
def crash (s : State) (n : Nat) : State := ({ s with status := 128 + n } : State).jump (.killed n)

/-- What a signal does to a shell: nothing, a trap that is run later, or its end. -/
def receive (s : State) (n : Nat) : State :=
  if s.isCopy then { s with sent := s.sent ++ [n] }
  else match s.traps.lookup n, Signal.untrappable.contains n with
    | some [], false => s
    | some _, false => { s with pending := s.pending ++ [n] }
    | _, _ =>
      if Signal.harmless.contains n then s else s.crash n

/-- A copy of a shell, in which only the signals stay ignored that were so. -/
def copied (s : State) : State :=
  { s with traps := s.traps.filter fun t => t.2.isEmpty, sent := [], isCopy := true }

/-- What a shell keeps of one that ran on its behalf: what it did to files, inputs and outputs, its
status, of which a process has only eight bits, and the signals it sent. -/
def absorb (s inner : State) : State :=
  inner.sent.foldl receive { s with
    files := { inner.files with current := s.files.current }
    inputs := inner.inputs
    outputs := inner.outputs.take s.outputs.length
    status := inner.status % 256 }

def canRead (s : State) (stream : Nat) : Bool :=
  match s.channel? stream with
  | some (.input _) => true
  | some .nowhere => true
  | _ => false

def canWrite (s : State) (stream : Nat) : Bool :=
  match s.channel? stream with
  | some (.output _) => true
  | some (.file _) => true
  | some .nowhere => true
  | _ => false

/-- How a program is called in the state of the shell. -/
def call (s : State) (name : Bytes) (args : List Bytes) : Call :=
  { name := name
    files := s.files
    arguments := args
    stdin := s.readable 0
    source? := match s.input? 0 with
      | some (.file l _) => some l
      | _ => none
    target? := match s.channel? 1 with
      | some (.file l) => some l
      | _ => none
    mask := s.mask
    closedInput := !s.canRead 0
    closedOutput := !s.canWrite 1 }

/-- Takes over what a program leaves. -/
def deliver (s : State) (r : ProgramResult) : State :=
  let s := s.setReadable 0 r.unread
  let s : State := { s with files := { r.files with current := s.files.current } }
  let s := r.written.foldl (fun (s : State) (stream, text) =>
    s.emit (match stream with
      | .out => 1
      | .err => 2) text) s
  { s with status := r.status }

/-- Runs a program on the first three streams. -/
def runProgram (s : State) (p : Program) (name : Bytes) (args : List Bytes) : State :=
  let c := s.call name args
  s.deliver (if c.closedOutput then Program.withoutOutput c (p c) else p c)

end State

end WaylandZig.Shell
