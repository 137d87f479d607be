import WaylandZig.Formatter
import WaylandZig.Shell.Run

/-! # Command host

Carries out commands within the library: the tools it has, and scripts that call them. A name that no
tool has is not found, and a path must lead to a file that can be run.

The host stands for programs that would otherwise be installed beside the generator. It is this
module, `Command`, `Shell`, and what only they use of `Text`: `Regex`, `Binary64` and `ByteClass`.
None of it is part of the generator, which knows a command as a `Runner` and nothing more. The theory
of the generator speaks of every runner, and no theorem is about what a tool or a script does.
-/
namespace WaylandZig.CommandHost

def exitText (status : Nat) : Bytes := "exit status " ++ Numeral.decimal status

/-- How a command ended that a signal stopped. -/
def signalText (signal : Nat) : Bytes :=
  let names := [(1, "hangup"), (2, "interrupt"), (3, "quit"), (4, "illegal instruction"),
    (5, "trace/breakpoint trap"), (6, "aborted"), (7, "bus error"), (8, "floating point exception"),
    (9, "killed"), (10, "user defined signal 1"), (11, "segmentation fault"),
    (12, "user defined signal 2"), (13, "broken pipe"), (14, "alarm clock"), (15, "terminated")]
  match names.lookup signal with
  | some name => "signal: " ++ Bytes.ofString name
  | none => "signal: signal " ++ Numeral.decimal signal

def ended (stdout stderr : Bytes) (status : Nat) : CommandOutcome :=
  ⟨stdout, stderr, status, if status = 0 then none else some (exitText status)⟩

def unstarted (name reason : Bytes) : CommandOutcome :=
  { exit := 1, failure? := some ("fork/exec " ++ name ++ ": " ++ reason) }

def notFound (name : Bytes) : CommandOutcome :=
  { exit := 127
    failure? := some ("exec: " ++ Quoted.quote name ++ ": executable file not found in $PATH") }

/-- A name that is empty stands for no command at all. -/
def unnamed : CommandOutcome := { exit := 1, failure? := some "exec: no command" }

/-- The root directory is looked up as a name, and is none that can be run. -/
def rootDirectory : CommandOutcome :=
  { exit := 127, failure? := some ("exec: " ++ Quoted.quote "/" ++ ": is a directory") }

/-- A shell that reads one text and has two outputs. -/
def shellState (t : FileTree) (stdin : Bytes) : Shell.State :=
  { files := t
    inputs := [.text stdin]
    outputs := [[], []]
    channels := [(0, .input 0), (1, .output 0), (2, .output 1)]
    name := "sh"
    bindings := [("HOME", t.home.path), ("PATH", Shell.defaultPath), ("PWD", t.currentPath)].map
      fun (x, v) => (x, { value? := some v, exported := true }) }

def ofShell (s : Shell.State) : CommandOutcome × FileTree :=
  let stdout := s.outputs[0]?.getD []
  let stderr := s.outputs[1]?.getD []
  match s.jump? with
  | some (.killed signal) => (⟨stdout, stderr, -1, some (signalText signal)⟩, s.files)
  | _ => (ended stdout stderr (s.status % 256), s.files)

/-- Runs what a name or a path stands for. -/
def execute (e : Tools.Executable) (name stdin : Bytes) (args : List Bytes) (t : FileTree) :
    CommandOutcome × FileTree :=
  match e with
  | .tool p =>
    let r := p { name := name, files := t, arguments := args, stdin := stdin }
    (ended (r.stream .out) (r.stream .err) r.status, r.files)
  | .interpreter => ofShell (Shell.startShell Shell.runAny name args (shellState t stdin))
  | .environment => ofShell (Shell.runEnvironment Shell.runAny name args (shellState t stdin))
  | .script _ => (unstarted name "exec format error", t)

/-- The directory that a command is run in; none is the current one. -/
def workingDirectory? (directory : Bytes) (t : FileTree) : Except Errno Location :=
  if directory.isEmpty then .ok t.current
  else match t.find directory with
    | .ok (l, .directory) => .ok l
    | .ok (_, .file _ _) => .error .notDirectory
    | .error e => .error e

/-- What a path leads to, unless it cannot be started. -/
def atPath (t : FileTree) (path : Bytes) : Except CommandOutcome Tools.Executable :=
  match Tools.atPath t path with
  | .ok e => .ok e
  | .error (.missing e) => .error (unstarted path e.text)
  | .error .denied => .error (unstarted path "permission denied")

/-- What a command names, unless it cannot be started. A name without a slash must be that of a tool,
and no argument can hold a zero byte. -/
def executable (name : Bytes) (args : List Bytes) (t : FileTree) :
    Except CommandOutcome Tools.Executable :=
  let start := fun (e : Except CommandOutcome Tools.Executable) =>
    if args.any (·.contains 0) then .error (unstarted name Errno.invalidArgument.text) else e
  if name.isEmpty then .error unnamed
  else if name = "/" then .error rootDirectory
  else if name.contains Ascii.slash then start (atPath t name)
  else match Tools.named? name with
    | some e => start (.ok e)
    | none => .error (notFound name)

/-- Runs commands in a directory of a file tree. -/
def run (directory : Bytes) : Runner FileTree := fun stdin name args t =>
  match workingDirectory? directory t with
  | .error e =>
    if name.isEmpty then (unnamed, t)
    else if name = "/" then (rootDirectory, t)
    else if name.contains Ascii.slash || (Tools.named? name).isSome then (unstarted name e.text, t)
    else (notFound name, t)
  | .ok l =>
    match executable name args { t with current := l } with
    | .error outcome => (outcome, t)
    | .ok e =>
      let (outcome, after) := execute e name stdin args { t with current := l }
      (outcome, { after with current := t.current })

end WaylandZig.CommandHost
