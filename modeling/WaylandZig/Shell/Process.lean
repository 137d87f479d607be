import WaylandZig.Shell.Invocation
import WaylandZig.Shell.Redirection

/-! # Host shell: processes of a script

How texts, scripts and programs are run: the lines of a text one after the other, a script in a shell of
its own, and a program that is found by its name. The way to run a command is a parameter here.
-/
namespace WaylandZig.Shell

variable (run : Command → State → State)

/-- Runs the lines of a text one after the other. A fault in a line ends the script. -/
def runLines : Nat → Source → State → State
  | 0, _, s => s
  | rounds + 1, source, s =>
    if s.jump?.isSome then s
    else match Reader.line { source with aliases := s.aliases } with
      | .error f => ({ s with line := f.line } : State).abort ("Syntax error: " ++ f.text)
      | .ok (none, _) => s
      | .ok (some c, source) => runLines rounds source (run c s)

def runText (text : Bytes) (s : State) : State := runLines run (text.length + 2) { rest := text } s

/-- Runs a text on behalf of a command, which complaints then name. -/
def runTextIn (context text : Bytes) (s : State) : State :=
  { runText run text { s with context := context } with context := s.context }

/-- Ends a script with the commands that were kept for its end. -/
def finish (s : State) : State :=
  match s.jump?, s.traps.lookup 0 with
  | some (.killed _), _ => s
  | _, none => s
  | _, some text =>
    let after := runText run text { s with jump? := none, traps := [] }
    if after.isEnding then after else { after with status := s.status }

/-- The variables of a new shell: those that it is given and those that every script begins with, of
which some are always the same. -/
def startingVariables (given : List (Bytes × Variable)) : List (Bytes × Variable) :=
  let always : List Bytes := ["IFS", "OPTIND", "PPID"]
  let kept := given.filter fun v => !always.contains v.1
  kept ++ initialVariables.filter fun v => (kept.lookup v.1).isNone

/-- Runs a script in a shell of its own, on the streams that its state has. -/
def runScript (i : Invocation) (script : Bytes) (s : State) : State :=
  let start : State :=
    { files := s.files, inputs := s.inputs, outputs := s.outputs, channels := s.channels, mask := s.mask
      traps := s.traps.filter fun t => t.2.isEmpty, bindings := startingVariables s.bindings
      name := i.name, arguments := i.arguments, options := i.switches.letters }
  let start := i.switches.listings.foldl (fun (s : State) l => s.emit 1 (Listing.optionTable l s)) start
  finish run (runText run script start)

/-- Starts a shell with arguments. What cannot be started is told in line zero. -/
def startShell (name : Bytes) (args : List Bytes) (s : State) : State :=
  let refuse := fun (text : Bytes) =>
    ({ s with name := name, context := [], line := 0 } : State).abort text
  match Invocation.ofArguments name args with
  | .error text => refuse text
  | .ok i =>
    match i.source with
    | .text script => runScript run i script s
    | .input => runScript run i (s.readable 0) (s.setReadable 0 [])
    | .file path =>
      match s.files.readFile path with
      | .ok script => runScript run i script s
      | .error e => refuse ("cannot open " ++ path ++ ": " ++ openingReason "No such file" e.errno)

/-- What a shell keeps of one that it started as a process of its own. -/
def absorbProcess (s inner : State) : State :=
  match inner.jump? with
  | some (.killed signal) =>
    let after := s.absorb { inner with jump? := none, status := 128 + signal }
    let text := Signal.endText signal
    if text.isEmpty then after else after.emit 2 (text ++ [Ascii.newline])
  | _ => s.absorb inner

/-- The state that a new process starts with: only what is exported goes with it. -/
def forProcess (s : State) : State :=
  { s with bindings := s.bindings.filter fun v => v.2.exported, replaced := [] }

/-- The program that the first line of a script names, and the one argument that it may give it. -/
def interpreterOf? (text : Bytes) : Option (Bytes × Option Bytes) :=
  if !text.startsWith "#!" then none
  else
    let isBlank := fun (b : UInt8) => b == Ascii.space || b == Ascii.tab
    let line := ((Bytes.cut Ascii.newline (text.drop 2)).1).dropWhile isBlank
    let path := line.takeWhile fun b => !isBlank b
    let rest := (((line.drop path.length).dropWhile isBlank).reverse.dropWhile isBlank).reverse
    some (path, if rest.isEmpty then none else some rest)

/-- The settings of variables in front of a command. -/
def isSetting (arg : Bytes) : Bool := arg.contains Ascii.equals

mutual

/-- Runs an executable file. Scripts may name the program that they are for, to a certain depth. -/
def execute : Nat → Tools.Executable → Bytes → List Bytes → State → State
  | 0, _, name, _, s => s.complain (name ++ ": Too many levels of symbolic links") 126
  | depth + 1, e, name, args, s =>
    match e with
    | .tool p => s.runProgram p name args
    | .interpreter => absorbProcess s (startShell run name args (forProcess s))
    | .environment => absorbProcess s (environmentFrom depth name args (forProcess s))
    | .script text =>
      match interpreterOf? text with
      | none => absorbProcess s (runScript run ⟨{}, .text text, name, args⟩ text (forProcess s))
      | some (path, option?) =>
        match Tools.atPath s.files path with
        | .ok e => execute depth e path (option?.toList ++ name :: args) s
        | .error .denied => s.complain (name ++ ": Permission denied") 126
        | .error (.missing _) => s.complain (name ++ ": not found") 127

/-- Runs a command with some of the variables that it is given changed, or shows these variables. -/
def environmentFrom : Nat → Bytes → List Bytes → State → State
  | 0, _, _, s => s
  | depth + 1, name, args, s =>
    let table : Program.OptionTable :=
      { flags := "i0", valued := "u", long := [("ignore-environment", 0x69), ("unset", 0x75)]
        anywhere := false }
    match table.read args with
    | .error text => s.runProgram (fun c => Program.refuse c text 125) name []
    | .ok (opts, operands) =>
      let removed := (opts.filter fun o => o.1 == 0x75).map Prod.snd
      let cleared := operands.head? == some [Ascii.dash] || opts.any fun o => o.1 == 0x69
      let kept := if cleared then [] else s.bindings.filter fun v => !removed.contains v.1
      let operands := if operands.head? = some [Ascii.dash] then operands.tail else operands
      let put := fun (s : State) (arg : Bytes) =>
        let (x, value?) := Bytes.cut Ascii.equals arg
        s.putVariable x { value? := value?, exported := true }
      let given := (operands.takeWhile isSetting).foldl put { s with bindings := kept }
      match operands.dropWhile isSetting with
      | [] =>
        let line := fun (v : Bytes × Variable) => v.1 ++ "=" ++ v.2.value?.getD [] ++ "\n"
        { given.emit 1 ((given.bindings.filter fun v => v.2.value?.isSome).reverse.flatMap line) with
          status := 0 }
      | command :: args =>
        let found := if command.contains Ascii.slash then
            (Tools.atPath given.files command).map (command, ·)
          else Tools.search given.files ((given.parameter? "PATH").getD defaultPath) command
        let refuse := fun (reason : Bytes) (status : Nat) =>
          given.runProgram (fun c =>
            Program.complaint c (Quoting.text command ++ ": " ++ reason) c.ignored status) name []
        match found with
        | .ok (_, e) => execute depth e command args given
        | .error .denied => refuse "Permission denied" 126
        | .error (.missing _) => refuse "No such file or directory" 127

end

/-- No program is run on behalf of more others. -/
def maxPrograms : Nat := 64

def runEnvironment (name : Bytes) (args : List Bytes) (s : State) : State :=
  environmentFrom run maxPrograms name args s

/-- Runs what is no part of the language: a tool, a shell or a script. -/
def runExternal (name : Bytes) (args : List Bytes) (s : State) : State :=
  let named := !name.contains Ascii.slash
  let found : Except Tools.PathFault (Bytes × Tools.Executable) :=
    if named then if name.isEmpty then .error .denied else Builtin.lookUp s name
    else (Tools.atPath s.files name).map (name, ·)
  match found with
  | .ok (path, e) =>
    let s := if named then Builtin.remember s name else s
    execute run maxPrograms e (match e with
      | .script _ => path
      | _ => name) args s
  | .error .denied =>
    s.complain (name ++ ": Permission denied") (if named then 127 else 126)
  | .error (.missing e) =>
    match e with
    | .notFound => s.complain (name ++ ": not found") 127
    | .notDirectory => s.complain (name ++ ": not found") 127
    | e => s.complain (name ++ ": " ++ Program.reason e) 126

end WaylandZig.Shell
