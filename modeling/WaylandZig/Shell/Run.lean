import WaylandZig.Shell.Process

/-! # Host shell: running scripts

What each command does to the state of a shell. Commands hold commands, so each kind of command is
given the way to run those inside it, and only the last definition ties the two together.
-/
namespace WaylandZig.Shell

section

variable (run : Command → State → State)

/-- Runs the commands that are kept for the signals that have come. -/
def runPending (s : State) : State :=
  s.pending.foldl (fun (s : State) n =>
    match s.traps.lookup n with
    | some text =>
      let after := runText run text s
      if after.jump?.isSome then after else { after with status := s.status }
    | none => s) { s with pending := [] }

/-- Gives a variable back what it was. -/
def restoreVariable (s : State) (saved : Bytes × Option Variable) : State :=
  match saved.2 with
  | some v => s.putVariable saved.1 v
  | none => s.removeVariable saved.1

/-- Runs the body of a function with arguments, which end with it as its own variables do. -/
def callFunction (body : Command) (args : List Bytes) (s : State) : State :=
  let inner := run body { s with
    arguments := args, replaced := [], replacedOptions? := none, scan := {}, loops := 0, inFunction := true }
  { inner.replaced.foldl restoreVariable inner with
    arguments := s.arguments
    scan := s.scan
    options := inner.replacedOptions?.getD inner.options
    replaced := s.replaced
    replacedOptions? := s.replacedOptions?
    loops := s.loops
    inFunction := s.inFunction
    jump? := if inner.jump? = some .leave then none else inner.jump? }

/-- Runs a file in the shell itself. -/
def runFile : Builtin := Builtin.withOptions [] [] fun _ args s =>
  match args with
  | [] => Builtin.done s 0
  | path :: _ =>
    if !path.contains Ascii.slash then s.abort (path ++ ": not found")
    else match s.files.readFile path with
      | .error e => s.abort ("cannot open " ++ path ++ ": " ++ openingReason "No such file" e.errno)
      | .ok text =>
        let inner := runTextIn run path text { s with status := 0 }
        { inner with jump? := if inner.jump? = some .leave then none else inner.jump? }

/-- Runs a program in place of the shell, which then is at its end. -/
def replaceShell : Builtin := fun args s =>
  match args with
  | [] => Builtin.done s 0
  | name :: args =>
    let after := runExternal run name args s
    if after.jump?.isSome then after else after.jump .exit

/-- The builtin with a name: one that runs commands of its own, or one of the table. -/
def builtin? (name : Bytes) : Option Builtin :=
  if name = "eval" then
    some fun args s => runTextIn run name (Bytes.joinWith " " args) { s with status := 0 }
  else if name = "." then some (runFile run)
  else if name = "exec" then some (replaceShell run)
  else Builtin.table.lookup name

/-- Runs a builtin, which complaints then name. A fault that may be ignored only fails. -/
def runBuiltin (mayFail : Bool) (name : Bytes) (b : Builtin) (args : List Bytes) (s : State) : State :=
  let after := b args { s with context := name, lost := false }
  let after := if after.lost then after.complain (name ++ ": I/O error") (after.status ||| 1) else after
  let after := { after with context := s.context, lost := s.lost }
  if mayFail && after.jump? == some .fault then { after with jump? := none } else after

/-- Runs a builtin or a program. -/
def runWithoutFunctions (mayFail : Bool) (name : Bytes) (args : List Bytes) (s : State) : State :=
  match builtin? run name with
  | some b => runBuiltin mayFail name b args s
  | none => runExternal run name args s

/-- The command behind the word that asks for no function, unless something is asked about it, and
whether it is looked for in the usual directories. -/
def behindCommand? : List Bytes → Bool → Option (Bool × Bytes × List Bytes)
  | [], _ => none
  | w :: rest, usual =>
    match w with
    | Ascii.dash :: b :: letters =>
      if w = "--" then
        match rest with
        | [] => none
        | name :: args => some (usual, name, args)
      else if (b :: letters).all (· == 0x70) then behindCommand? rest true
      else none
    | _ => some (usual, w, rest)

/-- Runs what a name stands for. -/
def runNamed (name : Bytes) (args : List Bytes) (s : State) : State :=
  if Reader.specialBuiltins.contains name then runWithoutFunctions run false name args s
  else match s.functions.lookup name with
    | some body => callFunction run body args s
    | none =>
      match name == "command", behindCommand? args false with
      | true, some (usual, inner, args) =>
        if usual && (builtin? run inner).isNone then
          let path? := s.binding? "PATH"
          let after := runExternal run inner args (s.putVariable "PATH" { value? := some defaultPath })
          match path? with
          | some v => after.putVariable "PATH" v
          | none => after.removeVariable "PATH"
        else runWithoutFunctions run true inner args s
      | _, _ => runWithoutFunctions run true name args s

/-- What stands in front of a command that is shown, in which parameters are expanded. -/
def traceMark (s : State) : Bytes :=
  let text := (s.parameter? "PS4").getD []
  if !text.contains Ascii.dollar then text
  else match Reader.hereWord text with
    | .ok w => (expandText run w (s.setOption false 0x78)).1
    | .error _ => text

/-- Shows a command before it is run, if that is asked for. -/
def traced (names : List Bytes) (fields : List Bytes) (s : State) : State :=
  if !s.hasOption 0x78 then s
  else
    let given := names.map fun x => x ++ "=" ++ (s.parameter? x).getD []
    s.emit 2 (traceMark run s ++ Bytes.joinWith " " (given ++ fields) ++ "\n")

def assignAll : List (Bytes × Word) → State → State
  | [], s => s
  | (name, w) :: rest, s =>
    let (value, s) := expandText run (withHomes s true w) s
    if s.jump?.isSome then s else assignAll rest (s.assign name value)

/-- Runs with variables that only this run has. -/
def withVariables (assigned : List (Bytes × Word)) (action : State → State) (s : State) : State :=
  let saved := assigned.map fun a => (a.1, s.binding? a.1)
  let given := assignAll run assigned s
  if given.jump?.isSome then given
  else
    let exported := assigned.foldl (fun (s : State) a =>
      match s.binding? a.1 with
      | some v => s.putVariable a.1 { v with exported := true }
      | none => s) given
    saved.foldl restoreVariable (action exported)

/-- Takes the place of the shell. Redirections without a command stay. -/
def exec (args : List Bytes) (redirects : List Redirect) (s : State) : State :=
  match redirectAll run redirects s with
  | .error failed => (failed.restoreChannels s).jump .exit
  | .ok opened =>
    { replaceShell run args { opened with context := "exec" } with context := s.context }

/-- Runs a command without words, which only assigns. -/
def assignOnly (assigned : List (Bytes × Word)) (redirects : List Redirect) (s : State) : State :=
  match redirectAll run redirects s with
  | .error failed => failed.restoreChannels s
  | .ok opened =>
    let after := (assignAll run assigned opened).restoreChannels s
    if after.jump?.isSome then after
    else
      let shown := if assigned.isEmpty then after else traced run (assigned.map Prod.fst) [] after
      { shown with status := shown.substituted }

/-- Ends the script after a failure if that is asked for and the failure is not tested. -/
def checked (s : State) : State :=
  if s.status ≠ 0 && s.hasOption 0x65 && !s.tested && s.jump?.isNone then s.jump .exit else s

/-- Runs a simple command. What is wrong with the redirections of a special builtin ends the script, and
what such a builtin is given to assign stays assigned. -/
def simple (line : Nat) (assigned : List (Bytes × Word)) (words : List Word)
    (redirects : List Redirect) (s : State) : State :=
  let (fields, s) := expandWords run words { s with line := line, substituted := 0 }
  if s.jump?.isSome then s
  else match fields with
    | [] => assignOnly run assigned redirects s
    | name :: args =>
      let action := fun (s : State) =>
        runNamed run name args (if assigned.isEmpty then s else traced run (assigned.map Prod.fst) fields s)
      let s := if assigned.isEmpty then traced run [] fields s else s
      if name = "exec" then exec run args redirects s
      else if Reader.specialBuiltins.contains name then
        match redirectAll run redirects s with
        | .error failed => (failed.restoreChannels s).jump .exit
        | .ok opened =>
          let given := assignAll run assigned opened
          (if given.jump?.isSome then given else action given).restoreChannels s
      else redirected run redirects (withVariables run assigned action) s

/-- Runs a command whose failure decides something. -/
def testing (c : Command) (s : State) : State :=
  { run c { s with tested := true } with tested := s.tested }

/-- Runs a command in a copy of the shell. -/
def inSubshell (c : Command) (s : State) : State :=
  absorbProcess s (finish run (run c s.copied))

/-- Runs the stages of a pipeline, each on the output of the one before. All find the status that the
pipeline found. -/
def stages : List Command → State → State
  | [], s => s
  | [c], s => inSubshell run c s
  | c :: rest, s =>
    let (text, after) := captured run c s
    stages rest (({ after with status := s.status } : State).openInput 0 (.text text))

/-- What a jump out of a round does to a loop, and whether the loop goes on. -/
def settle (s : State) : State × Bool :=
  match s.jump? with
  | none => (s, true)
  | some (.stop n) => ({ s with jump? := if n ≤ 1 then none else some (.stop (n - 1)) }, false)
  | some (.resume n) =>
    if n ≤ 1 then ({ s with jump? := none }, true)
    else ({ s with jump? := some (.resume (n - 1)) }, false)
  | some _ => (s, false)

/-- Runs a body as long as its condition holds, `last` being the status of the last round. -/
def loopFrom (whileTrue : Bool) (condition body : Command) : Nat → Nat → State → State
  | 0, _, s => s
  | rounds + 1, last, s =>
    match settle (testing run condition s) with
    | (s, false) => s
    | (s, true) =>
      if (s.status == 0) != whileTrue then { s with status := last }
      else match settle (run body s) with
        | (s, false) => s
        | (s, true) => loopFrom whileTrue condition body rounds s.status s

/-- Runs a body for each of some words. -/
def eachFrom (name : Bytes) (body : Command) : List Bytes → State → State
  | [], s => s
  | w :: rest, s =>
    match settle (run body (s.assign name w)) with
    | (s, false) => s
    | (s, true) => eachFrom name body rest s

def matchesAny (text : Bytes) : List Word → State → Bool × State
  | [], s => (false, s)
  | w :: rest, s =>
    let (p, s) := expandPattern run w s
    if p.matchesText text then (true, s) else matchesAny text rest s

/-- Runs commands that may be none, which is a success. -/
def runOrNothing (c : Command) (s : State) : State :=
  match c with
  | .sequence [] => Builtin.done s 0
  | c => run c s

/-- Runs the first arm that matches. -/
def chooseFrom (text : Bytes) : List Arm → State → State
  | [], s => Builtin.done s 0
  | .mk patterns body :: rest, s =>
    match matchesAny run text patterns s with
    | (true, s) => runOrNothing run body s
    | (false, s) => if s.jump?.isSome then s else chooseFrom text rest s

/-- No loop of a script is followed for more rounds. -/
def maxRounds : Nat := 1000000

/-- Runs inside of one more loop. -/
def inLoop (action : State → State) (s : State) : State :=
  { action { s with loops := s.loops + 1 } with loops := s.loops }

/-- What a command does. -/
def step (c : Command) (s : State) : State :=
  if s.jump?.isSome || s.hasOption 0x6E then s
  else match c with
    | .simple line assigned words redirects =>
      runPending run (checked (simple run line assigned words redirects s))
    | .redirected line c redirects =>
      checked (redirected run redirects (run c) { s with line := line })
    | .pipeline cs => checked ((stages run cs s).restoreChannels s)
    | .negated c =>
      let after := testing run c s
      if after.jump?.isSome then after else { after with status := if after.status = 0 then 1 else 0 }
    | .both a b =>
      let after := testing run a s
      if after.jump?.isNone && after.status == 0 then run b after else after
    | .either a b =>
      let after := testing run a s
      if after.jump?.isNone && after.status != 0 then run b after else after
    | .sequence cs => cs.foldl (fun s c => run c s) s
    | .background c =>
      let after := (inSubshell run c (s.withChannel 0 .nowhere)).restoreChannels s
      let process := processNumber + s.jobs.length + 1
      { after with status := 0, jobs := (process, after.status) :: s.jobs }
    | .subshell c => checked (inSubshell run c s)
    | .branch condition yes no =>
      let after := testing run condition s
      if after.jump?.isSome then after
      else if after.status = 0 then run yes after
      else runOrNothing run no after
    | .loop whileTrue condition body => inLoop (loopFrom run whileTrue condition body maxRounds 0) s
    | .each line name words? body =>
      let (items, s) := match words? with
        | some words => expandWords run words { s with line := line }
        | none => (s.arguments, s)
      if s.jump?.isSome then s
      else if items.isEmpty then Builtin.done s 0
      else inLoop (eachFrom run name body items) s
    | .choose line word arms =>
      let (text, s) := expandText run word { s with line := line }
      if s.jump?.isSome then s else chooseFrom run text arms s
    | .define name body =>
      { Builtin.done s 0 with
        functions := (name, body) :: s.functions.filter fun f => f.1 ≠ name }

end

/-- Runs a command in which others are nested to a certain depth. -/
def runCommand : Nat → Command → State → State
  | 0, _, s => s.abort "Maximum function recursion depth reached"
  | depth + 1, c, s => step (runCommand depth) c s

/-- No script nests its commands deeper. -/
def maxDepth : Nat := 4000

def runAny : Command → State → State := runCommand maxDepth

end WaylandZig.Shell
