import WaylandZig.Command.Mode
import WaylandZig.Shell.Builtin.Basic

/-! # Host shell: builtins for processes

The builtins that send and catch signals, wait for commands in the background, and change what the
process of the script works with: its directory and the mask of new files.
-/
namespace WaylandZig.Shell.Builtin

def killUsage : Bytes :=
  "Usage: kill [-s sigspec | -signum | -sigspec] [pid | job]... or\nkill -l [exitstatus]"

/-- Sends a signal to a process, of which there is only the one of the script. -/
def signalOne (n : Nat) (s : State) (target : Bytes) : State :=
  if target.startsWith "%" then s.abort ("No such job: " ++ target)
  else
    let digits := if target.startsWith "-" then target.tail else target
    number digits s fun process =>
      if digits = target && process = processNumber then s.receive n
      else s.complain "No such process\n" 1

def signalAll (n : Nat) (targets : List Bytes) (s : State) : State :=
  if targets.isEmpty then s.abort killUsage else each (signalOne n) targets (done s 0)

/-- Lists the signals, or names the one that a number or a status stands for. -/
def listSignals (args : List Bytes) (s : State) : State :=
  match args with
  | [] => done (s.emit 1 (Program.unlines ("0" :: Signal.names.tail))) 0
  | w :: _ =>
    number w s fun n =>
      let n := if n > 128 then n - 128 else n
      if 0 < n ∧ n < Signal.names.length then done (s.emit 1 (Signal.name n ++ "\n")) 0
      else s.abort ("invalid signal number or exit status: " ++ w)

/-- The signal that a word stands for, which is not the end of the script by its name. -/
def sendable? (w : Bytes) : Option Nat := if Ascii.eqFold w "EXIT" then none else Signal.ofText? w

/-- Sends the signal that options tell, or lists signals. -/
def killWith : Builtin := withOptions "l" "s" fun opts args s =>
  if has opts 0x6C then listSignals args s
  else match (opts.getLast?).map Prod.snd with
    | none => signalAll 15 args s
    | some name =>
      match sendable? name with
      | some n => signalAll n args s
      | none => s.abort ("invalid signal number or name: " ++ name)

def kill : Builtin := fun args s =>
  match args with
  | [] => s.abort killUsage
  | first :: rest =>
    match first.startsWith "-", sendable? first.tail with
    | true, some n => signalAll n rest s
    | _, _ => killWith args s

/-- Keeps commands for a signal or for the end of the script, or drops them. -/
def setTrap (action? : Option Bytes) (s : State) (n : Nat) : State :=
  let others := s.traps.filter fun t => t.1 ≠ n
  { s with traps := match action? with
      | some action => (n, action) :: others
      | none => others }

/-- Sets traps up to a word that names no signal. -/
def setTraps (action? : Option Bytes) : List Bytes → State → State
  | [], s => s
  | w :: rest, s =>
    match Signal.ofText? w with
    | some n => setTraps action? rest (setTrap action? s n)
    | none => done (s.emit 2 ("trap: " ++ w ++ ": bad trap\n")) 1

/-- Sets traps, or lists them. A dash in place of commands drops them, and so does a number. -/
def trap : Builtin := withOptions [] [] fun _ args s =>
  match args with
  | [] => done (s.emit 1 (Listing.traps s)) 0
  | [w] => setTraps none [w] (done s 0)
  | action :: conditions =>
    if (Numeral.nat? 10 action).any (· < Signal.names.length) then setTraps none args (done s 0)
    else setTraps (if action = "-" then none else some action) conditions (done s 0)

/-- The status of a command in the background, which a script knows by its number. -/
def waitOne (s : State) (w : Bytes) : State :=
  if w.startsWith "%" then s.abort ("No such job: " ++ w)
  else number w s fun n => done s ((s.jobs.lookup n).getD 127)

def wait : Builtin := withOptions [] [] fun _ args s => each waitOne args (done s 0)

def jobs : Builtin := withOptions "lp" [] fun _ args s =>
  each (fun s w => s.abort ("No such job: " ++ w)) args (done s 0)

/-- Goes on with a command that was stopped, of which there are none. -/
def resume : Builtin := withOptions [] [] fun _ args s =>
  match args with
  | [] => s.abort "No current job"
  | w :: _ => s.abort ("No such job: " ++ w)

def umask : Builtin := withOptions "S" [] fun opts args s =>
  match args with
  | [] =>
    let shown := if opts.isEmpty then Numeral.padded 8 4 s.mask else Mode.clauses (0o777 - s.mask % 0o1000)
    done (s.emit 1 (shown ++ "\n")) 0
  | w :: _ =>
    if (w.head?.map Ascii.isDigit).getD false then
      match Numeral.nat? 8 w with
      | some n => { done s 0 with mask := n % 0o1000 }
      | none => s.abort ("Illegal number: " ++ w)
    else match Mode.symbolic? 0 w (0o777 - s.mask) with
      | some mode => { done s 0 with mask := 0o777 - mode % 0o1000 }
      | none => s.abort ("Illegal mode: " ++ w)

/-- Tells the limits of the process, of which it has none. -/
def ulimit : Builtin := withOptions "HSatfdscmlpnvwr" [] fun _ args s =>
  match args with
  | [] => done (s.emit 1 "unlimited\n") 0
  | [w] =>
    if w = "unlimited" ∨ (Numeral.nat? 10 w).isSome then done s 0 else s.abort "bad number"
  | _ => s.abort "too many arguments"

/-- Tells how long processes have run, which is no time at all. -/
def times : Builtin := fun _ s =>
  done (s.emit 1 "0m0.000000s 0m0.000000s\n0m0.000000s 0m0.000000s\n") 0

/-- Whether a path says itself where it begins. -/
def isAnchored (path : Bytes) : Bool :=
  path.startsWith "/" || path = "." || path = ".." || path.startsWith "./" || path.startsWith "../"

/-- The directory that a path leads to, and whether it was found away from the current one. -/
def directoryFrom (s : State) (path : Bytes) : List Bytes → Option (Location × Bool)
  | [] =>
    match s.files.find path with
    | .ok (l, .directory) => some (l, false)
    | _ => none
  | base :: rest =>
    match s.files.find (if base.isEmpty then path else base ++ "/" ++ path) with
    | .ok (l, .directory) => some (l, !base.isEmpty)
    | _ => directoryFrom s path rest

def changeDirectory : Builtin := withOptions "LP" [] fun _ args s =>
  let given := args.headD ((s.parameter? "HOME").getD [])
  let back := given = "-"
  let target := if back then (s.parameter? "OLDPWD").getD [] else given
  let path : Bytes := if target.isEmpty then "." else target
  let bases := match s.parameter? "CDPATH" with
    | some paths => if isAnchored path then [] else Bytes.splitOn Ascii.colon paths
    | none => []
  match directoryFrom s path bases with
  | none => s.abort ("can't cd to " ++ target)
  | some (l, elsewhere) =>
    let old := s.files.currentPath
    let export_ := fun (s : State) (x : Bytes) =>
      s.putVariable x { (s.binding? x).getD {} with exported := true }
    let s := { s with files := { s.files with current := l } }
    let s := export_ (s.assign "OLDPWD" old) "OLDPWD"
    let s := export_ (s.assign "PWD" s.files.currentPath) "PWD"
    done (if back || elsewhere then s.emit 1 (s.files.currentPath ++ "\n") else s) 0

end WaylandZig.Shell.Builtin
