import WaylandZig.Shell.Builtin.Control
import WaylandZig.Shell.Builtin.Names
import WaylandZig.Shell.Builtin.Processes
import WaylandZig.Shell.Builtin.Variables

/-! # Host shell: the table of builtins

The builtins that run no commands of their own, by their names.
-/
namespace WaylandZig.Shell.Builtin

def test (name : Bytes) : Builtin := fun args s =>
  let answer := fun (ws : List Bytes) =>
    match Condition.decide s.files ws with
    | .ok b => done s (if b then 0 else 1)
    | .error f => s.complain f.text 2
  if name ≠ "[" then answer args
  else if args.getLast? = some (Bytes.ofString "]") then answer args.dropLast
  else s.complain "missing ]" 2

/-- A tool as a part of the language, which complains as the script does. -/
def ofProgram (p : Program) : Builtin := fun args s =>
  s.deliver (p (s.call (s.name ++ ": " ++ Numeral.decimal s.line ++ ": " ++ s.context) args))

def printWorkingDirectory : Builtin := withOptions "LP" [] fun _ _ => ofProgram Files.pwd []

def printf : Builtin := fun args s =>
  match optionsOf [] [] args with
  | .error text => s.abort text
  | .ok (_, args) => ofProgram Print.printfBuiltin args s

def named : List (String × Builtin) :=
  [(":", succeed), ("true", succeed), ("false", fun _ s => done s 1), ("exit", exit), ("return", leave),
    ("break", loopControl .stop), ("continue", loopControl .resume), ("shift", shift),
    ("set", setOptions), ("unset", unset),
    ("export", declare "export" (fun v => { v with exported := true }) (·.exported)),
    ("readonly", declare "readonly" (fun v => { v with fixed := true }) (·.fixed)),
    ("local", makeLocal), ("read", read), ("getopts", getopts), ("test", test "test"), ("[", test "["),
    ("type", describe false), ("command", command), ("hash", hash), ("alias", defineAliases),
    ("unalias", removeAliases), ("kill", kill), ("trap", trap), ("wait", wait), ("jobs", jobs),
    ("fg", resume), ("bg", resume), ("umask", umask), ("ulimit", ulimit), ("times", times),
    ("cd", changeDirectory), ("pwd", printWorkingDirectory), ("echo", ofProgram Print.echoEscaped),
    ("printf", printf)]

def table : List (Bytes × Builtin) := named.map fun (name, b) => (Bytes.ofString name, b)

end WaylandZig.Shell.Builtin
