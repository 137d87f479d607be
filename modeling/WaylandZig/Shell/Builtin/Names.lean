import WaylandZig.Shell.Builtin.Basic
import WaylandZig.Shell.Script

/-! # Host shell: builtins for names

The builtins that tell what names stand for, and those that make other names for commands.
-/
namespace WaylandZig.Shell.Builtin

/-- The builtins that are no special ones. -/
def regularNames : List Bytes :=
  ["alias", "bg", "cd", "command", "echo", "false", "fg", "getopts", "hash", "jobs", "kill",
    "printf", "pwd", "read", "test", "true", "type", "ulimit", "umask", "unalias", "wait", "["]

def isBuiltin (name : Bytes) : Bool :=
  Reader.specialBuiltins.contains name || regularNames.contains name

/-- Looks for a program in the directories that a script is told to look in. -/
def lookUp (s : State) (name : Bytes) : Except Tools.PathFault (Bytes × Tools.Executable) :=
  match s.parameter? "PATH" with
  | some path => Tools.search s.files path name
  | none => .error (.missing .notFound)

/-- Keeps the name of a program that was looked up. -/
def remember (s : State) (name : Bytes) : State :=
  if s.found.contains name then s else { s with found := s.found ++ [name] }

/-- What a name stands for: how it is described, what is run for it, and whether it is a program that was
looked up. -/
def meaning? (s : State) (name : Bytes) : Option (Bytes × Bytes × Bool) :=
  if keywords.contains name then some (" is a shell keyword", name, false)
  else match s.aliases.lookup name with
    | some value => some (" is an alias for " ++ value, "alias " ++ Listing.pair name (some value), false)
    | none =>
      if s.functions.any fun f => f.1 = name then some (" is a shell function", name, false)
      else if Reader.specialBuiltins.contains name then
        some (" is a special shell builtin", name, false)
      else if isBuiltin name then some (" is a shell builtin", name, false)
      else if name.contains Ascii.slash then
        ((Tools.installed s.files).find name).toOption.map fun _ => (" is " ++ name, name, false)
      else (lookUp s name).toOption.map fun (path, _) =>
        let tracked : Bytes := if s.found.contains name then " is a tracked alias for " else " is "
        (tracked ++ path, path, true)

/-- Tells what a name is. -/
def describeOne (short : Bool) (s : State) (name : Bytes) : State :=
  match meaning? s name with
  | some (text, path, isProgram) =>
    let s := if isProgram then remember s name else s
    s.emit 1 ((if short then path else name ++ text) ++ [Ascii.newline])
  | none => done (if short then s else s.emit 1 (name ++ ": not found\n")) 127

def describe (short : Bool) : Builtin := fun names s => names.foldl (describeOne short) (done s 0)

/-- Tells what one name is, if that is what the options ask for. -/
def command : Builtin := withOptions "pvV" [] fun opts args s =>
  if has opts 0x76 || has opts 0x56 then describe (!has opts 0x56) (args.take 1) s else done s 0

def hashOne (s : State) (name : Bytes) : State :=
  if isBuiltin name || name.contains Ascii.slash || s.functions.any fun f => f.1 = name then s
  else match lookUp s name with
    | .ok _ => remember s name
    | .error _ => s.complain (name ++ ": not found") 1

/-- Looks up programs, or lists those that were looked up. -/
def hash : Builtin := withOptions "r" [] fun opts names s =>
  if !opts.isEmpty then { done s 0 with found := [] }
  else if names.isEmpty then
    let paths := (Listing.byRow 31 id s.found).filterMap fun n => (lookUp s n).toOption.map Prod.fst
    done (s.emit 1 (Program.unlines paths)) 0
  else names.foldl hashOne (done s 0)

/-- Defines an alias, or shows it if no value is given. An equals sign in front belongs to the name. -/
def aliasOne (s : State) (arg : Bytes) : State :=
  let (front, value?) := Bytes.cut Ascii.equals arg.tail
  let name := arg.take 1 ++ front
  match value?, s.aliases.lookup name with
  | some value, none => { s with aliases := s.aliases ++ [(name, value)] }
  | some value, some _ =>
    { s with aliases := s.aliases.map fun a => if a.1 = name then (name, value) else a }
  | none, some value => s.emit 1 (Listing.aliasLine (name, value))
  | none, none => done (s.emit 2 ("alias: " ++ name ++ " not found\n")) 1

def defineAliases : Builtin := fun args s =>
  if args.isEmpty then done (s.emit 1 (Listing.aliases s)) 0 else args.foldl aliasOne (done s 0)

def unaliasOne (s : State) (name : Bytes) : State :=
  if (s.aliases.lookup name).isSome then
    { s with aliases := s.aliases.filter fun a => a.1 ≠ name }
  else done (s.emit 2 ("unalias: " ++ name ++ " not found\n")) 1

def removeAliases : Builtin := withOptions "a" [] fun opts names s =>
  if !opts.isEmpty then { done s 0 with aliases := [] } else names.foldl unaliasOne (done s 0)

end WaylandZig.Shell.Builtin
