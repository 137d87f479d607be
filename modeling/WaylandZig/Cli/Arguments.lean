import WaylandZig.Cli.Flag
import WaylandZig.Config.Options
import WaylandZig.Text.Lowercase

/-! # Command line arguments

Arguments are read from left to right. Flags may stand anywhere up to a double dash. The first
argument that is no flag names the command, or is the first argument of the standard command. Flags
in front of it are those of the standard command, and are lost on any other.
-/
namespace WaylandZig.Cli

/-- An argument that is still to be read: as it was given, behind a double dash, or what follows the
letter of a short flag. -/
inductive Argument where
  | given (s : Bytes)
  | positional (s : Bytes)
  | cluster (s : Bytes)
  deriving DecidableEq, Repr

inductive UsageFault where
  | unknownFlag (given : Bytes) (similar : List Bytes)
  | unexpectedArgument (given : Bytes)
  | noValue (flag : Flag) (kind : Bytes) (next? : Option Bytes)
  | noList (flag : Flag)
  | notBoolean (flag : Flag) (given : Bytes)
  | configFile (error : FileError)
  | configDirectory (path : Bytes)
  | logLevel (given : Bytes)
  deriving DecidableEq, Repr

/-- The levels that can be asked for. -/
def logLevels : List Bytes := ["debug", "info", "warn", "error"]

def isLongFlag (s : Bytes) : Bool := s.startsWith "--"

/-- A single dash is an argument like any other. -/
def isFlag (s : Bytes) : Bool := s.startsWith "-" && s != "-"

namespace UsageFault

/-- What stands where a value was expected. -/
def next : Option Bytes → Bytes
  | none => Quoted.quote "EOL" ++ " (<EOL>)"
  | some s => Quoted.quote s ++ (if isLongFlag s then " (long flag)" else " (short flag)" : Bytes)

/-- A flag where a value was expected may have been meant as the value. -/
def remedy (flag : Flag) : Option Bytes → Bytes
  | none => []
  | some s => "; perhaps try " ++ flag.name ++ "=" ++ Quoted.quote s ++ "?"

def text : UsageFault → Bytes
  | .unknownFlag given similar => "unknown flag " ++ given ++ proposal similar
  | .unexpectedArgument given => "unexpected argument " ++ given
  | .noValue flag kind next? =>
    flag.name ++ ": expected " ++ kind ++ " value but got " ++ next next? ++ remedy flag next?
  | .noList flag => flag.name ++ ": missing value, expecting \"<arg>,...\""
  | .notBoolean flag given =>
    flag.name ++ ": bool value must be true, 1, yes, false, 0 or no but got " ++ Quoted.quote given
  | .configFile error => Flag.config.name ++ ": " ++ error.text
  | .configDirectory path =>
    Flag.config.name ++ ": " ++ Quoted.quote path ++ " exists but is a directory"
  | .logLevel given =>
    Flag.logLevel.name ++ " must be one of " ++ Bytes.joinWith "," (logLevels.map Quoted.quote)
      ++ " but got " ++ Quoted.quote given

end UsageFault

/-- What has been read so far. `filled` counts the places of the command that have been filled. -/
structure Reading where
  command? : Option Command := none
  help : Bool := false
  common : CommonOptions := {}
  compile : CompileOptions := {}
  out : Bytes := []
  roots : List Bytes := []
  filled : Nat := 0
  deriving DecidableEq, Repr

/-- A fault, and the command that had been chosen when it was found. -/
structure Refusal where
  fault : UsageFault
  command? : Option Command
  deriving DecidableEq, Repr

namespace Argument

def text : Argument → Bytes
  | .given s => s
  | .positional s => s
  | .cluster s => s

def isValue : Argument → Bool
  | .given s => !isFlag s
  | _ => true

end Argument

/-- The absolute path of an argument; a single dash stays, and a tilde in front of a slash is the
home of the user. -/
def expandPath (t : FileTree) (p : Bytes) : Bytes :=
  if p = "-" || Path.isAbsolute p then p
  else if p.startsWith "~/" then Path.join t.home.path (p.drop 2)
  else t.absolute p

/-- The items of a list with commas between them. A backslash takes a comma for the item, and an empty
last item is none. -/
def splitItems (escaped : Bool) (item : Bytes) : Bytes → List Bytes
  | [] => if item.isEmpty then [] else [item]
  | b :: rest =>
    if escaped then
      splitItems false (item ++ if b = Ascii.comma then [b] else [Ascii.backslash, b]) rest
    else if b = Ascii.backslash ∧ rest ≠ [] then splitItems true item rest
    else if b = Ascii.comma then item :: splitItems false [] rest
    else splitItems false (item ++ [b]) rest

/-- The value of a flag: what is attached to it, else the next argument. -/
def takeValue (flag : Flag) (kind : Bytes) (attached? : Option Bytes) (rest : List Argument) :
    Except UsageFault (Bytes × List Argument) :=
  match attached?, rest with
  | some v, rest => .ok (v, rest)
  | none, [] => .error (.noValue flag kind none)
  | none, a :: rest => if a.isValue then .ok (a.text, rest) else .error (.noValue flag kind a.text)

/-- The items of a list flag. In an argument of its own no item may look like a flag. -/
def takeItems (flag : Flag) (attached? : Option Bytes) (rest : List Argument) :
    Except UsageFault (List Bytes × List Argument) :=
  match attached?, rest with
  | some v, rest => .ok (splitItems false [] v, rest)
  | none, [] => .error (.noList flag)
  | none, a :: rest =>
    let items := splitItems false [] a.text
    match items.find? fun item => isFlag item with
    | some item => .error (.noValue flag "string" (some item))
    | none => .ok (items, rest)

def takeBoolean (flag : Flag) : Option Bytes → Except UsageFault Bool
  | none => .ok true
  | some v =>
    let v := Lowercase.lower v
    if v = "true" ∨ v = "1" ∨ v = "yes" then .ok true
    else if v = "false" ∨ v = "0" ∨ v = "no" then .ok false
    else .error (.notBoolean flag v)

/-- The path of a configuration file that is there; a single dash is not looked up. -/
def checkConfig (t : FileTree) (p : Bytes) : Except UsageFault Bytes :=
  if p = "-" then .ok p
  else
    let path := expandPath t p
    match t.stat path with
    | .error e => .error (.configFile e)
    | .ok n => if n.isDirectory then .error (.configDirectory path) else .ok path

namespace Reading

def flags (r : Reading) : List Flag := (r.command?.getD Command.standard).flags

/-- Chooses the command. What was read for the standard command stays with it. -/
def select (r : Reading) (c : Command) : Reading :=
  { r with command? := some c, compile := if c = Command.standard then r.compile else {} }

/-- Reads the value of a flag. Of several configuration files the first counts, and the others are
not looked at. -/
def takeFlag (t : FileTree) (r : Reading) (flag : Flag) (attached? : Option Bytes)
    (rest : List Argument) : Except UsageFault (Reading × List Argument) :=
  match flag with
  | .help => do
    let _ ← takeBoolean flag attached?
    return ({ r with help := true }, rest)
  | .config => do
    let (v, rest) ← takeValue flag "file" attached? rest
    if !r.common.file.isEmpty then return (r, rest)
    let path ← checkConfig t v
    return ({ r with common := { r.common with file := path } }, rest)
  | .logLevel => do
    let (v, rest) ← takeValue flag "string" attached? rest
    return ({ r with common := { r.common with logLevel := v } }, rest)
  | .noFormat => do
    let on ← takeBoolean flag attached?
    return ({ r with compile := { r.compile with noFormat := on } }, rest)
  | .formatter => do
    let (v, rest) ← takeValue flag "string" attached? rest
    return ({ r with compile := { r.compile with formatter := v } }, rest)
  | .onMismatch => do
    let (v, rest) ← takeValue flag "string" attached? rest
    return ({ r with compile := { r.compile with onMismatch := v } }, rest)
  | .skipInterface => do
    let (items, rest) ← takeItems flag attached? rest
    let all := r.compile.skipInterfaces ++ items
    return ({ r with compile := { r.compile with skipInterfaces := all } }, rest)
  | .eventsOnlyIndex => do
    let on ← takeBoolean flag attached?
    return ({ r with compile := { r.compile with eventsOnlyIndex := on } }, rest)

/-- Reads the flag of a spelling. -/
def takeSpelling (t : FileTree) (r : Reading) (spelling : Bytes) (attached? : Option Bytes)
    (rest : List Argument) : Except UsageFault (Reading × List Argument) :=
  match r.flags.find? fun f => f.spellings.contains spelling with
  | some flag => r.takeFlag t flag attached? rest
  | none => .error (.unknownFlag spelling (similar spelling r.flags))

/-- Reads an argument that is no flag: the name of the command, or what fills its next place. -/
def takePositional (t : FileTree) (r : Reading) (s : Bytes) (rest : List Argument) :
    Except UsageFault (Reading × List Argument) :=
  match r.command? with
  | none =>
    match Command.ofName? s with
    | some c => .ok (r.select c, rest)
    | none => .ok (r.select Command.standard, .positional s :: rest)
  | some c =>
    match c.places[r.filled]? with
    | some .out => .ok ({ r with out := expandPath t s, filled := r.filled + 1 }, rest)
    | some .roots =>
      let more := rest.takeWhile Argument.isValue
      let roots := (s :: more.map Argument.text).map (expandPath t)
      .ok ({ r with roots := roots, filled := r.filled + 1 }, rest.drop more.length)
    | none => .error (.unexpectedArgument s)

/-- What is left of a group of short flags behind its first letter. -/
def clusterOf (s : Bytes) : List Argument := if s.isEmpty then [] else [.cluster s]

/-- Reads one argument with what belongs to it. -/
def take (t : FileTree) (r : Reading) (a : Argument) (rest : List Argument) :
    Except UsageFault (Reading × List Argument) :=
  match a with
  | .positional s => r.takePositional t s rest
  | .cluster s => r.takeSpelling t ("-" ++ s.take 1) none (clusterOf (s.drop 1) ++ rest)
  | .given s =>
    if s = "--" then .ok (r, rest.map fun a => .positional a.text)
    else if isLongFlag s then
      let (name, attached?) := Bytes.cut Ascii.equals s
      r.takeSpelling t name attached? rest
    else if isFlag s then r.takeSpelling t (s.take 2) none (clusterOf (s.drop 2) ++ rest)
    else r.takePositional t s rest

/-- Without the name of a command the standard one runs, unless help was asked for. -/
def finished (r : Reading) : Reading :=
  if r.command?.isNone && !r.help then r.select Command.standard else r

def readFrom (t : FileTree) : Nat → Reading → List Argument → Except Refusal Reading
  | 0, r, _ => .ok r.finished
  | _, r, [] => .ok r.finished
  | rounds + 1, r, a :: rest =>
    match r.take t a rest with
    | .error fault => .error ⟨fault, r.command?⟩
    | .ok (r, rest) => readFrom t rounds r rest

/-- An argument takes a round for each of its bytes at most, and two more for the choice of the
command. -/
def rounds (args : List Bytes) : Nat := (args.map fun a => a.length + 2).foldr (· + ·) 0 + 1

/-- The level is looked at last, and not when help was asked for. -/
def checkLevel (r : Reading) : Except Refusal Reading :=
  if r.help || logLevels.contains r.common.logLevel then .ok r
  else .error ⟨.logLevel r.common.logLevel, r.command?⟩

def ofArguments (t : FileTree) (args : List Bytes) : Except Refusal Reading := do
  let r ← readFrom t (rounds args) {} (args.map Argument.given)
  checkLevel r

end Reading

end WaylandZig.Cli
