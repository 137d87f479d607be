import WaylandZig.Cli.Arguments
import WaylandZig.Generation
import WaylandZig.Version

/-! # The command line program

What the program prints, the status it ends with and the file tree it leaves, as a function of its
arguments and the file tree it finds.
-/
namespace WaylandZig.Cli

structure Output where
  status : Nat := 0
  stdout : Bytes := []
  stderr : Bytes := []
  files : FileTree

def failureLine (reason : Bytes) : Bytes := programName ++ ": error: " ++ reason ++ "\n"

def failed (t : FileTree) (reason : Bytes) : Output :=
  { status := 1, stderr := failureLine reason, files := t }

/-- What is said of arguments that cannot be read. Further lines of a reason are indented to the first,
and newlines at its end are dropped. -/
def refusalText (reason : Bytes) : Bytes :=
  let leader := programName ++ ": error: "
  let kept := (reason.reverse.dropWhile (· == Ascii.newline)).reverse
  leader ++ Bytes.joinWith ("\n" ++ Bytes.spaces leader.length) (kept.splitOn Ascii.newline) ++ "\n"

def warningLine (w : Warning) : Bytes := "warning: " ++ w.text ++ "\n"

/-- Runs a generation. The log and the warnings go to the error output, and what `report` says of the
result to the output. -/
def generate (run : Runner FileTree) (t : FileTree) (r : Reading) (c : Config)
    (report : Generation.Result → Bytes) : Output :=
  let outcome := Generation.run (Generation.formatterOf c none run false) false c t
  let log := (outcome.records.filter fun record => r.common.logs record.level).flatMap LogRecord.line
  match outcome.result with
  | .error fault =>
    { status := 1, stderr := log ++ failureLine fault.text, files := outcome.files }
  | .ok result =>
    { stdout := report result
      stderr := log ++ result.warnings.flatMap warningLine
      files := outcome.files }

def count (n : Nat) : Bytes := Numeral.decimal n

def writtenReport (c : Config) (r : Generation.Result) : Bytes :=
  "wrote " ++ count r.units.length ++ " units for " ++ count r.protocols.length
    ++ " protocols to " ++ c.outDir ++ "\n"

def checkedReport (r : Generation.Result) : Bytes :=
  "✓ " ++ count r.documents.length ++ " documents, " ++ count r.protocols.length
    ++ " protocols, " ++ count r.interfaces ++ " interfaces\n"
    ++ "✓ " ++ count r.units.length ++ " units compiled\n"
    ++ "✓ All enum references resolved\n"

def gen (run : Runner FileTree) (t : FileTree) (r : Reading) (c : Config) : Output :=
  let c := if r.out.isEmpty then c else { c with outDir := t.absolute r.out }
  let c := r.compile.applyTo (c.withRoots r.roots)
  generate run t r c (writtenReport c)

def check (run : Runner FileTree) (t : FileTree) (r : Reading) (c : Config) : Output :=
  let c := { r.compile.applyTo (c.withRoots r.roots) with dryRun := true }
  generate run t r c checkedReport

/-- The width of the column that categories are listed in. -/
def categoryWidth : Nat := 8

def listLine (d : FoundDocument) : Bytes :=
  let name := d.category.name
  name ++ Bytes.spaces (categoryWidth - name.length) ++ " " ++ d.path ++ "\n"

def list (t : FileTree) (r : Reading) (c : Config) : Output :=
  let roots := (c.withRoots r.roots).roots
  if roots.isEmpty then failed t "no protocol roots given"
  else
    match Discovery.find t roots with
    | .error e => failed t ("discover: " ++ e.text)
    | .ok found => { stdout := found.flatMap listLine, files := t }

/-- Runs a command with the configuration it is given. -/
def withConfig (t : FileTree) (r : Reading) (command : Config → Output) : Output :=
  match r.common.config t with
  | .error fault => failed t fault.text
  | .ok c => command c

def execute (run : Runner FileTree) (t : FileTree) (r : Reading) : Command → Output
  | .gen => withConfig t r (gen run t r)
  | .check => withConfig t r (check run t r)
  | .list => withConfig t r (list t r)
  | .version => { stdout := Version.current ++ "\n", files := t }

/-- The whole program. Arguments that cannot be read are answered with the usage of the command. -/
def program (run : Runner FileTree) (t : FileTree) (args : List Bytes) : Output :=
  match Reading.ofArguments t args with
  | .error refusal =>
    { status := 1
      stdout := usage refusal.command?
      stderr := refusalText refusal.fault.text
      files := t }
  | .ok r =>
    if r.help then { stdout := usage r.command?, files := t }
    else execute run t r (r.command?.getD Command.standard)

end WaylandZig.Cli
