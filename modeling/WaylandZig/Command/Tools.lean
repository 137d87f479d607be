import WaylandZig.Command.Cat
import WaylandZig.Command.Condition
import WaylandZig.Command.Files
import WaylandZig.Command.Grep
import WaylandZig.Command.Print
import WaylandZig.Command.Sed.Run
import WaylandZig.Command.Tr

/-! # Host tools: the table of tools

The programs that commands can name, and where they stand in a file tree.
-/
namespace WaylandZig.Tools

def succeed : Program := Call.ignored

def fail : Program := fun c => { c.ignored with status := 1 }

/-- Decides a condition and tells the answer by its status. In brackets the last word closes it. -/
def test (bracketed : Bool) : Program := fun c =>
  let answer := fun (ws : List Bytes) =>
    match Condition.decide c.files ws with
    | .ok b => { c.ignored with status := if b then 0 else 1 }
    | .error f => Program.complaint c f.text c.ignored 2
  if !bracketed then answer c.arguments
  else if c.arguments.getLast? = some (Bytes.ofString "]") then answer c.arguments.dropLast
  else Program.complaint c "missing ]" c.ignored 2

def all : List (Bytes × Program) :=
  [("cat", Cat.program), ("tr", Tr.program), ("echo", Print.echo), ("printf", Print.printf),
    ("true", succeed), ("false", fail), ("test", test false), ("[", test true), ("sleep", succeed),
    ("pwd", Files.pwd), ("ls", Files.ls), ("mkdir", Files.mkdir), ("rmdir", Files.rmdir),
    ("rm", Files.rm), ("touch", Files.touch), ("cp", Files.cp), ("mv", Files.mv),
    ("chmod", Files.chmod), ("basename", Files.basename), ("dirname", Files.dirname),
    ("wc", Lines.wc), ("head", Lines.head), ("tail", Lines.tail), ("sort", Lines.sort),
    ("uniq", Lines.uniq), ("cut", Lines.cut), ("rev", Lines.rev), ("tac", Lines.tac),
    ("tee", Lines.tee), ("seq", Lines.seq), ("sed", Sed.program), ("grep", Grep.program)]

/-- What the name of a program leads to: a tool, the command language, the tool that runs commands in
another environment, or a script. -/
inductive Executable where
  | tool (program : Program)
  | interpreter
  | environment
  | script (text : Bytes)

/-- The names of the command language as a program. -/
def interpreters : List Bytes := ["sh", "dash"]

def environmentTool : Bytes := "env"

def named? (name : Bytes) : Option Executable :=
  if interpreters.contains name then some .interpreter
  else if name = environmentTool then some .environment
  else (all.lookup name).map .tool

/-- The directories that hold the tools. -/
def directories : List Location := [["bin"], ["usr", "bin"]].map (·.map Bytes.ofString)

/-- A file tree with the tools in it. -/
def installed (t : FileTree) : FileTree :=
  let names := environmentTool :: interpreters ++ all.map Prod.fst
  let parents : List Location := [[Bytes.ofString "usr"]]
  let files := directories.flatMap fun d => names.map fun n => (d ++ [n], FileNode.file 0o755 [])
  { t with nodes := t.nodes ++ (parents ++ directories).map (·, .directory) ++ files }

/-- Why a path cannot be run. -/
inductive PathFault where
  | missing (errno : Errno)
  | denied
  deriving DecidableEq, Repr

/-- What a path leads to. A file can be run if its mode says so, and a script that names no program for
itself must be read as well. -/
def atPath (t : FileTree) (path : Bytes) : Except PathFault Executable :=
  match (installed t).find path with
  | .error e => .error (.missing e)
  | .ok (_, .directory) => .error .denied
  | .ok (l, .file mode content) =>
    if !(FileNode.file mode content).mayRun then .error .denied
    else match directories.contains l.dropLast, l.getLast?.bind named? with
      | true, some found => .ok found
      | _, _ =>
        if mode &&& 0o400 = 0 && !content.startsWith "#!" then .error .denied else .ok (.script content)

/-- Looks for a program in the directories of a list. What stands there but cannot be run is passed
over, and is the reason if nothing else is found. -/
def search (t : FileTree) (directories name : Bytes) : Except PathFault (Bytes × Executable) :=
  (directories.splitOn Ascii.colon).foldl (fun r directory =>
    match r with
    | .ok found => .ok found
    | .error fault =>
      let path := if directory.isEmpty then name else directory ++ "/" ++ name
      match atPath t path with
      | .ok e => .ok (path, e)
      | .error .denied => .error .denied
      | .error (.missing _) => .error fault) (.error (.missing .notFound))

end WaylandZig.Tools
