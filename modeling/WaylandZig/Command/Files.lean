import WaylandZig.Command.Lines
import WaylandZig.Command.Mode

/-! # Host tools: files

The tools that list, make, copy, move and remove files and directories.
-/
namespace WaylandZig.Files

open Program (Options reason complaint)
open Lines (has)

def pwd : Program := fun c => c.ignored.print (c.files.currentPath ++ "\n")

/-- The names in a directory that are listed: those with a dot in front only if that is asked for. -/
def listed (opts : Options) (t : FileTree) (l : Location) : List Bytes :=
  let names := t.namesIn l
  if has opts 0x61 then [(".": Bytes), ".."] ++ names
  else if has opts 0x41 then names
  else names.filter fun n => !Bytes.startsWith n "."

/-- Lists files first and then the content of directories. -/
def ls : Program := Program.withOptions { flags := "1aACdFx" } 2 fun opts c =>
  let names := Bytes.sort (if c.arguments.isEmpty then ["."] else c.arguments)
  let failed := names.foldl (fun (r : ProgramResult) name =>
    match c.files.find name with
    | .ok _ => r
    | .error e => complaint c ("cannot access " ++ Quoting.word name ++ ": " ++ reason e) r 2) c.ignored
  let plain := names.filter fun (name : Bytes) =>
    match c.files.find name with
    | .ok (_, .file _ _) => true
    | .ok (_, .directory) => has opts 0x64
    | .error _ => false
  let directories := names.filterMap fun name =>
    match c.files.find name with
    | .ok (l, .directory) => if has opts 0x64 then none else some (name, l)
    | _ => none
  let blocks := directories.map fun (name, l) =>
    (if names.length > 1 then name ++ ":\n" else []) ++ Program.unlines (listed opts c.files l)
  let all := (if plain.isEmpty then [] else [Program.unlines plain]) ++ blocks
  failed.print (Bytes.joinWith [Ascii.newline] all)

/-- Carries out a step for each operand. -/
def forEach (step : FileTree → Bytes → Except Bytes FileTree) : Program := fun c =>
  if c.arguments.isEmpty then Program.refuse c "missing operand" 1
  else c.arguments.foldl (fun (r : ProgramResult) name =>
    match step r.files name with
    | .ok t => { r with files := t }
    | .error text => complaint c text r 1) c.ignored

def makeDirectory (parents : Bool) (t : FileTree) (name : Bytes) : Except Bytes FileTree :=
  let failed := fun (e : Errno) => .error ("cannot create directory " ++ Quoting.text name ++ ": " ++ reason e)
  if parents then
    match t.makeDirectories [] (Location.ofPath (t.absolute name)) with
    | (.ok (), t) => .ok t
    | (.error e, _) => failed e.errno
  else match t.locate (name.dropTail "/") with
    | .error e => failed e
    | .ok l => if (t.node? l).isSome then failed .exists_ else .ok (t.put l .directory)

def mkdir : Program := Program.withOptions { flags := "pv" } 1 fun opts =>
  forEach (makeDirectory (has opts 0x70))

/-- A tree without a location and everything below it. -/
def without (t : FileTree) (l : Location) : FileTree :=
  { t with nodes := t.nodes.filter fun (k, _) => !l.isPrefixOf k }

def remove (opts : Options) (t : FileTree) (name : Bytes) : Except Bytes FileTree :=
  let failed := fun (e : Errno) => .error ("cannot remove " ++ Quoting.word name ++ ": " ++ reason e)
  match t.find name with
  | .error .notFound => if has opts 0x66 then .ok t else failed .notFound
  | .error e => failed e
  | .ok (l, .directory) =>
    if has opts 0x72 || has opts 0x52 then .ok (without t l) else failed .isDirectory
  | .ok (l, .file _ _) => .ok (t.erase l)

def rm : Program := Program.withOptions { flags := "rRfv" } 1 fun opts c =>
  if c.arguments.isEmpty && has opts 0x66 then c.ignored else forEach (remove opts) c

def removeDirectory (t : FileTree) (name : Bytes) : Except Bytes FileTree :=
  let failed := fun (text : Bytes) => .error ("failed to remove " ++ Quoting.word name ++ ": " ++ text)
  match t.find name with
  | .error e => failed (reason e)
  | .ok (_, .file _ _) => failed (reason .notDirectory)
  | .ok (l, .directory) => if (t.namesIn l).isEmpty then .ok (t.erase l) else failed "Directory not empty"

def rmdir : Program := forEach removeDirectory

def touchFile (mode : Nat) (t : FileTree) (name : Bytes) : Except Bytes FileTree :=
  match t.locate name with
  | .error e => .error ("cannot touch " ++ Quoting.word name ++ ": " ++ reason e)
  | .ok l => .ok (if (t.node? l).isSome then t else t.put l (.file mode []))

def touch : Program := fun c => forEach (touchFile c.fileMode) c

/-- Where a file goes that is copied or moved to a path: into a directory, under its own name. -/
def destination (t : FileTree) (source target : Bytes) : Except Errno Location :=
  match t.find target with
  | .ok (l, .directory) => .ok (l ++ [Path.base source])
  | _ => t.locate target

/-- A tree in which everything at and below a location stands somewhere else. -/
def relocated (t : FileTree) (source target : Location) : FileTree :=
  { t with nodes := t.nodes.map fun (k, n) =>
      (if source.isPrefixOf k then target ++ k.drop source.length else k, n) }

/-- Copies one file onto another or to a free place. What is replaced keeps its mode, and a new file
lacks the permissions in the mask, unless the mode is to be the same. What cannot be written is only
replaced by force. -/
def copyFile (c : Call) (opts : Options) (name target : Bytes) (l : Location) (node : FileNode)
    (r : ProgramResult) : ProgramResult :=
  let denied := reason .permissionDenied
  match node with
  | .directory => r
  | .file mode content =>
    let put := fun (m : Nat) =>
      { r with files := r.files.put l (.file (if has opts 0x70 then mode else m) content) }
    if !node.mayRead then
      complaint c ("cannot open " ++ Quoting.word name ++ " for reading: " ++ denied) r 1
    else match r.files.node? l with
      | some (.file old written) =>
        if (FileNode.file old written).mayWrite then put old
        else if has opts 0x66 then put (mode &&& (0o777 - c.mask))
        else complaint c ("cannot create regular file " ++ Quoting.word target ++ ": " ++ denied) r 1
      | _ => put (mode &&& (0o777 - c.mask))

/-- Copies or moves one file. -/
def transferOne (c : Call) (keep : Bool) (opts : Options) (target : Bytes) (r : ProgramResult)
    (name : Bytes) : ProgramResult :=
  match r.files.find name, destination r.files name target with
  | .error e, _ => complaint c ("cannot stat " ++ Quoting.word name ++ ": " ++ reason e) r 1
  | .ok (source, .directory), .ok l =>
    if keep then complaint c ("-r not specified; omitting directory " ++ Quoting.word name) r 1
    else { r with files := relocated r.files source l }
  | .ok (source, node), .ok l =>
    if source = l then
      complaint c (Quoting.word name ++ " and " ++ Quoting.word target ++ " are the same file") r 1
    else if keep then copyFile c opts name target l node r
    else { r with files := (r.files.put l node).erase source }
  | .ok _, .error e =>
    let act : Bytes := if keep then "cannot create regular file " ++ Quoting.word target
      else "cannot move " ++ Quoting.word name ++ " to " ++ Quoting.word target
    complaint c (act ++ ": " ++ reason e) r 1

/-- Copies or moves files to the last of the operands. -/
def transfer (keep : Bool) (opts : Options) : Program := fun c =>
  match c.arguments.reverse with
  | [] => Program.refuse c "missing file operand" 1
  | [only] => Program.refuse c ("missing destination file operand after " ++ Quoting.word only) 1
  | target :: sources => sources.reverse.foldl (transferOne c keep opts target) c.ignored

def cp : Program := Program.withOptions { flags := "fpv" } 1 (transfer true)

def mv : Program := Program.withOptions { flags := "fnv" } 1 (transfer false)

/-- The option in front of a mode such as `-x` is no option but the mode. -/
def chmod : Program := fun c =>
  match c.arguments with
  | [] => Program.refuse c "missing operand" 1
  | [spec] => Program.refuse c ("missing operand after " ++ Quoting.text spec) 1
  | spec :: names =>
    if (Mode.result? c.mask spec 0).isNone then
      Program.refuse c ("invalid mode: " ++ Quoting.text spec) 1
    else names.foldl (fun (r : ProgramResult) name =>
      match r.files.find name with
      | .error e => complaint c ("cannot access " ++ Quoting.word name ++ ": " ++ reason e) r 1
      | .ok (_, .directory) => r
      | .ok (l, .file mode content) =>
        { r with files := r.files.put l (.file ((Mode.result? c.mask spec mode).getD mode) content) })
      c.ignored

/-- A path without the slashes at its end. -/
def withoutFinalSlashes (p : Bytes) : Bytes :=
  let kept := (p.reverse.dropWhile (· == Ascii.slash)).reverse
  if kept.isEmpty then p.take 1 else kept

def basename : Program := fun c =>
  match c.arguments with
  | [] => Program.refuse c "missing operand" 1
  | _ :: _ :: extra :: _ => Program.refuse c ("extra operand " ++ Quoting.text extra) 1
  | name :: rest =>
    let base : Bytes := if name.isEmpty then [] else Path.base name
    let suffix := rest.headD []
    c.ignored.print ((if base = suffix then base else base.dropTail suffix) ++ "\n")

def dirname : Program := fun c =>
  if c.arguments.isEmpty then Program.refuse c "missing operand" 1
  else c.ignored.print (Program.unlines (c.arguments.map fun p => Path.dir (withoutFinalSlashes p)))

end WaylandZig.Files
