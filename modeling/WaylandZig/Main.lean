import WaylandZig.Cli.Run
import WaylandZig.Command.Host

/-! # Main program

Reads the files that a command line speaks of into a file tree, runs the program on that tree, and
writes back what changed. Formatter commands are carried out by the command host.
-/
namespace WaylandZig.Disk

def content (b : ByteArray) : Bytes := b.toList

def packed (s : Bytes) : ByteArray := ⟨s.toArray⟩

/-- Adds what stands at a location, and everything below it. -/
partial def load (t : FileTree) (l : Location) : IO FileTree := do
  let path := (← IO.currentDir) / Utf8.shown l.path
  if ← path.isDir then
    let entries ← path.readDir
    entries.foldlM (fun t e => load t (l ++ [Bytes.ofString e.fileName])) (t.put l .directory)
  else if ← path.pathExists then
    return t.put l (.file DirectorySink.defaultMode (content (← IO.FS.readBinFile path)))
  else
    return t

/-- Adds the directories that lead to a location, as far as they are there. -/
def loadAncestors (t : FileTree) (l : Location) : IO FileTree :=
  (List.range l.length).foldlM (fun t n => do
    let path := (← IO.currentDir) / Utf8.shown (Location.path (l.take n))
    return if ← path.isDir then t.put (l.take n) .directory else t) t

def loadPath (t : FileTree) (p : Bytes) : IO FileTree := do
  let l := Location.ofPath (t.absolute p)
  load (← loadAncestors t l) l

/-- The paths that an argument may name: itself, what follows an equals sign, and what follows the
letter of a short flag. -/
def mentioned (arg : Bytes) : List Bytes :=
  [arg, ((Bytes.cut Ascii.equals arg).2).getD [], arg.drop 2].filter fun p => !p.isEmpty

/-- The paths that the configuration file of a command line names. -/
def configured (t : FileTree) (args : List Bytes) : List Bytes :=
  match Cli.Reading.ofArguments t args with
  | .error _ => []
  | .ok r =>
    match r.common.config t with
    | .error _ => []
    | .ok c => (c.outDir :: c.roots).filter fun p => !p.isEmpty

def store (before after : FileTree) : IO Unit :=
  after.nodes.forM fun (l, n) => do
    if before.node? l != some n then
      let path := Utf8.shown l.path
      match n with
      | .directory => IO.FS.createDirAll path
      | .file _ content => IO.FS.writeBinFile path (packed content)

end WaylandZig.Disk

open WaylandZig in
def main (args : List String) : IO UInt32 := do
  let args := args.map Bytes.ofString
  let here := Bytes.ofString (← IO.currentDir).toString
  let home := Bytes.ofString ((← IO.getEnv "HOME").getD "")
  let t : FileTree := { current := Location.ofPath here, home := Location.ofPath home }
  let t ← Disk.loadAncestors t (t.current ++ [[]])
  let t ← (args.flatMap Disk.mentioned).foldlM Disk.loadPath t
  let t ← (Disk.configured t args).foldlM Disk.loadPath t
  let out := Cli.program (CommandHost.run []) t args
  Disk.store t out.files
  (← IO.getStdout).write (Disk.packed out.stdout)
  (← IO.getStderr).write (Disk.packed out.stderr)
  return out.status.toUInt32
