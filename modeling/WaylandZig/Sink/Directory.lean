import WaylandZig.Sink.Basic

/-! # Directory sink

Units written into a directory of a file tree. A unit is written to a temporary file beside its
destination and then given its name, so its destination never holds a part of it.
-/
namespace WaylandZig

/-- `mode` zero stands for the default permissions. -/
structure DirectorySink where
  root : Bytes
  mode : Nat := 0
  overwrite : Bool := false
  deriving DecidableEq, Repr

namespace DirectorySink

def defaultMode : Nat := 0o644

/-- A sink that replaces the files that already exist. -/
def replacing (root : Bytes) : DirectorySink := ⟨root, defaultMode, true⟩

/-- The permissions of the files that are written. Of a mode the nine permission bits count alone: its
setuid, setgid and sticky bits are dropped. -/
def fileMode (s : DirectorySink) : Nat := if s.mode = 0 then defaultMode else s.mode % 0o1000

/-- The absolute path of a unit, which must not leave the root. -/
def resolve (s : DirectorySink) (t : FileTree) (path : Bytes) : Except SinkFault Bytes :=
  let root := t.absolute s.root
  let target := Path.join root path
  if target = root ∨ target.startsWith (root ++ "/") then .ok target
  else .error (.outsideRoot path)

def temporaryName (n : Nat) : Bytes := ".way2-" ++ Numeral.padded 10 10 n ++ ".tmp"

/-- A temporary name that nothing in the directory has. -/
def freshName (t : FileTree) (directory : Location) : Bytes :=
  temporaryName (((List.range (t.nodes.length + 1)).find? fun n =>
    (t.node? (directory ++ [temporaryName n])).isNone).getD 0)

/-- Writes the temporary file. -/
def writeTemporary (s : DirectorySink) (t : FileTree) (l : Location) (content : Bytes) :
    Except FileError FileTree :=
  match t.locate l.path with
  | .error e => .error ⟨"open", [l.path], e⟩
  | .ok _ => .ok (t.put l (.file s.fileMode content))

/-- Gives the temporary file its name and removes what is left of it. -/
def place (s : DirectorySink) (t : FileTree) (temporary target : Location) (path : Bytes) :
    Except SinkFault Unit × FileTree :=
  if s.overwrite then
    match t.rename temporary target with
    | (.ok (), t) => (.ok (), t)
    | (.error e, t) => (.error (.renaming e), t.erase temporary)
  else
    match t.link temporary target with
    | (.ok (), t) => (.ok (), t.erase temporary)
    | (.error e, t) =>
      (.error (if e.errno = .exists_ then .alreadyExists path else .creating e), t.erase temporary)

/-- What a write meets on its way: it is called off when it begins, its temporary file cannot be
finished, or it is called off when that file is there. -/
structure Course where
  canceledAtEntry : Bool := false
  unfinished : Option SinkFault := none
  canceledBeforePlacing : Bool := false
  deriving DecidableEq, Repr

/-- Writes a unit through a temporary file that `name` gives a name in its directory. -/
def writeThrough (s : DirectorySink) (c : Course) (name : FileTree → Location → Bytes) :
    Sink FileTree := fun path content t =>
  match Sink.admit c.canceledAtEntry path with
  | .error fault => (.error fault, t)
  | .ok () =>
    match s.resolve t path with
    | .error fault => (.error fault, t)
    | .ok target =>
      let directory := Location.ofPath (Path.dir target)
      match t.makeDirectories [] directory with
      | (.error e, t) => (.error (.makingDirectories e), t)
      | (.ok (), t) =>
        let temporary := directory ++ [name t directory]
        match s.writeTemporary t temporary content with
        | .error e => (.error (.makingTemporary e), t)
        | .ok t =>
          match c.unfinished with
          | some fault => (.error fault, t.erase temporary)
          | none =>
            if c.canceledBeforePlacing then (.error .canceled, t.erase temporary)
            else s.place t temporary (Location.ofPath target) path

def write (s : DirectorySink) (canceled : Bool) : Sink FileTree :=
  s.writeThrough { canceledAtEntry := canceled, canceledBeforePlacing := canceled } freshName

end DirectorySink

end WaylandZig
