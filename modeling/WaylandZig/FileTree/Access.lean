import WaylandZig.FileTree.Basic

/-! # Access by path

The operations of a file system on paths, with the errors they give. A path is followed name by
name: each name but the last must be that of a directory, and a final slash asks for one.
-/
namespace WaylandZig

inductive Errno where
  | notFound
  | notDirectory
  | isDirectory
  | exists_
  | nameTooLong
  | invalidArgument
  | badDescriptor
  | permissionDenied
  deriving DecidableEq, Repr

def Errno.text : Errno → Bytes
  | .notFound => "no such file or directory"
  | .notDirectory => "not a directory"
  | .isDirectory => "is a directory"
  | .exists_ => "file exists"
  | .nameTooLong => "file name too long"
  | .invalidArgument => "invalid argument"
  | .badDescriptor => "bad file descriptor"
  | .permissionDenied => "permission denied"

/-- An operation that failed, with the paths it was given. -/
structure FileError where
  operation : Bytes
  paths : List Bytes
  errno : Errno
  deriving DecidableEq, Repr

def FileError.text (e : FileError) : Bytes :=
  e.operation ++ " " ++ Bytes.joinWith " " e.paths ++ ": " ++ e.errno.text

namespace FileTree

/-- The longest name in a directory, in bytes. -/
def maxName : Nat := 255

/-- The longest path that can be followed, in bytes. -/
def maxPath : Nat := 4095

/-- What must be true of a location before a name is looked up in it. -/
def enter (t : FileTree) (l : Location) : Except Errno Unit :=
  match t.node? l with
  | some .directory => .ok ()
  | some (.file _ _) => .error .notDirectory
  | none => .error .notFound

/-- Follows names from a location. The last name may be that of nothing. -/
def follow (t : FileTree) : Location → List Bytes → Except Errno Location
  | l, [] => .ok l
  | l, name :: rest =>
    match t.enter l with
    | .error e => .error e
    | .ok () =>
      if name = "." then follow t l rest
      else if name = ".." then follow t l.dropLast rest
      else if name.length > maxName then .error .nameTooLong
      else follow t (l ++ [name]) rest

/-- The names of a path as they are followed; a final slash asks for the directory itself. -/
def names (p : Bytes) : List Bytes :=
  let named := (p.splitOn Ascii.slash).filter (· ≠ [])
  if p.endsWith "/" then named ++ [("." : Bytes)] else named

def locate (t : FileTree) (p : Bytes) : Except Errno Location :=
  if p.contains 0 then .error .invalidArgument
  else if p.isEmpty then .error .notFound
  else if p.length > maxPath then .error .nameTooLong
  else t.follow (if Path.isAbsolute p then [] else t.current) (names p)

/-- What stands at a path. -/
def find (t : FileTree) (p : Bytes) : Except Errno (Location × FileNode) := do
  let l ← t.locate p
  match t.node? l with
  | some n => return (l, n)
  | none => throw .notFound

/-- What stands at a path, if it can be read. -/
def findReadable (t : FileTree) (p : Bytes) : Except Errno (Location × FileNode) := do
  let (l, n) ← t.find p
  if n.mayRead then return (l, n) else throw .permissionDenied

def failed {α : Type} (operation path : Bytes) (result : Except Errno α) : Except FileError α :=
  result.mapError fun e => ⟨operation, [path], e⟩

def stat (t : FileTree) (p : Bytes) : Except FileError FileNode :=
  failed "stat" p ((t.find p).map Prod.snd)

/-- Opens for reading, which a directory allows. -/
def openForReading (t : FileTree) (p : Bytes) : Except FileError FileNode :=
  failed "open" p ((t.findReadable p).map Prod.snd)

/-- The content of what was opened under a path; a directory has none. -/
def contentOf (p : Bytes) : FileNode → Except FileError Bytes
  | .file _ content => .ok content
  | .directory => .error ⟨"read", [p], .isDirectory⟩

def readFile (t : FileTree) (p : Bytes) : Except FileError Bytes := do
  contentOf p (← t.openForReading p)

/-- Makes the directories of a path that are missing, from the top. Those made before a failure
stay. -/
def makeDirectories (t : FileTree) : Location → List Bytes → Except FileError Unit × FileTree
  | _, [] => (.ok (), t)
  | l, name :: rest =>
    let here := l ++ [name]
    match t.node? here with
    | some .directory => makeDirectories t here rest
    | some (.file _ _) => (.error ⟨"mkdir", [here.path], .notDirectory⟩, t)
    | none =>
      if name.contains 0 then (.error ⟨"mkdir", [here.path], .invalidArgument⟩, t)
      else if name.length > maxName || here.path.length > maxPath then
        (.error ⟨"mkdir", [here.path], .nameTooLong⟩, t)
      else makeDirectories (t.put here .directory) here rest

/-- Gives a file a new name; a file of that name is replaced and a directory is not. -/
def rename (t : FileTree) (l target : Location) : Except FileError Unit × FileTree :=
  let fail := fun e => (.error ⟨"rename", [l.path, target.path], e⟩, t)
  match t.locate target.path, t.node? target, t.node? l with
  | .error e, _, _ => fail e
  | .ok _, some .directory, _ => fail .exists_
  | .ok _, _, some n => (.ok (), (t.put target n).erase l)
  | .ok _, _, none => fail .notFound

/-- Gives a file a second name, unless something has that name already. -/
def link (t : FileTree) (l target : Location) : Except FileError Unit × FileTree :=
  let fail := fun e => (.error ⟨"link", [l.path, target.path], e⟩, t)
  match t.locate target.path, t.node? target, t.node? l with
  | .error e, _, _ => fail e
  | .ok _, some _, _ => fail .exists_
  | .ok _, none, some n => (.ok (), t.put target n)
  | .ok _, none, none => fail .notFound

end FileTree

end WaylandZig
