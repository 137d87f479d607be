import WaylandZig.Path

/-! # File trees

A file system without links as a value: what stands at each location, the location that relative
paths start from, and the home of the user. The root is always a directory. The user owns every file,
and has the permissions of an owner.
-/
namespace WaylandZig

/-- The names from the root down. -/
abbrev Location := List Bytes

namespace Location

def path (l : Location) : Bytes := "/" ++ Bytes.joinWith "/" l

def ofPath (p : Bytes) : Location := Path.components p

/-- The order of a walk that visits a directory before its content and entries by name. -/
def le : Location → Location → Bool
  | [], _ => true
  | _ :: _, [] => false
  | a :: as, b :: bs => if a = b then le as bs else Bytes.le a b

end Location

inductive FileNode where
  | directory
  | file (mode : Nat) (content : Bytes)
  deriving DecidableEq, Repr

def FileNode.isDirectory : FileNode → Bool
  | .directory => true
  | .file _ _ => false

/-- Whether the owner's bit of a permission is set. A directory is open to its owner. -/
def FileNode.permits (bit : Nat) : FileNode → Bool
  | .directory => true
  | .file mode _ => mode &&& bit != 0

def FileNode.mayRead : FileNode → Bool := permits 0o400

def FileNode.mayWrite : FileNode → Bool := permits 0o200

def FileNode.mayRun : FileNode → Bool := permits 0o100

structure FileTree where
  nodes : List (Location × FileNode) := []
  current : Location := []
  home : Location := []
  deriving DecidableEq, Repr

namespace FileTree

def node? (t : FileTree) (l : Location) : Option FileNode :=
  if l.isEmpty then some .directory else t.nodes.lookup l

def putIn (l : Location) (n : FileNode) :
    List (Location × FileNode) → List (Location × FileNode)
  | [] => [(l, n)]
  | (k, m) :: rest => if k = l then (l, n) :: rest else (k, m) :: putIn l n rest

def put (t : FileTree) (l : Location) (n : FileNode) : FileTree :=
  { t with nodes := putIn l n t.nodes }

def erase (t : FileTree) (l : Location) : FileTree :=
  { t with nodes := t.nodes.filter fun (k, _) => k ≠ l }

/-- Everything strictly below a location, in walk order. -/
def below (t : FileTree) (l : Location) : List (Location × FileNode) :=
  (t.nodes.filter fun (k, _) => l.isPrefixOf k && k.length > l.length).mergeSort
    fun a b => Location.le a.1 b.1

/-- The first file below a location that cannot be read. A program that shows a tree with the contents
of its files reads this first; nothing in the library shows one. -/
def unreadable? (t : FileTree) (l : Location) : Option Location :=
  ((t.below l).find? fun (_, n) => !n.mayRead).map Prod.fst

/-- The names in a directory, in order. -/
def namesIn (t : FileTree) (l : Location) : List Bytes :=
  ((t.below l).filter fun (k, _) => k.length = l.length + 1).filterMap fun (k, _) => k.getLast?

/-- The current directory as a path. -/
def currentPath (t : FileTree) : Bytes := t.current.path

def absolute (t : FileTree) (p : Bytes) : Bytes := Path.absolute t.currentPath p

end FileTree

end WaylandZig
