import WaylandZig.FileTree.Access

/-! # Discovery

The protocol documents under the roots of a search. A root holds the core document, and stable,
unstable and staging documents in subtrees of their own. An unstable document gives way to a stable
one of the same root that it was promoted to.
-/
namespace WaylandZig

inductive Category where
  | core
  | stable
  | unstable
  | staging
  deriving DecidableEq, Repr

def Category.all : List Category := [.core, .stable, .unstable, .staging]

def Category.name : Category → Bytes
  | .core => "core"
  | .stable => "stable"
  | .unstable => "unstable"
  | .staging => "staging"

structure FoundDocument where
  path : Bytes
  root : Bytes
  category : Category
  deriving DecidableEq, Repr

namespace Discovery

def coreName : Bytes := "wayland.xml"

/-- Errors that only say that there is nothing at a path. -/
def isAbsent (e : FileError) : Bool := e.errno == .notFound || e.errno == .notDirectory

/-- The path of the core document, if the root has one that is a file. -/
def core? (t : FileTree) (root : Bytes) : Except FileError (Option Bytes) :=
  let path := Path.join root coreName
  match t.stat path with
  | .ok n => .ok (if n.isDirectory then none else some path)
  | .error e => if isAbsent e then .ok none else .error e

def isXml (path : Bytes) : Bool := Ascii.eqFold (Path.extension path) ".xml"

/-- The path of a location below the directory at `l`, as a walk of the directory spells it. -/
def spelled (directory : Bytes) (l k : Location) : Bytes :=
  directory ++ "/" ++ Bytes.joinWith "/" (k.drop l.length)

/-- The path of the first directory on a walk that is too long to be opened. -/
def overlong? (t : FileTree) (directory : Bytes) (l : Location) : Option Bytes :=
  (((t.below l).filter fun (_, n) => n.isDirectory).map fun (k, _) => spelled directory l k).find?
    fun p => p.length > FileTree.maxPath

/-- The files with an `.xml` extension below a directory, by path. A directory that is not there has
none, and one that cannot be opened on the way fails the search. -/
def xmlBelow (t : FileTree) (directory : Bytes) : Except FileError (List Bytes) :=
  match FileTree.failed "lstat" directory (t.find directory) with
  | .error e => if isAbsent e then .ok [] else .error e
  | .ok (l, _) =>
    match overlong? t directory l with
    | some p => .error ⟨"open", [p], .nameTooLong⟩
    | none =>
      let files := (t.below l).filter fun (_, n) => !n.isDirectory
      .ok (Bytes.sort ((files.map fun (k, _) => spelled directory l k).filter isXml))

/-- A part of a file name that only marks its version. -/
def isVersionPart (part : Bytes) : Bool :=
  part == "unstable" ||
    match part with
    | 0x76 :: d :: ds => (d :: ds).all Ascii.isDigit
    | _ => false

/-- The file name without extension and version marks, by which documents are promoted. -/
def stem (path : Bytes) : Bytes :=
  let name := (Path.base path).dropTail (Path.extension path)
  Bytes.joinWith "-" ((name.splitOn Ascii.dash).filter fun part => !isVersionPart part)

/-- The documents of one root: core, stable, unstable that were not promoted, staging. -/
def inRoot (t : FileTree) (root : Bytes) : Except FileError (List FoundDocument) := do
  let core ← core? t root
  let stable ← xmlBelow t (Path.join root "stable")
  let unstable ← xmlBelow t (Path.join root "unstable")
  let staging ← xmlBelow t (Path.join root "staging")
  let promoted := stable.map stem
  let surviving := unstable.filter fun p => !promoted.contains (stem p)
  let found := fun (category : Category) (paths : List Bytes) =>
    paths.map fun p => (⟨p, root, category⟩ : FoundDocument)
  return found .core core.toList ++ found .stable stable ++ found .unstable surviving
    ++ found .staging staging

/-- Keeps the first document of each absolute path, `seen` being the paths that were met before. -/
def firstOfEach (t : FileTree) : List Bytes → List FoundDocument → List FoundDocument
  | _, [] => []
  | seen, d :: rest =>
    let key := t.absolute d.path
    if seen.contains key then firstOfEach t seen rest
    else d :: firstOfEach t (key :: seen) rest

/-- The documents of every root, in root order, each file once. -/
def find (t : FileTree) (roots : List Bytes) : Except FileError (List FoundDocument) := do
  let found ← roots.mapM (inRoot t)
  return firstOfEach t [] found.flatten

end Discovery

end WaylandZig
