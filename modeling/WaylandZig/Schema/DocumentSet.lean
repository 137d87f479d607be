import WaylandZig.Diagnostic
import WaylandZig.Schema.Model

/-! # Document sets

The documents of one run in load order. Documents and interfaces are told apart by position, so
two of the same name stay two. `collisions` lists everything that would make generated units or
declarations clash.
-/
namespace WaylandZig.Schema

structure DocumentSet where
  documents : List Document := []
  warnings : List Warning := []
  deriving DecidableEq, Repr

namespace DocumentSet

def add (s : DocumentSet) (d : Document) : DocumentSet :=
  { s with documents := s.documents ++ [d] }

def addWarning (s : DocumentSet) (w : Warning) : DocumentSet :=
  { s with warnings := s.warnings ++ [w] }

def names (s : DocumentSet) : List Bytes := s.documents.map Document.name

def lookup? (s : DocumentSet) (name : Bytes) : Option Document :=
  s.documents.find? fun d => d.name == name

/-- The first interface of that name, with its document. -/
def findInterface? (s : DocumentSet) (name : Bytes) : Option (Document × Interface) :=
  s.documents.findSome? fun d =>
    (d.interfaces.find? fun i => i.name == name).map fun i => (d, i)

/-- The number of interfaces of all documents. -/
def interfaceCount (s : DocumentSet) : Nat :=
  (s.documents.map fun d => d.interfaces.length).foldr (· + ·) 0

/-- The names met so far: each document name with its source, each interface name with the
document that declares it. -/
structure Seen where
  sources : List (Bytes × Bytes) := []
  owners : List (Bytes × Bytes) := []

def reservedName (d : Document) : Diagnostic :=
  Diagnostic.within ⟨.reservedUnitName, [], [], [],
    "protocol name collides with a generated unit or declaration", none⟩ d.name []

def repeatedDocument (d : Document) (source : Bytes) : Diagnostic :=
  Diagnostic.within ⟨.duplicateDocument, [], [], [],
    "declared by both " ++ source ++ " and " ++ d.source, none⟩ d.name []

def repeatedInterface (d : Document) (i : Interface) (owner : Bytes) : Diagnostic :=
  Diagnostic.within ⟨.duplicateInterface, [], [], [],
    "also declared by document " ++ Quoted.quote owner, none⟩ d.name i.name

def interfaceCollisions (d : Document) :
    List Interface → List (Bytes × Bytes) → List Diagnostic × List (Bytes × Bytes)
  | [], owners => ([], owners)
  | i :: rest, owners =>
    match owners.lookup i.name with
    | some owner =>
      let (found, owners) := interfaceCollisions d rest owners
      (repeatedInterface d i owner :: found, owners)
    | none => interfaceCollisions d rest ((i.name, d.name) :: owners)

def collisionsFrom (reserved : List Bytes) : List Document → Seen → List Diagnostic
  | [], _ => []
  | d :: rest, seen =>
    let taken := if reserved.contains d.name then [reservedName d] else []
    let repeated := ((seen.sources.lookup d.name).map (repeatedDocument d)).toList
    let sources := if repeated.isEmpty then (d.name, d.source) :: seen.sources else seen.sources
    let (clashes, owners) := interfaceCollisions d d.interfaces seen.owners
    taken ++ repeated ++ clashes ++ collisionsFrom reserved rest ⟨sources, owners⟩

/-- Every document with a reserved name, every repeated document name and every repeated interface
name, in the order of the documents. -/
def collisions (s : DocumentSet) (reserved : List Bytes) : List Diagnostic :=
  collisionsFrom reserved s.documents {}

end DocumentSet

end WaylandZig.Schema
