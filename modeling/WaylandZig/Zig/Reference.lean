import WaylandZig.Schema.DocumentSet
import WaylandZig.Zig.Identifier

/-! # Enum references

An argument may name the enum that types it: `name` for an enum of its own interface, or
`interface.name` for one of its own document or, failing that, of the first document of the set that
has it. A reference that finds nothing is an error.
-/
namespace WaylandZig.Zig

open Schema

/-- An interface of a set. Documents and interfaces are told apart by their positions. -/
structure Site where
  documentIndex : Nat
  document : Document
  interfaceIndex : Nat
  interface : Interface
  deriving DecidableEq, Repr

def Site.sameDocument (a b : Site) : Bool := a.documentIndex == b.documentIndex

def Site.sameInterface (a b : Site) : Bool :=
  a.sameDocument b && a.interfaceIndex == b.interfaceIndex

def Site.at? (s : DocumentSet) (documentIndex interfaceIndex : Nat) : Option Site := do
  let d ← s.documents[documentIndex]?
  let i ← d.interfaces[interfaceIndex]?
  return ⟨documentIndex, d, interfaceIndex, i⟩

inductive EnumRef where
  | plain (name : Bytes)
  | qualified (interface name : Bytes)
  deriving DecidableEq, Repr

/-- A reference has one or two parts, and none of them is empty. -/
def EnumRef.ofBytes? (ref : Bytes) : Option EnumRef :=
  match ref.splitOn Ascii.dot with
  | [name] => if name.isEmpty then none else some (.plain name)
  | [interface, name] =>
    if interface.isEmpty || name.isEmpty then none else some (.qualified interface name)
  | _ => none

/-- Where the search for a reference ended. -/
inductive Stage where
  | interface
  | document
  | global
  deriving DecidableEq, Repr

def Stage.all : List Stage := [.interface, .document, .global]

def Stage.name : Stage → Bytes
  | .interface => "interface"
  | .document => "document"
  | .global => "global"

structure Resolution where
  site : Site
  enum : Enum
  stage : Stage
  deriving DecidableEq, Repr

/-- The enum that the first interface of that name in a document declares. -/
def enumIn? (interface name : Bytes) (documentIndex : Nat) (d : Document) :
    Option (Site × Enum) := do
  let k ← d.findInterface? interface
  let i ← d.interfaces[k]?
  let e ← i.findEnum? name
  return (⟨documentIndex, d, k, i⟩, e)

/-- The first document of the set, in load order, that has the enum. -/
def enumInSet? (s : DocumentSet) (interface name : Bytes) : Option (Site × Enum) :=
  s.documents.zipIdx.findSome? fun (d, index) => enumIn? interface name index d

def malformedReference (ref : Bytes) (here : Site) : Diagnostic :=
  Diagnostic.within
    { code := .malformedReference, message := "malformed enum reference " ++ Quoted.quote ref }
    here.document.name here.interface.name

def unresolvedReference (ref : Bytes) (here : Site) : Diagnostic :=
  Diagnostic.within
    { code := .unresolvedReference, message := "unresolved enum reference " ++ Quoted.quote ref }
    here.document.name here.interface.name

def EnumRef.find? (s : DocumentSet) (here : Site) : EnumRef → Option Resolution
  | .plain name => (here.interface.findEnum? name).map fun e => ⟨here, e, .interface⟩
  | .qualified interface name =>
    match enumIn? interface name here.documentIndex here.document with
    | some (site, e) => some ⟨site, e, .document⟩
    | none =>
      (enumInSet? s interface name).map fun (site, e) =>
        ⟨site, e, if site.sameDocument here then .document else .global⟩

/-- Finds the enum that `ref` names as seen from an interface. -/
def resolve (s : DocumentSet) (here : Site) (ref : Bytes) : Except Diagnostic Resolution :=
  match EnumRef.ofBytes? ref with
  | none => .error (malformedReference ref here)
  | some r =>
    match r.find? s here with
    | some resolution => .ok resolution
    | none => .error (unresolvedReference ref here)

/-- The Zig expression for a resolved enum type, written inside the interface `here`. -/
def Resolution.typeRef (r : Resolution) (here : Site) : Except Diagnostic Bytes := do
  let naming := Naming.ofNameSpace r.site.document.nameSpace
  let typeName ← naming.enumType r.enum.name
  if r.site.sameInterface here then return typeName
  let interfaceName ← naming.interface r.site.interface.name
  if r.site.sameDocument here then return interfaceName ++ "." ++ typeName
  return "@import(\"" ++ r.site.document.name ++ ".zig\")." ++ interfaceName ++ "." ++ typeName

end WaylandZig.Zig
