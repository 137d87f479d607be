import WaylandZig.Zig.DocumentUnit

/-! # Shared units

The types unit, which names the types of strings and arrays, and the index unit, which imports every
document and maps each interface to its event tags, its event handlers and its requests.
-/
namespace WaylandZig.Zig

open Schema

def typesUnit : Bytes :=
  "pub const String = []const u8;\n" ++ "pub const Array = []const u32;\n"

/-- The member of the interface enum that stands for no interface. -/
def invalidMember : Bytes := "invalid"

/-- The declarations of the index unit beside the imports of documents. -/
def indexNames : List Bytes := ["Interface", "map", "Events", "Requests"]

/-- An interface as the index refers to it. -/
structure IndexEntry where
  member : Bytes
  path : Bytes
  deriving DecidableEq, Repr

structure IndexImport where
  name : Bytes
  unit : Bytes
  deriving DecidableEq, Repr

structure IndexDecl where
  imports : List IndexImport
  typesUnit : Bytes
  entries : List IndexEntry
  eventsOnly : Bool
  deriving DecidableEq, Repr

/-- The name that the index imports a document under. -/
def importName (d : Document) : Except Diagnostic Bytes :=
  ((Naming.ofNameSpace []).identifier d.name).mapError (placed d.name [] "document name")

def indexEntry (d : Document) (name : Bytes) (i : Interface) : Except Diagnostic IndexEntry :=
  let naming := Naming.ofNameSpace d.nameSpace
  Except.mapError (placed d.name i.name []) do
    let member ← naming.identifier i.name
    let decl ← naming.interface i.name
    return ⟨member, name ++ "." ++ decl⟩

def indexPart (d : Document) : Except Diagnostic (IndexImport × List IndexEntry) := do
  let name ← importName d
  let entries ← d.interfaces.mapM (indexEntry d name)
  return (⟨name, d.name⟩, entries)

def indexDecl (s : DocumentSet) (settings : Settings) : Except Diagnostic IndexDecl := do
  let parts ← s.documents.mapM indexPart
  return {
    imports := parts.map Prod.fst
    typesUnit := settings.typesUnit
    entries := parts.flatMap Prod.snd
    eventsOnly := settings.eventsOnlyIndex }

/-- The table of handlers for the events tagged by `events`. -/
def handlerType (events : Bytes) : Bytes :=
  "std.EnumArray(" ++ events ++ ", ?struct \x7b context: *anyopaque, call: *const fn (*anyopaque, u32, "
    ++ events ++ ", []const u8) void \x7d)"

namespace IndexDecl

def importLine (i : IndexImport) : Bytes :=
  "pub const " ++ i.name ++ " = " ++ importOf i.unit ++ ";"

def writeImports (i : IndexDecl) (w : Writer) : Writer :=
  let w := w.line "const std = @import(\"std\");"
  let w := if i.imports.isEmpty then w else w.blank.lines (i.imports.map importLine)
  w.blank.line ("pub const types = " ++ importOf i.typesUnit ++ ";")

/-- A declaration with a line for the invalid member and one for each entry. -/
def writeTable (i : IndexDecl) (head invalid : Bytes) (row : IndexEntry → Bytes) (tail : Bytes)
    (w : Writer) : Writer :=
  (((w.blank.open_ head).line invalid).lines (i.entries.map row)).close tail

def write (i : IndexDecl) (w : Writer) : Writer :=
  let w := i.writeImports w
  let w := i.writeTable "pub const Interface = enum \x7b" (invalidMember ++ ",")
    (fun e => e.member ++ ",") "\x7d;" w
  let w := i.writeTable "pub const map = std.EnumArray(Interface, type).init(.\x7b"
    ("." ++ invalidMember ++ " = enum \x7b\x7d,")
    (fun e => "." ++ e.member ++ " = " ++ e.path ++ ".event,") "\x7d);" w
  let w := i.writeTable "pub const Events = union(Interface) \x7b"
    (invalidMember ++ ": " ++ handlerType "enum \x7b\x7d" ++ ",")
    (fun e => e.member ++ ": " ++ handlerType (e.path ++ ".event") ++ ",") "\x7d;" w
  if i.eventsOnly then w
  else i.writeTable "pub const Requests = union(Interface) \x7b" (invalidMember ++ ": void,")
    (fun e => e.member ++ ": " ++ e.path ++ ".rq,") "\x7d;" w

def text (i : IndexDecl) (indent : Nat) : Bytes := (i.write { indent := indent }).text

end IndexDecl

/-- The source text of the index unit. -/
def indexUnit (s : DocumentSet) (settings : Settings) : Except Diagnostic Bytes :=
  (indexDecl s settings).map fun i => i.text settings.indentSize.toNat

end WaylandZig.Zig
