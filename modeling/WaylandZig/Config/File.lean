import WaylandZig.Config.Basic
import WaylandZig.FileTree.Access
import WaylandZig.Text.CaseFold
import WaylandZig.Toml.Document

/-! # Configuration files

A configuration file is a TOML text whose keys are laid over the default configuration. A key is
known when it is the name of a field up to case, and its value must then have the type of the field;
only a key in the exact spelling changes the configuration. Relative directories are taken from the
directory of the file.
-/
namespace WaylandZig

open Toml

inductive FieldType where
  | text
  | texts
  | flag
  | integer
  | mappings
  deriving DecidableEq, Repr

inductive ConfigFileFault where
  | unreadable (error : FileError)
  | malformed
  | unknownKeys (path : Bytes) (keys : List Key)
  deriving DecidableEq, Repr

def ConfigFileFault.text : ConfigFileFault → Bytes
  | .unreadable error => "load config: " ++ error.text
  | .malformed => "load config: toml: no well-formed configuration"
  | .unknownKeys path keys =>
    "load config " ++ path ++ ": unknown keys " ++ Bytes.joinWith ", " (keys.map Key.text)

namespace FieldType

def isText : Value → Bool
  | .text _ => true
  | _ => false

/-- Whether a value has the type. What is no table at all stands for no mappings. -/
def accepts : FieldType → Value → Bool
  | .text, v => isText v
  | .texts, .array items => items.all isText
  | .texts, _ => false
  | .flag, .boolean _ => true
  | .flag, _ => false
  | .integer, .integer _ => true
  | .integer, _ => false
  | .mappings, .table entries => entries.all fun (_, v) => isText v
  | .mappings, _ => true

end FieldType

namespace ConfigFile

def fields : List (Bytes × FieldType) :=
  [("out_dir", .text), ("roots", .texts), ("formatter", .texts), ("no_format", .flag),
    ("on_mismatch", .text), ("skip_interfaces", .texts), ("type_mappings", .mappings),
    ("types_unit", .text), ("index_unit", .text), ("events_only_index", .flag),
    ("indent_size", .integer)]

/-- The type of the field that a key names up to case. -/
def fieldType? (key : Bytes) : Option FieldType :=
  (fields.find? fun (name, _) => CaseFold.isName name key).map Prod.snd

def hasFieldType (entry : Bytes × Value) : Bool :=
  match fieldType? entry.1 with
  | some type => type.accepts entry.2
  | none => true

/-- The keys that a top-level entry accounts for: its own, and those of the mappings in it. -/
def knownKeys (entry : Bytes × Value) : List Key :=
  match fieldType? entry.1, entry.2 with
  | some .mappings, .table entries => [entry.1] :: entries.map fun (k, _) => [entry.1, k]
  | some _, _ => [[entry.1]]
  | none, _ => []

def unknownKeys (d : Toml.Document) : List Key :=
  let known := d.root.flatMap knownKeys
  d.declared.filter fun key => !known.contains key

def textOf : Value → Bytes
  | .text s => s
  | _ => []

def textsOf : Value → List Bytes
  | .array items => items.map textOf
  | _ => []

def flagOf : Value → Bool
  | .boolean b => b
  | _ => false

def integerOf : Value → Int
  | .integer n => n
  | _ => 0

/-- The mappings of every key that names the field up to case. -/
def mappingsOf (root : Table) : Zig.TypeMappings :=
  let entries := root.flatMap fun (key, v) =>
    match v with
    | .table entries => if CaseFold.isName "type_mappings" key then entries else []
    | _ => []
  entries.foldl (fun found (kind, v) => Config.mapType kind (textOf v) found) []

/-- A directory as seen from the directory that holds the file. -/
def resolve (base p : Bytes) : Bytes :=
  let p := Space.trim p
  if p.isEmpty || Path.isAbsolute p then p else Path.join base p

/-- Lays the keys of a document over the default configuration. -/
def overlay (base : Bytes) (root : Table) : Config :=
  let given {α : Type} (key : Bytes) (read : Value → α) (standard : α) : α :=
    match root.lookup key with
    | some v => read v
    | none => standard
  let standard : Config := {}
  { standard with
    outDir := given "out_dir" (fun v => resolve base (textOf v)) standard.outDir
    roots := given "roots" (fun v => (textsOf v).map (resolve base)) standard.roots
    formatter := given "formatter" (fun v => some (textsOf v)) standard.formatter
    noFormat := given "no_format" flagOf standard.noFormat
    onMismatch := given "on_mismatch" (fun v => Space.trim (textOf v)) standard.onMismatch
    skipInterfaces := given "skip_interfaces" textsOf standard.skipInterfaces
    typeMappings := given "type_mappings" (fun _ => mappingsOf root) standard.typeMappings
    typesUnit := given "types_unit" (fun v => Space.trim (textOf v)) standard.typesUnit
    indexUnit := given "index_unit" (fun v => Space.trim (textOf v)) standard.indexUnit
    eventsOnlyIndex := given "events_only_index" flagOf standard.eventsOnlyIndex
    indentSize := given "indent_size" integerOf standard.indentSize }

/-- The configuration that a text at a path holds. -/
def read (path content : Bytes) : Except ConfigFileFault Config :=
  match Toml.Document.read? content with
  | none => .error .malformed
  | some d =>
    if !d.root.all hasFieldType then .error .malformed
    else if (unknownKeys d).isEmpty then .ok (overlay (Path.dir path) d.root)
    else .error (.unknownKeys path (unknownKeys d))

def load (t : FileTree) (path : Bytes) : Except ConfigFileFault Config :=
  match t.readFile path with
  | .error e => .error (.unreadable e)
  | .ok content => read path content

end ConfigFile

end WaylandZig
