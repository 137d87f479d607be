import WaylandZig.Formatter
import WaylandZig.Zig.Identifier
import WaylandZig.Zig.Settings

/-! # Configurations

What a run is told: where documents are searched, where units go, how they are formatted, and how
they are named and typed. A configuration may hold any values; its problems are listed field by
field, all of them at once.
-/
namespace WaylandZig

open Zig

/-- `formatter` is the command line that formats. An empty one stands for the default command, and
none at all is only right when nothing is formatted. -/
structure Config where
  outDir : Bytes := []
  roots : List Bytes := []
  dryRun : Bool := false
  formatter : Option (List Bytes) := some Formatter.defaultCommand
  noFormat : Bool := false
  onMismatch : Bytes := "skip"
  skipInterfaces : List Bytes := []
  typeMappings : TypeMappings := []
  typesUnit : Bytes := Settings.defaultTypesUnit
  indexUnit : Bytes := Settings.defaultIndexUnit
  eventsOnlyIndex : Bool := false
  indentSize : Int := Settings.defaultIndentSize
  deriving DecidableEq, Repr

inductive ConfigProblem where
  | missing (field : Bytes)
  | noEntries (field : Bytes)
  | notOneOf (field : Bytes) (choices : List Bytes) (given : Bytes)
  | unitName (field given : Bytes)
  | sameUnits
  | indentSize (given : Int)
  deriving DecidableEq, Repr

def ConfigProblem.text : ConfigProblem → Bytes
  | .missing field => field ++ " is required"
  | .noEntries field => field ++ " needs at least 1 entries"
  | .notOneOf field choices given =>
    field ++ " must be one of [" ++ Bytes.joinWith " " choices ++ "], got " ++ Quoted.quote given
  | .unitName field given => field ++ " " ++ Quoted.quote given ++ " is not a valid unit name"
  | .sameUnits => "types_unit must differ from index_unit"
  | .indentSize given => "indent_size must be between 1 and 16, got " ++ Numeral.ofInt given

namespace Config

/-- The names of the mismatch policies. -/
def policies : List Bytes := ["skip", "warn", "error"]

/-- The argument kinds whose type may be replaced. -/
def mappedKinds : List Bytes := ["int", "uint", "fixed", "object", "new_id", "string", "array"]

/-- How an entry of a field is named, by its position or key. -/
def entryName (field key : Bytes) : Bytes := field ++ "[" ++ key ++ "]"

def emptyEntries (field : Bytes) (entries : List Bytes) : List ConfigProblem :=
  entries.zipIdx.filterMap fun (entry, i) =>
    if entry.isEmpty then some (.missing (entryName field (Numeral.decimal i))) else none

def outDirProblems (c : Config) : List ConfigProblem :=
  if c.outDir.isEmpty && !c.dryRun then [.missing "out_dir"] else []

def rootsProblems (c : Config) : List ConfigProblem :=
  if c.roots.isEmpty then [.noEntries "roots"] else emptyEntries "roots" c.roots

def formatterProblems (c : Config) : List ConfigProblem :=
  if c.formatter.isNone && !c.noFormat then [.missing "formatter"] else []

def onMismatchProblems (c : Config) : List ConfigProblem :=
  if policies.contains c.onMismatch then []
  else [.notOneOf "on_mismatch" policies c.onMismatch]

def mappingProblems (mapping : Bytes × Bytes) : List ConfigProblem :=
  let name := entryName "type_mappings" mapping.1
  (if mappedKinds.contains mapping.1 then [] else [.notOneOf name mappedKinds mapping.1])
    ++ if mapping.2.isEmpty then [.missing name] else []

/-- Mappings are looked at in the order of their kind names. -/
def typeMappingsProblems (c : Config) : List ConfigProblem :=
  (c.typeMappings.mergeSort fun a b => Bytes.le a.1 b.1).flatMap mappingProblems

def unitNameProblems (field name : Bytes) : List ConfigProblem :=
  if name.isEmpty then [.missing field]
  else if isWordName name then []
  else [.unitName field name]

/-- The names of the two shared units are compared only when the first is a name. -/
def typesUnitProblems (c : Config) : List ConfigProblem :=
  match unitNameProblems "types_unit" c.typesUnit with
  | [] => if c.typesUnit = c.indexUnit then [.sameUnits] else []
  | found => found

def indentSizeProblems (c : Config) : List ConfigProblem :=
  if 1 ≤ c.indentSize ∧ c.indentSize ≤ 16 then [] else [.indentSize c.indentSize]

/-- Everything that is wrong, in the order of the fields. -/
def problems (c : Config) : List ConfigProblem :=
  c.outDirProblems ++ c.rootsProblems ++ c.formatterProblems ++ c.onMismatchProblems
    ++ emptyEntries "skip_interfaces" c.skipInterfaces ++ c.typeMappingsProblems
    ++ c.typesUnitProblems ++ unitNameProblems "index_unit" c.indexUnit ++ c.indentSizeProblems

def problemsText (found : List ConfigProblem) : Bytes :=
  "invalid config: " ++ Bytes.joinWith "; " (found.map ConfigProblem.text)

/-- Adds a mapping, or replaces the one of the same kind. -/
def mapType (kind type : Bytes) : TypeMappings → TypeMappings
  | [] => [(kind, type)]
  | (k, t) :: rest => if k = kind then (kind, type) :: rest else (k, t) :: mapType kind type rest

def settings (c : Config) : Settings :=
  { typesUnit := c.typesUnit
    indexUnit := c.indexUnit
    typeMappings := c.typeMappings
    eventsOnlyIndex := c.eventsOnlyIndex
    indentSize := c.indentSize }

end Config

end WaylandZig
