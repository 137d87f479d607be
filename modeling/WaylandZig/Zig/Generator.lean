import WaylandZig.Formatter
import WaylandZig.Sink.Basic
import WaylandZig.Zig.SharedUnits

/-! # Generation

A document set becomes one unit per document, the types unit and the index unit. Every unit is
compiled and formatted before the first is written.
-/
namespace WaylandZig.Zig

open Schema

/-- The language that units are written in. -/
def language : Bytes := "zig"

structure SourceUnit where
  path : Bytes
  content : Bytes
  deriving DecidableEq, Repr

inductive GenerateFault where
  | sharedUnitName (name : Bytes)
  | collisions (found : List Diagnostic)
  | typeMapping (fault : TypeMap.Fault)
  | compilation (found : Diagnostic)
  | formatting (path : Bytes) (fault : FormatFault)
  | writing (path : Bytes) (fault : SinkFault)
  deriving DecidableEq, Repr

namespace GenerateFault

/-- The finding that a fault reports first, if it reports one. -/
def diagnostic? : GenerateFault → Option Diagnostic
  | .collisions found => found.head?
  | .compilation found => some found
  | .formatting path fault =>
    some (Diagnostic.causedBy { code := .formatFailed, message := "formatting " ++ path } fault.text)
  | _ => none

def text : GenerateFault → Bytes
  | .sharedUnitName name => "types unit and index unit share the name " ++ Quoted.quote name
  | .collisions found => Bytes.joinWith "\n" (found.map Diagnostic.text)
  | .typeMapping fault => fault.text
  | .writing path fault => "failed to write " ++ path ++ ": " ++ fault.text
  | fault => (fault.diagnostic?.map Diagnostic.text).getD []

end GenerateFault

def unitPath (name : Bytes) : Bytes := name ++ ".zig"

/-- The names that no document may have: those of the shared units and of what the index declares. -/
def reservedNames (settings : Settings) : List Bytes :=
  settings.typesUnit :: settings.indexUnit :: indexNames

def documentUnits (s : DocumentSet) (settings : Settings) (types : TypeMap) :
    Except Diagnostic (List SourceUnit) :=
  s.documents.zipIdx.mapM fun (d, index) =>
    (documentUnit s settings types index d).map fun text => ⟨unitPath d.name, text⟩

/-- The units of a set without formatting, in the order they are written. -/
def compile (s : DocumentSet) (settings : Settings) : Except GenerateFault (List SourceUnit) := do
  let settings := settings.withDefaults
  if settings.typesUnit = settings.indexUnit then throw (.sharedUnitName settings.typesUnit)
  let found := s.collisions (reservedNames settings)
  if !found.isEmpty then throw (.collisions found)
  let types ← (TypeMap.ofMappings settings.typeMappings).mapError .typeMapping
  let documents ← (documentUnits s settings types).mapError .compilation
  let index ← (indexUnit s settings).mapError .compilation
  return documents ++
    [⟨unitPath settings.typesUnit, typesUnit⟩, ⟨unitPath settings.indexUnit, index⟩]

/-- Formats units in order and stops at the first that fails. -/
def formatUnits {σ : Type} (f : Formatter σ) :
    List SourceUnit → σ → Except GenerateFault (List SourceUnit) × σ
  | [], state => (.ok [], state)
  | u :: rest, state =>
    match f u.path u.content state with
    | (.error fault, state) => (.error (.formatting u.path fault), state)
    | (.ok text, state) =>
      let (done, state) := formatUnits f rest state
      (done.map ({ u with content := text } :: ·), state)

/-- The units of a set, compiled and formatted. -/
def build {σ : Type} (s : DocumentSet) (settings : Settings) (f : Formatter σ) (state : σ) :
    Except GenerateFault (List SourceUnit) × σ :=
  match compile s settings with
  | .error fault => (.error fault, state)
  | .ok units => formatUnits f units state

/-- Writes units in order and stops at the first that the sink refuses. -/
def writeUnits {σ : Type} (sink : Sink σ) : List SourceUnit → σ → Except GenerateFault Unit × σ
  | [], state => (.ok (), state)
  | u :: rest, state =>
    match sink u.path u.content state with
    | (.ok (), state) => writeUnits sink rest state
    | (.error fault, state) => (.error (.writing u.path fault), state)

/-- Builds every unit, then writes them. -/
def generate {σ : Type} (s : DocumentSet) (settings : Settings) (f : Formatter σ) (sink : Sink σ)
    (state : σ) : Except GenerateFault (List SourceUnit) × σ :=
  match build s settings f state with
  | (.error fault, state) => (.error fault, state)
  | (.ok units, state) =>
    match writeUnits sink units state with
    | (.ok (), state) => (.ok units, state)
    | (.error fault, state) => (.error fault, state)

/-- The records of the formatting that a generation does: one logged call for each unit up to the
first that fails. -/
def formatRecords {σ : Type} (f : Formatter σ) : List SourceUnit → σ → List LogRecord
  | [], _ => []
  | u :: rest, state =>
    let (result, state) := f u.path u.content state
    Formatter.records u.path u.content result ++
      match result with
      | .ok _ => formatRecords f rest state
      | .error _ => []

end WaylandZig.Zig
