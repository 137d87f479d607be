import WaylandZig.Config.Basic
import WaylandZig.Discovery
import WaylandZig.Loading
import WaylandZig.Sink.Directory
import WaylandZig.Sink.Memory
import WaylandZig.Zig.Generator

/-! # Generation runs

A run takes a configuration and a file tree all the way: it finds the documents, loads them,
compiles and formats every unit, and writes the units unless it is a dry run. A run that fails before
it writes leaves the tree as its formatter left it.
-/
namespace WaylandZig.Generation

open Schema Zig

/-- `documents` are the paths of all that was found, and `protocols` the names of what was loaded. -/
structure Result where
  documents : List Bytes
  protocols : List Bytes
  units : List SourceUnit
  interfaces : Nat
  warnings : List Warning
  deriving DecidableEq, Repr

inductive Fault where
  | invalidConfig (problems : List ConfigProblem)
  | discovery (error : FileError)
  | loading (fault : LoadFault)
  | generation (fault : GenerateFault)
  deriving DecidableEq, Repr

def Fault.text : Fault → Bytes
  | .invalidConfig problems => Config.problemsText problems
  | .discovery error => "failed to discover documents: " ++ error.text
  | .loading fault => fault.text
  | .generation fault => fault.text

/-- What a run leaves behind: its result, the file tree and its log. -/
structure Outcome where
  result : Except Fault Result
  files : FileTree
  records : List LogRecord

/-- The formatter of a configuration: none when formatting is off, else the one that is given, else
the command. -/
def formatterOf {σ : Type} (c : Config) (given? : Option (Formatter σ)) (run : Runner σ)
    (canceled : Bool) : Formatter σ :=
  if c.noFormat then Formatter.unchanged
  else given?.getD (Formatter.piped run (c.formatter.getD []) canceled)

/-- Generates into memory on a dry run, and into the output directory otherwise. -/
def write (f : Formatter FileTree) (canceled : Bool) (c : Config) (s : DocumentSet) (t : FileTree) :
    Except GenerateFault (List SourceUnit) × FileTree :=
  if c.dryRun then
    let (units, state) :=
      generate s c.settings f.onFirst (Sink.onSecond (MemorySink.write canceled)) (t, {})
    (units, state.1)
  else generate s c.settings f ((DirectorySink.replacing c.outDir).write canceled) t

def foundRecord (d : FoundDocument) : LogRecord :=
  ⟨.debug, "discovered document", [("path", d.path), ("category", d.category.name)]⟩

def emittedRecord (u : SourceUnit) : LogRecord :=
  ⟨.debug, "emitted unit", [("path", u.path), ("size", Numeral.decimal u.content.length)]⟩

/-- The log of the formatting, which takes place once everything is compiled. -/
def formattingRecords (f : Formatter FileTree) (c : Config) (s : DocumentSet) (t : FileTree) :
    List LogRecord :=
  match compile s c.settings with
  | .ok units => formatRecords f units t
  | .error _ => []

def completeRecord (c : Config) (s : DocumentSet) (r : Result) : LogRecord :=
  ⟨.info, "generation complete",
    [("documents", Numeral.decimal s.documents.length),
      ("interfaces", Numeral.decimal r.interfaces),
      ("units", Numeral.decimal r.units.length),
      ("warnings", Numeral.decimal r.warnings.length),
      ("dry_run", if c.dryRun then "true" else "false")]⟩

def resultOf (paths : List Bytes) (s : DocumentSet) (units : List SourceUnit) : Result :=
  { documents := paths
    protocols := s.names
    units := units
    interfaces := s.interfaceCount
    warnings := s.warnings }

/-- The part of a run that follows loading. -/
def finish (f : Formatter FileTree) (canceled : Bool) (c : Config) (paths : List Bytes)
    (s : DocumentSet) (t : FileTree) (before : List LogRecord) : Outcome :=
  let log := before ++ formattingRecords f c s t
  match write f canceled c s t with
  | (.error fault, t) => ⟨.error (.generation fault), t, log⟩
  | (.ok units, t) =>
    let r := resultOf paths s units
    ⟨.ok r, t, log ++ units.map emittedRecord ++ [completeRecord c s r]⟩

/-- A whole run with its formatter. -/
def run (f : Formatter FileTree) (canceled : Bool) (c : Config) (t : FileTree) : Outcome :=
  if !c.problems.isEmpty then ⟨.error (.invalidConfig c.problems), t, []⟩
  else
    match Discovery.find t c.roots with
    | .error e => ⟨.error (.discovery e), t, []⟩
    | .ok found =>
      let paths := found.map FoundDocument.path
      match Loading.load t canceled (MismatchPolicy.ofName c.onMismatch) c.skipInterfaces paths with
      | (.error fault, log) => ⟨.error (.loading fault), t, found.map foundRecord ++ log⟩
      | (.ok s, log) => finish f canceled c paths s t (found.map foundRecord ++ log)

end WaylandZig.Generation
