import WaylandZig.FileTree.Access
import WaylandZig.Log
import WaylandZig.Schema.DocumentSet
import WaylandZig.Schema.Reader

/-! # Loading

Documents are read from a file tree into a set. A file whose root is no protocol is passed over or
refused, as the policy says. Warnings concern the document as it was read, before interfaces are
left out.
-/
namespace WaylandZig

open Schema

/-- What becomes of a file whose root element is no protocol. -/
inductive MismatchPolicy where
  | skip
  | warn
  | error
  deriving DecidableEq, Repr

/-- Any other name stands for passing over. -/
def MismatchPolicy.ofName (name : Bytes) : MismatchPolicy :=
  if name = "error" then .error else if name = "warn" then .warn else .skip

inductive LoadFault where
  | canceled
  | document (path : Bytes) (fault : ReadFault)
  deriving DecidableEq, Repr

namespace LoadFault

def diagnostic? : LoadFault → Option Diagnostic
  | .canceled => none
  | .document path fault => some (fault.diagnostic path)

def text (f : LoadFault) : Bytes :=
  match f.diagnostic? with
  | some d => d.text
  | none => "context canceled"

end LoadFault

/-- What one file contributes to a run. -/
structure Loaded where
  document? : Option Document := none
  warnings : List Warning := []
  records : List LogRecord := []

namespace Loading

def readDocument (t : FileTree) (path : Bytes) : Except ReadFault Document :=
  match t.openForReading path with
  | .error e => .error (.unopened e.text)
  | .ok node =>
    match FileTree.contentOf path node with
    | .error e => .error (.noRoot (.unreadable e.text))
    | .ok text => Document.read path text

def missingNameSpace (d : Document) (path : Bytes) : Warning × LogRecord :=
  (⟨"missing_namespace", "protocol " ++ Quoted.quote d.name ++ " has no namespace"⟩,
    ⟨.warn, "protocol has no namespace", [("protocol", d.name), ("path", path)]⟩)

def outsideNameSpace (d : Document) (i : Interface) : Warning × LogRecord :=
  (⟨Code.namespaceMismatch.name,
      "protocol " ++ Quoted.quote d.name ++ ": interface " ++ Quoted.quote i.name
        ++ " does not start with " ++ Quoted.quote (d.nameSpace ++ "_")⟩,
    ⟨.warn, "interface outside namespace",
      [("protocol", d.name), ("interface", i.name), ("namespace", d.nameSpace)]⟩)

/-- A document without a name space is reported once, and any other for each interface outside of
it. -/
def nameSpaceWarnings (d : Document) (path : Bytes) : List (Warning × LogRecord) :=
  if d.nameSpace.isEmpty then [missingNameSpace d path]
  else (d.interfaces.filter fun i => !i.name.startsWith (d.nameSpace ++ "_")).map (outsideNameSpace d)

def withoutInterfaces (d : Document) (skip : List Bytes) : Document :=
  { d with interfaces := d.interfaces.filter fun i => !skip.contains i.name }

def loadedRecord (d : Document) : LogRecord :=
  ⟨.debug, "loaded document",
    [("protocol", d.name), ("namespace", d.nameSpace),
      ("interfaces", Numeral.decimal d.interfaces.length)]⟩

def accepted (path : Bytes) (skip : List Bytes) (d : Document) : Loaded :=
  let found := nameSpaceWarnings d path
  let d := withoutInterfaces d skip
  ⟨some d, found.map Prod.fst, found.map Prod.snd ++ [loadedRecord d]⟩

def passedOver (path : Bytes) : MismatchPolicy → Loaded
  | .warn =>
    { warnings := [⟨Code.notProtocol.name, path ++ ": skipped, " ++ ReadFault.otherRoot⟩]
      records := [⟨.warn, "skipping document",
        [("path", path), ("reason", ReadFault.otherRoot)]⟩] }
  | _ => { records := [⟨.debug, "skipping document", [("path", path)]⟩] }

def loadFile (t : FileTree) (policy : MismatchPolicy) (skip : List Bytes) (path : Bytes) :
    Except LoadFault Loaded :=
  match readDocument t path with
  | .ok d => .ok (accepted path skip d)
  | .error fault =>
    if fault.isNotProtocol ∧ policy ≠ .error then .ok (passedOver path policy)
    else .error (.document path fault)

/-- Loads files up to the first that fails, with the records of those before it. -/
def loadFiles (t : FileTree) (canceled : Bool) (policy : MismatchPolicy) (skip : List Bytes) :
    List Bytes → Except LoadFault (List Loaded) × List LogRecord
  | [] => (.ok [], [])
  | path :: rest =>
    if canceled then (.error .canceled, [])
    else match loadFile t policy skip path with
      | .error fault => (.error fault, [])
      | .ok one =>
        let (more, records) := loadFiles t canceled policy skip rest
        (more.map (one :: ·), one.records ++ records)

def load (t : FileTree) (canceled : Bool) (policy : MismatchPolicy) (skip : List Bytes)
    (paths : List Bytes) : Except LoadFault DocumentSet × List LogRecord :=
  let (result, records) := loadFiles t canceled policy skip paths
  (result.map fun parts => ⟨parts.filterMap Loaded.document?, parts.flatMap Loaded.warnings⟩, records)

end Loading

end WaylandZig
