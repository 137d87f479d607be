import WaylandZig.Text.Quoted

/-! # Diagnostics

A fatal finding about a document set, with the document, interface and item it concerns as far as
they are known, and the text of what caused it. Warnings are findings that do not stop a run.
-/
namespace WaylandZig

inductive Code where
  | parseFailed
  | notProtocol
  | namespaceMismatch
  | invalidIdentifier
  | unresolvedReference
  | malformedReference
  | bitfieldWidth
  | enumValueRange
  | duplicateInterface
  | duplicateDocument
  | reservedUnitName
  | formatFailed
  | named (name : Bytes)
  deriving DecidableEq, Repr

def Code.name : Code → Bytes
  | .parseFailed => "parse_failed"
  | .notProtocol => "not_protocol"
  | .namespaceMismatch => "namespace_mismatch"
  | .invalidIdentifier => "invalid_identifier"
  | .unresolvedReference => "unresolved_reference"
  | .malformedReference => "malformed_reference"
  | .bitfieldWidth => "bitfield_width"
  | .enumValueRange => "enum_value_range"
  | .duplicateInterface => "duplicate_interface"
  | .duplicateDocument => "duplicate_document"
  | .reservedUnitName => "reserved_unit_name"
  | .formatFailed => "format_failed"
  | .named name => name

/-- An empty `document`, `interface` or `subject` is one that is not known. -/
structure Diagnostic where
  code : Code
  document : Bytes := []
  interface : Bytes := []
  subject : Bytes := []
  message : Bytes
  cause : Option Bytes := none
  deriving DecidableEq, Repr

namespace Diagnostic

/-- One part of a message in front of what it introduces, or nothing when it is not known. -/
def part (known text : Bytes) : Bytes := if known.isEmpty then [] else text ++ ": "

def reason : Option Bytes → Bytes
  | some cause => ": " ++ cause
  | none => []

def text (d : Diagnostic) : Bytes :=
  d.code.name ++ ": "
    ++ part d.document ("document " ++ Quoted.quote d.document)
    ++ part d.interface ("interface " ++ Quoted.quote d.interface)
    ++ part d.subject d.subject
    ++ d.message
    ++ reason d.cause

/-- Places the finding; an empty argument keeps what is already known. -/
def within (d : Diagnostic) (document interface : Bytes) : Diagnostic :=
  { d with
    document := if document.isEmpty then d.document else document
    interface := if interface.isEmpty then d.interface else interface }

def about (d : Diagnostic) (subject : Bytes) : Diagnostic := { d with subject := subject }

def causedBy (d : Diagnostic) (cause : Bytes) : Diagnostic := { d with cause := some cause }

end Diagnostic

structure Warning where
  code : Bytes
  message : Bytes
  deriving DecidableEq, Repr

def Warning.text (w : Warning) : Bytes := w.code ++ ": " ++ w.message

end WaylandZig
