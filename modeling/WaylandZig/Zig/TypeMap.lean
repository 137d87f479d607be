import WaylandZig.Schema.Model
import WaylandZig.Text.Quoted

/-! # Zig types of arguments

Each argument kind has a Zig type, which a configuration may replace. A file descriptor travels
outside the message and has none.
-/
namespace WaylandZig.Zig

open Schema

/-- Zig types by the schema name of the argument kind they replace. -/
abbrev TypeMappings := List (Bytes × Bytes)

def defaultType : ArgKind → Bytes
  | .int => "i32"
  | .uint => "u32"
  | .fixed => "f64"
  | .object => "u32"
  | .newId => "u32"
  | .string => "types.String"
  | .array => "types.Array"
  | .fd => []
  | .unknown => []

structure TypeMap where
  replaced : List (ArgKind × Bytes) := []
  deriving DecidableEq, Repr

namespace TypeMap

inductive Fault where
  | unsupported (kind : Bytes)
  | empty (kind : Bytes)
  deriving DecidableEq, Repr

def Fault.text : Fault → Bytes
  | .unsupported kind => "type mapping for unsupported argument kind " ++ Quoted.quote kind
  | .empty kind => "empty type mapping for argument kind " ++ Quoted.quote kind

def replacement (mapping : Bytes × Bytes) : Except Fault (ArgKind × Bytes) :=
  match ArgKind.ofName? mapping.1 with
  | none => .error (.unsupported mapping.1)
  | some .fd => .error (.unsupported mapping.1)
  | some kind => if mapping.2.isEmpty then .error (.empty mapping.1) else .ok (kind, mapping.2)

/-- Mappings are looked at in the order of their kind names, so the first fault in that order is
the one reported. -/
def ofMappings (mappings : TypeMappings) : Except Fault TypeMap :=
  ((mappings.mergeSort fun a b => Bytes.le a.1 b.1).mapM replacement).map (⟨·⟩)

def typeOf (m : TypeMap) (kind : ArgKind) : Bytes :=
  (m.replaced.lookup kind).getD (defaultType kind)

end TypeMap

structure Field where
  name : Bytes
  type : Bytes
  deriving DecidableEq, Repr

/-- Whether an argument is typed by the enum it names. -/
def takesEnum (arg : Arg) : Bool := !arg.enum.isEmpty && (arg.kind == .uint || arg.kind == .int)

/-- The struct fields of an argument. An object of an interface that is only known when the message
is sent carries the interface name and version ahead of its id. A non-empty `enumType` replaces the
type of the kind. -/
def TypeMap.fields (m : TypeMap) (arg : Arg) (name enumType : Bytes) : List Field :=
  if arg.kind = .fd then []
  else if arg.kind = .newId ∧ arg.interface = [] then
    [⟨"interface", m.typeOf .string⟩, ⟨"version", m.typeOf .uint⟩, ⟨name, m.typeOf .newId⟩]
  else if enumType ≠ [] then [⟨name, enumType⟩]
  else [⟨name, m.typeOf arg.kind⟩]

end WaylandZig.Zig
