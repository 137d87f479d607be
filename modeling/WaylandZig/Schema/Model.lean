import WaylandZig.Bytes

/-! # Protocol documents

A document declares interfaces; an interface declares requests, events and enums, each in an order
that matters on the wire.
-/
namespace WaylandZig.Schema

/-- The wire type of an argument. `unknown` is a kind that the schema does not name; no document
that was read has one. -/
inductive ArgKind where
  | int
  | uint
  | fixed
  | object
  | newId
  | string
  | array
  | fd
  | unknown
  deriving DecidableEq, Repr

namespace ArgKind

/-- The kinds that the schema names. -/
def all : List ArgKind := [.int, .uint, .fixed, .object, .newId, .string, .array, .fd]

def name : ArgKind → Bytes
  | .int => "int"
  | .uint => "uint"
  | .fixed => "fixed"
  | .object => "object"
  | .newId => "new_id"
  | .string => "string"
  | .array => "array"
  | .fd => "fd"
  | .unknown => "unknown"

def ofName? (name : Bytes) : Option ArgKind := all.find? fun kind => kind.name == name

end ArgKind

inductive MessageKind where
  | request
  | event
  | unknown
  deriving DecidableEq, Repr

/-- The kinds that the schema names. -/
def MessageKind.all : List MessageKind := [.request, .event]

def MessageKind.name : MessageKind → Bytes
  | .request => "request"
  | .event => "event"
  | .unknown => "unknown"

/-- `enum` and `interface` are empty when the argument names none. -/
structure Arg where
  name : Bytes
  kind : ArgKind
  enum : Bytes := []
  interface : Bytes := []
  allowNull : Bool := false
  deriving DecidableEq, Repr

structure Message where
  name : Bytes
  kind : MessageKind
  args : List Arg := []
  deriving DecidableEq, Repr

/-- `hex` records that the value was written in base sixteen. -/
structure Entry where
  name : Bytes
  value : UInt64
  hex : Bool := false
  deriving DecidableEq, Repr

structure Enum where
  name : Bytes
  bitfield : Bool := false
  entries : List Entry := []
  deriving DecidableEq, Repr

structure Interface where
  name : Bytes
  version : Int := 0
  requests : List Message := []
  events : List Message := []
  enums : List Enum := []
  deriving DecidableEq, Repr

def Interface.findEnum? (i : Interface) (name : Bytes) : Option Enum :=
  i.enums.find? fun e => e.name == name

/-- `nameSpace` is the token that the interface names share in front, or empty. `source` is where
the document was read from. -/
structure Document where
  name : Bytes
  nameSpace : Bytes := []
  copyright : Bytes := []
  source : Bytes := []
  interfaces : List Interface := []
  deriving DecidableEq, Repr

namespace Document

def interfaceNames (d : Document) : List Bytes := d.interfaces.map Interface.name

/-- The position of the first interface of that name. -/
def findInterface? (d : Document) (name : Bytes) : Option Nat :=
  d.interfaces.findIdx? fun i => i.name == name

end Document

end WaylandZig.Schema
