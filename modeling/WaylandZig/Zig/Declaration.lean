import WaylandZig.Schema.EntryValue
import WaylandZig.Zig.Bitfield
import WaylandZig.Zig.TypeMap
import WaylandZig.Zig.Writer

/-! # Declarations

What a document unit declares, with every name already an identifier, and how it is written. One
struct per interface holds the request and event enums, the payload types of both, and the enums of
the interface.
-/
namespace WaylandZig.Zig

structure MessageDecl where
  name : Bytes
  fields : List Field
  deriving DecidableEq, Repr

structure EnumMember where
  name : Bytes
  value : Schema.EntryValue
  deriving DecidableEq, Repr

inductive EnumDecl where
  | plain (name : Bytes) (members : List EnumMember)
  | bitfield (name : Bytes) (fields : List BitField)
  deriving DecidableEq, Repr

def EnumDecl.name : EnumDecl → Bytes
  | .plain name _ => name
  | .bitfield name _ => name

structure InterfaceDecl where
  name : Bytes
  requests : List MessageDecl
  events : List MessageDecl
  enums : List EnumDecl
  deriving DecidableEq, Repr

/-- `notice` is the copyright notice as comment lines. -/
structure UnitDecl where
  notice : List Bytes
  typesUnit : Bytes
  interfaces : List InterfaceDecl
  deriving DecidableEq, Repr

def Field.text (f : Field) : Bytes := f.name ++ ": " ++ f.type ++ ","

def EnumMember.text (m : EnumMember) : Bytes := m.name ++ " = " ++ m.value.text ++ ","

def BitField.text : BitField → Bytes
  | .flag name => name ++ ": bool,"
  | .padding bits => "_: u" ++ Numeral.decimal bits ++ ","

/-- The tags of the messages, in wire order. -/
def writeTags (head : Bytes) (messages : List MessageDecl) (w : Writer) : Writer :=
  w.block head ";" fun w => w.lines (messages.map fun m => m.name ++ ",")

def MessageDecl.write (m : MessageDecl) (head tail : Bytes) (w : Writer) : Writer :=
  w.block head tail fun w => w.lines (m.fields.map Field.text)

/-- The arms of the request union. -/
def writeRequests (messages : List MessageDecl) (w : Writer) : Writer :=
  w.block "pub const rq = union(request) \x7b" ";" fun w =>
    messages.foldl (fun w m => m.write (m.name ++ ": struct \x7b") "," w) w

/-- The payload structs of the events. -/
def writeEvents (messages : List MessageDecl) (w : Writer) : Writer :=
  w.block "pub const ev = struct \x7b" ";" fun w =>
    messages.foldl (fun w m => m.write ("pub const " ++ m.name ++ " = struct \x7b") ";" w) w

/-- The check that a bitfield record has the width it was laid out for. -/
def widthCheck (name : Bytes) : Bytes :=
  "if (@bitSizeOf(@This()) != " ++ Numeral.decimal BitLayout.recordWidth
    ++ ") @compileError(\"invalid bitfield " ++ name ++ "\");"

def EnumDecl.write (w : Writer) : EnumDecl → Writer
  | .plain name members =>
    w.block ("pub const " ++ name ++ " = enum(u32) \x7b") ";" fun w =>
      w.lines (members.map EnumMember.text)
  | .bitfield name fields =>
    let w := (w.open_ ("pub const " ++ name ++ " = packed struct(u32) \x7b")).lines
      (fields.map BitField.text)
    let w := (w.blank.open_ "comptime \x7b").line (widthCheck name)
    (w.close "\x7d").close "\x7d;"

def InterfaceDecl.write (w : Writer) (i : InterfaceDecl) : Writer :=
  let w := w.open_ ("pub const " ++ i.name ++ " = struct \x7b")
  let w := (writeTags "pub const request = enum \x7b" i.requests w).blank
  let w := (writeTags "pub const event = enum \x7b" i.events w).blank
  let w := (writeRequests i.requests w).blank
  let w := writeEvents i.events w
  let w := i.enums.foldl (fun w e => EnumDecl.write w.blank e) w
  w.close "\x7d;"

def importOf (unit : Bytes) : Bytes := "@import(\"" ++ unit ++ ".zig\")"

def UnitDecl.write (w : Writer) (u : UnitDecl) : Writer :=
  let w := if u.notice.isEmpty then w else (w.lines u.notice).blank
  let w := w.line ("const types = " ++ importOf u.typesUnit ++ ";")
  u.interfaces.foldl (fun w i => InterfaceDecl.write w.blank i) w

def UnitDecl.text (u : UnitDecl) (indent : Nat) : Bytes := (u.write { indent := indent }).text

end WaylandZig.Zig
