import WaylandZig.Diagnostic
import WaylandZig.Schema.Model

/-! # Bitfield layout

A bitfield enum becomes a packed record of 32 bits. Each entry whose value is a single bit becomes a
flag at that bit, and padding fills what lies between. Zero and the values of several bits name
combinations and take no storage.
-/
namespace WaylandZig.Zig

open Schema

inductive BitField where
  | flag (name : Bytes)
  | padding (bits : Nat)
  deriving DecidableEq, Repr

namespace BitField

def bits : BitField → Nat
  | .flag _ => 1
  | .padding n => n

def flagName? : BitField → Option Bytes
  | .flag name => some name
  | .padding _ => none

/-- The field of one entry; an entry without a name only keeps its bit occupied. -/
def ofEntry (e : Entry) : BitField := if e.name.isEmpty then .padding 1 else .flag e.name

end BitField

namespace BitLayout

/-- The width of every bitfield record. -/
def recordWidth : Nat := 32

def width (fields : List BitField) : Nat := (fields.map BitField.bits).foldr (· + ·) 0

def flags (fields : List BitField) : List Bytes := fields.filterMap BitField.flagName?

def isSingleBit (v : UInt64) : Bool := v != 0 && (v &&& (v - 1)) == 0

/-- The position of the only bit of `v`. -/
def bitIndex (v : UInt64) : Nat := v.toNat.log2

def gap (bits : Nat) : List BitField := if bits = 0 then [] else [.padding bits]

/-- The fields of single-bit entries in rising order, `next` being the first bit not yet covered. -/
def fieldsFrom : List Entry → Nat → List BitField
  | [], next => gap (recordWidth - next)
  | e :: rest, next =>
    gap (bitIndex e.value - next) ++ BitField.ofEntry e :: fieldsFrom rest (bitIndex e.value + 1)

def fields (entries : List Entry) : List BitField :=
  fieldsFrom ((entries.mergeSort fun a b => a.value ≤ b.value).filter fun e =>
    isSingleBit e.value) 0

def wrongWidth (fields : List BitField) : Diagnostic :=
  { code := .bitfieldWidth
    message := "record is " ++ Numeral.decimal (width fields) ++ " bits wide, want "
      ++ Numeral.decimal recordWidth }

/-- The layout, unless a bit past the record or two entries of one bit make it too wide. -/
def layout (entries : List Entry) : Except Diagnostic (List BitField) :=
  if width (fields entries) = recordWidth then .ok (fields entries)
  else .error (wrongWidth (fields entries))

end BitLayout

end WaylandZig.Zig
