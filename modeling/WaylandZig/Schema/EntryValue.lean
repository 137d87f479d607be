import WaylandZig.Text.Numeral
import WaylandZig.Text.Space

/-! # Values of enum entries

An entry value is written in base ten, or in base sixteen after `0x` or `0X`. Leading zeros do not
change the base, and white space around the value does not count.
-/
namespace WaylandZig.Schema

structure EntryValue where
  number : UInt64
  hex : Bool
  deriving DecidableEq, Repr

namespace EntryValue

def read? (s : Bytes) : Option EntryValue :=
  match Space.trim s with
  | 0x30 :: x :: d :: ds =>
    if x = 0x78 ∨ x = 0x58 then (Numeral.uint64? 16 (d :: ds)).map (⟨·, true⟩)
    else (Numeral.uint64? 10 (0x30 :: x :: d :: ds)).map (⟨·, false⟩)
  | raw => (Numeral.uint64? 10 raw).map (⟨·, false⟩)

def text (v : EntryValue) : Bytes :=
  if v.hex then "0x" ++ Numeral.hex v.number.toNat else Numeral.decimal v.number.toNat

end EntryValue

end WaylandZig.Schema
