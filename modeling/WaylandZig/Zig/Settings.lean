import WaylandZig.Zig.TypeMap

/-! # Generator settings

How units are named, typed and laid out. An empty unit name and an indent that is not positive stand
for the default.
-/
namespace WaylandZig.Zig

structure Settings where
  typesUnit : Bytes := []
  indexUnit : Bytes := []
  typeMappings : TypeMappings := []
  eventsOnlyIndex : Bool := false
  indentSize : Int := 0
  deriving DecidableEq, Repr

namespace Settings

def defaultTypesUnit : Bytes := "types"

def defaultIndexUnit : Bytes := "proto"

def defaultIndentSize : Int := 4

def withDefaults (s : Settings) : Settings :=
  { s with
    typesUnit := if s.typesUnit.isEmpty then defaultTypesUnit else s.typesUnit
    indexUnit := if s.indexUnit.isEmpty then defaultIndexUnit else s.indexUnit
    indentSize := if s.indentSize ≤ 0 then defaultIndentSize else s.indentSize }

end Settings

end WaylandZig.Zig
