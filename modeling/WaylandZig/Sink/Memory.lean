import WaylandZig.Sink.Basic

/-! # Memory sink

Units kept in memory, one for each path. It stands in for a directory where nothing is to be written.
-/
namespace WaylandZig

/-- Stored units, each path once. -/
structure MemorySink where
  units : List (Bytes × Bytes) := []
  deriving DecidableEq, Repr

namespace MemorySink

def get? (s : MemorySink) (path : Bytes) : Option Bytes := s.units.lookup path

def insert (s : MemorySink) (path content : Bytes) : MemorySink :=
  ⟨s.units.filter (fun u => u.1 ≠ path) ++ [(path, content)]⟩

/-- The stored paths in lexical order. -/
def paths (s : MemorySink) : List Bytes := Bytes.sort (s.units.map Prod.fst)

def write (canceled : Bool) : Sink MemorySink := fun path content s =>
  match Sink.admit canceled path with
  | .error fault => (.error fault, s)
  | .ok () => (.ok (), s.insert path content)

end MemorySink

end WaylandZig
