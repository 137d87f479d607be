import WaylandZig.Generation

/-! # Builders

A configuration that is put together step by step and then run, into a directory or in memory only.
A step gives a new builder and a run changes none.
-/
namespace WaylandZig

open Zig

/-- `formatter?` replaces the formatter command, and a quiet builder logs nothing. -/
structure Builder where
  config : Config := {}
  formatter? : Option (Formatter FileTree) := none
  quiet : Bool := false

namespace Builder

def ofRoots (roots : List Bytes) : Builder := { config := { roots := roots } }

def ofConfig (c : Config) : Builder := { config := c }

def withFormatter (b : Builder) (f? : Option (Formatter FileTree)) : Builder :=
  { b with formatter? := f? }

def formatCommand (b : Builder) (command? : Option (List Bytes)) : Builder :=
  { b with config := { b.config with formatter := command? } }

def noFormat (b : Builder) : Builder := { b with config := { b.config with noFormat := true } }

def onMismatch (b : Builder) (policy : Bytes) : Builder :=
  { b with config := { b.config with onMismatch := policy } }

def skipInterfaces (b : Builder) (names : List Bytes) : Builder :=
  { b with config := { b.config with skipInterfaces := b.config.skipInterfaces ++ names } }

def typeMapping (b : Builder) (kind type : Bytes) : Builder :=
  { b with config := { b.config with typeMappings := Config.mapType kind type b.config.typeMappings } }

def unitNames (b : Builder) (types index : Bytes) : Builder :=
  { b with config := { b.config with typesUnit := types, indexUnit := index } }

def eventsOnlyIndex (b : Builder) : Builder :=
  { b with config := { b.config with eventsOnlyIndex := true } }

def silence (b : Builder) : Builder := { b with quiet := true }

/-- Runs a configuration in a file tree with the formatter of the builder. -/
def generate (b : Builder) (c : Config) (run : Runner FileTree) (t : FileTree) : Generation.Outcome :=
  let outcome := Generation.run (Generation.formatterOf c b.formatter? run false) false c t
  if b.quiet then { outcome with records := [] } else outcome

/-- Generates every unit into a directory. -/
def toDir (b : Builder) (dir : Bytes) (run : Runner FileTree) (t : FileTree) : Generation.Outcome :=
  b.generate { b.config with outDir := dir, dryRun := false } run t

/-- Compiles and formats every unit and writes none. -/
def check (b : Builder) (run : Runner FileTree) (t : FileTree) : Generation.Outcome :=
  b.generate { b.config with dryRun := true } run t

end Builder

end WaylandZig
