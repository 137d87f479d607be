import WaylandZig.Config.File
import WaylandZig.Log

/-! # Options

What a command line says about a run. An option that was not given keeps what the configuration file
holds.
-/
namespace WaylandZig

/-- An empty `file` is that no configuration file was given. -/
structure CommonOptions where
  file : Bytes := []
  logLevel : Bytes := "warn"
  deriving DecidableEq, Repr

structure CompileOptions where
  noFormat : Bool := false
  formatter : Bytes := []
  onMismatch : Bytes := []
  skipInterfaces : List Bytes := []
  eventsOnlyIndex : Bool := false
  deriving DecidableEq, Repr

namespace CommonOptions

def config (o : CommonOptions) (t : FileTree) : Except ConfigFileFault Config :=
  if o.file.isEmpty then .ok {} else ConfigFile.load t o.file

/-- The least severity that is logged; a level that cannot be read stands for `warn`. -/
def threshold (o : CommonOptions) : Int :=
  (LogLevel.threshold? o.logLevel).getD LogLevel.warn.severity

def logs (o : CommonOptions) (l : LogLevel) : Bool := o.threshold ≤ l.severity

end CommonOptions

namespace CompileOptions

/-- Lays the options over a configuration. The formatter is a command line of words. -/
def applyTo (o : CompileOptions) (c : Config) : Config :=
  let words := Space.words o.formatter
  { c with
    noFormat := c.noFormat || o.noFormat
    formatter := if words.isEmpty then c.formatter else some words
    onMismatch := if o.onMismatch.isEmpty then c.onMismatch else o.onMismatch
    skipInterfaces := c.skipInterfaces ++ o.skipInterfaces
    eventsOnlyIndex := c.eventsOnlyIndex || o.eventsOnlyIndex }

end CompileOptions

/-- Roots that are given replace those of the configuration. -/
def Config.withRoots (c : Config) (roots : List Bytes) : Config :=
  if roots.isEmpty then c else { c with roots := roots }

end WaylandZig
