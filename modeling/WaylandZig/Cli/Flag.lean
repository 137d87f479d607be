import WaylandZig.Text.EditDistance
import WaylandZig.Text.Quoted

/-! # Commands and flags

The commands of the program, the flags each of them takes, and the flags that a mistyped one may have
been meant for.
-/
namespace WaylandZig.Cli

def programName : Bytes := "way2"

inductive Command where
  | gen
  | check
  | list
  | version
  deriving DecidableEq, Repr

/-- A place for arguments that are no flags. Roots take all that follow one another. -/
inductive Place where
  | out
  | roots
  deriving DecidableEq, Repr

inductive Flag where
  | help
  | config
  | logLevel
  | noFormat
  | formatter
  | onMismatch
  | skipInterface
  | eventsOnlyIndex
  deriving DecidableEq, Repr

namespace Flag

def name : Flag → Bytes
  | .help => "--help"
  | .config => "--config"
  | .logLevel => "--log-level"
  | .noFormat => "--no-format"
  | .formatter => "--formatter"
  | .onMismatch => "--on-mismatch"
  | .skipInterface => "--skip-interface"
  | .eventsOnlyIndex => "--events-only-index"

def spellings : Flag → List Bytes
  | .help => ["--help", "-h"]
  | .config => ["--config", "-c"]
  | f => [f.name]

/-- The flags that every command takes. -/
def common : List Flag := [.help, .config, .logLevel]

/-- The flags of the commands that compile. -/
def compiling : List Flag := [.noFormat, .formatter, .onMismatch, .skipInterface, .eventsOnlyIndex]

end Flag

namespace Command

def all : List Command := [.gen, .check, .list, .version]

/-- The command that runs when none is named. -/
def standard : Command := .gen

def name : Command → Bytes
  | .gen => "gen"
  | .check => "check"
  | .list => "list"
  | .version => "version"

def ofName? (name : Bytes) : Option Command := all.find? fun c => c.name == name

def places : Command → List Place
  | .gen => [.out, .roots]
  | .check => [.roots]
  | .list => [.roots]
  | .version => []

def flags : Command → List Flag
  | .gen => Flag.common ++ Flag.compiling
  | .check => Flag.common ++ Flag.compiling
  | .list => Flag.common
  | .version => Flag.common

/-- The arguments that a command takes, as its usage shows them. -/
def synopsis : Command → Bytes
  | .gen => "gen [<out> [<roots> ...]] [flags]"
  | .check => "check [<roots> ...] [flags]"
  | .list => "list [<roots> ...] [flags]"
  | .version => "version [flags]"

end Command

/-- Whether a spelling may have been meant: it goes on where the given one ends, or differs from it
in at most two places. -/
def isSimilar (given spelling : Bytes) : Bool :=
  spelling.startsWith given || EditDistance.distance spelling given ≤ 2

def similar (given : Bytes) (flags : List Flag) : List Bytes :=
  (flags.flatMap Flag.spellings).filter (isSimilar given)

/-- A proposal for what was meant, if there is any. -/
def proposal : List Bytes → Bytes
  | [] => []
  | [one] => ", did you mean " ++ Quoted.quote one ++ "?"
  | several => ", did you mean one of " ++ Bytes.joinWith ", " (several.map Quoted.quote) ++ "?"

def usage : Option Command → Bytes
  | none => "Usage: " ++ programName ++ " <command> [flags]\n"
  | some c => "Usage: " ++ programName ++ " " ++ c.synopsis ++ "\n"

end WaylandZig.Cli
