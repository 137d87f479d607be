import WaylandZig.Text.Quoted
import WaylandZig.Text.Space

/-! # Log records

What a run reports about its progress: records of a level, a message and attributes in order, and
their form as text lines.
-/
namespace WaylandZig

/-- Levels are numbers, so that a threshold may lie between the named ones. -/
inductive LogLevel where
  | debug
  | info
  | warn
  | error
  deriving DecidableEq, Repr

namespace LogLevel

def all : List LogLevel := [.debug, .info, .warn, .error]

def severity : LogLevel → Int
  | .debug => -4
  | .info => 0
  | .warn => 4
  | .error => 8

def name : LogLevel → Bytes
  | .debug => "DEBUG"
  | .info => "INFO"
  | .warn => "WARN"
  | .error => "ERROR"

/-- The text in upper case as far as level names go: the ASCII letters, and the dotless i. -/
def upper (s : Bytes) : Bytes :=
  (Utf8.runes s).flatMap fun r =>
    if r = .char (Char.ofNat 0x131) then "I" else r.bytes.map Ascii.toUpper

/-- The severity that a text such as `info` or `WARN+2` names, as a number of 64 bits. -/
def threshold? (s : Bytes) : Option Int :=
  let isSign := fun b => b == Ascii.plus || b == Ascii.dash
  let word := s.takeWhile fun b => !isSign b
  let offset? := if word.length = s.length then some 0 else Numeral.int64? (s.drop word.length)
  match all.find? (fun l => l.name == upper word), offset? with
  | some l, some offset => some (Int.bmod (l.severity + offset) (Nat.pow 2 64))
  | _, _ => none

end LogLevel

structure LogRecord where
  level : LogLevel
  message : Bytes
  attributes : List (Bytes × Bytes) := []
  deriving DecidableEq, Repr

namespace LogRecord

def needsQuotes (s : Bytes) : Bool :=
  s.isEmpty || (Utf8.runes s).any fun
    | .stray _ => true
    | .char c =>
      if c.toNat < 0x80 then
        c.toNat ≤ 0x20 || c == '"' || c == '='
      else c == Rune.replacement || Space.isSpace c || !Printable.isPrintable c

/-- A value as it stands in a line, quoted when it could not be read back otherwise. -/
def shown (s : Bytes) : Bytes := if needsQuotes s then Quoted.quote s else s

def shownAttribute (key value : Bytes) : Bytes := " " ++ shown key ++ "=" ++ shown value

def line (r : LogRecord) : Bytes :=
  "level=" ++ r.level.name ++ " msg=" ++ shown r.message
    ++ r.attributes.flatMap (fun (key, value) => shownAttribute key value) ++ "\n"

end LogRecord

end WaylandZig
