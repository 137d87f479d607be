import WaylandZig.Shell.State

/-! # Host shell: listings

How a shell shows what it keeps: variables, options, aliases, traps and the programs it has found. Values
are shown in the form in which a script could read them back.
-/
namespace WaylandZig.Shell.Listing

/-- A value in quotes, of which apostrophes need others than the rest. -/
def quotedFrom : Nat → Bytes → Bytes
  | 0, _ => []
  | fuel + 1, s =>
    let plain : Bytes := s.takeWhile (· != Ascii.apostrophe)
    let marks : Bytes := (s.drop plain.length).takeWhile (· == Ascii.apostrophe)
    let rest := s.drop (plain.length + marks.length)
    let shown : Bytes := if marks.isEmpty then [] else "\"" ++ marks ++ "\""
    "'" ++ plain ++ "'" ++ shown ++ if rest.isEmpty then [] else quotedFrom fuel rest

def quoted (s : Bytes) : Bytes := quotedFrom (s.length + 1) s

/-- A name with its value, if it has one. -/
def pair (name : Bytes) (value? : Option Bytes) : Bytes :=
  match value? with
  | some value => name ++ "=" ++ quoted value
  | none => name

def ordered (bindings : List (Bytes × Variable)) : List (Bytes × Variable) :=
  bindings.mergeSort fun a b => Bytes.le a.1 b.1

/-- The variables of some nature, with words in front of each. -/
def variablesOf (lead : Bytes) (keep : Variable → Bool) (s : State) : Bytes :=
  Program.unlines (((ordered s.bindings).filter fun x => keep x.2).map fun x =>
    lead ++ pair x.1 x.2.value?)

/-- The options with their letters; two have none. -/
def options : List (Bytes × Option UInt8) :=
  [("errexit", some 0x65), ("noglob", some 0x66), ("ignoreeof", some 0x49), ("interactive", some 0x69),
    ("monitor", some 0x6D), ("noexec", some 0x6E), ("stdin", some 0x73), ("xtrace", some 0x78),
    ("verbose", some 0x76), ("vi", some 0x56), ("emacs", some 0x45), ("noclobber", some 0x43),
    ("allexport", some 0x61), ("notify", some 0x62), ("nounset", some 0x75), ("privileged", some 0x70),
    ("nolog", none), ("debug", none)]

def isOn (s : State) (letter? : Option UInt8) : Bool := (letter?.map s.hasOption).getD false

/-- The options as a table, or as commands that set them. -/
def optionTable (asCommands : Bool) (s : State) : Bytes :=
  let row := fun (x : Bytes × Option UInt8) =>
    let on := isOn s x.2
    if asCommands then Bytes.ofString (if on then "set -o " else "set +o ") ++ x.1
    else x.1 ++ Bytes.spaces (16 - x.1.length) ++ Bytes.ofString (if on then "on" else "off")
  let title : Bytes := if asCommands then [] else "Current option settings\n"
  title ++ Program.unlines (options.map row)

/-- The place of a name in a table with a number of rows. -/
def rowOf (rows : Nat) (name : Bytes) : Nat :=
  (((name.headD 0).toNat * 16 + (name.map UInt8.toNat).foldr (· + ·) 0) % 0x8000) % rows

/-- Items in the order of their rows, those of one row as they came. -/
def byRow {α : Type} (rows : Nat) (name : α → Bytes) (items : List α) : List α :=
  items.mergeSort fun a b => rowOf rows (name a) ≤ rowOf rows (name b)

def aliasLine (a : Bytes × Bytes) : Bytes := pair a.1 (some a.2) ++ "\n"

def aliases (s : State) : Bytes := (byRow 39 Prod.fst s.aliases).flatMap aliasLine

def traps (s : State) : Bytes :=
  let inOrder := s.traps.mergeSort fun a b => a.1 ≤ b.1
  Program.unlines (inOrder.map fun (n, action) =>
    "trap -- " ++ quoted action ++ " " ++ Signal.name n)

end WaylandZig.Shell.Listing
