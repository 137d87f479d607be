import WaylandZig.Ascii

/-! # Host shell: options of a script

Reading of the options that a script was given, one letter at a time. Letters may stand together behind
one dash, and a letter may take the rest of its argument or the next argument as its value.
-/
namespace WaylandZig.Shell

/-- Where the reading stands: the number of the next argument, counted from one, and the place in the
argument before it from which letters are left. -/
structure OptionScan where
  next : Nat := 1
  offset? : Option Nat := none
  deriving DecidableEq, Repr

namespace OptionScan

/-- What was found: a letter with its value, a letter that is unknown or lacks its value, or the end. -/
inductive Found where
  | letter (b : UInt8) (value : Bytes)
  | unknown (b : UInt8)
  | lacking (b : UInt8)
  | finished
  deriving DecidableEq, Repr

/-- What stands behind a letter where letters are declared; a colon there asks for a value. -/
def declared? (b : UInt8) : Bytes → Option Bytes
  | [] => none
  | x :: Ascii.colon :: more => if x = b then some (Ascii.colon :: more) else declared? b more
  | x :: rest => if x = b then some rest else declared? b rest

/-- The letters that are left of the argument before the next. -/
def letters (scan : OptionScan) (args : List Bytes) : Bytes :=
  match scan.offset? with
  | none => []
  | some n => if scan.next ≤ 1 then [] else (args[scan.next - 2]?.getD []).drop n

/-- Takes a letter, `rest` being what follows it in its argument and `next` the number of the argument
behind that. -/
def take (declared : Bytes) (args : List Bytes) (b : UInt8) (rest : Bytes) (next : Nat) :
    Found × OptionScan :=
  let behind := (args[next - 2]?.getD []).length - rest.length
  match declared? b declared with
  | none => (.unknown b, { next := next, offset? := some behind })
  | some (Ascii.colon :: _) =>
    match rest, args[next - 1]? with
    | [], none => (.lacking b, { next := next })
    | [], some value => (.letter b value, { next := next + 1 })
    | value, _ => (.letter b value, { next := next })
  | some _ => (.letter b [], { next := next, offset? := some behind })

/-- Begins with the next argument. -/
def fresh (declared : Bytes) (args : List Bytes) (next : Nat) : Found × OptionScan :=
  match args[next - 1]? with
  | some (Ascii.dash :: b :: rest) =>
    if b = Ascii.dash && rest.isEmpty then (.finished, { next := next + 1 })
    else take declared args b rest (next + 1)
  | _ => (.finished, { next := next })

/-- Finds the next letter. A reading that has left the arguments behind starts anew. -/
def step (declared : Bytes) (args : List Bytes) (scan : OptionScan) : Found × OptionScan :=
  let scan := if scan.next > args.length + 1 then {} else scan
  match scan.letters args with
  | b :: rest => take declared args b rest scan.next
  | [] => fresh declared args scan.next

end OptionScan

end WaylandZig.Shell
