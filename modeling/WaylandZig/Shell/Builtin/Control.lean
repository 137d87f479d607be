import WaylandZig.Shell.Builtin.Basic

/-! # Host shell: builtins for the course of a script

The builtins that end scripts, functions and loops, and those that set options and arguments.
-/
namespace WaylandZig.Shell.Builtin

def exit : Builtin := fun args s =>
  match args with
  | [] => s.jump .exit
  | w :: _ => number w s fun n => (done s (n % 256)).jump .exit

def leave : Builtin := fun args s =>
  match args with
  | [] => s.jump .leave
  | w :: _ => number w s fun n => (done s n).jump .leave

/-- Ends loops or goes on with their next round. Outside of loops there is nothing to do. -/
def loopControl (jump : Nat → Jump) : Builtin := fun args s =>
  let w := args.headD "1"
  number w s fun n =>
    if n = 0 then s.abort ("Illegal number: " ++ w)
    else if s.loops = 0 then done s 0
    else (done s 0).jump (jump (min n s.loops))

def shift : Builtin := fun args s =>
  number (args.headD "1") s fun n =>
    if n > s.arguments.length then s.abort "can't shift that many"
    else { done s 0 with arguments := s.arguments.drop n, scan := {} }

/-- What options say: the letters that are set, whether a script is given as an argument, the listings
that are asked for, and whether the options were ended by a mark. -/
structure Switches where
  letters : Bytes := []
  script : Bool := false
  listings : List Bool := []
  ended : Bool := false
  deriving DecidableEq, Repr

namespace Switches

def put (w : Switches) (on : Bool) (letter : UInt8) : Switches :=
  let others := w.letters.filter (· != letter)
  { w with letters := if on then others ++ [letter] else others }

/-- Sets the option that a name stands for; without a name a listing is asked for. -/
def name (w : Switches) (on : Bool) : List Bytes → Except Bytes (Switches × List Bytes)
  | [] => .ok ({ w with listings := w.listings ++ [!on] }, [])
  | x :: rest =>
    match Listing.options.lookup x with
    | some (some letter) => .ok (w.put on letter, rest)
    | some none => .ok (w, rest)
    | none => .error ("Illegal option -o " ++ x)

/-- Sets the options that letters stand for, of which some take their names from the arguments. -/
def cluster (starting on : Bool) :
    Bytes → Switches → List Bytes → Except Bytes (Switches × List Bytes)
  | [], w, args => .ok (w, args)
  | b :: rest, w, args =>
    if b = 0x63 && starting then cluster starting on rest { w with script := true } args
    else if b = 0x6F then
      match w.name on args with
      | .error text => .error text
      | .ok (w, args) => cluster starting on rest w args
    else if State.optionOrder.contains b then cluster starting on rest (w.put on b) args
    else .error ("Illegal option -" ++ [b])

/-- Reads options up to the first argument that is none. -/
def read (starting : Bool) : Nat → Switches → List Bytes → Except Bytes (Switches × List Bytes)
  | 0, w, args => .ok (w, args)
  | _, w, [] => .ok (w, [])
  | fuel + 1, w, arg :: rest =>
    if arg = "--" then .ok ({ w with ended := true }, rest)
    else if arg = "-" then
      .ok (if starting then w else (w.put false 0x78).put false 0x76, rest)
    else
      let letters := arg.tail
      match arg.head?, rest with
      | some Ascii.dash, rest =>
        match cluster starting true letters w rest with
        | .error text => .error text
        | .ok (w, rest) => read starting fuel w rest
      | some Ascii.plus, rest =>
        match cluster starting false letters w rest with
        | .error text => .error text
        | .ok (w, rest) => read starting fuel w rest
      | _, _ => .ok (w, arg :: rest)

end Switches

/-- Sets options, then the arguments if some are given. Without anything it lists the variables. -/
def setOptions : Builtin := fun args s =>
  if args.isEmpty then
    done (s.emit 1 (Listing.variablesOf [] (fun v => v.value?.isSome) s)) 0
  else match Switches.read false args.length { letters := s.options } args with
    | .error text => s.abort text
    | .ok (w, rest) =>
      let s := { done s 0 with options := w.letters }
      let s := w.listings.foldl (fun (s : State) l => s.emit 1 (Listing.optionTable l s)) s
      if rest.isEmpty && !w.ended then s else { s with arguments := rest, scan := {} }

end WaylandZig.Shell.Builtin
