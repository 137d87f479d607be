import WaylandZig.Shell.Listing

/-! # Host shell: builtins

A builtin is a command that changes the state of the shell itself, which no program could do. While it
runs, complaints name it. A fault of a builtin ends the script only if the builtin is a special one.
-/
namespace WaylandZig.Shell

/-- A command as a part of the language. -/
abbrev Builtin := List Bytes → State → State

namespace Builtin

def done (s : State) (status : Nat) : State := { s with status := status }

def succeed : Builtin := fun _ s => done s 0

/-- Goes on with a number that is written in digits only. -/
def number (w : Bytes) (s : State) (use : Nat → State) : State :=
  match Numeral.nat? 10 w with
  | some n => use n
  | none => s.abort ("Illegal number: " ++ w)

/-- The letters of options behind a dash, and the one that still wants its value. -/
def cluster (flags valued : Bytes) : Bytes → Except Bytes (Program.Options × Option UInt8)
  | [] => .ok ([], none)
  | b :: rest =>
    if flags.contains b then
      (cluster flags valued rest).map fun (opts, last?) => ((b, []) :: opts, last?)
    else if valued.contains b then .ok (if rest.isEmpty then ([], some b) else ([(b, rest)], none))
    else .error ("Illegal option -" ++ [b])

/-- Tells the options in front of arguments from the arguments. -/
def optionsOf (flags valued : Bytes) : List Bytes → Except Bytes (Program.Options × List Bytes)
  | [] => .ok ([], [])
  | arg :: rest =>
    match arg with
    | Ascii.dash :: b :: more =>
      if arg = "--" then .ok ([], rest)
      else
        match cluster flags valued (b :: more), rest with
        | .error text, _ => .error text
        | .ok (opts, none), rest =>
          (optionsOf flags valued rest).map fun (others, args) => (opts ++ others, args)
        | .ok (opts, some b), value :: rest =>
          (optionsOf flags valued rest).map fun (others, args) => (opts ++ (b, value) :: others, args)
        | .ok (_, some b), [] => .error ("No arg for -" ++ [b] ++ " option")
    | _ => .ok ([], arg :: rest)

/-- Runs a builtin on its options and arguments. -/
def withOptions (flags : Bytes) (valued : Bytes) (use : Program.Options → Builtin) : Builtin :=
  fun args s =>
    match optionsOf flags valued args with
    | .error text => s.abort text
    | .ok (opts, args) => use opts args s

def has (opts : Program.Options) (b : UInt8) : Bool := opts.any fun o => o.1 == b

/-- Carries out a step for each argument until one is at fault. -/
def each (step : State → Bytes → State) (args : List Bytes) (s : State) : State :=
  args.foldl (fun s arg => if s.jump?.isSome then s else step s arg) s

end Builtin

end WaylandZig.Shell
