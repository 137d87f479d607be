import WaylandZig.Shell.Builtin.Basic

/-! # Host shell: builtins for variables

The builtins that declare and remove variables, and those that fill them from lines and from the options
of a script.
-/
namespace WaylandZig.Shell.Builtin

def unsetVariable (s : State) (name : Bytes) : State :=
  if !isName name then s.abort (name ++ ": bad variable name")
  else if (s.binding? name).any (·.fixed) then s.abort (name ++ ": is read only")
  else if name = "OPTIND" then s.abort "Illegal number: "
  else s.removeVariable name

def unset : Builtin := withOptions "fv" [] fun opts names s =>
  if has opts 0x66 then
    { done s 0 with functions := s.functions.filter fun f => !names.contains f.1 }
  else each unsetVariable names (done s 0)

/-- Changes the nature of a variable, which may get a value as well. -/
def declareOne (change : Variable → Variable) (s : State) (arg : Bytes) : State :=
  let (x, value?) := Bytes.cut Ascii.equals arg
  if !isName x then s.abort (x ++ ": bad variable name")
  else
    let s := match value? with
      | some value => s.assign x value
      | none => s
    if s.jump?.isSome then s else s.putVariable x (change ((s.binding? x).getD {}))

/-- Declares variables, or lists those that are of the nature. -/
def declare (name : Bytes) (change : Variable → Variable) (keep : Variable → Bool) : Builtin :=
  withOptions "p" [] fun opts args s =>
    if args.isEmpty || !opts.isEmpty then
      done (s.emit 1 (Listing.variablesOf (name ++ " ") keep s)) 0
    else each (declareOne change) args (done s 0)

/-- Makes a variable end with the function that it is made in. A dash means the options. -/
def localOne (s : State) (arg : Bytes) : State :=
  let (x, value?) := Bytes.cut Ascii.equals arg
  if arg = "-" then { s with replacedOptions? := some (s.replacedOptions?.getD s.options) }
  else if !isName x then s.abort (x ++ ": bad variable name")
  else
    let known := s.replaced.any fun r => r.1 = x
    let s := if known then s else { s with replaced := (x, s.binding? x) :: s.replaced }
    match value? with
    | some value => s.assign x value
    | none => s

def makeLocal : Builtin := fun args s =>
  if !s.inFunction then s.abort "not in a function" else each localOne args (done s 0)

/-- The bytes of a line that is read, with those escaped that a backslash protects, then the rest of the
text, and whether the line had an end. -/
def lineMarks (raw : Bool) : Bytes → List Mark × Bytes × Bool
  | [] => ([], [], false)
  | Ascii.newline :: rest => ([], rest, true)
  | Ascii.backslash :: Ascii.newline :: rest =>
    if raw then ([.expanded Ascii.backslash], rest, true) else lineMarks raw rest
  | Ascii.backslash :: b :: rest =>
    let (ms, rest, ended) := lineMarks raw rest
    (if raw then .expanded Ascii.backslash :: .expanded b :: ms else .quoted b :: ms, rest, ended)
  | b :: rest =>
    let (ms, rest, ended) := lineMarks raw rest
    (.expanded b :: ms, rest, ended)

def isSeparator (separators : Bytes) (white : Bool) : Mark → Bool
  | .expanded b => separators.contains b && Mark.isWhite b == white
  | _ => false

/-- The fields that a line gives to some variables, of which the last takes what is left. -/
def shares (separators : Bytes) : Nat → List Mark → List Bytes
  | 0, _ => []
  | n + 1, ms =>
    let ms := ms.dropWhile (isSeparator separators true)
    if n = 0 then
      match Mark.fields separators ms with
      | [] => [[]]
      | [field] => [field.bytes]
      | _ => [Mark.text [] ((ms.reverse.dropWhile (isSeparator separators true)).reverse)]
    else
      let isEnd := fun m => isSeparator separators true m || isSeparator separators false m
      let field := ms.takeWhile fun m => !isEnd m
      let rest := (ms.drop field.length).dropWhile (isSeparator separators true)
      let rest := match rest with
        | m :: more => if isSeparator separators false m then more else rest
        | [] => []
      Mark.text [] field :: shares separators n rest

def read : Builtin := withOptions "r" "p" fun opts names s =>
  if names.isEmpty then s.abort "arg count"
  else
    let (ms, rest, ended) := lineMarks (has opts 0x72) (s.readable 0)
    let s := s.setReadable 0 rest
    let give := fun (s : State) (item : Bytes × Bytes) =>
      if s.jump?.isSome then s
      else if isName item.1 then s.assign item.1 item.2
      else s.abort (item.1 ++ ": bad variable name")
    (names.zip (shares s.separators names.length ms)).foldl give (done s (if ended then 0 else 1))

/-- Tells what was found of the options of a script. A colon in front of the declared letters asks for
silence, and then the letter at fault is told instead of a message. -/
def report (silent : Bool) (found : OptionScan.Found) (s : State) : State × UInt8 :=
  let blame := fun (sign b : UInt8) (text : Bytes) =>
    if silent then (s.assign "OPTARG" [b], sign)
    else ((s.emit 2 text).removeVariable "OPTARG", Ascii.question)
  match found with
  | .letter b value => (s.assign "OPTARG" value, b)
  | .unknown b => blame Ascii.question b ("Illegal option -" ++ [b] ++ "\n")
  | .lacking b => blame Ascii.colon b ("No arg for -" ++ [b] ++ " option\n")
  | .finished => (s, Ascii.question)

/-- Finds the next option of a script and puts its letter in a variable. -/
def getopts : Builtin := fun args s =>
  match args with
  | declared :: name :: given =>
    let args := if given.isEmpty then s.arguments else given
    let (found, scan) := s.scan.step declared args
    let (s, letter) := report (declared.head? == some Ascii.colon) found s
    let counted := { (s.binding? "OPTIND").getD {} with value? := some (Numeral.decimal scan.next) }
    let s := s.putVariable "OPTIND" counted
    if !isName name then s.abort (name ++ ": bad variable name")
    else
      let s := { s.assign name [letter] with scan := scan }
      if s.jump?.isSome then s else done s (if found = .finished then 1 else 0)
  | _ => s.abort "Usage: getopts optstring var [arg...]"

end WaylandZig.Shell.Builtin
