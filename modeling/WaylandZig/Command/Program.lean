import WaylandZig.Command.Quoting
import WaylandZig.FileTree.Access

/-! # Host tools: programs

A program is a function of the way it is called: its name and arguments, the files it finds and its
input. What it writes keeps the order in which the two outputs were written, since both may lead to one
place.

The tools belong to the host that formatter commands run on, and not to the generator: see
`CommandHost`. All modules under `Command` serve it alone.
-/
namespace WaylandZig

inductive Stream where
  | out
  | err
  deriving DecidableEq, Repr

/-- What a program has written, the files and the status it leaves, and the input it left unread. -/
structure ProgramResult where
  files : FileTree
  written : List (Stream × Bytes) := []
  status : Nat := 0
  unread : Bytes := []
  deriving DecidableEq, Repr

/-- How a program is called. The current directory of the files is the one it works in, and the files
that its input comes from and its output goes to are given if there are such. New files lack the
permissions in the mask. The input and the output may be closed. -/
structure Call where
  name : Bytes
  files : FileTree
  arguments : List Bytes
  stdin : Bytes := []
  source? : Option Location := none
  target? : Option Location := none
  mask : Nat := 0o022
  closedInput : Bool := false
  closedOutput : Bool := false
  deriving DecidableEq, Repr

abbrev Program := Call → ProgramResult

/-- The mode of a file that a program makes. -/
def Call.fileMode (c : Call) : Nat := 0o666 &&& (0o777 - c.mask)

/-- What a program leaves that does nothing. -/
def Call.ignored (c : Call) : ProgramResult := { files := c.files, unread := c.stdin }

namespace ProgramResult

def print (r : ProgramResult) (s : Bytes) : ProgramResult :=
  { r with written := r.written ++ [(.out, s)] }

def complain (r : ProgramResult) (s : Bytes) (status : Nat) : ProgramResult :=
  { r with written := r.written ++ [(.err, s ++ [Ascii.newline])], status := status }

def stream (r : ProgramResult) (s : Stream) : Bytes :=
  (r.written.filter fun w => w.1 = s).flatMap Prod.snd

end ProgramResult

namespace Program

/-- The wording that the tools have for an error. -/
def reason : Errno → Bytes
  | .notFound => "No such file or directory"
  | .notDirectory => "Not a directory"
  | .isDirectory => "Is a directory"
  | .exists_ => "File exists"
  | .nameTooLong => "File name too long"
  | .invalidArgument => "Invalid argument"
  | .badDescriptor => "Bad file descriptor"
  | .permissionDenied => "Permission denied"

/-- What is left of a program whose output is closed: only that it could not write. -/
def withoutOutput (c : Call) (r : ProgramResult) : ProgramResult :=
  if (r.stream .out).isEmpty then r
  else
    { r with
      written := (r.written.filter fun w => w.1 = .err)
        ++ [(.err, c.name ++ ": write error: " ++ reason .badDescriptor ++ "\n")]
      status := 1 }

/-- Complains under the name that the tool was called by. -/
def complaint (c : Call) (text : Bytes) (r : ProgramResult) (status : Nat) : ProgramResult :=
  r.complain (c.name ++ ": " ++ text) status

/-- Refuses the arguments of a tool and says where its use is told. -/
def refuse (c : Call) (text : Bytes) (status : Nat) : ProgramResult :=
  (complaint c text c.ignored status).complain
    ("Try '" ++ c.name ++ " --help' for more information.") status

/-- The options that a tool takes: letters alone, letters with a value, and longer names for both. -/
structure OptionTable where
  flags : Bytes := []
  valued : Bytes := []
  long : List (Bytes × UInt8) := []
  /-- Whether options may follow operands. -/
  anywhere : Bool := true

abbrev Options := List (UInt8 × Bytes)

namespace OptionTable

/-- The letters behind a dash, and the one that still wants its value. -/
def cluster (o : OptionTable) : Bytes → Except Bytes (Options × Option UInt8)
  | [] => .ok ([], none)
  | b :: rest =>
    if o.flags.contains b then (cluster o rest).map fun (opts, last) => ((b, []) :: opts, last)
    else if o.valued.contains b then
      .ok (if rest.isEmpty then ([], some b) else ([(b, rest)], none))
    else .error ("invalid option -- '" ++ [b] ++ "'")

/-- The long options that a name is short for. A full name is short for itself only. -/
def candidates (o : OptionTable) (name : Bytes) : List (Bytes × UInt8) :=
  match o.long.lookup name with
  | some b => [(name, b)]
  | none => o.long.filter fun (long, _) => long.startsWith name

/-- The options of a long argument, and the letter that still wants its value. -/
def longOption (o : OptionTable) (arg : Bytes) : Except Bytes (Options × Option UInt8) :=
  let (name, value?) := Bytes.cut Ascii.equals (arg.drop 2)
  match o.candidates name with
  | [(name, b)] =>
    match o.valued.contains b, value? with
    | true, some value => .ok ([(b, value)], none)
    | true, none => .ok ([], some b)
    | false, none => .ok ([(b, [])], none)
    | false, some _ => .error ("option '--" ++ name ++ "' doesn't allow an argument")
  | [] => .error ("unrecognized option '" ++ arg ++ "'")
  | several =>
    let names : List Bytes := several.map fun (long, _) => " '--" ++ long ++ "'"
    .error ("option '" ++ arg ++ "' is ambiguous; possibilities:" ++ names.flatten)

/-- Tells the options of a command line from its operands. -/
def read (o : OptionTable) : List Bytes → Except Bytes (Options × List Bytes)
  | [] => .ok ([], [])
  | arg :: rest =>
    if arg = "--" then .ok ([], rest)
    else if arg.startsWith "-" ∧ arg ≠ "-" then
      match if arg.startsWith "--" then o.longOption arg else o.cluster arg.tail, rest with
      | .error text, _ => .error text
      | .ok (opts, none), rest => (read o rest).map fun (more, operands) => (opts ++ more, operands)
      | .ok (opts, some b), value :: rest =>
        (read o rest).map fun (more, operands) => (opts ++ (b, value) :: more, operands)
      | .ok (_, some b), [] => .error ("option requires an argument -- '" ++ [b] ++ "'")
    else if o.anywhere then (read o rest).map fun (opts, operands) => (opts, arg :: operands)
    else .ok ([], arg :: rest)

end OptionTable

/-- Runs a tool on its options and operands. -/
def withOptions (table : OptionTable) (failure : Nat) (run : Options → Program) : Program := fun c =>
  match table.read c.arguments with
  | .error text => refuse c text failure
  | .ok (opts, operands) => run opts { c with arguments := operands }

/-- Whether a file that a tool is given is its input. -/
def isInput (name : Bytes) : Bool := name == "-" || name == "/dev/stdin"

/-- What can be read from the input. A directory cannot be read. -/
def inputText (c : Call) : Except Errno Bytes :=
  match c.closedInput, c.source?.bind c.files.node? with
  | true, _ => .error .badDescriptor
  | false, some .directory => .error .isDirectory
  | false, _ => .ok c.stdin

/-- The texts of files, of which the input can be read only once. -/
def textsFrom (c : Call) : List Bytes → List (Bytes × Except Errno Bytes)
  | [] => []
  | name :: rest =>
    if isInput name then (name, inputText c) :: textsFrom { c with stdin := [] } rest
    else (name, (c.files.readFile name).mapError FileError.errno) :: textsFrom c rest

/-- The files that a tool is given; without any it reads its input. -/
def fileNames (c : Call) : List Bytes := if c.arguments.isEmpty then ["-"] else c.arguments

def texts (c : Call) : List (Bytes × Except Errno Bytes) := textsFrom c (fileNames c)

/-- What a tool leaves that has read its files and has done nothing else yet. -/
def started (c : Call) : ProgramResult :=
  { files := c.files, unread := if (fileNames c).any isInput then [] else c.stdin }

/-- The lines of a text without their ends. A text that ends in a newline has no line behind it. -/
def lines (s : Bytes) : List Bytes :=
  let parts := s.splitOn Ascii.newline
  if parts.getLast? = some [] then parts.dropLast else parts

def unlines (ls : List Bytes) : Bytes := ls.flatMap (· ++ [Ascii.newline])

/-- A tool that works on the whole of its input, file after file. `blamed` is how it speaks of a file
that it cannot read. -/
def filter (blamed : Bytes → Bytes) (failure : Nat) (f : Bytes → Bytes) : Program := fun c =>
  let read := texts c
  let failed := read.foldl (fun (r : ProgramResult) (name, content) =>
    match content with
    | .ok _ => r
    | .error e => complaint c (blamed name ++ ": " ++ reason e) r failure) (started c)
  failed.print (f (read.flatMap fun (_, r) => (r.toOption).getD []))

end Program

end WaylandZig
