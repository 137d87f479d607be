import WaylandZig.Command.Program
import WaylandZig.Text.Space

/-! # Host tools: lines of text

The tools that count, cut, order and repeat the lines of their input.
-/
namespace WaylandZig.Lines

open Program (Options OptionTable texts started complaint lines unlines reason)

def has (opts : Options) (b : UInt8) : Bool := opts.any fun o => o.1 == b

def value? (opts : Options) (b : UInt8) : Option Bytes :=
  ((opts.filter fun o => o.1 == b).getLast?).map Prod.snd

/-- The counts of a text that are asked for: lines, words, bytes. -/
def counts (opts : Options) (s : Bytes) : List Nat :=
  let all := !(has opts 0x6C || has opts 0x77 || has opts 0x63 || has opts 0x6D)
  let characters := (s.filter fun b => b < 0x80 || b ≥ 0xC0).length
  (if all || has opts 0x6C then [s.count Ascii.newline] else [])
    ++ (if all || has opts 0x77 then [(Space.words s).length] else [])
    ++ (if has opts 0x6D then [characters] else [])
    ++ (if all || has opts 0x63 then [s.length] else [])

def row (width : Nat) (name : Bytes) (ns : List Nat) : Bytes :=
  let column := fun (n : Nat) =>
    Bytes.spaces (width - (Numeral.decimal n).length) ++ Numeral.decimal n
  Bytes.joinWith " " (ns.map column ++ if name.isEmpty then [] else [name]) ++ "\n"

/-- Counts the lines, words and bytes of its files. Columns are as wide as the size of all files needs,
and the input counts as one of unknown size. -/
def wc : Program := Program.withOptions { flags := "lwcm" } 1 fun opts c =>
  let read := texts c
  let names := c.arguments
  let single := (counts opts []).length = 1
  let size := (read.map fun (_, r) => ((r.toOption).getD []).length).foldr (· + ·) 0
  let width :=
    if names.isEmpty || names.contains "-" then if single then 1 else 7
    else if single && names.length = 1 then 1
    else (Numeral.decimal size).length
  let failed := read.foldl (fun (r : ProgramResult) (name, content) =>
    match content with
    | .ok _ => r
    | .error e => complaint c (Quoting.name name ++ ": " ++ reason e) r 1) (started c)
  let shown := read.filterMap fun (name, content) =>
    (content.toOption).map fun s => row width (if names.isEmpty then [] else name) (counts opts s)
  let total := counts opts (read.flatMap fun (_, r) => (r.toOption).getD [])
  let sum := if names.length > 1 then [row width "total" total] else []
  failed.print ((shown ++ sum).flatten)

/-- The first lines of a text, with their ends. -/
def firstLines : Nat → Bytes → Bytes
  | _, [] => []
  | 0, _ => []
  | n + 1, b :: rest => b :: firstLines (if b = Ascii.newline then n else n + 1) rest

/-- A text without its first lines. -/
def dropLines : Nat → Bytes → Bytes
  | _, [] => []
  | 0, s => s
  | n + 1, b :: rest => dropLines (if b = Ascii.newline then n else n + 1) rest

def lineCount (s : Bytes) : Nat := (lines s).length

/-- Turns an option such as `-5` into the number of lines that it stands for. -/
def modern (args : List Bytes) : List Bytes :=
  match args with
  | first :: rest =>
    if first.length > 1 && first.startsWith "-" && first.tail.all Ascii.isDigit then
      "-n" :: first.tail :: rest
    else args
  | [] => []

/-- A count with the sign in front of it. -/
def signed? (s : Bytes) : Option (UInt8 × Nat) :=
  match s with
  | b :: rest =>
    if b = Ascii.dash || b = Ascii.plus then (Numeral.nat? 10 rest).map (b, ·)
    else (Numeral.nat? 10 s).map (Ascii.space, ·)
  | [] => none

/-- The front of a text: some lines or bytes, or all but some at its end. -/
def front (byBytes : Bool) (sign : UInt8) (n : Nat) (s : Bytes) : Bytes :=
  let all := if byBytes then s.length else lineCount s
  let count := if sign = Ascii.dash then all - n else n
  if byBytes then s.take count else firstLines count s

/-- The end of a text: some lines or bytes, or all from one on. -/
def back (byBytes : Bool) (sign : UInt8) (n : Nat) (s : Bytes) : Bytes :=
  let all := if byBytes then s.length else lineCount s
  let count := if sign = Ascii.plus then n - 1 else all - n
  if byBytes then s.drop count else dropLines count s

/-- How much of the input a tool takes at once, and so does not leave to others. -/
def blockSize : Nat := 8192

def partTable : OptionTable :=
  { flags := "qvz", valued := "nc", long := [("lines", 0x6E), ("bytes", 0x63), ("quiet", 0x71)] }

/-- The name of a file above its part, with a blank line to the part before. -/
def header (index : Nat) (name : Bytes) : Bytes :=
  let shown : Bytes := if name = "-" then "standard input" else name
  (if index = 0 then [] else [Ascii.newline]) ++ "==> " ++ shown ++ " <==\n"

/-- Adds the part of one file. -/
def addPart (c : Call) (headed : Bool) (cut : Bytes → Bytes) (r : ProgramResult)
    (item : (Bytes × Except Errno Bytes) × Nat) : ProgramResult :=
  let ((name, content), index) := item
  let top := if headed then header index name else []
  match content with
  | .ok s => r.print (top ++ cut s)
  | .error .isDirectory =>
    let shown : Bytes := if name = "-" then "standard input" else name
    complaint c ("error reading " ++ Quoting.word shown ++ ": " ++ reason .isDirectory) (r.print top) 1
  | .error e => complaint c ("cannot open " ++ Quoting.word name ++ " for reading: " ++ reason e) r 1

/-- Writes a part of each of its files, with the names of the files if there are several. -/
def part (cut : Bool → UInt8 → Nat → Bytes → Bytes) : Program := fun c =>
  Program.withOptions partTable 1 (fun opts c =>
    let given? := (opts.filter fun o => o.1 == 0x6E || o.1 == 0x63).getLast?
    let byBytes := given?.map Prod.fst == some 0x63
    let number := (given?.map Prod.snd).getD "10"
    match signed? number with
    | none =>
      let unit : Bytes := if byBytes then "bytes" else "lines"
      complaint c ("invalid number of " ++ unit ++ ": " ++ Quoting.text number) c.ignored 1
    | some (sign, n) =>
      let headed := (c.arguments.length > 1 || has opts 0x76) && !has opts 0x71
      let left := if c.arguments.isEmpty then c.stdin.drop blockSize else (started c).unread
      (texts c).zipIdx.foldl (addPart c headed (cut byBytes sign n)) { started c with unread := left })
    { c with arguments := modern c.arguments }

def head : Program := part front

def tail : Program := part back

/-- The number at the front of a line, as far as it can be compared: sign, whole part. -/
def leadingNumber (s : Bytes) : Int :=
  let s := s.dropWhile fun b => b == Ascii.space || b == Ascii.tab
  let digits := (if s.head? = some Ascii.dash then s.tail else s).takeWhile Ascii.isDigit
  let n : Int := ((Numeral.nat? 10 digits).getD 0 : Nat)
  if s.head? = some Ascii.dash then -n else n

/-- Orders the lines of its input. -/
def sort : Program := Program.withOptions { flags := "rnufs" } 2 fun opts =>
  Program.filter (fun n => "cannot read: " ++ Quoting.name n) 2 fun s =>
    let key := fun (l : Bytes) => if has opts 0x66 then l.map Ascii.toUpper else l
    let le := fun (a b : Bytes) =>
      if has opts 0x6E && leadingNumber a != leadingNumber b then leadingNumber a < leadingNumber b
      else if key a != key b then Bytes.le (key a) (key b)
      else Bytes.le a b
    let same := fun (a b : Bytes) =>
      if has opts 0x6E then leadingNumber a == leadingNumber b else key a == key b
    let ordered := (lines s).mergeSort fun a b => if has opts 0x72 then le b a else le a b
    unlines (if has opts 0x75 then
        (ordered.splitBy same).filterMap fun group => group.head?
      else ordered)

/-- Drops the lines that repeat the one in front of them. -/
def uniq : Program := Program.withOptions { flags := "cdui" } 1 fun opts =>
  Program.filter Quoting.name 1 fun s =>
    let same := fun (a b : Bytes) => if has opts 0x69 then Ascii.eqFold a b else a == b
    let groups := ((lines s).splitBy same).filter fun g =>
      (!has opts 0x64 || g.length > 1) && (!has opts 0x75 || g.length = 1)
    let count := fun (n : Nat) =>
      Bytes.spaces (7 - (Numeral.decimal n).length) ++ Numeral.decimal n ++ " "
    unlines (groups.filterMap fun g => g.head?.map fun l =>
      if has opts 0x63 then count g.length ++ l else l)

/-- The numbers that a list such as `1,3-5,7-` names. -/
def inList (spec : Bytes) (n : Nat) : Bool :=
  (spec.splitOn Ascii.comma).any fun item =>
    match Bytes.cut Ascii.dash item with
    | (one, none) => Numeral.nat? 10 one == some n
    | (first, some last) =>
      (Numeral.nat? 10 first).getD 1 ≤ n && n ≤ (Numeral.nat? 10 last).getD n

/-- Writes some of the fields or bytes of each line. -/
def cut : Program := Program.withOptions { flags := "s", valued := "bcdf" } 1 fun opts =>
  Program.filter Quoting.name 1 fun s =>
    let chosen := fun (spec : Bytes) (items : List Bytes) =>
      (items.zipIdx.filter fun (_, k) => inList spec (k + 1)).map Prod.fst
    let delimiter := (((value? opts 0x64).getD "\t").headD Ascii.tab)
    unlines ((lines s).filterMap fun l =>
      match value? opts 0x66, (value? opts 0x62).or (value? opts 0x63) with
      | some spec, _ =>
        if l.contains delimiter then
          some (Bytes.joinWith [delimiter] (chosen spec (l.splitOn delimiter)))
        else if has opts 0x73 then none
        else some l
      | none, some spec => some (chosen spec (l.map fun b => [b])).flatten
      | none, none => some l)

/-- Writes each line backwards. -/
def rev : Program := Program.filter (fun n => "cannot open " ++ n) 1 fun s =>
  Bytes.joinWith [Ascii.newline] ((s.splitOn Ascii.newline).map fun l =>
    Utf8.ofRunes (Utf8.runes l).reverse)

/-- Writes the lines in the opposite order. -/
def tac : Program := Program.filter (fun n => "failed to open " ++ Quoting.word n ++ " for reading") 1 fun s =>
  let parts := s.splitOn Ascii.newline
  let last := parts.getLast?.getD []
  last ++ unlines parts.dropLast.reverse

/-- Writes the input to a file or to one of the outputs. -/
def addCopy (c : Call) (append : Bool) (r : ProgramResult) (name : Bytes) : ProgramResult :=
  if name = "/dev/stderr" then { r with written := r.written ++ [(.err, c.stdin)] }
  else if name = "/dev/stdout" then r.print c.stdin
  else match r.files.locate name with
    | .error e => complaint c (Quoting.name name ++ ": " ++ reason e) r 1
    | .ok l =>
      match r.files.node? l with
      | some .directory => complaint c (Quoting.name name ++ ": " ++ reason .isDirectory) r 1
      | some (.file mode old) =>
        if !(FileNode.file mode old).mayWrite then
          complaint c (Quoting.name name ++ ": " ++ reason .permissionDenied) r 1
        else
          { r with files := r.files.put l (.file mode (if append then old ++ c.stdin else c.stdin)) }
      | none => { r with files := r.files.put l (.file c.fileMode c.stdin) }

/-- Writes its input to its output and to files. -/
def tee : Program := Program.withOptions { flags := "ai" } 1 fun opts c =>
  c.arguments.foldl (addCopy c (has opts 0x61)) { files := c.files, written := [(.out, c.stdin)] }

/-- The first number, the step and the last number of a count. -/
def bounds? (args : List Bytes) : Option (Int × Int × Int) := do
  match ← args.mapM Numeral.int64? with
  | [last] => some (1, 1, last)
  | [first, last] => some (first, 1, last)
  | [first, step, last] => if step = 0 then none else some (first, step, last)
  | _ => none

/-- Counts from one number to another. -/
def seq : Program := fun c =>
  match bounds? c.arguments with
  | none => Program.refuse c (if c.arguments.isEmpty then "missing operand" else "invalid argument") 1
  | some (first, step, last) =>
    let count := if (last - first) * step.sign < 0 then 0 else ((last - first).natAbs / step.natAbs) + 1
    let numbers := (List.range count).map fun (k : Nat) => Numeral.ofInt (first + step * (k : Int))
    c.ignored.print (unlines numbers)

end WaylandZig.Lines
