import WaylandZig.Command.Program

/-! # Host tools: showing files

The tool that writes its files one after the other, and the ways it can show their bytes: with line
numbers, with marks at the ends of lines, and with letters in place of controls.
-/
namespace WaylandZig.Cat

structure Style where
  numbered : Bool := false
  numberedFilled : Bool := false
  squeezed : Bool := false
  ends : Bool := false
  tabs : Bool := false
  controls : Bool := false
  deriving DecidableEq, Repr

def Style.add (s : Style) (option : UInt8) : Style :=
  match option with
  | 0x41 => { s with ends := true, tabs := true, controls := true }
  | 0x45 => { s with ends := true }
  | 0x54 => { s with tabs := true }
  | 0x62 => { s with numberedFilled := true }
  | 0x65 => { s with ends := true, controls := true }
  | 0x6E => { s with numbered := true }
  | 0x73 => { s with squeezed := true }
  | 0x74 => { s with tabs := true, controls := true }
  | 0x76 => { s with controls := true }
  | _ => s

def table : Program.OptionTable :=
  { flags := "AETbenstuv"
    long := [("number-nonblank", 0x62), ("number", 0x6E), ("squeeze-blank", 0x73),
      ("show-nonprinting", 0x76), ("show-ends", 0x45), ("show-tabs", 0x54), ("show-all", 0x41)] }

/-- Where in the text of all files the tool is. -/
structure Position where
  line : Nat := 0
  atStart : Bool := true
  emptyLines : Nat := 0
  deriving DecidableEq, Repr

/-- A byte below 128 with controls as letters behind a caret. -/
def shownAscii (s : Style) (b : UInt8) : Bytes :=
  if b = Ascii.tab then if s.tabs then "^I" else [b]
  else if !s.controls then [b]
  else if b < 0x20 then [Ascii.caret, b + 0x40]
  else if b = 0x7F then "^?"
  else [b]

/-- A byte above ASCII is shown as the one 128 below it, with a mark in front. -/
def shown (s : Style) (b : UInt8) : Bytes :=
  if b < 0x80 || !s.controls then shownAscii s b
  else "M-" ++
    if b < 0xA0 then [Ascii.caret, b - 0x40] else if b = 0xFF then "^?" else [b - 0x80]

/-- The number of a line in its column. -/
def label (n : Nat) : Bytes :=
  Bytes.spaces (6 - (Numeral.decimal n).length) ++ Numeral.decimal n ++ [Ascii.tab]

/-- What is written for a byte, and where the tool is behind it. -/
def step (s : Style) (p : Position) (b : UInt8) (next? : Option UInt8) : Bytes × Position :=
  if b = Ascii.newline then
    let emptyLines := if p.atStart then p.emptyLines + 1 else 0
    let counted := p.atStart && s.numbered && !s.numberedFilled
    if s.squeezed && emptyLines ≥ 2 then ([], { p with emptyLines := emptyLines })
    else
      ((if counted then label (p.line + 1) else []) ++ (if s.ends then [Ascii.dollar] else []) ++ [b],
        { line := if counted then p.line + 1 else p.line, atStart := true, emptyLines := emptyLines })
  else
    let counted := p.atStart && (s.numbered || s.numberedFilled)
    let line := if counted then p.line + 1 else p.line
    let mark : Bytes := if s.ends && b == Ascii.carriageReturn && next? == some Ascii.newline then "^M"
      else shown s b
    ((if counted then label line else []) ++ mark, { line := line, atStart := false, emptyLines := 0 })

/-- The text that a style shows, and where the tool is behind it. -/
def render (s : Style) : Bytes → Position → Bytes × Position
  | [], p => ([], p)
  | b :: rest, p =>
    let (text, p) := step s p b rest.head?
    let (more, p) := render s rest p
    (text ++ more, p)

/-- Where a file stands that would be written while it is read. -/
def locationOf? (c : Call) (name : Bytes) : Option Location :=
  if Program.isInput name then c.source? else (c.files.find name).toOption.map Prod.fst

def showAll (c : Call) (s : Style) :
    List (Bytes × Except Errno Bytes) → Position → ProgramResult → ProgramResult
  | [], _, r => r
  | (name, .error e) :: rest, p, r =>
    showAll c s rest p (Program.complaint c (Quoting.name name ++ ": " ++ Program.reason e) r 1)
  | (name, .ok text) :: rest, p, r =>
    if c.target?.isSome && c.target? == locationOf? c name && !text.isEmpty then
      showAll c s rest p (Program.complaint c (Quoting.name name ++ ": input file is output file") r 1)
    else if s = {} then showAll c s rest p (r.print text)
    else
      let (text, p) := render s text p
      showAll c s rest p (r.print text)

/-- Complains once more of an input that was to be read and is closed. -/
def closeInput (c : Call) (r : ProgramResult) : ProgramResult :=
  if c.closedInput && (Program.fileNames c).any Program.isInput then
    Program.complaint c ("closing standard input: " ++ Program.reason .badDescriptor) r 1
  else r

def program : Program := Program.withOptions table 1 fun opts c =>
  let style := opts.foldl (fun (s : Style) o => s.add o.1) {}
  if c.closedOutput then
    Program.complaint c ("standard output: " ++ Program.reason .badDescriptor) c.ignored 1
  else closeInput c (showAll c style (Program.texts c) {} (Program.started c))

end WaylandZig.Cat
