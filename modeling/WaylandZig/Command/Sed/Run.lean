import WaylandZig.Command.Lines
import WaylandZig.Command.Sed.Script

/-! # Host tools: the stream editor

Takes its input line by line, changes each as the script says and writes it. A line that the input does
not end is not ended in the output either.
-/
namespace WaylandZig.Sed

/-- The state of the editor: the lines still to come, each with whether it is ended, the line at work
and the one on hold, and what is written, newest first. -/
structure Machine where
  input : List (Bytes × Bool)
  number : Nat := 0
  space : Bytes := []
  ended : Bool := true
  hold : Bytes := []
  holdEnded : Bool := true
  replaced : Bool := false
  /-- The ranges that have begun, by instruction, with their last line if it is known. -/
  ranges : List (Nat × Option Nat) := []
  /-- The texts that follow the line. -/
  queue : List Bytes := []
  written : List Bytes := []
  /-- Whether the line written last is not ended. -/
  open_ : Bool := false
  status : Nat := 0

namespace Machine

def output (m : Machine) : Bytes := m.written.reverse.flatten

/-- Writes whole lines. -/
def write (m : Machine) (text : Bytes) : Machine :=
  { m with written := text :: (if m.open_ then [[Ascii.newline]] else []) ++ m.written, open_ := false }

/-- Writes a line, and ends it if the line at work is ended. -/
def writeLine (m : Machine) (line : Bytes) : Machine :=
  { m.write (if m.ended then line ++ [Ascii.newline] else line) with open_ := !m.ended }

/-- Ends the line written last. -/
def close (m : Machine) : Machine := if m.open_ then m.write [] else m

def flush (m : Machine) : Machine := { m.queue.foldl write m with queue := [] }

/-- The next line, of which `join` says what the line at work becomes. -/
def advance? (m : Machine) (join : Bytes → Bytes) : Option Machine :=
  match m.input with
  | [] => none
  | (line, ended) :: rest =>
    some { m.flush with input := rest, number := m.number + 1, space := join line, ended := ended }

def addressed (m : Machine) : Address → Bool
  | .line n => m.number == n
  | .every first step => if step = 0 then m.number == first
    else decide (first ≤ m.number) && (m.number - first) % step == 0
  | .last => m.input.isEmpty
  | .matching r => r.matchesWithin m.space

/-- The range of an instruction has begun at this line. It holds no other line if its end is known and
not further on. -/
def enter (m : Machine) (index : Nat) (bound : Bound) : Machine :=
  let known? := match bound with
    | .further k => some (m.number + k)
    | .address (.line n) => some n
    | .address _ => none
  let finished := match bound with
    | .address .last => m.input.isEmpty
    | _ => (known?.map fun n => decide (n ≤ m.number)).getD false
  if finished then m else { m with ranges := (index, known?) :: m.ranges }

def leave (m : Machine) (index : Nat) : Machine :=
  { m with ranges := m.ranges.filter (·.1 != index) }

/-- Whether a selection holds of the line at work. -/
def selects (m : Machine) (index : Nat) : Selection → Bool × Machine
  | .all => (true, m)
  | .one a => (m.addressed a, m)
  | .range first bound =>
    match m.ranges.lookup index, bound with
    | none, _ => if m.addressed first then (true, m.enter index bound) else (false, m)
    | some (some n), _ =>
      (decide (m.number ≤ n), if n ≤ m.number then m.leave index else m)
    | some none, .address a => (true, if m.addressed a then m.leave index else m)
    | some none, .further _ => (true, m)

end Machine

/-- The text that takes the place of a match. -/
def expand (m : Regex.Match) (ps : List Piece) : Bytes :=
  ps.flatMap fun
    | .text s => s
    | .group 0 => m.text
    | .group n => (m.groups.lookup n).getD []

/-- A line behind a byte with matches replaced, `count` of them having been passed, and whether any was.
No empty match stands right behind another match. -/
def replaceFrom (s : Substitution) : Nat → Option UInt8 → Nat → Bool → Bytes → Bytes × Bool
  | 0, _, _, _, line => (line, false)
  | fuel + 1, before?, count, adjacent, line =>
    match s.regex.search before? line with
    | none => (line, false)
    | some m =>
      let behind? := (m.lead ++ m.text).getLast?.or before?
      let step := fun (count : Nat) =>
        if !m.text.isEmpty then replaceFrom s fuel behind? count true m.rest
        else match m.rest with
          | [] => ([], false)
          | b :: rest =>
            let (text, any) := replaceFrom s fuel (some b) count false rest
            (b :: text, any)
      if adjacent && m.lead.isEmpty && m.text.isEmpty then step count
      else if count + 1 < s.occurrence then
        let (text, any) := step (count + 1)
        (m.lead ++ m.text ++ text, any)
      else
        let lead := m.lead ++ expand m s.replacement
        (lead ++ (if s.everywhere then (step (count + 1)).1 else m.rest), true)

/-- What comes after an action: further instructions, the next line, the script again on what is left of
this line, or the end. -/
inductive Course where
  | continue_ (rest : List Instruction)
  | cycle (printed : Bool)
  | again
  | stop (printed : Bool)

/-- The instructions behind the block that is open. -/
def behindBlock : Nat → List Instruction → List Instruction
  | _, [] => []
  | depth, i :: rest =>
    match i.action, depth with
    | .opening, depth => behindBlock (depth + 1) rest
    | .closing, 0 => rest
    | .closing, depth + 1 => behindBlock depth rest
    | _, depth => behindBlock depth rest

/-- The instructions behind a label; those behind no label are none. -/
def behindLabel (name : Bytes) : List Instruction → List Instruction
  | [] => []
  | i :: rest =>
    match i.action with
    | .label n => if n = name then rest else behindLabel name rest
    | _ => behindLabel name rest

/-- Whether an instruction is the last one of its range to be carried out. -/
def ranged (m : Machine) (i : Instruction) : Bool := m.ranges.any (·.1 == i.index)

def substituteIn (s : Substitution) (m : Machine) : Machine :=
  let (line, any) := replaceFrom s (m.space.length + 2) none 0 false m.space
  if !any then m
  else
    let m := { m with space := line, replaced := true }
    if s.printed then m.writeLine m.space else m

/-- Carries out one instruction. -/
def act (quiet : Bool) (program : List Instruction) (i : Instruction) (rest : List Instruction)
    (m : Machine) : Course × Machine :=
  let shown := fun (m : Machine) => if quiet then m else m.writeLine m.space
  match i.action with
  | .opening | .closing | .label _ => (.continue_ rest, m)
  | .jump name => (.continue_ (behindLabel name program), m)
  | .jumpIfReplaced name =>
    if m.replaced then (.continue_ (behindLabel name program), { m with replaced := false })
    else (.continue_ rest, m)
  | .append text => (.continue_ rest, { m with queue := m.queue ++ [text] })
  | .insert text => (.continue_ rest, m.write text)
  | .change text => (.cycle false, if ranged m i && !i.negated then m else m.write text)
  | .delete => (.cycle false, m)
  | .deleteFirst =>
    match Bytes.cut Ascii.newline m.space with
    | (_, none) => (.cycle false, m)
    | (_, some further) => (.again, { m with space := further })
  | .print => (.continue_ rest, m.writeLine m.space)
  | .printFirst =>
    match Bytes.cut Ascii.newline m.space with
    | (line, none) => (.continue_ rest, m.writeLine line)
    | (line, some _) => (.continue_ rest, m.write (line ++ [Ascii.newline]))
  | .printNumber => (.continue_ rest, m.write (Numeral.decimal m.number ++ [Ascii.newline]))
  | .next =>
    if m.input.isEmpty then (.stop true, m)
    else (.continue_ rest, ((shown m).advance? id).getD m)
  | .appendNext =>
    match m.advance? fun line => m.space ++ [Ascii.newline] ++ line with
    | none => (.stop true, m)
    | some m => (.continue_ rest, m)
  | .fromHold => (.continue_ rest, { m with space := m.hold, ended := m.holdEnded })
  | .appendHold =>
    (.continue_ rest,
      { m with space := m.space ++ [Ascii.newline] ++ m.hold, ended := m.holdEnded })
  | .toHold => (.continue_ rest, { m with hold := m.space, holdEnded := m.ended })
  | .appendToHold =>
    (.continue_ rest,
      { m with hold := m.hold ++ [Ascii.newline] ++ m.space, holdEnded := m.ended })
  | .exchange =>
    (.continue_ rest,
      { m with hold := m.space, holdEnded := m.ended, space := m.hold, ended := m.holdEnded })
  | .quit printed status =>
    (.stop false, { (if printed then (shown m).close else m) with status := status })
  | .substitute s => (.continue_ rest, substituteIn s m)
  | .exchangeBytes table =>
    (.continue_ rest, { m with space := m.space.map fun b => (table.lookup b).getD b })

/-- Runs a script on the line at work and on those that follow. -/
def runFrom (quiet : Bool) (program : List Instruction) : Nat → List Instruction → Machine → Machine
  | 0, _, m => m
  | fuel + 1, rest, m =>
    let finished := fun (printed : Bool) (m : Machine) =>
      (if printed && !quiet then m.writeLine m.space else m).flush
    let cycle := fun (printed : Bool) (m : Machine) =>
      let m := finished printed m
      match m.advance? id with
      | none => m
      | some m => runFrom quiet program fuel program { m with replaced := false }
    match rest with
    | [] => cycle true m
    | i :: rest =>
      let (selected, m) := m.selects i.index i.selection
      if selected = i.negated then
        runFrom quiet program fuel (match i.action with
          | .opening => behindBlock 0 rest
          | _ => rest) m
      else match act quiet program i rest m with
        | (.continue_ rest, m) => runFrom quiet program fuel rest m
        | (.cycle printed, m) => cycle printed m
        | (.again, m) => runFrom quiet program fuel program (finished false m)
        | (.stop printed, m) => finished printed m

/-- The lines of a text, each with whether it is ended. -/
def linesOf (s : Bytes) : List (Bytes × Bool) :=
  let parts := s.splitOn Ascii.newline
  let last := parts.getLast?.getD []
  parts.dropLast.map (·, true) ++ if last.isEmpty then [] else [(last, false)]

/-- How many steps a script may take. A script that does not run for ever needs fewer. -/
def stepLimit (program : List Instruction) (text : Bytes) : Nat :=
  (program.length + 2) * (text.length + 16) * 64

/-- The ranges that begin before the first line. -/
def rangesAtStart (program : List Instruction) : List (Nat × Option Nat) :=
  program.filterMap fun i =>
    match i.selection with
    | .range (.line 0) _ => some (i.index, none)
    | _ => none

def edit (quiet : Bool) (program : List Instruction) (texts : List Bytes) : Bytes × Nat :=
  let start : Machine := { input := texts.flatMap linesOf, ranges := rangesAtStart program }
  match start.advance? id with
  | none => ([], 0)
  | some m =>
    let m := runFrom quiet program (stepLimit program texts.flatten) program m
    (m.output, m.status)

/-- A label that a script jumps to and does not have. -/
def missingLabel? (program : List Instruction) : Option Bytes :=
  let has := fun (name : Bytes) => program.any fun i => match i.action with
    | .label n => n == name
    | _ => false
  program.findSome? fun i => match i.action with
    | .jump name | .jumpIfReplaced name => if name.isEmpty || has name then none else some name
    | _ => none

def table : Program.OptionTable :=
  { flags := "nErsi", valued := "ef"
    long := [("quiet", 0x6E), ("silent", 0x6E), ("regexp-extended", 0x45), ("expression", 0x65),
      ("in-place", 0x69), ("separate", 0x73), ("file", 0x66)] }

/-- Edits one file in its place. -/
def editInPlace (c : Call) (quiet : Bool) (script : List Instruction) (r : ProgramResult)
    (name : Bytes) : ProgramResult :=
  match r.files.findReadable name with
  | .error e => Program.complaint c ("can't read " ++ name ++ ": " ++ Program.reason e) r 2
  | .ok (_, .directory) => Program.complaint c ("couldn't edit " ++ name ++ ": not a regular file") r 4
  | .ok (l, .file mode content) =>
    { r with files := r.files.put l (.file mode (edit quiet script [content]).1) }

/-- Edits its input, or files in their places. -/
def editFiles (opts : Program.Options) (script : List Instruction) (quiet : Bool) : Program := fun c =>
  if Lines.has opts 0x69 then c.arguments.foldl (editInPlace c quiet script) c.ignored
  else
    let failed := (Program.texts c).foldl (fun (r : ProgramResult) (name, content) =>
      match content with
      | .ok _ => r
      | .error .isDirectory => Program.complaint c ("read error on " ++ name ++ ": Is a directory") r 4
      | .error e => Program.complaint c ("can't read " ++ name ++ ": " ++ Program.reason e) r 2)
      (Program.started c)
    let read := (Program.texts c).filterMap fun (_, content) => content.toOption
    let (output, status) := edit quiet script read
    { failed.print output with status := if status = 0 then failed.status else status }

/-- The stream editor. Its script is its first operand unless options give it. -/
def program : Program := Program.withOptions table 1 fun opts c =>
  let given := (opts.filter fun o => o.1 == 0x65).map Prod.snd
  let (text, files) := if given.isEmpty then (c.arguments.headD [], c.arguments.tail)
    else (Bytes.joinWith [Ascii.newline] given, c.arguments)
  let silenced := text == "#n" || text.startsWith "#n\n"
  match read (Lines.has opts 0x45 || Lines.has opts 0x72) text with
  | .error f =>
    let position := (f.left?.map fun left => text.length - left).getD 0
    let place := "-e expression #1, char " ++ Numeral.decimal position
    Program.complaint c (place ++ ": " ++ f.text) c.ignored 1
  | .ok script =>
    match missingLabel? script with
    | some name => Program.complaint c ("can't find label for jump to \x60" ++ name ++ "'") c.ignored 4
    | none => editFiles opts script (Lines.has opts 0x6E || silenced) { c with arguments := files }

end WaylandZig.Sed
