import WaylandZig.Command.Lines
import WaylandZig.Text.Regex.Reader

/-! # Host tools: searching lines

Writes the lines of its input that match an expression.
-/
namespace WaylandZig.Grep

open Lines (has)

def table : Program.OptionTable :=
  { flags := "vicnqoEFGwxlhHs", valued := "em"
    long := [("invert-match", 0x76), ("ignore-case", 0x69), ("count", 0x63), ("line-number", 0x6E),
      ("quiet", 0x71), ("silent", 0x71), ("only-matching", 0x6F), ("extended-regexp", 0x45),
      ("fixed-strings", 0x46), ("word-regexp", 0x77), ("line-regexp", 0x78),
      ("files-with-matches", 0x6C), ("no-filename", 0x68), ("with-filename", 0x48),
      ("regexp", 0x65), ("max-count", 0x6D)] }

/-- The expression of a text, of which each line is an alternative. -/
def regex (opts : Program.Options) (text : Bytes) : Except Regex.Fault Regex := do
  let one := fun (line : Bytes) =>
    if has opts 0x46 then .ok ((line.map Regex.literal).foldr .sequence .empty)
    else (Regex.read (has opts 0x45) line).map Prod.fst
  let whole := fun (r : Regex) =>
    if has opts 0x78 then .sequence Regex.lineStart (.sequence r Regex.lineEnd)
    else if has opts 0x77 then
      .sequence (.edge fun x _ => !Regex.isWordByte x) (.sequence r (.edge fun _ y => !Regex.isWordByte y))
    else r
  let found ← (text.splitOn Ascii.newline).mapM one
  let all := found.tail.foldl .choice (found.headD .empty)
  return whole (if has opts 0x69 then all.anyCase else all)

/-- The texts of all matches in a line that are not empty. -/
def matchesIn (r : Regex) : Nat → Option UInt8 → Bytes → List Bytes
  | 0, _, _ => []
  | fuel + 1, before?, line =>
    match r.search before? line with
    | none => []
    | some m =>
      let behind? := (m.lead ++ m.text).getLast?.or before?
      match m.text, m.rest with
      | [], [] => []
      | [], b :: rest => matchesIn r fuel (some b) rest
      | text, rest => text :: matchesIn r fuel behind? rest

/-- What is written for one file, and whether a line was chosen. In a file with zero bytes they end lines
too, and only a note is written on its lines. -/
def report (opts : Program.Options) (r : Regex) (label shown s : Bytes) :
    List (Stream × Bytes) × Bool :=
  let binary := s.contains 0
  let lines := Program.lines (s.map fun b => if b = 0 then Ascii.newline else b)
  let chosen := lines.zipIdx.filter fun (line, _) => r.matchesWithin line != has opts 0x76
  let chosen := match (Lines.value? opts 0x6D).bind (Numeral.nat? 10) with
    | some most => chosen.take most
    | none => chosen
  let lead := fun (k : Nat) => label ++ if has opts 0x6E then Numeral.decimal (k + 1) ++ ":" else []
  let brief := has opts 0x71 || has opts 0x6C || has opts 0x63
  let text : Bytes :=
    if has opts 0x71 then []
    else if has opts 0x6C then if chosen.isEmpty then [] else shown ++ "\n"
    else if has opts 0x63 then label ++ Numeral.decimal chosen.length ++ "\n"
    else if has opts 0x6F then
      if has opts 0x76 then []
      else chosen.flatMap fun (line, k) =>
        Program.unlines ((matchesIn r (line.length + 2) none line).map (lead k ++ ·))
    else Program.unlines (chosen.map fun (line, k) => lead k ++ line)
  let note : Bytes := "grep: " ++ shown ++ ": binary file matches\n"
  if binary && !brief then (if chosen.isEmpty then [] else [(.err, note)], !chosen.isEmpty)
  else ([(.out, text)], !chosen.isEmpty)

/-- Searches files for an expression: the status tells whether a line was chosen. -/
def search (opts : Program.Options) (r : Regex) : Program := fun c =>
  let named := (c.arguments.length > 1 || has opts 0x48) && !has opts 0x68
  let (result, any) := (Program.texts c).foldl (fun (result, any) (name, content) =>
    let shown : Bytes := if name = "-" then "(standard input)" else name
    match content with
    | .error e =>
      if has opts 0x73 then ({ result with status := 2 }, any)
      else (Program.complaint c (shown ++ ": " ++ Program.reason e) result 2, any)
    | .ok s =>
      let (text, found) := report opts r (if named then shown ++ ":" else []) shown s
      ({ result with written := result.written ++ text }, any || found)) (Program.started c, false)
  if any && (result.status = 0 || has opts 0x71) then { result with status := 0 }
  else if result.status = 0 then { result with status := 1 }
  else result

def usage : Bytes :=
  "Usage: grep [OPTION]... PATTERNS [FILE]...\nTry 'grep --help' for more information."

/-- What is said of an expression that cannot be read. -/
def faultText : Regex.Fault → Bytes
  | .unmatchedSet => "Invalid regular expression"
  | f => f.text

/-- Searches files. The expression is the first operand unless options give it. -/
def program : Program := fun c =>
  let searching := fun (opts : Program.Options) (text : Bytes) (files : List Bytes) =>
    match regex opts text with
    | .error f => Program.complaint c (faultText f) c.ignored 2
    | .ok r => search opts r { c with arguments := files }
  match table.read c.arguments with
  | .error text => (Program.complaint c text c.ignored 2).complain usage 2
  | .ok (opts, operands) =>
    let given := (opts.filter fun o => o.1 == 0x65).map Prod.snd
    match given, operands with
    | [], [] => c.ignored.complain usage 2
    | [], text :: files => searching opts text files
    | texts, files => searching opts (Bytes.joinWith [Ascii.newline] texts) files

end WaylandZig.Grep
