import WaylandZig.FileTree.Access
import WaylandZig.Text.Numeral

/-! # Host tools: conditions

The conditions on texts, numbers and files that scripts decide by. An operand that looks like an
operator is told from one by what stands around it.
-/
namespace WaylandZig.Condition

inductive Fault where
  | noArgument (operator : Bytes)
  | unexpected (word : Bytes)
  | unclosed
  | notNumber (word : Bytes)
  deriving DecidableEq, Repr

def Fault.text : Fault → Bytes
  | .noArgument op => op ++ ": argument expected"
  | .unexpected w => w ++ ": unexpected operator"
  | .unclosed => "closing paren expected"
  | .notNumber w => "Illegal number: " ++ w

def unaryOperators : List Bytes :=
  ["-b", "-c", "-d", "-e", "-f", "-g", "-h", "-k", "-L", "-n", "-O", "-G", "-p", "-r", "-s", "-S", "-t",
    "-u", "-w", "-x", "-z"]

def binaryOperators : List Bytes :=
  ["=", "!=", "<", ">", "-eq", "-ne", "-gt", "-ge", "-lt", "-le", "-nt", "-ot", "-ef"]

def isBinary? : Option Bytes → Bool
  | some w => binaryOperators.contains w
  | none => false

/-- A word in its place is an operator, a parenthesis or a connective, or it is an operand. -/
inductive Role where
  | operand
  | unary
  | binary
  | not
  | and
  | or
  | openParen
  | closeParen
  | nothing
  deriving DecidableEq, Repr

def role : List Bytes → Role
  | [] => .nothing
  | w :: rest =>
    if unaryOperators.contains w then
      if rest.isEmpty || (rest.length ≥ 2 && isBinary? rest.head?) then .operand else .unary
    else if binaryOperators.contains w then .binary
    else if w = "!" then .not
    else if w = "-a" then .and
    else if w = "-o" then .or
    else if w = "(" then if rest.isEmpty then .operand else .openParen
    else if w = ")" then .closeParen
    else .operand

def number (w : Bytes) : Except Fault Int :=
  let isBlank := fun (b : UInt8) => b == Ascii.space || b == Ascii.tab || b == Ascii.newline
  let trimmed := ((w.dropWhile isBlank).reverse.dropWhile isBlank).reverse
  match Numeral.int64? trimmed with
  | some n => .ok n
  | none => .error (.notNumber w)

def nodeAt? (t : FileTree) (path : Bytes) : Option FileNode := (t.find path).toOption.map Prod.snd

/-- The operators that hold of every directory. -/
def directoryTests : List Bytes := ["-d", "-e", "-r", "-w", "-x", "-s", "-O", "-G"]

/-- The operators that hold of every file. -/
def fileTests : List Bytes := ["-e", "-f", "-O", "-G"]

/-- What an operator says of one text. -/
def unary (t : FileTree) (op w : Bytes) : Bool :=
  if op = "-z" then w.isEmpty
  else if op = "-n" then !w.isEmpty
  else match nodeAt? t w with
    | none => false
    | some .directory => directoryTests.contains op
    | some (.file mode content) =>
      let node := FileNode.file mode content
      if op = "-s" then !content.isEmpty
      else if op = "-r" then node.mayRead
      else if op = "-w" then node.mayWrite
      else if op = "-x" then node.mayRun
      else fileTests.contains op

def binary (t : FileTree) (op a b : Bytes) : Except Fault Bool := do
  if op = "=" then return a = b
  else if op = "!=" then return a ≠ b
  else if op = "<" then return Bytes.le a b && a ≠ b
  else if op = ">" then return Bytes.le b a && a ≠ b
  else if op = "-ef" then
    return match t.find a, t.find b with
      | .ok (l, _), .ok (m, _) => l = m
      | _, _ => false
  else if op = "-nt" ∨ op = "-ot" then return false
  else
    let m ← number a
    let n ← number b
    return if op = "-eq" then m = n
      else if op = "-ne" then m ≠ n
      else if op = "-gt" then m > n
      else if op = "-ge" then m ≥ n
      else if op = "-lt" then m < n
      else m ≤ n

abbrev Decided := Except Fault (Bool × List Bytes)

/-- What may stand where a condition begins. `asOperand` takes the first word for an operand whatever it
looks like. -/
def simple (t : FileTree) (asOperand : Bool) (ws : List Bytes) : Decided :=
  match ws with
  | [] => .ok (false, [])
  | w :: rest =>
    if role ws = .unary ∧ !asOperand then
      match rest with
      | [] => .error (.noArgument w)
      | x :: rest => .ok (unary t w x, rest)
    else
      match rest with
      | op :: more =>
        if role rest = .binary then
          match more with
          | [] => .error (.noArgument op)
          | x :: rest => (binary t op w x).map (·, rest)
        else .ok (!w.isEmpty, rest)
      | [] => .ok (!w.isEmpty, [])

mutual

def primary (t : FileTree) : Nat → Bool → List Bytes → Decided
  | 0, _, _ => .error .unclosed
  | fuel + 1, asOperand, ws =>
    if asOperand then simple t true ws
    else match role ws with
      | .not => do
        let (b, rest) ← primary t fuel false ws.tail
        return (!b, rest)
      | .openParen =>
        if role ws.tail = .closeParen then .ok (false, ws.tail.tail)
        else do
          let (b, rest) ← disjunction t fuel false ws.tail
          if role rest = .closeParen then return (b, rest.tail) else throw .unclosed
      | _ => simple t false ws

def conjunction (t : FileTree) : Nat → Bool → List Bytes → Decided
  | 0, _, _ => .error .unclosed
  | fuel + 1, asOperand, ws => do
    let (a, rest) ← primary t fuel asOperand ws
    if role rest = .and then
      let (b, rest) ← conjunction t fuel false rest.tail
      return (a && b, rest)
    else return (a, rest)

def disjunction (t : FileTree) : Nat → Bool → List Bytes → Decided
  | 0, _, _ => .error .unclosed
  | fuel + 1, asOperand, ws => do
    let (a, rest) ← conjunction t fuel asOperand ws
    if role rest = .or then
      let (b, rest) ← disjunction t fuel false rest.tail
      return (a || b, rest)
    else return (a, rest)

end

/-- Decides a whole condition. If words are left over, the one in front of them is no operator. -/
def whole (t : FileTree) (asOperand : Bool) (ws : List Bytes) : Except Fault Bool := do
  let (b, rest) ← disjunction t (4 * ws.length + 4) asOperand ws
  if rest.isEmpty then return b
  else throw (.unexpected ((ws[ws.length - rest.length - 1]?).getD []))

/-- Decides a condition by the number of its words first: three with an operator between them compare,
and parentheses or a negation around a few words are taken off. -/
def decideFrom (t : FileTree) : Nat → List Bytes → Except Fault Bool
  | 0, ws => whole t false ws
  | fuel + 1, ws =>
    match ws with
    | [] => .ok false
    | [_, op, _] =>
      if binaryOperators.contains op then whole t true ws else shortened fuel ws
    | [_, _, _, _] => shortened fuel ws
    | _ => whole t false ws
where
  shortened (fuel : Nat) (ws : List Bytes) : Except Fault Bool :=
    if ws.head? = some (Bytes.ofString "(") ∧ ws.getLast? = some (Bytes.ofString ")") then
      whole t false ws.tail.dropLast
    else if ws.head? = some (Bytes.ofString "!") then (decideFrom t fuel ws.tail).map (!·)
    else whole t false ws

def decide (t : FileTree) (ws : List Bytes) : Except Fault Bool := decideFrom t (ws.length + 1) ws

end WaylandZig.Condition
