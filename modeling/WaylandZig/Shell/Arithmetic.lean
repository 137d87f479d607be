import WaylandZig.Text.Numeral

/-! # Host shell: arithmetic

Expressions over whole numbers of 64 bits with sign, and their values. A name stands for the number
that its variable holds, and operators such as `+=` give it a new one. A text that goes wrong is an
expression up to there: what stands in front of the mistake is evaluated first, so that of two faults
the earlier one counts.
-/
namespace WaylandZig.Shell.Arithmetic

inductive Lexeme where
  | number (n : Int)
  | name (s : Bytes)
  | operator (s : Bytes)
  deriving DecidableEq, Repr

inductive Fault where
  | noOperand
  | noParenthesis
  | noColon
  | noEnd
  | dividedByZero
  | overflow
  | notNumber (text : Bytes)
  deriving DecidableEq, Repr

/-- An expression. One is `broken` where the text behind its part `e` is not what it should be. -/
inductive Expr where
  | number (n : Int)
  | name (s : Bytes)
  | unary (op : Bytes) (e : Expr)
  | binary (op : Bytes) (a b : Expr)
  | choice (condition yes no : Expr)
  | assign (op : Bytes) (name : Bytes) (e : Expr)
  | broken (e : Expr) (f : Fault)
  deriving DecidableEq, Repr

/-- What is said of a fault in an expression. Nobody is left to speak of an overflow. -/
def Fault.text (expression : Bytes) (f : Fault) : Bytes :=
  let wrong := fun (reason : Bytes) =>
    "arithmetic expression: " ++ reason ++ ": \"" ++ expression ++ "\""
  match f with
  | .noOperand => wrong "expecting primary"
  | .noParenthesis => wrong "expecting ')'"
  | .noColon => wrong "expecting ':'"
  | .noEnd => wrong "expecting EOF"
  | .dividedByZero => wrong "division by zero"
  | .notNumber text => "Illegal number: " ++ text
  | .overflow => []

/-- The first fault in the text of an expression whose value nobody asks for. -/
def Expr.fault? : Expr → Option Fault
  | .number _ => none
  | .name _ => none
  | .unary _ e => e.fault?
  | .binary _ a b => a.fault? <|> b.fault?
  | .choice c a b => c.fault? <|> a.fault? <|> b.fault?
  | .assign _ _ e => e.fault?
  | .broken e f => e.fault? <|> some f

/-- Numbers keep to 64 bits with sign. -/
def wrap (n : Int) : Int := Int.bmod n (Nat.pow 2 64)

/-- The value of a numeral at the front, and how many bytes it takes. -/
def numeral (s : Bytes) : Nat × Nat :=
  let read := fun (base skipped : Nat) =>
    let digits := (s.drop skipped).takeWhile fun b => (Numeral.digitValue? base b).isSome
    (min ((Numeral.nat? base digits).getD 0) (Nat.pow 2 63 - 1), skipped + digits.length)
  match s with
  | Ascii.zero :: x :: d :: _ =>
    if Ascii.toLower x = 0x78 && (Numeral.digitValue? 16 d).isSome then read 16 2 else read 8 0
  | Ascii.zero :: _ => read 8 0
  | _ => read 10 0

/-- The operators, with those in front that begin like a shorter one. -/
def operators : List Bytes :=
  (["<<=", ">>=", "<<", ">>", "<=", ">=", "==", "!=", "&&", "||", "+=", "-=", "*=", "/=", "%=", "&=",
    "^=", "|=", "(", ")", "!", "~", "*", "/", "%", "+", "-", "<", ">", "&", "^", "|", "?", ":",
    "="] : List String).map Bytes.ofString

def isBlank (b : UInt8) : Bool := b == Ascii.space || b == Ascii.tab || b == Ascii.newline

/-- The lexemes of an expression. A byte that begins none is an operator that no rule takes. -/
def lexemes : Nat → Bytes → List Lexeme
  | 0, _ => []
  | _, [] => []
  | fuel + 1, b :: rest =>
    let s := b :: rest
    if isBlank b then lexemes fuel rest
    else if Ascii.isDigit b then
      let (n, taken) := numeral s
      .number n :: lexemes fuel (s.drop taken)
    else if Ascii.isWord b then
      .name (s.takeWhile Ascii.isWord) :: lexemes fuel (s.dropWhile Ascii.isWord)
    else match operators.find? fun op => Bytes.startsWith s op with
      | some op => .operator op :: lexemes fuel (s.drop op.length)
      | none => .operator [b] :: lexemes fuel rest

/-- How loosely an operator binds. -/
def looseness? (op : Bytes) : Option Nat :=
  List.lookup op
    [("*", 0), ("/", 0), ("%", 0), ("+", 1), ("-", 1), ("<<", 2), (">>", 2), ("<", 3), (">", 3), ("<=", 3),
      (">=", 3), ("==", 4), ("!=", 4), ("&", 5), ("^", 6), ("|", 7), ("&&", 8), ("||", 9)]

/-- The loosest operators that join two operands. -/
def loosest : Nat := 9

def assignments : List Bytes := ["=", "+=", "-=", "*=", "/=", "%=", "<<=", ">>=", "&=", "^=", "|="]

/-- An expression and what follows it. -/
abbrev Parsed := Expr × List Lexeme

/-- The operand that is missing. -/
def Expr.missing : Expr := .broken (.number 0) .noOperand

/-- Takes an operator that must come next; without it the text is wrong. -/
def closed (op : Bytes) (f : Fault) : Parsed → Parsed
  | (e, l :: rest) => if l = .operator op then (e, rest) else (.broken e f, l :: rest)
  | (e, []) => (.broken e f, [])

mutual

/-- An operand: a number, a name, an operand with a sign, or an expression in parentheses. -/
def operand : Nat → List Lexeme → Parsed
  | 0, rest => (.missing, rest)
  | _ + 1, .number n :: rest => (.number n, rest)
  | _ + 1, .name s :: rest => (.name s, rest)
  | fuel + 1, .operator op :: rest =>
    if op = "(" then closed ")" .noParenthesis (whole fuel rest)
    else if op = "+" then operand fuel rest
    else if op = "-" ∨ op = "!" ∨ op = "~" then
      let (e, rest) := operand fuel rest
      (.unary op e, rest)
    else (.missing, rest)
  | _ + 1, [] => (.missing, [])

/-- Goes on with the operators that bind no looser than `limit`. -/
def operations : Nat → Nat → Expr → List Lexeme → Parsed
  | 0, _, e, rest => (e, rest)
  | fuel + 1, limit, e, .operator op :: rest =>
    match looseness? op with
    | none => (e, .operator op :: rest)
    | some level =>
      if level > limit then (e, .operator op :: rest)
      else
        let (f, rest) := operand fuel rest
        let (f, rest) := if level = 0 then (f, rest) else operations fuel (level - 1) f rest
        operations fuel limit (.binary op e f) rest
  | _ + 1, _, e, rest => (e, rest)

def conditional : Nat → List Lexeme → Parsed
  | 0, rest => (.missing, rest)
  | fuel + 1, s =>
    let (e, rest) := operand fuel s
    let (e, rest) := operations fuel loosest e rest
    match rest with
    | .operator op :: more =>
      if op = "?" then
        let (yes, more) := closed ":" .noColon (whole fuel more)
        let (no, more) := conditional fuel more
        (.choice e yes no, more)
      else (e, rest)
    | _ => (e, rest)

/-- An expression, which may assign. -/
def whole : Nat → List Lexeme → Parsed
  | 0, rest => (.missing, rest)
  | fuel + 1, s =>
    match s with
    | .name x :: .operator op :: rest =>
      if assignments.contains op then
        let (e, rest) := whole fuel rest
        (.assign op x e, rest)
      else conditional fuel s
    | _ => conditional fuel s

end

/-- The expression that a text is. Nothing may follow it. -/
def parse (text : Bytes) : Expr :=
  let ls := lexemes (text.length + 1) text
  match whole (4 * ls.length + 4) ls with
  | (e, []) => e
  | (e, _) => .broken e .noEnd

def ofBool (b : Bool) : Int := if b then 1 else 0

/-- The bits of a number, and the number that bits stand for. -/
def bits (n : Int) : Nat := (n % Int.pow 2 64).toNat

/-- The quotient or the rest of a division, which is towards zero. -/
def divide (operation : Int → Int → Int) (a b : Int) : Except Fault Int :=
  if b = 0 then .error .dividedByZero
  else if a = -Int.pow 2 63 ∧ b = -1 then .error .overflow
  else .ok (operation a b)

/-- What an operator makes of two numbers. -/
def apply (op : Bytes) (a b : Int) : Except Fault Int :=
  if op = "*" then .ok (wrap (a * b))
  else if op = "/" then divide Int.tdiv a b
  else if op = "%" then divide Int.tmod a b
  else if op = "+" then .ok (wrap (a + b))
  else if op = "-" then .ok (wrap (a - b))
  else if op = "<<" then .ok (wrap (a * Int.pow 2 (bits b % 64)))
  else if op = ">>" then .ok (a.fdiv (Int.pow 2 (bits b % 64)))
  else if op = "<" then .ok (ofBool (a < b))
  else if op = ">" then .ok (ofBool (a > b))
  else if op = "<=" then .ok (ofBool (a ≤ b))
  else if op = ">=" then .ok (ofBool (a ≥ b))
  else if op = "==" then .ok (ofBool (a == b))
  else if op = "!=" then .ok (ofBool (a != b))
  else if op = "&" then .ok (wrap (bits a &&& bits b : Nat))
  else if op = "^" then .ok (wrap (bits a ^^^ bits b : Nat))
  else .ok (wrap (bits a ||| bits b : Nat))

/-- The number in a text, with blanks around it; a text without any is zero. -/
def number? (text : Bytes) : Option Int :=
  let s := text.dropWhile isBlank
  let negative := Bytes.startsWith s "-"
  let s := if negative || Bytes.startsWith s "+" then s.tail else s
  let (n, taken) := numeral s
  if (s.drop taken).all isBlank && (taken > 0 || s.isEmpty) then
    some (if negative then -(n : Int) else n)
  else none

/-- Variables with the values that an evaluation has given them, newest first. -/
abbrev Assigned := List (Bytes × Int)

/-- An evaluation leaves what it has assigned, also if it fails. -/
abbrev Evaluation := ExceptT Fault (StateM Assigned)

/-- Passes over an expression whose value is not needed. -/
def pass (e : Expr) : Evaluation Unit :=
  match e.fault? with
  | some f => throw f
  | none => return ()

variable (lookup : Bytes → Bytes)

def valueOf (name : Bytes) : Evaluation Int := do
  match (← get).lookup name with
  | some n => return n
  | none =>
    match number? (lookup name) with
    | some n => return n
    | none => throw (.notNumber (lookup name))

/-- The value of an expression. A connective and a choice leave alone what they do not need. -/
def evaluate : Expr → Evaluation Int
  | .number n => return n
  | .name x => valueOf lookup x
  | .unary op e => do
    let n ← evaluate e
    return if op = "-" then wrap (-n) else if op = "!" then ofBool (n == 0) else -n - 1
  | .binary op a b => do
    let m ← evaluate a
    if (op = "&&" ∧ m = 0) ∨ (op = "||" ∧ m ≠ 0) then
      pass b
      return ofBool (m != 0)
    else
      let n ← evaluate b
      if op = "&&" ∨ op = "||" then return ofBool (n != 0) else apply op m n
  | .choice c a b => do
    if (← evaluate c) ≠ 0 then
      let n ← evaluate a
      pass b
      return n
    else
      pass a
      evaluate b
  | .assign op x e => do
    let n ← evaluate e
    let r ← if op = "=" then pure n else apply (op.take (op.length - 1)) (← valueOf lookup x) n
    modify ((x, r) :: ·)
    return r
  | .broken e f => do
    let _ ← evaluate e
    throw f

/-- The value of a text as an expression, and the variables it assigns. -/
def run (text : Bytes) : Except Fault Int × Assigned := (evaluate lookup (parse text)).run.run []

end WaylandZig.Shell.Arithmetic
