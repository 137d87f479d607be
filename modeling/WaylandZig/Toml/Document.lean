import WaylandZig.Toml.Grammar

/-! # TOML documents

The tables that the statements of a text build, and the keys they declare in order. A table that
only stands in the key of another is implicit: it may still be declared once, and what is declared
takes the place of an array. Every other key has one value.
-/
namespace WaylandZig.Toml

/-- A value of a document; `other` is a float or a date, of which no use is made. -/
inductive Value where
  | text (s : Bytes)
  | integer (n : Int)
  | boolean (b : Bool)
  | other
  | array (items : List Value)
  | table (entries : List (Bytes × Value))
  | tables (items : List (List (Bytes × Value)))
  deriving Repr

abbrev Table := List (Bytes × Value)

namespace Table

def put (name : Bytes) (value : Value) : Table → Table
  | [] => [(name, value)]
  | (k, v) :: rest => if k = name then (name, value) :: rest else (k, v) :: put name value rest

/-- The table at a key. An array of tables stands for its last. -/
def at? : Key → Table → Option Table
  | [], t => some t
  | name :: rest, t =>
    match t.lookup name with
    | some (.table inner) => at? rest inner
    | some (.tables items) => items.getLast?.bind (at? rest)
    | _ => none

/-- Changes the table at a key. -/
def change (f : Table → Table) : Key → Table → Option Table
  | [], t => some (f t)
  | name :: rest, t =>
    match t.lookup name with
    | some (.table inner) => (change f rest inner).map fun inner => put name (.table inner) t
    | some (.tables items) =>
      (items.getLast?.bind (change f rest)).map fun last =>
        put name (.tables (items.dropLast ++ [last])) t
    | _ => none

/-- Puts a value below a key, making tables on the way. -/
def putBelow (value : Value) : Key → Table → Option Table
  | [], t => some t
  | [name], t => some (put name value t)
  | name :: rest, t =>
    match t.lookup name with
    | none => (putBelow value rest []).map fun inner => put name (.table inner) t
    | some (.table inner) => (putBelow value rest inner).map fun inner => put name (.table inner) t
    | some _ => none

end Table

/-- A document as far as it has been built. `current` is the key of the table that assignments go
to. -/
structure Assembly where
  root : Table := []
  implicit : List Key := []
  arrays : List Key := []
  declared : List Key := []
  current : Key := []

namespace Assembly

def without (key : Key) (keys : List Key) : List Key := keys.filter (· ≠ key)

def addImplicit (a : Assembly) (key : Key) : Assembly :=
  { a with implicit := key :: without key a.implicit }

def declare (a : Assembly) (key : Key) : Assembly := { a with declared := a.declared ++ [key] }

/-- The key that the kind of a value is recorded under: an empty name counts for its table. -/
def kindKey (context : Key) (name : Bytes) : Key :=
  if name.isEmpty && !context.isEmpty then context else context ++ [name]

def markArray (a : Assembly) (key : Key) : Assembly := { a with arrays := key :: without key a.arrays }

def markOther (a : Assembly) (key : Key) : Assembly := { a with arrays := without key a.arrays }

def mark (a : Assembly) (key : Key) : Value → Assembly
  | .array _ => a.markArray key
  | _ => a.markOther key

def store (a : Assembly) (context : Key) (name : Bytes) (value : Value) : Option Assembly :=
  (Table.change (Table.put name value) context a.root).map fun root => { a with root := root }

/-- Gives a name in the table at `context` a value. -/
def set (a : Assembly) (context : Key) (name : Bytes) (value : Value) : Option Assembly :=
  let key := context ++ [name]
  (Table.at? context a.root).bind fun here =>
    if (here.lookup name).isNone then a.store context name value
    else if a.implicit.contains key then
      let a := { a with implicit := without key a.implicit }
      if a.arrays.contains key then a.store context name value else some a
    else none

/-- Makes the tables on the way that are missing, as implicit ones. -/
def makeParents (a : Assembly) (done : Key) : Key → Option Assembly
  | [] => some a
  | name :: rest =>
    let here := done ++ [name]
    (Table.at? done a.root).bind fun t =>
      if (t.lookup name).isSome then a.makeParents here rest
      else ((a.addImplicit here).store done name (.table [])).bind fun a => a.makeParents here rest

def appendTable (a : Assembly) (context : Key) (name : Bytes) : Option Assembly :=
  (Table.at? context a.root).bind fun t =>
    match t.lookup name with
    | none => a.store context name (.tables [[]])
    | some (.tables items) => a.store context name (.tables (items ++ [[]]))
    | some _ => none

/-- Opens the table at a key, or adds one to the array of tables there. -/
def enter (a : Assembly) (key : Key) (inArray : Bool) : Option Assembly :=
  let context := key.dropLast
  let name := key.getLast?.getD []
  (a.makeParents [] context).bind fun a =>
    if inArray then a.appendTable context name else a.set context name (.table [])

/-- Opens the tables that the front parts of a dotted key name. -/
def enterParts (a : Assembly) (context : Key) : Key → Option Assembly
  | [] => some a
  | part :: rest =>
    let here := context ++ [part]
    ((a.addImplicit here).enter here false).bind fun a => a.enterParts here rest

mutual

/-- The value of a literal that is given to a name. The entries of a table are set on the way. -/
def evaluate (inArray : Bool) (context : Key) (name : Bytes) :
    Literal → Assembly → Option (Value × Assembly)
  | .text s, a => some (.text s, a)
  | .integer n, a => some (.integer n, a)
  | .boolean b, a => some (.boolean b, a)
  | .float _, a => some (.other, a)
  | .dateTime _, a => some (.other, a)
  | .array items, a =>
    (evaluateItems context name items (a.markArray (kindKey context name))).map fun (vs, a) =>
      (.array vs, a)
  | .table entries, a =>
    let here := context ++ [name]
    ((a.addImplicit here).enter here inArray).bind fun a =>
      (evaluateEntries here entries [] a).map fun (t, a) => (.table t, a)

def evaluateItems (context : Key) (name : Bytes) :
    List Literal → Assembly → Option (List Value × Assembly)
  | [], a => some ([], a)
  | item :: rest, a =>
    (evaluate true context name item a).bind fun (v, a) =>
      (evaluateItems context name rest a).map fun (vs, a) => (v :: vs, a)

/-- The table of the entries, `done` being the part of it that is complete. -/
def evaluateEntries (context : Key) :
    List (Key × Literal) → Table → Assembly → Option (Table × Assembly)
  | [], done, a => some (done, a)
  | (key, literal) :: rest, done, a =>
    let here := context ++ key.dropLast
    let name := key.getLast?.getD []
    (a.enterParts context key.dropLast).bind fun a =>
      (evaluate false here name literal (a.declare (here ++ [name]))).bind fun (v, a) =>
        (a.set here name v).bind fun a =>
          (Table.putBelow v key done).bind fun done =>
            evaluateEntries context rest done (a.mark (kindKey here name) v)

end

def assign (a : Assembly) (key : Key) (literal : Literal) : Option Assembly :=
  (evaluateEntries a.current [(key, literal)] [] a).map Prod.snd

def add (a : Assembly) : Statement → Option Assembly
  | .table key =>
    (a.enter key false).map fun a => { (a.markOther key).declare key with current := key }
  | .tableArray key =>
    (a.enter key true).map fun a => { (a.markOther key).declare key with current := key }
  | .assign key literal => a.assign key literal

end Assembly

/-- The tables of a text, and its keys in the order of their declaration. -/
structure Document where
  root : Table
  declared : List Key

def Document.read? (s : Bytes) : Option Document :=
  ((statements? s).bind (·.foldlM Assembly.add {})).map fun a => ⟨a.root, a.declared⟩

def isBareName (name : Bytes) : Bool := !name.isEmpty && name.all isBare

def shortEscape? (b : UInt8) : Option Bytes :=
  if b = Ascii.quote then some "\\\""
  else if b = Ascii.backslash then some "\\\\"
  else if b = 0x08 then some "\\b"
  else if b = Ascii.tab then some "\\t"
  else if b = Ascii.newline then some "\\n"
  else if b = 0x0C then some "\\f"
  else if b = Ascii.carriageReturn then some "\\r"
  else none

def escapeByte (b : UInt8) : Bytes :=
  match shortEscape? b with
  | some text => text
  | none => if b < 0x20 || b = 0x7F then "\\u" ++ Numeral.padded 16 4 b.toNat else [b]

/-- A part of a key as it is written: in quotes unless it is a bare name. -/
def shownPart (name : Bytes) : Bytes :=
  if isBareName name then name else "\"" ++ name.flatMap escapeByte ++ "\""

def Key.text (key : Key) : Bytes := Bytes.joinWith "." (key.map shownPart)

end WaylandZig.Toml
