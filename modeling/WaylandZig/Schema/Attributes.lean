import WaylandZig.Schema.Model
import WaylandZig.Text.Numeral
import WaylandZig.Xml.Stream

/-! # Element attributes

The attributes of a schema element by local name. A name that occurs twice counts with its last
value, names are compared without regard to case, and an empty value is no value. A value that does
not convert is reported before anything that is missing.

No rule says which attribute counts where two names differ only in case, nor which value is named
where several do not convert. Here the last spelling with a value counts and the first value that does
not convert is named. Both are choices; another order of the attributes would be as right.
-/
namespace WaylandZig.Schema

/-- What the value of an attribute is converted to. -/
inductive AttributeType where
  | text
  | integer
  | truth
  deriving DecidableEq, Repr

namespace AttributeType

def truth? (s : Bytes) : Option Bool :=
  if ["on", "1", "t", "T", "TRUE", "true", "True"].any (fun w => Bytes.ofString w == s) then some true
  else if ["0", "f", "F", "FALSE", "false", "False"].any (fun w => Bytes.ofString w == s) then
    some false
  else none

def accepts (value : Bytes) : AttributeType → Bool
  | .text => true
  | .integer => (Numeral.int64? value).isSome
  | .truth => (truth? value).isSome

end AttributeType

/-- One thing that is wrong with converted attributes. -/
inductive AttributeProblem where
  | missing (name : Bytes)
  | notOneOf (name : Bytes) (choices : List Bytes) (value : Bytes)
  | belowZero (name : Bytes)
  deriving DecidableEq, Repr

def AttributeProblem.text : AttributeProblem → Bytes
  | .missing name => "missing attribute " ++ Quoted.quote name
  | .notOneOf name choices value =>
    "attribute " ++ Quoted.quote name ++ " must be one of [" ++ Bytes.joinWith " " choices
      ++ "], got " ++ Quoted.quote value
  | .belowZero name => "attribute " ++ Quoted.quote name ++ " failed \"gte\""

/-- Why the attributes of an element are not accepted. `more` counts the values beside the first
that do not convert either. -/
inductive AttributeFault where
  | conversion (key : Bytes) (more : Nat)
  | invalid (problems : List AttributeProblem)
  deriving DecidableEq, Repr

def AttributeFault.others : Nat → Bytes
  | 0 => []
  | 1 => " (and 1 other error)"
  | n => " (and " ++ Numeral.decimal n ++ " other errors)"

def AttributeFault.text : AttributeFault → Bytes
  | .conversion key more => "schema: error converting value for " ++ Quoted.quote key ++ others more
  | .invalid problems => Bytes.joinWith "; " (problems.map AttributeProblem.text)

/-- Attribute keys as written, each once, with their values. -/
abbrev Attributes := List (Bytes × Bytes)

namespace Attributes

def insert (as : Attributes) (key value : Bytes) : Attributes :=
  match as with
  | [] => [(key, value)]
  | (k, v) :: rest => if k = key then (k, value) :: rest else (k, v) :: insert rest key value

def ofElement (as : List Xml.Attribute) : Attributes :=
  as.foldl (fun found a => found.insert a.name.localPart a.value) []

/-- The value that counts for an attribute of the schema, or empty: by choice, the last in any
spelling. -/
def value (as : Attributes) (name : Bytes) : Bytes :=
  ((as.filter fun (key, v) => Ascii.eqFold key name && !v.isEmpty).getLast?.map Prod.snd).getD []

def integer (as : Attributes) (name : Bytes) : Int := (Numeral.int64? (as.value name)).getD 0

def truth (as : Attributes) (name : Bytes) : Bool :=
  (AttributeType.truth? (as.value name)).getD false

/-- The keys whose values do not convert to what the schema wants. -/
def unconverted (as : Attributes) (shape : List (Bytes × AttributeType)) : List Bytes :=
  (as.filter fun (key, v) =>
    !v.isEmpty && shape.any fun (name, type) => Ascii.eqFold key name && !type.accepts v).map
    Prod.fst

def required (as : Attributes) (name : Bytes) : List AttributeProblem :=
  if (as.value name).isEmpty then [.missing name] else []

def check (as : Attributes) (shape : List (Bytes × AttributeType))
    (problems : List AttributeProblem) : Except AttributeFault Unit :=
  match as.unconverted shape with
  | key :: more => .error (.conversion key more.length)
  | [] => if problems.isEmpty then .ok () else .error (.invalid problems)

def protocolName (as : Attributes) : Except AttributeFault Bytes := do
  as.check [("name", .text)] (as.required "name")
  return as.value "name"

def interface (as : Attributes) : Except AttributeFault Interface := do
  as.check [("name", .text), ("version", .integer)]
    (as.required "name" ++ if as.integer "version" < 0 then [.belowZero "version"] else [])
  return { name := as.value "name", version := as.integer "version" }

def message (as : Attributes) (kind : MessageKind) : Except AttributeFault Message := do
  as.check [("name", .text), ("type", .text), ("since", .integer)] (as.required "name")
  return { name := as.value "name", kind := kind }

/-- A type that is given must be one that the schema names. -/
def typeProblems (as : Attributes) : List AttributeProblem :=
  if (as.value "type").isEmpty then [.missing "type"]
  else if (ArgKind.ofName? (as.value "type")).isNone then
    [.notOneOf "type" (ArgKind.all.map ArgKind.name) (as.value "type")]
  else []

def arg (as : Attributes) : Except AttributeFault Arg := do
  as.check
    [("name", .text), ("type", .text), ("enum", .text), ("interface", .text), ("allow-null", .truth)]
    (as.required "name" ++ as.typeProblems)
  return {
    name := as.value "name"
    kind := (ArgKind.ofName? (as.value "type")).getD .int
    enum := as.value "enum"
    interface := as.value "interface"
    allowNull := as.truth "allow-null" }

def enum (as : Attributes) : Except AttributeFault Enum := do
  as.check [("name", .text), ("bitfield", .truth), ("since", .integer)] (as.required "name")
  return { name := as.value "name", bitfield := as.truth "bitfield" }

/-- The name and the written value of an entry. -/
def entry (as : Attributes) : Except AttributeFault (Bytes × Bytes) := do
  as.check [("name", .text), ("value", .text), ("since", .integer)]
    (as.required "name" ++ as.required "value")
  return (as.value "name", as.value "value")

end Attributes

end WaylandZig.Schema
