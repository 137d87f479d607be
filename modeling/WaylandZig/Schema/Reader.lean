import WaylandZig.Diagnostic
import WaylandZig.Schema.Attributes
import WaylandZig.Schema.EntryValue
import WaylandZig.Schema.NameSpace

/-! # Reading documents

A document is read from its event stream in one pass. The reader knows which recognised element it
stands in; any other element is passed over with everything inside it, whatever it is called. What
follows the end of the root element is never looked at.
-/
namespace WaylandZig.Schema

/-- The declaration that a fault lies in. -/
inductive Scope where
  | interface (name : Bytes)
  | message (kind : MessageKind) (name : Bytes)
  | enum (name : Bytes)
  deriving DecidableEq, Repr

def Scope.text : Scope → Bytes
  | .interface name => "interface " ++ Quoted.quote name ++ ": "
  | .message kind name => kind.name ++ " " ++ Quoted.quote name ++ ": "
  | .enum name => "enum " ++ Quoted.quote name ++ ": "

inductive ContentFault where
  | xml (fault : Xml.Fault)
  | attributes (element : Bytes) (fault : AttributeFault)
  | entryValue (name value : Bytes)
  deriving DecidableEq, Repr

def ContentFault.text : ContentFault → Bytes
  | .xml fault => fault.text
  | .attributes element fault => "<" ++ element ++ ">: " ++ fault.text
  | .entryValue name value =>
    "entry " ++ Quoted.quote name ++ ": invalid value " ++ Quoted.quote value

/-- Why there is no root element to read. -/
inductive RootFault where
  | unreadable (reason : Bytes)
  | xml (fault : Xml.Fault)
  | missing
  deriving DecidableEq, Repr

def RootFault.text : RootFault → Bytes
  | .unreadable reason => reason
  | .xml fault => fault.text
  | .missing => "document has no root element"

inductive ReadFault where
  | unopened (reason : Bytes)
  | noRoot (fault : RootFault)
  | notProtocol (element : Bytes)
  | invalid (scopes : List Scope) (fault : ContentFault)
  deriving DecidableEq, Repr

namespace ReadFault

/-- What is said of a well-formed document that is no protocol. -/
def otherRoot : Bytes := "root element is not <protocol>"

def isNotProtocol : ReadFault → Bool
  | .notProtocol _ => true
  | _ => false

def diagnostic (source : Bytes) : ReadFault → Diagnostic
  | .unopened reason => ⟨.parseFailed, source, [], [], "open", some reason⟩
  | .noRoot fault => ⟨.parseFailed, source, [], [], "read root element", some fault.text⟩
  | .notProtocol element =>
    ⟨.notProtocol, source, [], [], "found <" ++ element ++ ">", some otherRoot⟩
  | .invalid scopes fault =>
    ⟨.parseFailed, source, [], [], "invalid document",
      some (scopes.flatMap Scope.text ++ fault.text)⟩

end ReadFault

/-- The recognised element that reading stands in, with what was read of it. -/
inductive Place where
  | protocol
  | copyright (text : Bytes)
  | interface (i : Interface)
  | message (i : Interface) (m : Message)
  | enum (i : Interface) (e : Enum)
  | finished
  deriving DecidableEq, Repr

/-- `ignored` counts the open elements that are passed over inside the place. -/
structure Reader where
  document : Document
  place : Place := .protocol
  ignored : Nat := 0
  deriving DecidableEq, Repr

namespace Reader

def scopes (r : Reader) : List Scope :=
  match r.place with
  | .interface i => [.interface i.name]
  | .message i m => [.interface i.name, .message m.kind m.name]
  | .enum i e => [.interface i.name, .enum e.name]
  | _ => []

def fail {α : Type} (r : Reader) (fault : ContentFault) : Except ReadFault α :=
  .error (.invalid r.scopes fault)

/-- Converts the attributes of an element that opens at this place. -/
def convert {α : Type} (r : Reader) (element : Bytes) (attributes : List Xml.Attribute)
    (read : Attributes → Except AttributeFault α) : Except ReadFault α :=
  match read (Attributes.ofElement attributes) with
  | .ok a => .ok a
  | .error fault => r.fail (.attributes element fault)

def pass (r : Reader) : Reader := { r with ignored := r.ignored + 1 }

def enter (r : Reader) (place : Place) : Reader := { r with place := place }

def readEntry (r : Reader) (e : Enum) (name value : Bytes) : Except ReadFault Enum :=
  match EntryValue.read? value with
  | some v => .ok { e with entries := e.entries ++ [⟨name, v.number, v.hex⟩] }
  | none => r.fail (.entryValue name value)

/-- An element opens. Arguments and entries are complete with their attributes; what stands inside
them is passed over. -/
def opened (r : Reader) (element : Bytes) (attributes : List Xml.Attribute) :
    Except ReadFault Reader :=
  if r.ignored > 0 then .ok r.pass
  else match r.place with
    | .protocol =>
      if element = "copyright" then .ok (r.enter (.copyright []))
      else if element = "interface" then do
        let i ← r.convert element attributes Attributes.interface
        return r.enter (.interface i)
      else .ok r.pass
    | .interface i =>
      if element = "request" then do
        let m ← r.convert element attributes (Attributes.message · .request)
        return r.enter (.message i m)
      else if element = "event" then do
        let m ← r.convert element attributes (Attributes.message · .event)
        return r.enter (.message i m)
      else if element = "enum" then do
        let e ← r.convert element attributes Attributes.enum
        return r.enter (.enum i e)
      else .ok r.pass
    | .message i m =>
      if element = "arg" then do
        let a ← r.convert element attributes Attributes.arg
        return (r.enter (.message i { m with args := m.args ++ [a] })).pass
      else .ok r.pass
    | .enum i e =>
      if element = "entry" then do
        let (name, value) ← r.convert element attributes Attributes.entry
        let e ← r.readEntry e name value
        return (r.enter (.enum i e)).pass
      else .ok r.pass
    | .copyright _ => .ok r.pass
    | .finished => .ok r

def addMessage (i : Interface) (m : Message) : Interface :=
  match m.kind with
  | .event => { i with events := i.events ++ [m] }
  | _ => { i with requests := i.requests ++ [m] }

/-- The element opened last closes. Only the first copyright text that is not empty is kept. -/
def closed (r : Reader) : Reader :=
  match r.ignored with
  | n + 1 => { r with ignored := n }
  | 0 =>
    match r.place with
    | .protocol => r.enter .finished
    | .copyright text =>
      { r with
        document.copyright := if r.document.copyright.isEmpty then text else r.document.copyright
        place := .protocol }
    | .interface i =>
      { r with document.interfaces := r.document.interfaces ++ [i], place := .protocol }
    | .message i m => r.enter (.interface (addMessage i m))
    | .enum i e => r.enter (.interface { i with enums := i.enums ++ [e] })
    | .finished => r

def text (r : Reader) (data : Bytes) : Reader :=
  match r.place with
  | .copyright text => if r.ignored = 0 then r.enter (.copyright (text ++ data)) else r
  | _ => r

def step (r : Reader) : Xml.Event → Except ReadFault Reader
  | .opened name attributes => r.opened name.localPart attributes
  | .closed => .ok r.closed
  | .text data => .ok (r.text data)

/-- Reads on to the end of the root element. -/
def run (fault? : Option Xml.Fault) : List Xml.Event → Reader → Except ReadFault Document
  | [], r =>
    if r.place = .finished then .ok r.document
    else r.fail (.xml (fault?.getD (.malformed 0 .endOfInput)))
  | e :: events, r =>
    if r.place = .finished then .ok r.document
    else match r.step e with
      | .error fault => .error fault
      | .ok r => run fault? events r

end Reader

namespace Document

def ofRoot (fault? : Option Xml.Fault) (attributes : List Xml.Attribute)
    (events : List Xml.Event) : Except ReadFault Document :=
  match (Attributes.ofElement attributes).protocolName with
  | .error fault => .error (.invalid [] (.attributes "protocol" fault))
  | .ok name => Reader.run fault? events { document := { name := name } }

/-- Finds the root element and reads it. -/
def ofEvents (fault? : Option Xml.Fault) : List Xml.Event → Except ReadFault Document
  | [] =>
    match fault? with
    | some fault => .error (.noRoot (.xml fault))
    | none => .error (.noRoot .missing)
  | .opened name attributes :: events =>
    if name.localPart = "protocol" then ofRoot fault? attributes events
    else .error (.notProtocol name.localPart)
  | _ :: events => ofEvents fault? events

/-- Reads a document from its text. The name space is inferred from the interface names. -/
def read (source text : Bytes) : Except ReadFault Document := do
  let stream := Xml.Stream.read text
  let d ← ofEvents stream.fault? stream.events
  return { d with source := source, nameSpace := NameSpace.infer d.interfaceNames }

end Document

end WaylandZig.Schema
