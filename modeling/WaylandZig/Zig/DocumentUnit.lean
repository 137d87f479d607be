import WaylandZig.Text.Space
import WaylandZig.Zig.Declaration
import WaylandZig.Zig.Reference
import WaylandZig.Zig.Settings

/-! # Document units

The declarations of a document, compiled against the set it was loaded with. Every failure names the
document and the interface it was met in.
-/
namespace WaylandZig.Zig

open Schema

/-- The largest value that a plain enum member can hold. -/
def maxEnumValue : UInt64 := 0xFFFFFFFF

/-- A copyright notice as comment lines; blank lines stay blank. -/
def noticeLines (text : Bytes) : List Bytes :=
  let text := Space.trim text
  if text.isEmpty then []
  else (text.splitOn Ascii.newline).map fun l =>
    if (Space.trim l).isEmpty then [] else "// " ++ Space.trim l

/-- Places a finding in a document and interface, and names its subject if it has none yet. -/
def placed (document interface subject : Bytes) (d : Diagnostic) : Diagnostic :=
  let d := d.within document interface
  if d.subject.isEmpty then d.about subject else d

namespace Site

def naming (here : Site) : Naming := Naming.ofNameSpace here.document.nameSpace

def place {α : Type} (here : Site) (subject : Bytes) (result : Except Diagnostic α) :
    Except Diagnostic α :=
  result.mapError (placed here.document.name here.interface.name subject)

def messageSubject (m : Message) : Bytes := m.kind.name ++ " " ++ Quoted.quote m.name

def argSubject (m : Message) (a : Arg) : Bytes :=
  "argument " ++ Quoted.quote a.name ++ " of " ++ messageSubject m

def messageName (here : Site) (m : Message) : Except Diagnostic Bytes :=
  here.place (messageSubject m) (here.naming.identifier m.name)

/-- The type that the enum reference of an argument gives it, or nothing. -/
def enumTypeOf (here : Site) (s : DocumentSet) (a : Arg) : Except Diagnostic Bytes :=
  if takesEnum a then do
    let r ← resolve s here a.enum
    r.typeRef here
  else .ok []

def argFields (here : Site) (s : DocumentSet) (types : TypeMap) (m : Message) (a : Arg) :
    Except Diagnostic (List Field) :=
  here.place (argSubject m a) do
    let name ← here.naming.identifier a.name
    let enumType ← here.enumTypeOf s a
    return types.fields a name enumType

def messageFields (here : Site) (s : DocumentSet) (types : TypeMap) (m : Message) :
    Except Diagnostic (List Field) := do
  let fields ← m.args.mapM (here.argFields s types m)
  return fields.flatten

def enumSubject (e : Enum) : Bytes := "enum " ++ Quoted.quote e.name

def valueOutOfRange (entry : Entry) : Diagnostic :=
  { code := .enumValueRange
    message := "entry " ++ Quoted.quote entry.name ++ " value " ++
      Numeral.decimal entry.value.toNat ++ " does not fit in u32" }

def enumMember (naming : Naming) (entry : Entry) : Except Diagnostic EnumMember := do
  let name ← naming.identifier entry.name
  if entry.value > maxEnumValue then throw (valueOutOfRange entry)
  return ⟨name, ⟨entry.value, entry.hex⟩⟩

def bitFieldDecl (naming : Naming) : BitField → Except Diagnostic BitField
  | .flag name => (naming.identifier name).map .flag
  | .padding bits => .ok (.padding bits)

def enumDecl (here : Site) (e : Enum) : Except Diagnostic EnumDecl :=
  here.place (enumSubject e) do
    let name ← here.naming.enumType e.name
    if e.bitfield then
      let fields ← BitLayout.layout e.entries
      return .bitfield name (← fields.mapM (bitFieldDecl here.naming))
    else return .plain name (← e.entries.mapM (enumMember here.naming))

def interfaceDecl (here : Site) (s : DocumentSet) (types : TypeMap) :
    Except Diagnostic InterfaceDecl := do
  let i := here.interface
  let name ← here.place [] (here.naming.interface i.name)
  let requests ← i.requests.mapM here.messageName
  let events ← i.events.mapM here.messageName
  let requestFields ← i.requests.mapM (here.messageFields s types)
  let eventFields ← i.events.mapM (here.messageFields s types)
  let enums ← i.enums.mapM here.enumDecl
  return {
    name := name
    requests := requests.zipWith MessageDecl.mk requestFields
    events := events.zipWith MessageDecl.mk eventFields
    enums := enums }

end Site

/-- The interfaces of one document of a set, in order. -/
def sites (documentIndex : Nat) (d : Document) : List Site :=
  d.interfaces.zipIdx.map fun (i, k) => ⟨documentIndex, d, k, i⟩

def documentDecl (s : DocumentSet) (settings : Settings) (types : TypeMap) (documentIndex : Nat)
    (d : Document) : Except Diagnostic UnitDecl := do
  let interfaces ← (sites documentIndex d).mapM fun here => here.interfaceDecl s types
  return ⟨noticeLines d.copyright, settings.typesUnit, interfaces⟩

/-- The source text of the unit of a document. -/
def documentUnit (s : DocumentSet) (settings : Settings) (types : TypeMap) (documentIndex : Nat)
    (d : Document) : Except Diagnostic Bytes :=
  (documentDecl s settings types documentIndex d).map fun u => u.text settings.indentSize.toNat

end WaylandZig.Zig
