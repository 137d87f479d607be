import WaylandZig.Proofs.Schema.Reader
import WaylandZig.Proofs.Zig.DocumentUnit

/-! # Wire order

The position of a message in the tags of a unit is its number on the wire. The tags and the payloads
of a unit are compared with the elements of the text that the document was read from: they follow the
`request` and `event` elements of each interface, and the fields of a payload follow the `arg`
elements.
-/
namespace WaylandZig.Zig

open Schema
open Xml (Node)

/-- The names of the fields that an argument element contributes under the identifier `name`. -/
def fieldNames (arg : Node) (name : Bytes) : List Bytes :=
  if attributeOf arg "type" = "fd" then []
  else if attributeOf arg "type" = "new_id" ∧ attributeOf arg "interface" = [] then
    ["interface","version",name]
  else [name]

/-- The tag of a message element is the identifier of its name. -/
def TagOf (naming : Naming) (message : Node) (tag : Bytes) : Prop :=
  naming.identifier (attributeOf message "name") = .ok tag

/-- The payload of a message element has the fields of its arguments in order. -/
def PayloadOf (naming : Naming) (message : Node) (fields : List Field) : Prop :=
  ∃ groups, List.Forall₂ (fun arg group => ∃ name,
      naming.identifier (attributeOf arg "name") = .ok name ∧
      group.map Field.name = fieldNames arg name) (message.childrenNamed "arg") groups ∧
    fields = groups.flatten

/-- A payload that is written between `lead` and `follow` around its tag. -/
def ArmOf (naming : Naming) (lead follow tail : Bytes) (message : Node) (arm : SourceTree) : Prop :=
  ∃ tag fields, TagOf naming message tag ∧ PayloadOf naming message fields ∧
    arm = .block (lead ++ tag ++ follow) tail
      (fields.map fun f => .line (f.name ++ ": " ++ f.type ++ ","))

/-- The declaration of an interface element: the tags of its requests and its events, the union of
its requests and the structs of its events, and then its enums. -/
def InterfaceOf (naming : Naming) (element : Node) (tree : SourceTree) : Prop :=
  ∃ name requestTags eventTags requests events enums,
    naming.interface (attributeOf element "name") = .ok name ∧
    List.Forall₂ (TagOf naming) (element.childrenNamed "request") requestTags ∧
    List.Forall₂ (TagOf naming) (element.childrenNamed "event") eventTags ∧
    List.Forall₂ (ArmOf naming [] ": struct \x7b" ",") (element.childrenNamed "request") requests ∧
    List.Forall₂ (ArmOf naming "pub const " " = struct \x7b" ";") (element.childrenNamed "event")
      events ∧
    tree = .block ("pub const " ++ name ++ " = struct \x7b") ";"
      ([.block "pub const request = enum \x7b" ";" (requestTags.map fun t => .line (t ++ ",")),.blank,
        .block "pub const event = enum \x7b" ";" (eventTags.map fun t => .line (t ++ ",")),.blank,
        .block "pub const rq = union(request) \x7b" ";" requests,.blank,
        .block "pub const ev = struct \x7b" ";" events] ++ enums)

theorem ofName?_name {kind : ArgKind} (h : kind ∈ ArgKind.all) :
    ArgKind.ofName? kind.name = some kind := by
  have ha : ∀ kind ∈ ArgKind.all, ArgKind.ofName? kind.name = some kind := by decide
  exact ha kind h

/-- An argument that was read has a kind exactly when its element names it. -/
theorem kind_eq_iff {arg : Node} {a : Arg} (h : Arg.ReadFrom arg a) {kind : ArgKind}
    (hk : kind ∈ ArgKind.all) : a.kind = kind ↔ attributeOf arg "type" = kind.name := by
  constructor
  · rintro rfl
    have hf := List.find?_some h.kind
    exact (by simpa using hf : a.kind.name = _).symm
  · intro ht
    have hr := h.kind
    rw [ht, ofName?_name hk] at hr
    exact (Option.some.inj hr).symm

theorem map_name_fields {arg : Node} {a : Arg} (h : Arg.ReadFrom arg a) (types : TypeMap)
    (name enumType : Bytes) : (types.fields a name enumType).map Field.name = fieldNames arg name := by
  have hfd : a.kind = .fd ↔ attributeOf arg "type" = "fd" := kind_eq_iff h (by decide)
  have hid : a.kind = .newId ↔ attributeOf arg "type" = "new_id" := kind_eq_iff h (by decide)
  simp only [TypeMap.fields, fieldNames, ← hfd, ← hid, ← h.interface]
  by_cases hf : a.kind = .fd
  · rw [if_pos hf, if_pos hf, List.map_nil]
  rw [if_neg hf, if_neg hf]
  by_cases hn : a.kind = .newId ∧ a.interface = []
  · rw [if_pos hn, if_pos hn]
    rfl
  rw [if_neg hn, if_neg hn]
  split <;> rfl

section Emitted

variable {here : Site} {s : DocumentSet} {types : TypeMap}

theorem tagOf_emitted {message : Node} {m : Message} {decl : MessageDecl}
    (hr : Message.ReadFrom message m) (he : here.EmitsMessage s types m decl) :
    TagOf here.naming message decl.name := by
  rw [TagOf, ← hr.name]
  exact he.1

theorem payloadOf_emitted {message : Node} {m : Message} {decl : MessageDecl}
    (hr : Message.ReadFrom message m) (he : here.EmitsMessage s types m decl) :
    PayloadOf here.naming message decl.fields := by
  obtain ⟨-,groups,hg,hf⟩ := he
  refine ⟨groups,hr.args.comp ?_ hg,hf⟩
  rintro arg a group ha ⟨name,enumType,hn,-,rfl⟩
  exact ⟨name,by rw [← ha.name]; exact hn,map_name_fields ha types name enumType⟩

/-- The tags of messages and the arms of their payloads both follow the elements. -/
theorem messages_emitted {elements : List Node} {messages : List Message} {decls : List MessageDecl}
    (lead follow tail : Bytes) (hr : List.Forall₂ Message.ReadFrom elements messages)
    (he : List.Forall₂ (here.EmitsMessage s types) messages decls) :
    List.Forall₂ (TagOf here.naming) elements (decls.map MessageDecl.name) ∧
    List.Forall₂ (ArmOf here.naming lead follow tail) elements
      (decls.map fun m => m.tree (lead ++ m.name ++ follow) tail) := by
  constructor
  · rw [List.forall₂_map_right_iff]
    refine hr.comp ?_ he
    intro message m decl hm hd
    exact tagOf_emitted hm hd
  · rw [List.forall₂_map_right_iff]
    refine hr.comp ?_ he
    intro message m decl hm hd
    exact ⟨decl.name,decl.fields,tagOf_emitted hm hd,payloadOf_emitted hm hd,rfl⟩

theorem interfaceOf_emitted {element : Node} {decl : InterfaceDecl}
    (hr : Interface.ReadFrom element here.interface) (he : here.EmitsInterface s types decl) :
    InterfaceOf here.naming element decl.tree := by
  obtain ⟨hrt,hra⟩ := messages_emitted [] ": struct \x7b" "," hr.requests he.requests
  obtain ⟨het,hea⟩ := messages_emitted "pub const " " = struct \x7b" ";" hr.events he.events
  have hn : here.naming.interface (attributeOf element "name") = .ok decl.name := by
    rw [← hr.name]
    exact he.name
  refine ⟨decl.name,decl.requests.map MessageDecl.name,decl.events.map MessageDecl.name,_,_,
    decl.enums.flatMap fun e => [.blank,e.tree],hn,hrt,het,hra,hea,?_⟩
  simp only [InterfaceDecl.tree, tagsTree, requestsTree, eventsTree, List.map_map]
  rfl

end Emitted

/-- The unit of a document that was read declares the interface elements of its text in order. In each
the tags of the requests and events, and their payloads, follow the `request` and `event` elements,
and the fields of a payload follow the `arg` elements. -/
theorem documentUnit_follows_elements {source text unit : Bytes} {d : Document} {s : DocumentSet}
    {settings : Settings} {types : TypeMap} {documentIndex : Nat}
    (hr : Document.read source text = .ok d)
    (hu : documentUnit s settings types documentIndex d = .ok unit) :
    ∃ root preamble interfaces,
      Xml.IsRoot (Xml.Stream.read text).events root ∧ root.isNamed "protocol" ∧
      (∀ head tail body, SourceTree.block head tail body ∉ preamble) ∧
      List.Forall₂ (InterfaceOf (Naming.ofNameSpace d.nameSpace)) (root.childrenNamed "interface")
        interfaces ∧
      unit = SourceTree.text settings.indentSize.toNat
        (preamble ++ interfaces.flatMap fun i => [.blank,i]) := by
  obtain ⟨root,hroot,hn,hi⟩ := Document.read_interfaces hr
  obtain ⟨u,hu,ht⟩ := documentUnit_eq_ok_iff.mp hu
  refine ⟨root,u.preamble,u.interfaces.map InterfaceDecl.tree,hroot,hn,?_,?_,?_⟩
  · intro head tail body hb
    unfold UnitDecl.preamble at hb
    split at hb <;> simp at hb
  · rw [List.forall₂_map_right_iff]
    -- Elements are paired with interfaces, interfaces with their sites, sites with declarations.
    have hs : List.Forall₂ (fun element here => Interface.ReadFrom element here.interface ∧
        here.document = d) (root.childrenNamed "interface") (sites documentIndex d) := by
      refine hi.comp ?_ (sites_interfaces documentIndex d)
      rintro element i here hr ⟨hd,rfl⟩
      exact ⟨hr,hd⟩
    refine hs.comp ?_ hu.interfaces
    rintro element here decl ⟨hf,hd⟩ he
    rw [← hd]
    exact interfaceOf_emitted hf he
  · rw [ht, UnitDecl.trees, List.flatMap_map]

/-- Two requests with an event and an element that is passed over between them. -/
def mixedText : Bytes :=
  "<protocol name='p'><interface name='p_a'><request name='b'><arg name='n' type='new_id'/>" ++
  "<arg name='h' type='fd'/></request><event name='e'/><x/><request name='or'/></interface>" ++
  "</protocol>"

def mixedDocument : Document :=
  { name := "p"
    nameSpace := "p"
    interfaces := [{
      name := "p_a"
      requests := [⟨"b",.request,[⟨"n",.newId,[],[],false⟩,⟨"h",.fd,[],[],false⟩]⟩,⟨"or",.request,[]⟩]
      events := [⟨"e",.event,[]⟩] }] }

theorem mixedText_follows_elements : Document.read [] mixedText = .ok mixedDocument ∧
    ∃ unit, documentUnit ⟨[mixedDocument],[]⟩ {} {} 0 mixedDocument = .ok unit ∧
    ∃ root preamble interfaces,
      Xml.IsRoot (Xml.Stream.read mixedText).events root ∧ root.isNamed "protocol" ∧
      (∀ head tail body, SourceTree.block head tail body ∉ preamble) ∧
      List.Forall₂ (InterfaceOf (Naming.ofNameSpace mixedDocument.nameSpace))
        (root.childrenNamed "interface") interfaces ∧
      unit = SourceTree.text 0 (preamble ++ interfaces.flatMap fun i => [.blank,i]) := by
  have hr : Document.read [] mixedText = .ok mixedDocument := by decide +kernel
  have hu : (documentUnit ⟨[mixedDocument],[]⟩ {} {} 0 mixedDocument).isOk = true := by decide +kernel
  obtain ⟨unit,hu⟩ := Except.exists_of_isOk hu
  exact ⟨hr,unit,hu,documentUnit_follows_elements hr hu⟩

end WaylandZig.Zig
