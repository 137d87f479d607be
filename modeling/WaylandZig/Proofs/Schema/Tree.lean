import WaylandZig.Proofs.Fallible
import WaylandZig.Proofs.Pairing
import WaylandZig.Proofs.Xml.Tree
import WaylandZig.Schema.Reader

/-! # Reading a document from its tree

A document can be read by recursion over its element tree: each recognised element takes the nodes
directly inside it in order and passes over what it does not recognise. What was read stands in the
order of the elements it was read from.
-/
namespace WaylandZig.Schema

open Xml (Node)

/-- Converts the attributes of an element that stands in these scopes. -/
def convertIn {α : Type} (scopes : List Scope) (element : Bytes) (attributes : List Xml.Attribute)
    (read : Attributes → Except AttributeFault α) : Except ReadFault α :=
  match read (Attributes.ofElement attributes) with
  | .ok a => .ok a
  | .error fault => .error (.invalid scopes (.attributes element fault))

namespace Message

def addNode (scopes : List Scope) (m : Message) : Node → Except ReadFault Message
  | .text _ => .ok m
  | .element name attributes _ =>
    if name.localPart = "arg" then do
      let a ← convertIn scopes name.localPart attributes Attributes.arg
      return { m with args := m.args ++ [a] }
    else .ok m

theorem addNode_keeps {scopes : List Scope} {m m' : Message} {n : Node}
    (h : m.addNode scopes n = .ok m') : m'.kind = m.kind ∧ m'.name = m.name := by
  cases n with
  | text data =>
    cases h
    exact ⟨rfl,rfl⟩
  | element name attributes children =>
    rw [addNode] at h
    split at h
    · obtain ⟨a,-,h⟩ := Except.bind_eq_ok_iff.mp h
      cases h
      exact ⟨rfl,rfl⟩
    · cases h
      exact ⟨rfl,rfl⟩

def ofElement (i : Interface) (kind : MessageKind) (element : Bytes)
    (attributes : List Xml.Attribute) (children : List Node) : Except ReadFault Message := do
  let m ← convertIn [.interface i.name] element attributes (Attributes.message · kind)
  children.foldlM (addNode [.interface i.name,.message m.kind m.name]) m

end Message

namespace Enum

def readEntry (scopes : List Scope) (e : Enum) (name value : Bytes) : Except ReadFault Enum :=
  match EntryValue.read? value with
  | some v => .ok { e with entries := e.entries ++ [⟨name,v.number,v.hex⟩] }
  | none => .error (.invalid scopes (.entryValue name value))

def addNode (scopes : List Scope) (e : Enum) : Node → Except ReadFault Enum
  | .text _ => .ok e
  | .element name attributes _ =>
    if name.localPart = "entry" then do
      let (entry,value) ← convertIn scopes name.localPart attributes Attributes.entry
      readEntry scopes e entry value
    else .ok e

theorem addNode_keeps {scopes : List Scope} {e e' : Enum} {n : Node}
    (h : e.addNode scopes n = .ok e') : e'.name = e.name := by
  cases n with
  | text data =>
    cases h
    rfl
  | element name attributes children =>
    rw [addNode] at h
    split at h
    · obtain ⟨⟨entry,value⟩,-,h⟩ := Except.bind_eq_ok_iff.mp h
      simp only [readEntry] at h
      split at h
      · cases h
        rfl
      · cases h
    · cases h
      rfl

def ofElement (i : Interface) (element : Bytes) (attributes : List Xml.Attribute)
    (children : List Node) : Except ReadFault Enum := do
  let e ← convertIn [.interface i.name] element attributes Attributes.enum
  children.foldlM (addNode [.interface i.name,.enum e.name]) e

end Enum

namespace Interface

def addNode (i : Interface) : Node → Except ReadFault Interface
  | .text _ => .ok i
  | .element name attributes children =>
    if name.localPart = "request" then do
      let m ← Message.ofElement i .request name.localPart attributes children
      return Reader.addMessage i m
    else if name.localPart = "event" then do
      let m ← Message.ofElement i .event name.localPart attributes children
      return Reader.addMessage i m
    else if name.localPart = "enum" then do
      let e ← Enum.ofElement i name.localPart attributes children
      return { i with enums := i.enums ++ [e] }
    else .ok i

def ofElement (element : Bytes) (attributes : List Xml.Attribute) (children : List Node) :
    Except ReadFault Interface := do
  let i ← convertIn [] element attributes Attributes.interface
  children.foldlM addNode i

end Interface

/-- The text that stands directly among the nodes. -/
def directText : List Node → Bytes
  | [] => []
  | .text data :: rest => data ++ directText rest
  | .element _ _ _ :: rest => directText rest

namespace Document

def addNode (d : Document) : Node → Except ReadFault Document
  | .text _ => .ok d
  | .element name attributes children =>
    if name.localPart = "copyright" then
      .ok { d with copyright := if d.copyright.isEmpty then directText children else d.copyright }
    else if name.localPart = "interface" then do
      let i ← Interface.ofElement name.localPart attributes children
      return { d with interfaces := d.interfaces ++ [i] }
    else .ok d

/-- The document of a root element. -/
def ofElement (attributes : List Xml.Attribute) (children : List Node) : Except ReadFault Document := do
  let name ← convertIn [] "protocol" attributes Attributes.protocolName
  children.foldlM addNode { name := name }

end Document

/-- The value that counts for an attribute of an element. -/
def attributeOf (n : Node) (name : Bytes) : Bytes := (Attributes.ofElement n.attributes).value name

/-- Where each node adds at most one item at the end, the items stand in the order of their nodes. -/
theorem foldlM_collects {σ β : Type} {add : σ → Node → Except ReadFault σ} {items : σ → List β}
    {counts : Node → Bool} {R : Node → β → Prop}
    (hadd : ∀ s n s', add s n = .ok s' → if counts n then ∃ b, R n b ∧ items s' = items s ++ [b]
      else items s' = items s)
    {nodes : List Node} {s s' : σ} (h : nodes.foldlM add s = .ok s') :
    ∃ bs, items s' = items s ++ bs ∧ List.Forall₂ R (nodes.filter counts) bs := by
  induction nodes generalizing s with
  | nil =>
    cases h
    exact ⟨[],(List.append_nil _).symm,.nil⟩
  | cons n nodes ih =>
    rw [List.foldlM_cons] at h
    obtain ⟨mid,hm,hr⟩ := Except.bind_eq_ok_iff.mp h
    obtain ⟨bs,hb,hf⟩ := ih hr
    have hn := hadd s n mid hm
    by_cases hc : counts n = true
    · rw [if_pos hc] at hn
      obtain ⟨b,hR,hi⟩ := hn
      refine ⟨b :: bs,by rw [hb, hi, List.append_assoc]; rfl,?_⟩
      rw [List.filter_cons_of_pos hc]
      exact .cons hR hf
    · rw [if_neg hc] at hn
      refine ⟨bs,by rw [hb, hn],?_⟩
      rw [List.filter_cons_of_neg hc]
      exact hf

theorem foldlM_keeps {σ β : Type} {add : σ → Node → Except ReadFault σ} {view : σ → β}
    (hadd : ∀ s n s', add s n = .ok s' → view s' = view s) {nodes : List Node} {s s' : σ}
    (h : nodes.foldlM add s = .ok s') : view s' = view s := by
  induction nodes generalizing s with
  | nil =>
    cases h
    rfl
  | cons n nodes ih =>
    rw [List.foldlM_cons] at h
    obtain ⟨mid,hm,hr⟩ := Except.bind_eq_ok_iff.mp h
    exact (ih hr).trans (hadd s n mid hm)

section ReadFrom

theorem convertIn_eq_ok_iff {α : Type} {scopes : List Scope} {element : Bytes}
    {attributes : List Xml.Attribute} {read : Attributes → Except AttributeFault α} {a : α} :
    convertIn scopes element attributes read = .ok a ↔ read (Attributes.ofElement attributes) = .ok a := by
  rw [convertIn]
  cases read (Attributes.ofElement attributes) with
  | error fault => simp
  | ok b => simp

theorem Attributes.check_eq_ok {as : Attributes} {shape : List (Bytes × AttributeType)}
    {problems : List AttributeProblem} {u : Unit} (h : as.check shape problems = .ok u) :
    problems = [] := by
  unfold Attributes.check at h
  split at h
  · cases h
  · split at h
    · rename_i hp
      simpa using hp
    · cases h

structure Arg.ReadFrom (n : Node) (a : Arg) : Prop where
  name : a.name = attributeOf n "name"
  kind : ArgKind.ofName? (attributeOf n "type") = some a.kind
  interface : a.interface = attributeOf n "interface"

/-- The arguments of a message are the `arg` elements directly inside it. -/
structure Message.ReadFrom (n : Node) (m : Message) : Prop where
  name : m.name = attributeOf n "name"
  args : List.Forall₂ Arg.ReadFrom (n.childrenNamed "arg") m.args

/-- Requests and events are counted apart, however they are mixed. -/
structure Interface.ReadFrom (n : Node) (i : Interface) : Prop where
  name : i.name = attributeOf n "name"
  requests : List.Forall₂ Message.ReadFrom (n.childrenNamed "request") i.requests
  events : List.Forall₂ Message.ReadFrom (n.childrenNamed "event") i.events

theorem Attributes.arg_readFrom {name : Xml.Name} {attributes : List Xml.Attribute}
    {children : List Node} {a : Arg} (h : (Attributes.ofElement attributes).arg = .ok a) :
    Arg.ReadFrom (.element name attributes children) a := by
  obtain ⟨u,hc,h⟩ := Except.bind_eq_ok_iff.mp h
  obtain ⟨-,ht⟩ := List.append_eq_nil_iff.mp (check_eq_ok hc)
  cases h
  refine ⟨rfl,?_,rfl⟩
  unfold typeProblems at ht
  split at ht
  · cases ht
  split at ht
  · cases ht
  · rename_i hk
    obtain ⟨kind,hk⟩ := Option.ne_none_iff_exists'.mp (by simpa using hk)
    change ArgKind.ofName? _ = some ((ArgKind.ofName? _).getD .int)
    rw [hk]
    exact hk

theorem Message.addNode_args {scopes : List Scope} {m m' : Message} {n : Node}
    (h : m.addNode scopes n = .ok m') :
    if n.isNamed "arg" then ∃ a, Arg.ReadFrom n a ∧ m'.args = m.args ++ [a]
    else m'.args = m.args := by
  cases n with
  | text data =>
    cases h
    rfl
  | element name attributes children =>
    rw [addNode] at h
    by_cases ha : name.localPart = "arg"
    · rw [if_pos ha] at h
      obtain ⟨a,hr,h⟩ := Except.bind_eq_ok_iff.mp h
      cases h
      rw [if_pos (by simpa [Node.isNamed] using ha)]
      exact ⟨a,Attributes.arg_readFrom (convertIn_eq_ok_iff.mp hr),rfl⟩
    · rw [if_neg ha] at h
      cases h
      rw [if_neg (by simpa [Node.isNamed] using ha)]

theorem Message.ofElement_readFrom {i : Interface} {kind : MessageKind} {element : Bytes}
    {name : Xml.Name} {attributes : List Xml.Attribute} {children : List Node} {m : Message}
    (h : Message.ofElement i kind element attributes children = .ok m) :
    m.kind = kind ∧ Message.ReadFrom (.element name attributes children) m := by
  obtain ⟨start,hs,h⟩ := Except.bind_eq_ok_iff.mp h
  obtain ⟨u,-,hs⟩ := Except.bind_eq_ok_iff.mp (convertIn_eq_ok_iff.mp hs)
  cases hs
  have hk : m.kind = kind := foldlM_keeps (fun _ _ _ ha => (addNode_keeps ha).1) h
  have hn : m.name = _ := foldlM_keeps (fun _ _ _ ha => (addNode_keeps ha).2) h
  obtain ⟨args,ha,hf⟩ := foldlM_collects (fun _ _ _ ha => addNode_args ha) h
  rw [List.nil_append] at ha
  exact ⟨hk,hn,ha ▸ hf⟩

/-- What one node can do to an interface. -/
theorem Interface.addNode_cases {i i' : Interface} {n : Node} (h : i.addNode n = .ok i') :
    (n.isNamed "request" = true ∧ n.isNamed "event" = false ∧
      ∃ m, Message.ReadFrom n m ∧ i' = { i with requests := i.requests ++ [m] }) ∨
    (n.isNamed "request" = false ∧ n.isNamed "event" = true ∧
      ∃ m, Message.ReadFrom n m ∧ i' = { i with events := i.events ++ [m] }) ∨
    (n.isNamed "request" = false ∧ n.isNamed "event" = false ∧
      ∃ enums, i' = { i with enums := enums }) := by
  cases n with
  | text data =>
    cases h
    exact .inr (.inr ⟨rfl,rfl,i.enums,rfl⟩)
  | element name attributes children =>
    simp only [Node.isNamed, beq_iff_eq, beq_eq_false_iff_ne]
    rw [addNode] at h
    by_cases hr : name.localPart = "request"
    · rw [if_pos hr] at h
      obtain ⟨m,hm,h⟩ := Except.bind_eq_ok_iff.mp h
      obtain ⟨hk,hm⟩ := Message.ofElement_readFrom hm
      cases h
      exact .inl ⟨hr,by rw [hr]; decide,m,hm,by rw [Reader.addMessage, hk]⟩
    by_cases he : name.localPart = "event"
    · rw [if_neg hr, if_pos he] at h
      obtain ⟨m,hm,h⟩ := Except.bind_eq_ok_iff.mp h
      obtain ⟨hk,hm⟩ := Message.ofElement_readFrom hm
      cases h
      exact .inr (.inl ⟨hr,he,m,hm,by rw [Reader.addMessage, hk]⟩)
    rw [if_neg hr, if_neg he] at h
    split at h
    · obtain ⟨e,-,h⟩ := Except.bind_eq_ok_iff.mp h
      cases h
      exact .inr (.inr ⟨hr,he,_,rfl⟩)
    · cases h
      exact .inr (.inr ⟨hr,he,_,rfl⟩)

theorem Interface.addNode_requests {i i' : Interface} {n : Node} (h : i.addNode n = .ok i') :
    if n.isNamed "request" then ∃ m, Message.ReadFrom n m ∧ i'.requests = i.requests ++ [m]
    else i'.requests = i.requests := by
  obtain ⟨hr,-,m,hm,rfl⟩ | ⟨hr,-,m,-,rfl⟩ | ⟨hr,-,enums,rfl⟩ := addNode_cases h
  · rw [if_pos hr]
    exact ⟨m,hm,rfl⟩
  · rw [if_neg (by simp [hr])]
  · rw [if_neg (by simp [hr])]

theorem Interface.addNode_events {i i' : Interface} {n : Node} (h : i.addNode n = .ok i') :
    if n.isNamed "event" then ∃ m, Message.ReadFrom n m ∧ i'.events = i.events ++ [m]
    else i'.events = i.events := by
  obtain ⟨-,he,m,-,rfl⟩ | ⟨-,he,m,hm,rfl⟩ | ⟨-,he,enums,rfl⟩ := addNode_cases h
  · rw [if_neg (by simp [he])]
  · rw [if_pos he]
    exact ⟨m,hm,rfl⟩
  · rw [if_neg (by simp [he])]

theorem Interface.addNode_name {i i' : Interface} {n : Node} (h : i.addNode n = .ok i') :
    i'.name = i.name := by
  obtain ⟨-,-,m,-,rfl⟩ | ⟨-,-,m,-,rfl⟩ | ⟨-,-,enums,rfl⟩ := addNode_cases h <;> rfl

theorem Interface.ofElement_readFrom {element : Bytes} {name : Xml.Name}
    {attributes : List Xml.Attribute} {children : List Node} {i : Interface}
    (h : Interface.ofElement element attributes children = .ok i) :
    Interface.ReadFrom (.element name attributes children) i := by
  obtain ⟨start,hs,h⟩ := Except.bind_eq_ok_iff.mp h
  obtain ⟨u,-,hs⟩ := Except.bind_eq_ok_iff.mp (convertIn_eq_ok_iff.mp hs)
  cases hs
  obtain ⟨requests,hr,hrf⟩ := foldlM_collects (fun _ _ _ ha => addNode_requests ha) h
  obtain ⟨events,he,hef⟩ := foldlM_collects (fun _ _ _ ha => addNode_events ha) h
  rw [List.nil_append] at hr he
  exact ⟨foldlM_keeps (fun _ _ _ ha => addNode_name ha) h,hr ▸ hrf,he ▸ hef⟩

theorem Document.addNode_interfaces {d d' : Document} {n : Node} (h : d.addNode n = .ok d') :
    if n.isNamed "interface" then ∃ i, Interface.ReadFrom n i ∧ d'.interfaces = d.interfaces ++ [i]
    else d'.interfaces = d.interfaces := by
  cases n with
  | text data =>
    cases h
    rfl
  | element name attributes children =>
    simp only [Node.isNamed, beq_iff_eq]
    rw [addNode] at h
    by_cases hc : name.localPart = "copyright"
    · rw [if_pos hc] at h
      cases h
      rw [if_neg (by rw [hc]; decide)]
    by_cases hi : name.localPart = "interface"
    · rw [if_neg hc, if_pos hi] at h
      obtain ⟨i,hr,h⟩ := Except.bind_eq_ok_iff.mp h
      cases h
      rw [if_pos hi]
      exact ⟨i,Interface.ofElement_readFrom hr,rfl⟩
    · rw [if_neg hc, if_neg hi] at h
      cases h
      rw [if_neg hi]

/-- The interfaces of a document are the `interface` elements directly inside its root. -/
theorem Document.ofElement_interfaces {root : Node} {d : Document}
    (h : Document.ofElement root.attributes root.children = .ok d) :
    List.Forall₂ Interface.ReadFrom (root.childrenNamed "interface") d.interfaces := by
  obtain ⟨name,-,h⟩ := Except.bind_eq_ok_iff.mp h
  obtain ⟨interfaces,hi,hf⟩ := foldlM_collects (fun _ _ _ ha => addNode_interfaces ha) h
  rw [List.nil_append] at hi
  exact hi ▸ hf

end ReadFrom

end WaylandZig.Schema
