import WaylandZig.Proofs.Schema.Tree

/-! # The document and the faults of an element tree

What a tree declares and what is wrong with it are two separate recursions over the tree. The first
takes the children of each recognised name in order, and the second lists the faults of the
recognised elements in document order. Reading gives the first fault of the list, and the document
where the list is empty.
-/
namespace WaylandZig.Schema

open Xml (Node)

/-- The first of the faults, or the value when there is none. -/
def unlessFaulty {α : Type} (faults : List ReadFault) (a : α) : Except ReadFault α :=
  match faults with
  | [] => .ok a
  | fault :: _ => .error fault

theorem unlessFaulty_bind {α β : Type} {faults more : List ReadFault} {a : α} {b : β}
    {f : α → Except ReadFault β} (h : f a = unlessFaulty more b) :
    unlessFaulty faults a >>= f = unlessFaulty (faults ++ more) b := by
  cases faults with
  | nil => exact h
  | cons fault faults => rfl

theorem unlessFaulty_map {α β : Type} {faults : List ReadFault} {a : α} {f : α → β} :
    (unlessFaulty faults a >>= fun a => pure (f a)) = unlessFaulty faults (f a) := by
  cases faults with
  | nil => rfl
  | cons fault faults => rfl

/-- The fault of an element whose attributes are not accepted. -/
def attributeFaults {α : Type} (scopes : List Scope) (element : Bytes)
    (read : Attributes → Except AttributeFault α) (n : Node) : List ReadFault :=
  match read (Attributes.ofElement n.attributes) with
  | .ok _ => []
  | .error fault => [.invalid scopes (.attributes element fault)]

def Arg.ofNode (n : Node) : Arg where
  name := attributeOf n "name"
  kind := (ArgKind.ofName? (attributeOf n "type")).getD .int
  enum := attributeOf n "enum"
  interface := attributeOf n "interface"
  allowNull := (Attributes.ofElement n.attributes).truth "allow-null"

def Arg.faults (scopes : List Scope) : Node → List ReadFault :=
  attributeFaults scopes "arg" Attributes.arg

namespace Message

def ofNode (kind : MessageKind) (n : Node) : Message where
  name := attributeOf n "name"
  kind := kind
  args := (n.childrenNamed "arg").map Arg.ofNode

def faults (interface : Bytes) (kind : MessageKind) (n : Node) : List ReadFault :=
  attributeFaults [.interface interface] kind.name (Attributes.message · kind) n ++
    (n.childrenNamed "arg").flatMap
      (Arg.faults [.interface interface,.message kind (attributeOf n "name")])

end Message

def Entry.ofNode (n : Node) : Entry :=
  let value := (EntryValue.read? (attributeOf n "value")).getD ⟨0,false⟩
  ⟨attributeOf n "name",value.number,value.hex⟩

/-- An entry that has its attributes may still have a value that is no number. -/
def Entry.faults (scopes : List Scope) (n : Node) : List ReadFault :=
  match Attributes.entry (Attributes.ofElement n.attributes) with
  | .error fault => [.invalid scopes (.attributes "entry" fault)]
  | .ok (name,value) =>
    if (EntryValue.read? value).isSome then [] else [.invalid scopes (.entryValue name value)]

namespace Enum

def ofNode (n : Node) : Enum where
  name := attributeOf n "name"
  bitfield := (Attributes.ofElement n.attributes).truth "bitfield"
  entries := (n.childrenNamed "entry").map Entry.ofNode

def faults (interface : Bytes) (n : Node) : List ReadFault :=
  attributeFaults [.interface interface] "enum" Attributes.enum n ++
    (n.childrenNamed "entry").flatMap
      (Entry.faults [.interface interface,.enum (attributeOf n "name")])

end Enum

namespace Interface

def ofNode (n : Node) : Interface where
  name := attributeOf n "name"
  version := (Attributes.ofElement n.attributes).integer "version"
  requests := (n.childrenNamed "request").map (Message.ofNode .request)
  events := (n.childrenNamed "event").map (Message.ofNode .event)
  enums := (n.childrenNamed "enum").map Enum.ofNode

/-- The faults of a node that stands directly in an interface. -/
def memberFaults (interface : Bytes) (n : Node) : List ReadFault :=
  if n.isNamed "request" then Message.faults interface .request n
  else if n.isNamed "event" then Message.faults interface .event n
  else if n.isNamed "enum" then Enum.faults interface n
  else []

def faults (n : Node) : List ReadFault :=
  attributeFaults [] "interface" Attributes.interface n ++
    n.children.flatMap (memberFaults (attributeOf n "name"))

end Interface

namespace Document

/-- The text directly inside the first copyright notice that has any. -/
def copyrightOf (nodes : List Node) : Bytes :=
  ((nodes.map fun n => directText n.children).find? fun text => !text.isEmpty).getD []

def ofNode (n : Node) : Document where
  name := attributeOf n "name"
  copyright := copyrightOf (n.childrenNamed "copyright")
  interfaces := (n.childrenNamed "interface").map Interface.ofNode

def faults (n : Node) : List ReadFault :=
  attributeFaults [] "protocol" Attributes.protocolName n ++
    (n.childrenNamed "interface").flatMap Interface.faults

end Document

section Reading

variable {scopes : List Scope} {element : Bytes} {name : Xml.Name} {attributes : List Xml.Attribute}
  {children : List Node}

theorem isNamed_element {word : Bytes} :
    (Node.element name attributes children).isNamed word = true ↔ name.localPart = word :=
  beq_iff_eq

/-- Attributes are checked first, so what they are converted to does not depend on the check. -/
theorem Attributes.eq_of_check {α : Type} {as : Attributes} {shape : List (Bytes × AttributeType)}
    {problems : List AttributeProblem} {a b : α}
    (h : (do as.check shape problems; return a) = .ok b) : b = a := by
  obtain ⟨-,-,h⟩ := Except.bind_eq_ok_iff.mp h
  exact (Except.pure_eq_ok_iff.mp h).symm

theorem convertIn_node {α : Type} {read : Attributes → Except AttributeFault α} {a : α} (n : Node)
    (h : ∀ b, read (Attributes.ofElement n.attributes) = .ok b → b = a) :
    convertIn scopes element n.attributes read =
      unlessFaulty (attributeFaults scopes element read n) a := by
  rw [convertIn, attributeFaults]
  cases hr : read (Attributes.ofElement n.attributes) with
  | error fault => rfl
  | ok b =>
    rw [h b hr]
    rfl

/-- Where each node adds its faults and its part, all nodes add all faults and all parts. -/
theorem foldlM_eq_unlessFaulty {σ : Type} {add : σ → Node → Except ReadFault σ}
    {faults : Node → List ReadFault} {put : σ → Node → σ} (inv : σ → Prop)
    (hadd : ∀ s n, inv s → add s n = unlessFaulty (faults n) (put s n))
    (hinv : ∀ s n, inv s → inv (put s n)) (nodes : List Node) {s : σ} (hs : inv s) :
    nodes.foldlM add s = unlessFaulty (nodes.flatMap faults) (nodes.foldl put s) := by
  induction nodes generalizing s with
  | nil => rfl
  | cons n nodes ih =>
    rw [List.foldlM_cons, hadd s n hs, List.flatMap_cons, List.foldl_cons]
    exact unlessFaulty_bind (ih (hinv s n hs))

/-- Where the nodes of one name add an item each, the items stand in the order of these nodes. -/
theorem foldlM_collect {σ β : Type} {add : σ → Node → Except ReadFault σ} {word : Bytes}
    {faults : Node → List ReadFault} {item : Node → β} (extend : σ → List β → σ)
    (hadd : ∀ s n, add s n = if n.isNamed word then unlessFaulty (faults n) (extend s [item n]) else .ok s)
    (hnil : ∀ s, extend s [] = s) (happ : ∀ s bs cs, extend (extend s bs) cs = extend s (bs ++ cs))
    (nodes : List Node) (s : σ) : nodes.foldlM add s =
      unlessFaulty ((nodes.filter (Node.isNamed word)).flatMap faults)
        (extend s ((nodes.filter (Node.isNamed word)).map item)) := by
  induction nodes generalizing s with
  | nil => exact congrArg Except.ok (hnil s).symm
  | cons n nodes ih =>
    rw [List.foldlM_cons, hadd]
    by_cases hn : n.isNamed word = true
    · rw [if_pos hn, List.filter_cons_of_pos hn, List.flatMap_cons, List.map_cons]
      refine unlessFaulty_bind ?_
      rw [ih, happ]
      rfl
    · rw [if_neg hn, List.filter_cons_of_neg hn]
      exact ih s

namespace Message

theorem addNode_eq (m : Message) (n : Node) : m.addNode scopes n =
    if n.isNamed "arg" then
      unlessFaulty (Arg.faults scopes n) { m with args := m.args ++ [Arg.ofNode n] }
    else .ok m := by
  cases n with
  | text data => rfl
  | element name attributes children =>
    simp only [addNode, isNamed_element]
    by_cases ha : name.localPart = "arg"
    · have hc : convertIn scopes "arg" attributes Attributes.arg = unlessFaulty _ (Arg.ofNode _) :=
        convertIn_node (.element name attributes children) fun _ h => Attributes.eq_of_check h
      rw [if_pos ha, if_pos ha, ha, hc]
      exact unlessFaulty_map
    · rw [if_neg ha, if_neg ha]

theorem ofElement_eq (name : Xml.Name) (i : Interface) (kind : MessageKind) :
    Message.ofElement i kind kind.name attributes children =
      unlessFaulty (faults i.name kind (.element name attributes children))
        (ofNode kind (.element name attributes children)) := by
  let n : Node := .element name attributes children
  have hc : convertIn [.interface i.name] kind.name attributes (Attributes.message · kind) =
      unlessFaulty (attributeFaults [.interface i.name] kind.name (Attributes.message · kind) n)
        { name := attributeOf n "name", kind := kind } :=
    convertIn_node n fun _ h => Attributes.eq_of_check h
  rw [Message.ofElement, hc]
  exact unlessFaulty_bind (foldlM_collect (fun (m : Message) args => { m with args := m.args ++ args })
    addNode_eq (by simp) (by simp) children _)

end Message

namespace Enum

theorem addNode_eq (e : Enum) (n : Node) : e.addNode scopes n =
    if n.isNamed "entry" then
      unlessFaulty (Entry.faults scopes n) { e with entries := e.entries ++ [Entry.ofNode n] }
    else .ok e := by
  cases n with
  | text data => rfl
  | element name attributes children =>
    simp only [addNode, isNamed_element]
    by_cases ha : name.localPart = "entry"
    · rw [if_pos ha, if_pos ha, ha, convertIn, Entry.faults, Entry.ofNode, Node.attributes]
      cases hr : Attributes.entry (Attributes.ofElement attributes) with
      | error fault => rfl
      | ok p =>
        let n : Node := .element name attributes children
        have hp : p = (attributeOf n "name",attributeOf n "value") := Attributes.eq_of_check hr
        rw [hp]
        cases hv : EntryValue.read? (attributeOf n "value") with
        | none => simp [readEntry, hv, bind, Except.bind, unlessFaulty]
        | some v => simp [readEntry, hv, bind, Except.bind, unlessFaulty, n]
    · rw [if_neg ha, if_neg ha]

theorem ofElement_eq (name : Xml.Name) (i : Interface) :
    Enum.ofElement i "enum" attributes children =
      unlessFaulty (faults i.name (.element name attributes children))
        (ofNode (.element name attributes children)) := by
  let n : Node := .element name attributes children
  have hc : convertIn [.interface i.name] "enum" attributes Attributes.enum =
      unlessFaulty (attributeFaults [.interface i.name] "enum" Attributes.enum n)
        { name := attributeOf n "name", bitfield := (Attributes.ofElement attributes).truth "bitfield" } :=
    convertIn_node n fun _ h => Attributes.eq_of_check h
  rw [Enum.ofElement, hc]
  exact unlessFaulty_bind (foldlM_collect (fun (e : Enum) entries => { e with entries := e.entries ++ entries })
    addNode_eq (by simp) (by simp) children _)

end Enum

theorem isNamed_eq_false {n : Node} {word : Bytes} (h : n.isNamed word = true) {other : Bytes}
    (hne : word ≠ other) : n.isNamed other = false := by
  cases n with
  | text data => rfl
  | element name attributes children =>
    rw [isNamed_element] at h
    rw [← Bool.not_eq_true, isNamed_element, h]
    exact hne

namespace Interface

def putNode (i : Interface) (n : Node) : Interface :=
  if n.isNamed "request" then { i with requests := i.requests ++ [Message.ofNode .request n] }
  else if n.isNamed "event" then { i with events := i.events ++ [Message.ofNode .event n] }
  else if n.isNamed "enum" then { i with enums := i.enums ++ [Enum.ofNode n] }
  else i

theorem putNode_name (i : Interface) (n : Node) : (i.putNode n).name = i.name := by
  unfold putNode
  split
  · rfl
  split
  · rfl
  split <;> rfl

theorem foldl_putNode (i : Interface) (nodes : List Node) : nodes.foldl putNode i =
    { i with
      requests := i.requests ++ (nodes.filter (Node.isNamed "request")).map (Message.ofNode .request)
      events := i.events ++ (nodes.filter (Node.isNamed "event")).map (Message.ofNode .event)
      enums := i.enums ++ (nodes.filter (Node.isNamed "enum")).map Enum.ofNode } := by
  induction nodes generalizing i with
  | nil => simp
  | cons n nodes ih =>
    rw [List.foldl_cons, ih, putNode]
    by_cases hr : n.isNamed "request" = true
    · have he : n.isNamed "event" = false := isNamed_eq_false hr (by decide)
      have hm : n.isNamed "enum" = false := isNamed_eq_false hr (by decide)
      simp [hr, he, hm]
    by_cases he : n.isNamed "event" = true
    · have hm : n.isNamed "enum" = false := isNamed_eq_false he (by decide)
      simp [hr, he, hm]
    by_cases hm : n.isNamed "enum" = true
    · simp [hr, he, hm]
    · simp [hr, he, hm]

theorem addNode_eq (i : Interface) (n : Node) :
    i.addNode n = unlessFaulty (memberFaults i.name n) (i.putNode n) := by
  cases n with
  | text data => rfl
  | element name attributes children =>
    simp only [addNode, memberFaults, putNode, isNamed_element]
    by_cases hr : name.localPart = "request"
    · have hm : Message.ofElement i .request "request" attributes children = _ :=
        Message.ofElement_eq name i .request
      simp only [if_pos hr]
      rw [hr, hm]
      exact unlessFaulty_map
    by_cases he : name.localPart = "event"
    · have hm : Message.ofElement i .event "event" attributes children = _ :=
        Message.ofElement_eq name i .event
      simp only [if_neg hr, if_pos he]
      rw [he, hm]
      exact unlessFaulty_map
    by_cases hm : name.localPart = "enum"
    · simp only [if_neg hr, if_neg he, if_pos hm]
      rw [hm, Enum.ofElement_eq name i]
      exact unlessFaulty_map
    · simp only [if_neg hr, if_neg he, if_neg hm]
      rfl

theorem ofElement_eq (name : Xml.Name) :
    Interface.ofElement "interface" attributes children =
      unlessFaulty (faults (.element name attributes children))
        (ofNode (.element name attributes children)) := by
  let n : Node := .element name attributes children
  have hc : convertIn [] "interface" attributes Attributes.interface =
      unlessFaulty (attributeFaults [] "interface" Attributes.interface n)
        { name := attributeOf n "name"
          version := (Attributes.ofElement attributes).integer "version" } :=
    convertIn_node n fun _ h => Attributes.eq_of_check h
  rw [Interface.ofElement, hc]
  refine unlessFaulty_bind ?_
  -- The scopes of the members carry the name of the interface, which no member changes.
  rw [foldlM_eq_unlessFaulty (fun i => i.name = attributeOf n "name")
    (fun i m hi => hi ▸ addNode_eq i m) (fun i m hi => (putNode_name i m).trans hi) children rfl,
    foldl_putNode]
  rfl

end Interface

namespace Document

def putNode (d : Document) (n : Node) : Document :=
  if n.isNamed "copyright" then
    { d with copyright := if d.copyright.isEmpty then directText n.children else d.copyright }
  else if n.isNamed "interface" then { d with interfaces := d.interfaces ++ [Interface.ofNode n] }
  else d

theorem copyrightOf_cons (n : Node) (nodes : List Node) : copyrightOf (n :: nodes) =
    if (directText n.children).isEmpty then copyrightOf nodes else directText n.children := by
  unfold copyrightOf
  rw [List.map_cons, List.find?_cons]
  cases (directText n.children).isEmpty <;> rfl

theorem foldl_putNode (d : Document) (nodes : List Node) : nodes.foldl putNode d =
    { d with
      copyright := if d.copyright.isEmpty then copyrightOf (nodes.filter (Node.isNamed "copyright"))
        else d.copyright
      interfaces := d.interfaces ++ (nodes.filter (Node.isNamed "interface")).map Interface.ofNode } := by
  induction nodes generalizing d with
  | nil =>
    rcases d with ⟨name,nameSpace,copyright,source,interfaces⟩
    cases copyright with
    | nil => simp [copyrightOf]
    | cons b rest => simp
  | cons n nodes ih =>
    rw [List.foldl_cons, ih, putNode]
    by_cases hc : n.isNamed "copyright" = true
    · have hi : n.isNamed "interface" = false := isNamed_eq_false hc (by decide)
      simp only [if_pos hc, List.filter_cons_of_pos hc, copyrightOf_cons, hi, List.filter_cons]
      by_cases hd : d.copyright.isEmpty = true
      · simp [hd]
      · simp [hd]
    by_cases hi : n.isNamed "interface" = true
    · simp [hc, hi]
    · simp [hc, hi]

theorem addNode_eq (d : Document) (n : Node) : d.addNode n =
    unlessFaulty (if n.isNamed "interface" then Interface.faults n else []) (d.putNode n) := by
  cases n with
  | text data => rfl
  | element name attributes children =>
    simp only [addNode, putNode, isNamed_element]
    by_cases hc : name.localPart = "copyright"
    · have hi : name.localPart ≠ "interface" := by
        rw [hc]
        decide
      simp only [if_pos hc, if_neg hi]
      rfl
    by_cases hi : name.localPart = "interface"
    · simp only [if_neg hc, if_pos hi]
      rw [hi, Interface.ofElement_eq name]
      exact unlessFaulty_map
    · simp only [if_neg hc, if_neg hi]
      rfl

/-- Reading a tree gives the first of its faults, or the document that it declares. -/
theorem ofElement_eq (root : Node) :
    Document.ofElement root.attributes root.children = unlessFaulty (faults root) (ofNode root) := by
  have hc : convertIn [] "protocol" root.attributes Attributes.protocolName =
      unlessFaulty (attributeFaults [] "protocol" Attributes.protocolName root)
        (attributeOf root "name") :=
    convertIn_node root fun _ h => Attributes.eq_of_check h
  rw [Document.ofElement, hc]
  refine unlessFaulty_bind ?_
  rw [foldlM_eq_unlessFaulty (fun _ => True) (fun d n _ => addNode_eq d n) (fun _ _ _ => trivial)
    root.children trivial, foldl_putNode, List.flatMap_ite_nil]
  rfl

end Document

end Reading

end WaylandZig.Schema
