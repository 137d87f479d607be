import WaylandZig.Proofs.Schema.ElementTree
import WaylandZig.Proofs.Schema.Reader
import WaylandZig.Proofs.Xml.WellNested

/-! # Reading a stream is reading its root

The reader sees one event after the other and shares its position among all the elements that are
open. What it returns is nevertheless settled by the tree of the root element alone: elements in
other places, text outside of notices and everything behind the root have no part in it.
-/
namespace WaylandZig

namespace Xml

open Node (forestEvents)

/-- The local name of an element. -/
def Node.localName : Node → Bytes
  | .text _ => []
  | .element name _ _ => name.localPart

theorem IsRoot.cons {events : List Event} {root : Node} (h : IsRoot events root) {e : Event}
    (he : ∀ name attributes, e ≠ .opened name attributes) : IsRoot (e :: events) root := by
  obtain ⟨name,attributes,children,before,after,hr,rfl,hb⟩ := h
  refine ⟨name,attributes,children,e :: before,after,hr,rfl,?_⟩
  intro n as hm
  rcases List.mem_cons.mp hm with hm | hm
  · exact he n as hm.symm
  · exact hb n as hm

/-- A forest has a root, unless it is text only. -/
theorem exists_isRoot_or_text (forest : List Node) :
    (∃ root, IsRoot (forestEvents forest) root) ∨
      ∀ e ∈ forestEvents forest, ∃ data, e = .text data := by
  induction forest with
  | nil => exact .inr (by simp [forestEvents])
  | cons n forest ih =>
    cases n with
    | element name attributes children =>
      exact .inl ⟨_,name,attributes,children,[],forestEvents forest,rfl,rfl,by simp⟩
    | text data =>
      have he : forestEvents (.text data :: forest) = .text data :: forestEvents forest := rfl
      rw [he]
      rcases ih with ⟨root,hr⟩ | ht
      · exact .inl ⟨root,hr.cons (by simp)⟩
      · refine .inr fun e hm => ?_
        rcases List.mem_cons.mp hm with rfl | hm
        · exact ⟨data,rfl⟩
        · exact ht e hm

end Xml

namespace Schema.Document

open Xml (Node)

/-- A document from the events of its text. -/
def ofStream (source : Bytes) (stream : Xml.Stream) : Except ReadFault Document := do
  let d ← ofEvents stream.fault? stream.events
  return { d with source := source, nameSpace := NameSpace.infer d.interfaceNames }

/-- A document from the tree of its root element. -/
def ofTree (source : Bytes) (root : Node) : Except ReadFault Document :=
  if root.isNamed "protocol" then
    unlessFaulty (faults root) { ofNode root with
      source := source
      nameSpace := NameSpace.infer
        ((root.childrenNamed "interface").map fun i => attributeOf i "name") }
  else .error (.notProtocol root.localName)

theorem ofEvents_isRoot (fault? : Option Xml.Fault) {events : List Xml.Event} {root : Node}
    (h : Xml.IsRoot events root) : ofEvents fault? events =
      if root.isNamed "protocol" then unlessFaulty (faults root) (ofNode root)
      else .error (.notProtocol root.localName) := by
  obtain ⟨name,attributes,children,before,after,rfl,rfl,hb⟩ := h
  induction before with
  | nil =>
    rw [List.nil_append, Node.element_events_append, ofEvents, ofRoot_eq]
    simp only [isNamed_element]
    by_cases hp : name.localPart = "protocol"
    · rw [if_pos hp, if_pos hp]
      exact ofElement_eq (.element name attributes children)
    · rw [if_neg hp, if_neg hp]
      rfl
  | cons e before ih =>
    have hr := ih fun n as hm => hb n as (List.mem_cons_of_mem _ hm)
    cases e with
    | opened n as => exact absurd List.mem_cons_self (hb n as)
    | closed => exact hr
    | text data => exact hr

theorem ofEvents_text {events : List Xml.Event} (h : ∀ e ∈ events, ∃ data, e = .text data) :
    ofEvents none events = .error (.noRoot .missing) := by
  induction events with
  | nil => rfl
  | cons e events ih =>
    obtain ⟨data,rfl⟩ := h e List.mem_cons_self
    exact ih fun e he => h e (List.mem_cons_of_mem _ he)

theorem ofStream_isRoot (source : Bytes) {stream : Xml.Stream} {root : Node}
    (h : Xml.IsRoot stream.events root) : ofStream source stream = ofTree source root := by
  have hn : (ofNode root).interfaceNames =
      (root.childrenNamed "interface").map fun i => attributeOf i "name" := by
    simp [interfaceNames, ofNode, Interface.ofNode, Function.comp_def]
  rw [ofStream, ofEvents_isRoot stream.fault? h, ofTree]
  by_cases hp : root.isNamed "protocol" = true
  · rw [if_pos hp, if_pos hp, unlessFaulty_map, hn]
  · rw [if_neg hp, if_neg hp]
    rfl

theorem ofStream_wellNested (source : Bytes) {stream : Xml.Stream} (h : stream.WellNested) :
    (∃ root, Xml.IsRoot stream.events root) ∨
      ofStream source stream = .error (.noRoot .missing) := by
  obtain ⟨hf,forest,he⟩ := h
  rcases Xml.exists_isRoot_or_text forest with ⟨root,hr⟩ | ht
  · exact .inl ⟨root,he ▸ hr⟩
  · refine .inr ?_
    rw [ofStream, hf, he, ofEvents_text ht]
    rfl

/-- Reading a stream that has a root gives the document of the tree of that root, or the first fault
of the tree in document order. A well-nested stream has a root or is text only, and the events of a
text that was read without a fault are well nested. -/
theorem read_eq_ofTree (source : Bytes) :
    (∀ (stream : Xml.Stream) (root : Node), Xml.IsRoot stream.events root →
      ofStream source stream = ofTree source root) ∧
    (∀ stream : Xml.Stream, stream.WellNested → (∃ root, Xml.IsRoot stream.events root) ∨
      ofStream source stream = .error (.noRoot .missing)) ∧
    ∀ text, read source text = ofStream source (Xml.Stream.read text) ∧
      ((Xml.Stream.read text).fault? = none → (Xml.Stream.read text).WellNested) :=
  ⟨fun _ _ h => ofStream_isRoot source h,fun _ h => ofStream_wellNested source h,
    fun _ => ⟨rfl,Xml.Stream.wellNested_read⟩⟩

/-- An interface in a place that is passed over, two faults, and an open tag behind the root. -/
def strayText : Bytes :=
  "<protocol name='p'><x><interface/></x><interface name='i'><request name='r'><arg type='int'/>" ++
  "</request><enum/></interface></protocol><"

def strayRoot : Node :=
  let named (name : Bytes) (value : Bytes) : Xml.Attribute := ⟨⟨[],name⟩,value⟩
  .element ⟨[],"protocol"⟩ [named "name" "p"] [
    .element ⟨[],"x"⟩ [] [.element ⟨[],"interface"⟩ [] []],
    .element ⟨[],"interface"⟩ [named "name" "i"] [
      .element ⟨[],"request"⟩ [named "name" "r"] [.element ⟨[],"arg"⟩ [named "type" "int"] []],
      .element ⟨[],"enum"⟩ [] []]]

theorem strayText_read_eq_ofTree : Xml.IsRoot (Xml.Stream.read strayText).events strayRoot ∧
    read [] strayText = ofTree [] strayRoot ∧
    ofTree [] strayRoot = .error (.invalid [.interface "i",.message .request "r"]
      (.attributes "arg" (.invalid [.missing "name"]))) := by
  have he : (Xml.Stream.read strayText).events = strayRoot.events := by decide +kernel
  have hr : Xml.IsRoot (Xml.Stream.read strayText).events strayRoot :=
    ⟨_,_,_,[],[],rfl,by simp [he],by simp⟩
  obtain ⟨htree,-,hread⟩ := read_eq_ofTree []
  refine ⟨hr,?_,by decide +kernel⟩
  rw [(hread strayText).1]
  exact htree _ _ hr

end Schema.Document

end WaylandZig
