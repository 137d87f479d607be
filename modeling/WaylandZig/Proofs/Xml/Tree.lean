import WaylandZig.Xml.Stream

/-! # Element trees

The events between the opening of an element and its closing are those of a forest. The depth that is
still open tells where the closing stands, so no tree has to be built in order to find it.
-/
namespace WaylandZig.Xml

inductive Node where
  | text (data : Bytes)
  | element (name : Name) (attributes : List Attribute) (children : List Node)

namespace Node

def isNamed (name : Bytes) : Node → Bool
  | .text _ => false
  | .element n _ _ => n.localPart == name

def attributes : Node → List Attribute
  | .text _ => []
  | .element _ attributes _ => attributes

def children : Node → List Node
  | .text _ => []
  | .element _ _ children => children

/-- The elements of that local name that stand directly inside. -/
def childrenNamed (n : Node) (name : Bytes) : List Node := n.children.filter (isNamed name)

mutual

def events : Node → List Event
  | .text data => [.text data]
  | .element name attributes children =>
    .opened name attributes :: forestEvents children ++ [.closed]

def forestEvents : List Node → List Event
  | [] => []
  | n :: rest => n.events ++ forestEvents rest

end

theorem element_events_append (name : Name) (attributes : List Attribute) (children : List Node)
    (rest : List Event) : (Node.element name attributes children).events ++ rest =
      .opened name attributes :: (forestEvents children ++ .closed :: rest) := by
  simp [events]

end Node

/-- The first element of the events, with nothing but text in front of it. -/
def IsRoot (events : List Event) (root : Node) : Prop :=
  ∃ name attributes children before after, root = .element name attributes children ∧
    events = before ++ root.events ++ after ∧ ∀ n as, Event.opened n as ∉ before

/-- The events that remain once `depth` open elements are closed. -/
def afterClosing : Nat → List Event → Option (List Event)
  | 0, events => some events
  | _ + 1, [] => none
  | depth + 1, .opened _ _ :: events => afterClosing (depth + 2) events
  | depth + 1, .closed :: events => afterClosing depth events
  | depth + 1, .text _ :: events => afterClosing (depth + 1) events

/-- Up to the closing of the innermost open element stand the events of a forest. -/
theorem afterClosing_forest {depth : Nat} {events rest : List Event}
    (h : afterClosing (depth + 1) events = some rest) :
    ∃ forest after, events = Node.forestEvents forest ++ .closed :: after ∧
      afterClosing depth after = some rest := by
  -- An element inside is closed first, so what follows it is shorter but no tail of the list.
  induction hn : events.length using Nat.strongRecOn generalizing depth events with
  | _ n ih =>
    subst hn
    match events with
    | [] => simp [afterClosing] at h
    | .closed :: events => exact ⟨[],events,rfl,h⟩
    | .text data :: events =>
      rw [afterClosing] at h
      obtain ⟨forest,after,rfl,ha⟩ := ih events.length (by simp) h rfl
      exact ⟨.text data :: forest,after,by simp [Node.forestEvents, Node.events],ha⟩
    | .opened name attributes :: events =>
      rw [afterClosing] at h
      obtain ⟨children,between,rfl,hb⟩ := ih events.length (by simp) h rfl
      obtain ⟨forest,after,rfl,ha⟩ := ih between.length (by simp; omega) hb rfl
      exact ⟨.element name attributes children :: forest,after,
        by simp [Node.forestEvents, Node.events],ha⟩

end WaylandZig.Xml
