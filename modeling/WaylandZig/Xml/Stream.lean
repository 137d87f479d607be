import WaylandZig.Xml.Token

/-! # Event streams

A document as the opening and closing of elements with the text between, in order. The events of a
stream are well nested: a closing that does not fit ends the stream with a fault.
-/
namespace WaylandZig.Xml

inductive Event where
  | opened (name : Name) (attributes : List Attribute)
  | closed
  | text (data : Bytes)
  deriving DecidableEq, Repr

/-- The events up to the first fault, or up to the end of the document when `fault?` is none. -/
structure Stream where
  events : List Event
  fault? : Option Fault := none
  deriving Repr

namespace Stream

def cons (e : Event) (s : Stream) : Stream := { s with events := e :: s.events }

/-- Why an end tag does not close the element opened last. -/
def misfit? (opened : List Name) (closed : Name) : Option Malformed :=
  match opened with
  | [] => some (.strayEndTag closed)
  | name :: _ =>
    if name.localPart ≠ closed.localPart then some (.crossedTags name closed)
    else if name.space ≠ closed.space then some (.crossedSpaces name closed)
    else none

/-- The events from a cursor on, with the names of the elements that are open, innermost first.
Every token takes a byte, so the input bounds the rounds. -/
def readFrom : Nat → List Name → Cursor → Stream
  | 0, _, c => ⟨[], some (c.fault .endOfInput)⟩
  | rounds + 1, opened, c =>
    if c.rest.isEmpty then ⟨[], if opened.isEmpty then none else some (c.fault .endOfInput)⟩
    else match Token.read c with
      | .error e => ⟨[], some e⟩
      | .ok (.startTag name attributes, c) =>
        cons (.opened name attributes) (readFrom rounds (name :: opened) c)
      | .ok (.emptyTag name attributes, c) =>
        cons (.opened name attributes) (cons .closed (readFrom rounds opened c))
      | .ok (.endTag name, c) =>
        match misfit? opened name with
        | some what => ⟨[], some (c.fault what)⟩
        | none => cons .closed (readFrom rounds opened.tail c)
      | .ok (.text data, c) => cons (.text data) (readFrom rounds opened c)
      | .ok (.ignored, c) => readFrom rounds opened c

def read (document : Bytes) : Stream := readFrom (document.length + 1) [] { rest := document }

end Stream

end WaylandZig.Xml
