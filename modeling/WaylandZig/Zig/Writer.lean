import WaylandZig.Ascii

/-! # Indented source text

A writer holds the source lines written so far, the newest in front, and the depth that the next
line is indented to. A block that turns out to have no lines is taken back and written on one line
instead.
-/
namespace WaylandZig.Zig

structure Writer where
  indent : Nat
  depth : Nat := 0
  written : List Bytes := []
  deriving DecidableEq, Repr

namespace Writer

def push (w : Writer) (text : Bytes) : Writer := { w with written := text :: w.written }

/-- An empty line, which is never indented. -/
def blank (w : Writer) : Writer := w.push []

def line (w : Writer) (text : Bytes) : Writer := w.push (Bytes.spaces (w.depth * w.indent) ++ text)

def lines (w : Writer) (texts : List Bytes) : Writer := texts.foldl line w

/-- Writes a line and indents what follows. -/
def open_ (w : Writer) (text : Bytes) : Writer :=
  { w.line text with depth := w.depth + 1 }

/-- Ends the indent and writes a line. -/
def close (w : Writer) (text : Bytes) : Writer :=
  line { w with depth := w.depth - 1 } text

/-- Takes back what was written after the first `n` lines. -/
def truncate (w : Writer) (n : Nat) : Writer :=
  { w with written := w.written.drop (w.written.length - n) }

/-- Writes `head`, the body and the closing brace with `tail`. When the body writes nothing, the
head line is taken back and the braces are closed on it. -/
def block (w : Writer) (head tail : Bytes) (body : Writer → Writer) : Writer :=
  let opened := w.open_ head
  let filled := body opened
  if filled.written.length = opened.written.length then
    line { filled.truncate w.written.length with depth := filled.depth - 1 }
      (head ++ "\x7d" ++ tail)
  else filled.close ("\x7d" ++ tail)

/-- The lines in the order they were written, each with its newline. -/
def text (w : Writer) : Bytes := w.written.reverse.flatMap (· ++ [Ascii.newline])

end Writer

end WaylandZig.Zig
