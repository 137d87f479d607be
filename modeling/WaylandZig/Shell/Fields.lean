import WaylandZig.FileTree.Access
import WaylandZig.Shell.Pattern

/-! # Host shell: fields

A word is expanded to marked bytes, which remember where they came from. The marks decide how the word
falls apart into fields and which fields are patterns for names of files.
-/
namespace WaylandZig.Shell

/-- A byte of an expanded word. Expanded bytes may separate fields, quoted bytes mean only themselves,
`empty` is a quoted part without bytes, and `gap` always separates. -/
inductive Mark where
  | quoted (b : UInt8)
  | plain (b : UInt8)
  | expanded (b : UInt8)
  | empty
  | gap
  deriving DecidableEq, Repr

namespace Mark

/-- The bytes of an expansion. A quoted one is a part of its word even if it has none. -/
def ofText (isQuoted : Bool) (s : Bytes) : List Mark :=
  if isQuoted then .empty :: s.map .quoted else s.map .expanded

/-- The text of a word that is not split, with `joint` in its gaps. -/
def text (joint : Bytes) (ms : List Mark) : Bytes :=
  ms.flatMap fun
    | .quoted b => [b]
    | .plain b => [b]
    | .expanded b => [b]
    | .empty => []
    | .gap => joint

/-- The pattern of a word that is not split. -/
def pattern (ms : List Mark) : Pattern :=
  ms.filterMap fun
    | .quoted b => some ⟨b, false⟩
    | .plain b => some ⟨b, true⟩
    | .expanded b => some ⟨b, true⟩
    | .empty => none
    | .gap => some ⟨Ascii.space, false⟩

def isWhite (b : UInt8) : Bool := b == Ascii.space || b == Ascii.tab || b == Ascii.newline

/-- The fields of a word. `open?` is the field being read, last byte first, and `spaced` says that the
one before it was ended by white space, to which one more separator belongs. -/
def fieldsFrom (separators : Bytes) : List Mark → Option Pattern → Bool → List Pattern
  | [], open?, _ => (open?.map List.reverse).toList
  | m :: rest, open?, spaced =>
    let add := fun (b : PatternByte) => fieldsFrom separators rest (some (b :: open?.getD [])) false
    match m with
    | .quoted b => add ⟨b, false⟩
    | .plain b => add ⟨b, true⟩
    | .empty => fieldsFrom separators rest (some (open?.getD [])) false
    | .gap => (open?.map List.reverse).toList ++ fieldsFrom separators rest none false
    | .expanded b =>
      if !separators.contains b then add ⟨b, true⟩
      else match open? with
        | some field => field.reverse :: fieldsFrom separators rest none (isWhite b)
        | none =>
          if isWhite b then fieldsFrom separators rest none spaced
          else if spaced then fieldsFrom separators rest none false
          else [] :: fieldsFrom separators rest none false

def fields (separators : Bytes) (ms : List Mark) : List Pattern := fieldsFrom separators ms none false

end Mark

namespace Pattern

/-- The parts of a pattern between its slashes. -/
def parts : Pattern → List Pattern
  | [] => [[]]
  | b :: rest =>
    if b.byte = Ascii.slash then [] :: parts rest
    else match parts rest with
      | [] => [[b]]
      | part :: others => (b :: part) :: others

/-- A name that begins with a dot is matched by a pattern that begins with one only. -/
def matchesName (p : Pattern) (name : Bytes) : Bool :=
  p.matchesText name && (!name.startsWith "." || p.unescaped.bytes.startsWith ".")

/-- The paths in a file tree that some parts match, behind a path that is already found. -/
def pathsFrom (t : FileTree) : List Pattern → Bytes → List Bytes
  | [], path => [path]
  | part :: rest, path =>
    if part.isWild then
      match t.find (if path.isEmpty then "." else path) with
      | .ok (l, .directory) =>
        let names := [(".": Bytes), ".."] ++ t.namesIn l
        (names.filter part.matchesName).flatMap fun name =>
          if rest.isEmpty then [path ++ name]
          else match t.find (path ++ name) with
            | .ok (_, .directory) => pathsFrom t rest (path ++ name ++ "/")
            | _ => []
      | _ => []
    else if rest.isEmpty then
      let here := path ++ part.unescaped.bytes
      if (t.find here).isOk then [here] else []
    else pathsFrom t rest (path ++ part.unescaped.bytes ++ "/")

/-- What a field becomes: the paths that it matches or, if there are none, its text. -/
def paths (t : FileTree) (p : Pattern) : List Bytes :=
  if !p.isWild then [p.bytes]
  else
    let found := pathsFrom t p.parts []
    if found.isEmpty then [p.bytes] else found

end Pattern

end WaylandZig.Shell
