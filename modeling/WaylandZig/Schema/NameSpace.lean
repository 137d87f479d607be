import WaylandZig.Ascii

/-! # Name spaces

The token that the interface names of a document share in front. A common beginning that breaks off in
the middle of a word is cut back to the last underscore; one that is itself a name is taken whole.
-/
namespace WaylandZig.Schema.NameSpace

/-- The bytes before the first underscore. -/
def firstToken (s : Bytes) : Bytes := (s.cut Ascii.underscore).1

/-- The bytes before the last underscore; a partial word without one is dropped whole. -/
def wholeWords (s : Bytes) : Bytes := (s.beforeLast? Ascii.underscore).getD []

/-- The first of the shortest names. -/
def shortest (first : Bytes) (rest : List Bytes) : Bytes :=
  rest.foldl (fun s n => if n.length < s.length then n else s) first

/-- The first position, short of the end of every name, at which two names differ. -/
def disagreement? (first : Bytes) (rest : List Bytes) : Option Nat :=
  (List.range (shortest first rest).length).find? fun i => rest.any fun n => n[i]? != first[i]?

def infer : List Bytes → Bytes
  | [] => []
  | first :: rest =>
    match disagreement? first rest with
    | some i => firstToken (wholeWords (first.take i))
    | none => firstToken (shortest first rest)

end WaylandZig.Schema.NameSpace
