import WaylandZig.Ascii

/-! # Slash-separated paths

Lexical operations on paths. Nothing here looks at a file system: a path is cleaned by reducing
its components, where `.` stands for nothing and `..` takes back the component before it.
-/
namespace WaylandZig.Path

def isAbsolute (p : Bytes) : Bool := p.startsWith "/"

/-- The components of a path that are neither empty nor `.`. -/
def components (p : Bytes) : List Bytes :=
  (p.splitOn Ascii.slash).filter fun c => c ≠ [] && c ≠ "."

/-- Adds one component to a cleaned list that is kept in reverse. -/
def push (rooted : Bool) (done : List Bytes) (c : Bytes) : List Bytes :=
  if c = ".." then
    match done with
    | [] => if rooted then [] else [c]
    | last :: before => if last = ".." then c :: done else before
  else c :: done

/-- The components that remain once every `..` has taken back its predecessor. At the root there
is nothing to take back; a relative path keeps a leading `..`. -/
def reduce (rooted : Bool) (cs : List Bytes) : List Bytes := (cs.foldl (push rooted) []).reverse

def render (rooted : Bool) (cs : List Bytes) : Bytes :=
  if rooted then "/" ++ Bytes.joinWith "/" cs
  else if cs.isEmpty then "." else Bytes.joinWith "/" cs

/-- The shortest path that is lexically the same. -/
def clean (p : Bytes) : Bytes := render (isAbsolute p) (reduce (isAbsolute p) (components p))

/-- Joins two paths and cleans the result; an empty part contributes nothing. -/
def join (a b : Bytes) : Bytes :=
  if a.isEmpty then (if b.isEmpty then [] else clean b) else clean (a ++ "/" ++ b)

/-- Everything up to the last slash, cleaned. -/
def dir (p : Bytes) : Bytes :=
  match p.beforeLast? Ascii.slash with
  | some front => clean (front ++ "/")
  | none => "."

/-- The last component. -/
def base (p : Bytes) : Bytes :=
  if p.isEmpty then "."
  else
    match ((p.splitOn Ascii.slash).filter (· ≠ [])).getLast? with
    | some last => last
    | none => "/"

/-- The part of the last component from its last dot on. -/
def extension (p : Bytes) : Bytes :=
  let last := ((p.splitOn Ascii.slash).getLast?).getD []
  match last.beforeLast? Ascii.dot with
  | some stem => last.drop stem.length
  | none => []

/-- The cleaned absolute path of `p` as seen from the directory `cwd`. -/
def absolute (cwd p : Bytes) : Bytes := if isAbsolute p then clean p else join cwd p

end WaylandZig.Path
