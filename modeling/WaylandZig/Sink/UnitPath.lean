import WaylandZig.Path
import WaylandZig.Text.Quoted

/-! # Unit paths

A sink takes units under clean relative paths only, so that no unit lands outside of it or under two
spellings of one name.
-/
namespace WaylandZig

inductive UnitPathFault where
  | empty
  | absolute
  | traversal
  | unclean (cleaned path : Bytes)
  deriving DecidableEq, Repr

def UnitPathFault.text : UnitPathFault → Bytes
  | .empty => "path is empty"
  | .absolute => "absolute paths not allowed"
  | .traversal => "path traversal not allowed"
  | .unclean cleaned path =>
    "path is not clean (expected " ++ Quoted.quote cleaned ++ ", got " ++ Quoted.quote path ++ ")"

namespace UnitPath

/-- A path that begins with a drive letter and a colon. -/
def hasDrive : Bytes → Bool
  | letter :: Ascii.colon :: _ => Ascii.isLetter letter
  | _ => false

def check (p : Bytes) : Except UnitPathFault Unit :=
  if p.isEmpty then .error .empty
  else if Path.isAbsolute p || hasDrive p then .error .absolute
  else if (p.splitOn Ascii.slash).contains ".." then .error .traversal
  else if Path.clean p ≠ p then .error (.unclean (Path.clean p) p)
  else .ok ()

end UnitPath

end WaylandZig
