import WaylandZig.FileTree.Access
import WaylandZig.Sink.UnitPath

/-! # Sinks

A sink takes the text of a unit under its path and changes its state, or refuses it.
-/
namespace WaylandZig

inductive SinkFault where
  | invalidPath (path : Bytes) (fault : UnitPathFault)
  | canceled
  | outsideRoot (path : Bytes)
  | makingDirectories (error : FileError)
  | makingTemporary (error : FileError)
  | writingTemporary (errors : List FileError)
  | settingMode (error : FileError)
  | renaming (error : FileError)
  | alreadyExists (path : Bytes)
  | creating (error : FileError)
  | refused (reason : Bytes)
  deriving DecidableEq, Repr

/-- What is said of work that was called off. -/
def canceledText : Bytes := "context canceled"

def SinkFault.text : SinkFault → Bytes
  | .invalidPath path fault => "invalid path " ++ Quoted.quote path ++ ": " ++ fault.text
  | .canceled => canceledText
  | .outsideRoot path => "path escapes root directory: " ++ Quoted.quote path
  | .makingDirectories error => "failed to create directories: " ++ error.text
  | .makingTemporary error => "failed to create temp file: " ++ error.text
  | .writingTemporary errors =>
    "failed to write temp file: " ++ Bytes.joinWith "\n" (errors.map FileError.text)
  | .settingMode error => "failed to set file mode: " ++ error.text
  | .renaming error => "failed to rename temp file: " ++ error.text
  | .alreadyExists path => "file already exists: " ++ Quoted.quote path
  | .creating error => "failed to create file: " ++ error.text
  | .refused reason => reason

/-- Writes the content of a unit under its path. -/
abbrev Sink (σ : Type) := Bytes → Bytes → σ → Except SinkFault Unit × σ

/-- The same sink in a state that has a first part. -/
def Sink.onSecond {σ τ : Type} (sink : Sink τ) : Sink (σ × τ) := fun path content state =>
  ((sink path content state.2).1, (state.1, (sink path content state.2).2))

/-- What every sink of this library checks before it writes. -/
def Sink.admit (canceled : Bool) (path : Bytes) : Except SinkFault Unit :=
  match UnitPath.check path with
  | .error fault => .error (.invalidPath path fault)
  | .ok () => if canceled then .error .canceled else .ok ()

end WaylandZig
