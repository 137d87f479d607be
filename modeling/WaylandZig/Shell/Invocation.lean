import WaylandZig.Shell.Builtin.Table

/-! # Host shell: invocations

How a shell is started: which options it has, where its script comes from, and what its arguments are.
-/
namespace WaylandZig.Shell

inductive ScriptSource where
  | text (script : Bytes)
  | file (path : Bytes)
  | input
  deriving DecidableEq, Repr

structure Invocation where
  switches : Builtin.Switches := {}
  source : ScriptSource
  name : Bytes
  arguments : List Bytes := []
  deriving DecidableEq, Repr

namespace Invocation

/-- Reads the arguments that a shell is started with under some name. A script that is read from the
input is an option as well. -/
def ofArguments (name : Bytes) (args : List Bytes) : Except Bytes Invocation := do
  let (w, operands) ← Builtin.Switches.read true args.length {} args
  if w.script then
    match operands with
    | [] => .error "-c requires an argument"
    | script :: rest => return ⟨w, .text script, rest.headD name, rest.tail⟩
  else
    match operands with
    | [] => return ⟨w.put true 0x73, .input, name, []⟩
    | path :: rest =>
      if w.letters.contains 0x73 then return ⟨w, .input, name, operands⟩
      else return ⟨w, .file path, path, rest⟩

end Invocation

end WaylandZig.Shell
