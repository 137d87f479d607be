import WaylandZig.Bytes

/-! # Version text

An installed build reports its module version. A local build reports the release it leads to,
tagged with the revision it was built from when that is recorded.
-/
namespace WaylandZig.Version

structure BuildInfo where
  moduleVersion : Bytes := []
  settings : List (Bytes × Bytes) := []

/-- The value of the last setting of that name, or nothing. -/
def BuildInfo.setting (info : BuildInfo) (key : Bytes) : Bytes :=
  (info.settings.reverse.lookup key).getD []

/-- The longest part of a revision that is shown, in bytes. -/
def shownRevision : Nat := 12

/-- The tag of a recorded revision; a tree with local changes is marked. -/
def revisionTag (revision : Bytes) (dirty : Bool) : Bytes :=
  if revision.isEmpty then []
  else if dirty then "+" ++ revision ++ ".dirty"
  else "+" ++ revision

def text (release : Bytes) : Option BuildInfo → Bytes
  | none => release
  | some info =>
    if info.moduleVersion ≠ [] ∧ info.moduleVersion ≠ "(devel)" then info.moduleVersion
    else
      release ++ "-dev"
        ++ revisionTag ((info.setting "vcs.revision").take shownRevision)
          (info.setting "vcs.modified" == "true")

def release : Bytes := "0.1.0"

/-- The version of this build, which records no revision. -/
def current : Bytes := text release (some {})

end WaylandZig.Version
