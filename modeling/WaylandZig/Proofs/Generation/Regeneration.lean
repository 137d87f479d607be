import WaylandZig.Proofs.Discovery
import WaylandZig.Proofs.Generation.DryRun

/-! # Running again

A run into a directory writes unit files and makes the directories above them. A search takes none of
that for a document, so a second run finds and loads what the first one did, builds the same units and
puts them where they already are. Only a directory that is new can make a difference: it may lead the
search on to a name or a path that is too long, where there was nothing to be found before.
-/
namespace WaylandZig

open Schema Zig

namespace Zig

theorem extension_unitPath {name : Bytes} (h : ∀ b ∈ name, Ascii.isWord b = true) :
    Path.extension (unitPath name) = ".zig" := by
  have he : unitPath name = name ++ Ascii.dot :: ("zig" : Bytes) := rfl
  have hlast : (unitPath name).beforeLast? Ascii.dot = some name := by
    rw [he]
    exact Bytes.beforeLast?_append (by decide) name
  have hsplit := Bytes.splitOn_eq_singleton (isName_unitPath h).no_slash
  simp only [Path.extension, hsplit, List.getLast?_singleton, Option.getD_some, hlast]
  exact List.drop_left

/-- No unit is taken for a document or for a subtree of a root. -/
theorem unsearched_isUnitPath : Discovery.Unsearched IsUnitPath where
  document := by
    rintro c ⟨name,hn,rfl⟩
    rw [Discovery.isXml, extension_unitPath hn]
    decide
  subtree := by
    rintro c hc ⟨name,hn,rfl⟩
    have he : ∀ c ∈ Discovery.subtrees, Path.extension c ≠ ".zig" := by decide
    exact he _ hc (extension_unitPath hn)

end Zig

namespace Generation

variable {c : Config} {f : Bytes → Bytes → Except FormatFault Bytes} {t t' : FileTree}

/-- What a run into a directory that succeeds has gone through. -/
theorem run_eq_ok_iff (hdry : c.dryRun = false) {r : Result} :
    (run (Formatter.ofFunction f) false c t).result = .ok r ∧
      (run (Formatter.ofFunction f) false c t).files = t' ↔
    c.problems = [] ∧ ∃ paths s units, source false c t = .ok (paths,s) ∧
      built s c.settings f = .ok units ∧
      writeUnits ((DirectorySink.replacing c.outDir).write false) units t = (.ok (),t') ∧
      resultOf paths s units = r := by
  by_cases hc : c.problems = []
  · have hrun := run_eq (Formatter.ofFunction f) false hc t
    rw [Prod.mk.injEq] at hrun
    cases hs : source false c t with
    | error fault =>
      rw [hs] at hrun
      simp [hrun.1]
    | ok found =>
      obtain ⟨paths,s⟩ := found
      rw [hs] at hrun
      simp only [write_toDirectory hdry] at hrun
      rw [hrun.1, hrun.2]
      cases hb : built s c.settings f with
      | error fault => simp [hb]
      | ok units =>
        rcases hw : writeUnits ((DirectorySink.replacing c.outDir).write false) units t with
          ⟨fault | ⟨⟩,final⟩
        · simp [hb, hw, Except.map]
        · simp [hb, hw, hc, Except.map, and_comm]
  · simp [run_invalid _ _ hc, hc]

/-- The documents of a tree that has grown by unit files. -/
theorem source_grown (hw : t.WellFormed) (hg : FileTree.Grown IsUnitPath t t')
    {found : List Bytes × DocumentSet} (h : source false c t = .ok found) :
    ((∀ root ∈ c.roots, ¬ Discovery.Overlong t' root) ∧ source false c t' = .ok found) ∨
    ((∃ root ∈ c.roots, Discovery.Overlong t' root) ∧
      ∃ e, source false c t' = .error (.discovery e) ∧ e.errno = .nameTooLong) := by
  unfold source at h
  cases hf : Discovery.find t c.roots with
  | error e => simp [hf] at h
  | ok documents =>
    simp only [hf] at h
    have hx : ∀ p ∈ documents.map FoundDocument.path, Discovery.isXml p = true := by
      intro p hp
      obtain ⟨d,hd,rfl⟩ := List.mem_map.mp hp
      exact Discovery.isXml_of_find hf d hd
    cases hl : (Loading.load t false (MismatchPolicy.ofName c.onMismatch) c.skipInterfaces
      (documents.map FoundDocument.path)).1 with
    | error fault => simp [hl] at h
    | ok s =>
      have hload := Loading.load_grown hg unsearched_isUnitPath hx hl
      rcases Discovery.find_grown hw hg unsearched_isUnitPath hf with
        ⟨hno,hfind⟩ | ⟨hover,e,hfind,he⟩
      · refine .inl ⟨fun root hr ho => hno ⟨root,hr,ho⟩,?_⟩
        rw [hf] at hfind
        simp only [source, hfind, hload]
        exact h
      · refine .inr ⟨hover,e,?_,he⟩
        simp only [source, hfind]

/-- A run after a run that succeeded leaves every file as it is. It gives the same result, unless the
search of a root now meets a name or a path that is too long, which fails it. -/
theorem run_again (hw : t.WellFormed) (hdry : c.dryRun = false) {r : Result}
    (h : (run (Formatter.ofFunction f) false c t).result = .ok r)
    (hfiles : (run (Formatter.ofFunction f) false c t).files = t') :
    (run (Formatter.ofFunction f) false c t').files = t' ∧
    ((∀ root ∈ c.roots, ¬ Discovery.Overlong t' root) →
      (run (Formatter.ofFunction f) false c t').result = .ok r) ∧
    ((∃ root ∈ c.roots, Discovery.Overlong t' root) →
      ∃ e, (run (Formatter.ofFunction f) false c t').result = .error (.discovery e) ∧
        e.errno = .nameTooLong) := by
  obtain ⟨hc,paths,s,units,hs,hb,hwrite,hr⟩ := (run_eq_ok_iff hdry).mp ⟨h,hfiles⟩
  obtain ⟨ht,hi⟩ := Config.isWordName_of_problems hc
  have hn := fileNames_of_built ht hi hb
  obtain ⟨directory,hnames,habs⟩ := t.exists_absolute_eq_path c.outDir
  obtain ⟨habs',hsettled⟩ := writeUnits_settled hnames habs hn hwrite
  have hagain := writeUnits_eq_self hnames habs' hn hsettled
  have hg := writeUnits_grown hnames habs hn hwrite
  rcases source_grown hw hg hs with ⟨hno,hsource⟩ | ⟨hover,e,hsource,he⟩
  · obtain ⟨hresult,hkept⟩ := (run_eq_ok_iff hdry).mpr ⟨hc,paths,s,units,hsource,hb,hagain,hr⟩
    exact ⟨hkept,fun _ => hresult,fun ⟨root,hroot,ho⟩ => absurd ho (hno root hroot)⟩
  · have hrun := run_eq (Formatter.ofFunction f) false hc t'
    rw [hsource, Prod.mk.injEq] at hrun
    obtain ⟨root,hroot,ho⟩ := hover
    exact ⟨hrun.2,fun hno => absurd ho (hno root hroot),fun _ => ⟨e,hrun.1,he⟩⟩

/-- The output goes into a subtree of the root that is searched. -/
def nestedOutput : Config := { roots := ["r"], outDir := "r/stable/gen", noFormat := true }

theorem nestedOutput_run_again : ∃ r,
    (run Formatter.unchanged false nestedOutput Builder.coreTree).result = .ok r ∧
    r.units.map SourceUnit.path = ["p.zig","types.zig","proto.zig"] ∧
    (run Formatter.unchanged false nestedOutput
      (run Formatter.unchanged false nestedOutput Builder.coreTree).files).result = .ok r ∧
    (run Formatter.unchanged false nestedOutput
      (run Formatter.unchanged false nestedOutput Builder.coreTree).files).files =
        (run Formatter.unchanged false nestedOutput Builder.coreTree).files := by
  have hpaths : (run Formatter.unchanged false nestedOutput Builder.coreTree).result.map
      (fun r => r.units.map SourceUnit.path) = .ok ["p.zig","types.zig","proto.zig"] := by
    decide +kernel
  obtain ⟨r,hr,hunits⟩ := Except.map_eq_ok_iff.mp hpaths
  have hw : Builder.coreTree.WellFormed := ⟨by decide +kernel,by decide +kernel⟩
  have hshort : ∀ root ∈ nestedOutput.roots, ¬ Discovery.Overlong
      (run Formatter.unchanged false nestedOutput Builder.coreTree).files root := by
    decide +kernel
  obtain ⟨hfiles,hresult,-⟩ := run_again (f := fun _ source => .ok source) hw rfl hr rfl
  exact ⟨r,hr,hunits,hresult hshort,hfiles⟩

/-- A root below the output directory with a name that no entry of a directory can have. -/
def unnameableRoot : Bytes := ("out/" : Bytes) ++ List.replicate 256 0x61

def unnameable : Config := { roots := [unnameableRoot], outDir := "out", noFormat := true }

theorem unnameable_run_again_fails : ∃ r,
    (run Formatter.unchanged false unnameable {}).result = .ok r ∧
    (run Formatter.unchanged false unnameable
      (run Formatter.unchanged false unnameable {}).files).result =
        .error (.discovery ⟨"stat",[unnameableRoot ++ "/wayland.xml"],.nameTooLong⟩) := by
  have hok : (run Formatter.unchanged false unnameable {}).result.isOk = true := by decide +kernel
  obtain ⟨r,hr⟩ := Except.exists_of_isOk hok
  refine ⟨r,hr,?_⟩
  decide +kernel

end Generation

end WaylandZig
