import WaylandZig.Builder
import WaylandZig.Proofs.Config.ValidSettings

/-! # What a dry run tells

A run with a dry run and without one goes through the same phases up to the first write: the same
configuration is looked at, the same documents are found and loaded, and with a formatter that is a
function the same units are built. A memory takes all of them, so a dry run succeeds just when a real
run builds its units, and the real run can then fail only by writing.
-/
namespace WaylandZig

open Schema Zig

namespace Zig

variable {σ : Type}

theorem formatUnits_ofFunction (f : Bytes → Bytes → Except FormatFault Bytes) (units : List SourceUnit)
    (state : σ) : formatUnits (Formatter.ofFunction f) units state =
      ((formatUnits (Formatter.ofFunction f) units ()).1,state) := by
  induction units with
  | nil => rfl
  | cons u rest ih =>
    cases hu : f u.path u.content with
    | error why => simp only [formatUnits, Formatter.ofFunction, hu]
    | ok text =>
      simp only [formatUnits, Formatter.ofFunction, hu] at ih ⊢
      rw [ih]

/-- What is built with a function for a formatter. It depends on no state and changes none. -/
def built (s : DocumentSet) (settings : Settings) (f : Bytes → Bytes → Except FormatFault Bytes) :
    Except GenerateFault (List SourceUnit) :=
  (build s settings (Formatter.ofFunction f) ()).1

theorem build_ofFunction (s : DocumentSet) (settings : Settings)
    (f : Bytes → Bytes → Except FormatFault Bytes) (state : σ) :
    build s settings (Formatter.ofFunction f) state = (built s settings f,state) := by
  unfold built build
  cases compile s settings with
  | error fault => rfl
  | ok units => exact formatUnits_ofFunction f units state

/-- The units that were built are files side by side. -/
theorem fileNames_of_built {s : DocumentSet} {settings : Settings}
    {f : Bytes → Bytes → Except FormatFault Bytes} {done : List SourceUnit}
    (ht : isWordName settings.withDefaults.typesUnit = true)
    (hi : isWordName settings.withDefaults.indexUnit = true) (h : built s settings f = .ok done) :
    FileNames (done.map SourceUnit.path) := by
  unfold built build at h
  cases hc : compile s settings with
  | error fault => simp [hc] at h
  | ok units =>
    simp only [hc] at h
    rw [paths_of_formatUnits h]
    exact (compile_eq_ok_iff.mp hc).fileNames ht hi

/-- With a function for a formatter, a generation builds and then writes. -/
theorem generate_ofFunction (s : DocumentSet) (settings : Settings)
    (f : Bytes → Bytes → Except FormatFault Bytes) (sink : Sink σ) (state : σ) :
    generate s settings (Formatter.ofFunction f) sink state =
      match built s settings f with
      | .error fault => (.error fault,state)
      | .ok units => ((writeUnits sink units state).1.map fun _ => units,
          (writeUnits sink units state).2) := by
  unfold generate
  rw [build_ofFunction]
  cases built s settings f with
  | error fault => rfl
  | ok units =>
    rcases hw : writeUnits sink units state with ⟨fault | ⟨⟩,next⟩
    · simp [hw, Except.map]
    · simp [hw, Except.map]

end Zig

namespace Generation

/-- The documents of a run: the paths of all that were found, and what was loaded from them. -/
def source (canceled : Bool) (c : Config) (t : FileTree) : Except Fault (List Bytes × DocumentSet) :=
  match Discovery.find t c.roots with
  | .error e => .error (.discovery e)
  | .ok found =>
    match (Loading.load t canceled (MismatchPolicy.ofName c.onMismatch) c.skipInterfaces
      (found.map FoundDocument.path)).1 with
    | .error fault => .error (.loading fault)
    | .ok s => .ok (found.map FoundDocument.path,s)

/-- What a run returns and leaves, once its documents are loaded, is what writing returns and leaves. -/
theorem run_eq (f : Formatter FileTree) (canceled : Bool) {c : Config} (hc : c.problems = [])
    (t : FileTree) : ((run f canceled c t).result,(run f canceled c t).files) =
      match source canceled c t with
      | .error fault => (.error fault,t)
      | .ok (paths,s) => (match (write f canceled c s t).1 with
          | .error fault => .error (.generation fault)
          | .ok units => .ok (resultOf paths s units),(write f canceled c s t).2) := by
  unfold run source
  rw [hc]
  simp only [List.isEmpty_nil, Bool.not_true, Bool.false_eq_true, if_false]
  cases Discovery.find t c.roots with
  | error e => rfl
  | ok found =>
    simp only
    rcases Loading.load t canceled (MismatchPolicy.ofName c.onMismatch) c.skipInterfaces
      (found.map FoundDocument.path) with ⟨fault | s,log⟩
    · rfl
    · simp only [finish]
      rcases write f canceled c s t with ⟨fault | units,next⟩
      · rfl
      · rfl

theorem run_invalid (f : Formatter FileTree) (canceled : Bool) {c : Config} (hc : c.problems ≠ [])
    (t : FileTree) : run f canceled c t = ⟨.error (.invalidConfig c.problems),t,[]⟩ := by
  have he : c.problems.isEmpty = false := by simpa using hc
  rw [run, he]
  rfl

variable {c : Config} {f : Bytes → Bytes → Except FormatFault Bytes} {s : DocumentSet}

/-- A dry run gives the units that were built and changes nothing. -/
theorem write_dryRun (hc : c.problems = []) (hdry : c.dryRun = true) (s : DocumentSet) (t : FileTree) :
    write (Formatter.ofFunction f) false c s t = (built s c.settings f,t) := by
  have hf : (Formatter.ofFunction f).onFirst =
      (Formatter.ofFunction f : Formatter (FileTree × MemorySink)) := rfl
  obtain ⟨ht,hi⟩ := Config.isWordName_of_problems hc
  rw [write, if_pos hdry, hf, generate_ofFunction]
  cases hb : built s c.settings f with
  | error fault => rfl
  | ok units =>
    have hm := writeUnits_memory (fileNames_of_built ht hi hb) {}
    simp only [writeUnits_onSecond, hm]
    rfl

theorem write_toDirectory (hdry : c.dryRun = false) (s : DocumentSet) (t : FileTree) :
    write (Formatter.ofFunction f) false c s t =
      match built s c.settings f with
      | .error fault => (.error fault,t)
      | .ok units =>
        ((writeUnits ((DirectorySink.replacing c.outDir).write false) units t).1.map fun _ => units,
          (writeUnits ((DirectorySink.replacing c.outDir).write false) units t).2) := by
  rw [write, if_neg (by simp [hdry]), generate_ofFunction]

end Generation

namespace Builder

variable {b : Builder} {dir : Bytes} {run : Runner FileTree}

theorem generate_result (b : Builder) (c : Config) (run : Runner FileTree) (t : FileTree) :
    (b.generate c run t).result =
      (Generation.run (Generation.formatterOf c b.formatter? run false) false c t).result := by
  unfold generate
  cases b.quiet <;> rfl

theorem generate_files (b : Builder) (c : Config) (run : Runner FileTree) (t : FileTree) :
    (b.generate c run t).files =
      (Generation.run (Generation.formatterOf c b.formatter? run false) false c t).files := by
  unfold generate
  cases b.quiet <;> rfl

/-- The directory is asked for on a real run only, so where one is given both runs find the same
problems. -/
theorem problems_eq (c : Config) (hd : dir ≠ []) :
    Config.problems { c with outDir := dir, dryRun := false } =
      Config.problems { c with dryRun := true } := by
  have hreal : Config.outDirProblems { c with outDir := dir, dryRun := false } = [] := by
    cases dir with
    | nil => exact absurd rfl hd
    | cons b rest => rfl
  have hdry : Config.outDirProblems { c with dryRun := true } = [] := by
    simp [Config.outDirProblems]
  simp only [Config.problems, hreal, hdry]
  rfl

section Agreement

variable {f : Bytes → Bytes → Except FormatFault Bytes}
  (hf : Generation.formatterOf b.config b.formatter? run false = Formatter.ofFunction f)

include hf

/-- What a check returns and leaves. -/
theorem check_eq (t : FileTree) : ((b.check run t).result,(b.check run t).files) =
    ((Generation.run (Formatter.ofFunction f) false { b.config with dryRun := true } t).result,
      (Generation.run (Formatter.ofFunction f) false { b.config with dryRun := true } t).files) := by
  have hc : Generation.formatterOf { b.config with dryRun := true } b.formatter? run false =
      Formatter.ofFunction f := hf
  rw [check, generate_result, generate_files, hc]

theorem toDir_eq (dir : Bytes) (t : FileTree) :
    ((b.toDir dir run t).result,(b.toDir dir run t).files) =
      ((Generation.run (Formatter.ofFunction f) false
          { b.config with outDir := dir, dryRun := false } t).result,
        (Generation.run (Formatter.ofFunction f) false
          { b.config with outDir := dir, dryRun := false } t).files) := by
  have hc : Generation.formatterOf { b.config with outDir := dir, dryRun := false } b.formatter? run
      false = Formatter.ofFunction f := hf
  rw [toDir, generate_result, generate_files, hc]

/-- Both calls fail before anything is written, or both build the same units, which the run into the
directory goes on to write. -/
theorem check_toDir_cases (hd : dir ≠ []) (t : FileTree) :
    (∃ fault, (b.check run t).result = .error fault ∧ (b.check run t).files = t ∧
      (b.toDir dir run t).result = .error fault) ∨
    ∃ paths s units, FileNames (units.map SourceUnit.path) ∧
      (b.check run t).result = .ok (Generation.resultOf paths s units) ∧ (b.check run t).files = t ∧
      (match writeUnits ((DirectorySink.replacing dir).write false) units t with
        | (.ok (),final) => (b.toDir dir run t).result = .ok (Generation.resultOf paths s units) ∧
          (b.toDir dir run t).files = final
        | (.error fault,_) => (b.toDir dir run t).result = .error (.generation fault)) := by
  have hcheck := check_eq hf t
  have hreal := toDir_eq hf dir t
  have hproblems := problems_eq b.config hd
  rw [Prod.mk.injEq] at hcheck hreal
  rw [hcheck.1, hcheck.2, hreal.1, hreal.2]
  by_cases hp : Config.problems { b.config with dryRun := true } = []
  · have hrun := Generation.run_eq (Formatter.ofFunction f) false hp t
    have hrun' := Generation.run_eq (Formatter.ofFunction f) false (hproblems.trans hp) t
    have hs : Generation.source false { b.config with outDir := dir, dryRun := false } t =
        Generation.source false { b.config with dryRun := true } t := rfl
    rw [hs] at hrun'
    cases hsource : Generation.source false { b.config with dryRun := true } t with
    | error fault =>
      rw [hsource, Prod.mk.injEq] at hrun hrun'
      exact .inl ⟨fault,hrun.1,hrun.2,hrun'.1⟩
    | ok found =>
      obtain ⟨paths,s⟩ := found
      rw [hsource, Prod.mk.injEq] at hrun hrun'
      rw [Generation.write_dryRun hp rfl] at hrun
      rw [Generation.write_toDirectory rfl] at hrun'
      have hset : Config.settings { b.config with outDir := dir, dryRun := false } =
          Config.settings { b.config with dryRun := true } := rfl
      rw [hset] at hrun'
      cases hb : built s (Config.settings { b.config with dryRun := true }) f with
      | error fault =>
        rw [hb] at hrun hrun'
        exact .inl ⟨.generation fault,hrun.1,hrun.2,hrun'.1⟩
      | ok units =>
        rw [hb] at hrun hrun'
        obtain ⟨ht,hi⟩ := Config.isWordName_of_problems hp
        refine .inr ⟨paths,s,units,fileNames_of_built ht hi hb,hrun.1,hrun.2,?_⟩
        rcases hw : writeUnits ((DirectorySink.replacing dir).write false) units t with
          ⟨fault | ⟨⟩,final⟩
        · simp only [hw] at hrun'
          exact hrun'.1
        · simp only [hw] at hrun'
          exact hrun'
  · rw [Generation.run_invalid _ _ hp, Generation.run_invalid _ _ (hproblems.trans_ne hp)]
    exact .inl ⟨_,rfl,rfl,by rw [hproblems]⟩

/-- A check tells what a run into a directory will do. A run that succeeds gives the result of the
check, and each of its units is then found in the directory with its content and the default mode. A
check that succeeds gives the result of the run, unless the run fails by writing a unit. The check
itself leaves the file tree as it is, so the run after it is the run without it. -/
theorem check_agrees_toDir (hd : dir ≠ []) (t : FileTree) :
    (∀ r, (b.toDir dir run t).result = .ok r → (b.check run t).result = .ok r ∧
      ∀ u ∈ r.units, (b.toDir dir run t).files.find (Path.join (t.absolute dir) u.path) =
        .ok (Location.ofPath (Path.join (t.absolute dir) u.path),.file 0o644 u.content)) ∧
    (∀ r, (b.check run t).result = .ok r → (b.toDir dir run t).result = .ok r ∨
      ∃ path why, (b.toDir dir run t).result = .error (.generation (.writing path why))) ∧
    (b.check run t).files = t ∧
    b.toDir dir run (b.check run t).files = b.toDir dir run t := by
  obtain ⟨fault,hcheck,hfiles,hreal⟩ | ⟨paths,s,units,hn,hcheck,hfiles,hreal⟩ :=
    check_toDir_cases hf hd t
  · rw [hcheck, hreal, hfiles]
    exact ⟨nofun,nofun,rfl,rfl⟩
  rw [hcheck, hfiles]
  obtain ⟨directory,hnames,habs⟩ := t.exists_absolute_eq_path dir
  obtain ⟨-,hw⟩ | ⟨before,u,after,why,-,-,-,hw⟩ :=
    writeUnits_cases ((DirectorySink.replacing dir).write false) units t
  · rw [hw] at hreal
    obtain ⟨hresult,hfinal⟩ := hreal
    obtain ⟨-,hsettled⟩ := writeUnits_settled hnames habs hn hw
    rw [hresult, hfinal]
    refine ⟨?_,fun r hr => .inl hr,rfl,rfl⟩
    intro r hr
    cases hr
    refine ⟨rfl,?_⟩
    intro u hu
    have hname := (hn.unit u.path (List.mem_map_of_mem hu)).isName
    rw [habs, Location.join_path hnames hname,
      Location.ofPath_path (Path.isName_append hnames hname)]
    exact (hsettled u hu).find_eq
  · rw [hw] at hreal
    rw [hreal]
    exact ⟨nofun,fun r _ => .inr ⟨u.path,why,rfl⟩,rfl,rfl⟩

end Agreement

/-- A root with the core document and nothing else. -/
def coreTree : FileTree :=
  { nodes := [(["r"],.directory),
      (["r","wayland.xml"],
        .file 0o644 "<protocol name='p'><interface name='wl_a' version='1'/></protocol>")] }

theorem coreTree_check_agrees : ∃ r,
    ((ofRoots ["r"]).noFormat.toDir "out" (fun _ _ _ => ({},·)) coreTree).result = .ok r ∧
    ((ofRoots ["r"]).noFormat.check (fun _ _ _ => ({},·)) coreTree).result = .ok r ∧
    r.units.map SourceUnit.path = ["p.zig","types.zig","proto.zig"] ∧
    ∀ u ∈ r.units, ((ofRoots ["r"]).noFormat.toDir "out" (fun _ _ _ => ({},·)) coreTree).files.find
      (Path.join (coreTree.absolute "out") u.path) =
        .ok (Location.ofPath (Path.join (coreTree.absolute "out") u.path),.file 0o644 u.content) := by
  have hpaths : ((ofRoots ["r"]).noFormat.toDir "out" (fun _ _ _ => ({},·)) coreTree).result.map
      (fun r => r.units.map SourceUnit.path) = .ok ["p.zig","types.zig","proto.zig"] := by
    decide +kernel
  obtain ⟨r,hr,hunits⟩ := Except.map_eq_ok_iff.mp hpaths
  have hf : Generation.formatterOf (ofRoots ["r"]).noFormat.config (ofRoots ["r"]).noFormat.formatter?
      (fun _ _ _ => ({},·)) false = Formatter.ofFunction fun _ source => .ok source := rfl
  have hd : ("out" : Bytes) ≠ [] := by decide
  obtain ⟨hrun,-⟩ := check_agrees_toDir hf hd coreTree
  obtain ⟨hcheck,hfind⟩ := hrun r hr
  exact ⟨r,hr,hcheck,hunits,hfind⟩

end Builder

end WaylandZig
