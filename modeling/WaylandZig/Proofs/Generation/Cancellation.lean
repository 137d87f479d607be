import WaylandZig.Proofs.Generation.DryRun

/-! # Runs that were called off

No phase of a run looks whether it was called off before it has something to do. Loading looks before
each document, a command before it is run, and a sink before it takes a unit. A run therefore fails at
the first document, or it finds none, and then its two shared units are compiled and formatted and the
first of them is refused. On that way only the formatter can have changed the file tree.
-/
namespace WaylandZig

open Schema Zig

/-- A formatter that changes no state, whatever it answers. -/
def Formatter.Keeps {σ : Type} (f : Formatter σ) : Prop :=
  ∀ path source state, (f path source state).2 = state

/-- A sink that takes nothing and changes nothing. It answers as it does to work that was called
off. -/
def Sink.Refuses {σ : Type} (sink : Sink σ) : Prop :=
  ∀ path content state, ∃ why,
    Sink.admit true path = .error why ∧ sink path content state = (.error why,state)

theorem Sink.exists_admit_canceled (path : Bytes) : ∃ why, Sink.admit true path = .error why := by
  cases h : Sink.admit true path with
  | error why => exact ⟨why,rfl⟩
  | ok taken => cases (Sink.admit_eq_ok_iff.mp h).2

theorem Sink.admit_canceled {path : Bytes} (h : UnitPath.check path = .ok ()) :
    Sink.admit true path = .error .canceled := by
  unfold Sink.admit
  rw [h]
  rfl

theorem DirectorySink.refuses_write (s : DirectorySink) : Sink.Refuses (s.write true) := by
  intro path content t
  obtain ⟨why,hw⟩ := Sink.exists_admit_canceled path
  refine ⟨why,hw,?_⟩
  simp only [write, writeThrough, hw]

theorem MemorySink.refuses_write : Sink.Refuses (MemorySink.write true) := by
  intro path content m
  obtain ⟨why,hw⟩ := Sink.exists_admit_canceled path
  refine ⟨why,hw,?_⟩
  simp only [write, hw]

theorem Sink.Refuses.onSecond {σ τ : Type} {sink : Sink τ} (h : sink.Refuses) :
    Sink.Refuses (sink.onSecond : Sink (σ × τ)) := by
  intro path content state
  obtain ⟨why,hw,hs⟩ := h path content state.2
  refine ⟨why,hw,?_⟩
  rw [Sink.onSecond, hs]

namespace Zig

variable {σ τ : Type} {s : DocumentSet} {settings : Settings} {f : Formatter σ}

theorem formatUnits_keeps (hf : f.Keeps) (units : List SourceUnit) (state : σ) :
    (formatUnits f units state).2 = state := by
  induction units generalizing state with
  | nil => rfl
  | cons u rest ih =>
    have hu := hf u.path u.content state
    rcases hcall : f u.path u.content state with ⟨fault | text,next⟩
    · rw [hcall] at hu
      simpa only [formatUnits, hcall] using hu
    · rw [hcall] at hu
      obtain rfl : next = state := hu
      simpa only [formatUnits, hcall] using ih next

theorem build_onFirst (f : Formatter σ) (start : σ) (rest : τ) :
    build s settings f.onFirst (start,rest) =
      ((build s settings f start).1,(build s settings f start).2,rest) := by
  unfold build
  cases compile s settings with
  | error fault => rfl
  | ok units => exact formatUnits_onFirst f units start rest

/-- The fault of a generation whose sink refuses everything: it did not compile, or the formatter
failed, or the first unit was refused. -/
inductive Stopped (s : DocumentSet) (settings : Settings) : GenerateFault → Prop
  | compiling {fault} (h : compile s settings = .error fault) : Stopped s settings fault
  | formatting (path : Bytes) (why : FormatFault) : Stopped s settings (.formatting path why)
  | writing {path : Bytes} {why : SinkFault}
      (h : path ∈ (s.names.map unitPath ++ [unitPath settings.withDefaults.typesUnit]).head?)
      (hw : Sink.admit true path = .error why) : Stopped s settings (.writing path why)

theorem writeUnits_refused {sink : Sink σ} (hs : sink.Refuses) {units : List SourceUnit}
    (hne : units ≠ []) (state : σ) : ∃ path ∈ (units.map SourceUnit.path).head?, ∃ why,
      Sink.admit true path = .error why ∧
        writeUnits sink units state = (.error (.writing path why),state) := by
  obtain ⟨u,rest,rfl⟩ := List.exists_cons_of_ne_nil hne
  obtain ⟨why,hw,hu⟩ := hs u.path u.content state
  refine ⟨u.path,rfl,why,hw,?_⟩
  simp only [writeUnits, hu]

/-- With a sink that refuses everything a generation fails and leaves what its formatter left. -/
theorem generate_refused {sink : Sink σ} (hs : sink.Refuses) (s : DocumentSet) (settings : Settings)
    (f : Formatter σ) (state : σ) : ∃ fault, Stopped s settings fault ∧
      generate s settings f sink state = (.error fault,(build s settings f state).2) := by
  unfold generate
  cases hc : compile s settings with
  | error fault =>
    have hb : build s settings f state = (.error fault,state) := by simp only [build, hc]
    rw [hb]
    exact ⟨fault,.compiling hc,rfl⟩
  | ok units =>
    have hb : build s settings f state = formatUnits f units state := by simp only [build, hc]
    rw [hb]
    rcases hf : formatUnits f units state with ⟨fault | done,next⟩
    · obtain ⟨path,why,rfl⟩ := formatUnits_error (congrArg Prod.fst hf)
      exact ⟨_,.formatting path why,rfl⟩
    · have hpaths := (compile_eq_ok_iff.mp hc).paths
      rw [← paths_of_formatUnits (congrArg Prod.fst hf)] at hpaths
      have hne : done ≠ [] := by
        rintro rfl
        simp at hpaths
      obtain ⟨path,hp,why,hw,hwrite⟩ := writeUnits_refused hs hne next
      refine ⟨.writing path why,.writing ?_ hw,?_⟩
      · rw [hpaths] at hp
        simpa [List.head?_append] using hp
      · simp only [hwrite]

end Zig

namespace Config

theorem Usable.exists_compile_empty {c : Config} (hu : c.Usable) :
    ∃ units, compile {} c.settings = .ok units := by
  obtain ⟨types,ht⟩ := hu.mappings
  have hwd := hu.withDefaults
  refine ⟨_,compile_eq_ok_iff.mpr ⟨?_,rfl,types,[],_,?_,?_,rfl,rfl⟩⟩
  · rw [hwd]
    exact hu.apart
  · rw [hwd]
    exact ht
  · exact .nil

/-- Without documents it is the types unit that is refused. -/
theorem stopped_empty {c : Config} (hc : c.problems = []) {fault : GenerateFault}
    (h : Stopped {} c.settings fault) : fault = .writing (unitPath c.typesUnit) .canceled ∨
      ∃ path why, fault = .formatting path why := by
  have hu := usable_of_problems hc
  cases h with
  | compiling he =>
    obtain ⟨units,hok⟩ := hu.exists_compile_empty
    rw [he] at hok
    cases hok
  | formatting path why => exact .inr ⟨path,why,rfl⟩
  | writing hp hw =>
    left
    rw [hu.withDefaults] at hp
    obtain rfl : unitPath c.typesUnit = _ := Option.some.inj hp
    have htaken := check_unitPath fun b hb => isWord_of_isWordName hu.typesUnit hb
    have hcanceled := Sink.admit_canceled htaken
    rw [hcanceled] at hw
    cases hw
    rfl

end Config

namespace Loading

theorem load_canceled (t : FileTree) (policy : MismatchPolicy) (skip : List Bytes) {paths : List Bytes}
    (h : paths ≠ []) : (load t true policy skip paths).1 = .error .canceled := by
  obtain ⟨path,rest,rfl⟩ := List.exists_cons_of_ne_nil h
  rfl

end Loading

namespace Generation

variable {c : Config} {given? : Option (Formatter FileTree)} {runner : Runner FileTree}

/-- The command is not run once the work was called off, so what is left is a formatter that was
given. -/
theorem formatterOf_keeps (h : ∀ g ∈ given?, g.Keeps) : (formatterOf c given? runner true).Keeps := by
  unfold formatterOf
  split
  · intro path source t
    rfl
  · cases given? with
    | none =>
      intro path source t
      rfl
    | some g => exact h g rfl

/-- A run that was called off fails at its first document, or it has none. -/
theorem source_canceled (c : Config) (t : FileTree) : source true c t =
    match Discovery.find t c.roots with
    | .error e => .error (.discovery e)
    | .ok [] => .ok ([],{})
    | .ok (_ :: _) => .error (.loading .canceled) := by
  unfold source
  cases Discovery.find t c.roots with
  | error e => rfl
  | ok found =>
    cases found with
    | nil => rfl
    | cons d rest => simp only [Loading.load_canceled t _ _ (List.cons_ne_nil _ _), List.map_cons]

theorem write_canceled (f : Formatter FileTree) (c : Config) (s : DocumentSet) (t : FileTree) :
    ∃ fault, Stopped s c.settings fault ∧
      write f true c s t = (.error fault,(build s c.settings f t).2) := by
  unfold write
  split
  · obtain ⟨fault,hf,hg⟩ := generate_refused (MemorySink.refuses_write.onSecond (σ := FileTree)) s
      c.settings f.onFirst (t,{})
    refine ⟨fault,hf,?_⟩
    rw [hg, build_onFirst]
  · exact generate_refused (DirectorySink.refuses_write _) s c.settings f t

/-- What a run that was called off returns and leaves. -/
theorem run_canceled_eq (f : Formatter FileTree) {c : Config} (hc : c.problems = []) (t : FileTree) :
    ∃ fault, Stopped {} c.settings fault ∧
      ((run f true c t).result,(run f true c t).files) =
        match Discovery.find t c.roots with
        | .error e => (.error (.discovery e),t)
        | .ok [] => (.error (.generation fault),(build {} c.settings f t).2)
        | .ok (_ :: _) => (.error (.loading .canceled),t) := by
  obtain ⟨fault,hstop,hw⟩ := write_canceled f c {} t
  refine ⟨fault,hstop,?_⟩
  rw [run_eq f true hc, source_canceled]
  cases Discovery.find t c.roots with
  | error e => rfl
  | ok found =>
    cases found with
    | nil => simp only [hw]
    | cons d rest => rfl

theorem exists_fault_canceled (f : Formatter FileTree) (c : Config) (t : FileTree) :
    ∃ fault, (run f true c t).result = .error fault ∧
      (c.problems = [] → ∀ found, Discovery.find t c.roots = .ok found →
        (found ≠ [] → fault = .loading .canceled) ∧
        (found = [] → fault = .generation (.writing (unitPath c.typesUnit) .canceled) ∨
          ∃ path why, fault = .generation (.formatting path why))) := by
  by_cases hc : c.problems = []
  · obtain ⟨fault,hstop,hrun⟩ := run_canceled_eq f hc t
    cases hfind : Discovery.find t c.roots with
    | error e =>
      rw [hfind, Prod.mk.injEq] at hrun
      exact ⟨_,hrun.1,nofun⟩
    | ok found =>
      cases found with
      | nil =>
        rw [hfind, Prod.mk.injEq] at hrun
        refine ⟨_,hrun.1,?_⟩
        intro _ found hf
        cases hf
        refine ⟨fun hne => absurd rfl hne,fun _ => ?_⟩
        rcases Config.stopped_empty hc hstop with rfl | ⟨path,why,rfl⟩
        · exact .inl rfl
        · exact .inr ⟨path,why,rfl⟩
      | cons d rest =>
        rw [hfind, Prod.mk.injEq] at hrun
        refine ⟨_,hrun.1,?_⟩
        intro _ found hf
        cases hf
        exact ⟨fun _ => rfl,nofun⟩
  · rw [run_invalid f true hc]
    exact ⟨_,rfl,fun h => absurd h hc⟩

/-- The tree is as it was, or what the formatter made of it while it formatted the shared units. -/
theorem files_canceled (f : Formatter FileTree) (c : Config) (t : FileTree) :
    (run f true c t).files = t ∨
      (Discovery.find t c.roots = .ok [] ∧ ∃ units, compile {} c.settings = .ok units ∧
        (run f true c t).files = (formatUnits f units t).2) := by
  by_cases hc : c.problems = []
  · obtain ⟨fault,-,hrun⟩ := run_canceled_eq f hc t
    rcases hfind : Discovery.find t c.roots with e | _ | ⟨d,rest⟩
    · rw [hfind, Prod.mk.injEq] at hrun
      exact .inl hrun.2
    · rw [hfind, Prod.mk.injEq] at hrun
      obtain ⟨units,hunits⟩ := (Config.usable_of_problems hc).exists_compile_empty
      refine .inr ⟨rfl,units,hunits,?_⟩
      rw [hrun.2, build, hunits]
    · rw [hfind, Prod.mk.injEq] at hrun
      exact .inl hrun.2
  · rw [run_invalid f true hc]
    exact .inl rfl

/-- A run that was called off never succeeds. With a configuration that has no problem it is called
off at the first document that it finds, and without documents by the sink, unless the formatter fails
before. Only where no document was found is the formatter called, and nothing else changes the file
tree, so with a formatter that leaves the tree alone the run leaves it as it was. -/
theorem run_canceled (c : Config) (given? : Option (Formatter FileTree)) (runner : Runner FileTree)
    (t : FileTree) :
    (∃ fault, (run (formatterOf c given? runner true) true c t).result = .error fault ∧
      (c.problems = [] → ∀ found, Discovery.find t c.roots = .ok found →
        (found ≠ [] → fault = .loading .canceled) ∧
        (found = [] → fault = .generation (.writing (unitPath c.typesUnit) .canceled) ∨
          ∃ path why, fault = .generation (.formatting path why)))) ∧
    ((run (formatterOf c given? runner true) true c t).files = t ∨
      (Discovery.find t c.roots = .ok [] ∧ ∃ units, compile {} c.settings = .ok units ∧
        (run (formatterOf c given? runner true) true c t).files =
          (formatUnits (formatterOf c given? runner true) units t).2)) ∧
    ((∀ g ∈ given?, g.Keeps) → (run (formatterOf c given? runner true) true c t).files = t) := by
  have hfiles := files_canceled (formatterOf c given? runner true) c t
  refine ⟨exists_fault_canceled _ c t,hfiles,?_⟩
  intro hkeeps
  rcases hfiles with hfiles | ⟨-,units,-,hfiles⟩
  · exact hfiles
  · rw [hfiles, formatUnits_keeps (formatterOf_keeps hkeeps)]

def bareRoot : Config := { outDir := "out", roots := ["r"] }

/-- A formatter that goes on although the work was called off, without documents and with one. -/
theorem bareRoot_canceled :
    (run (formatterOf bareRoot (some Formatter.unchanged) (fun _ _ _ => ({},·)) true) true bareRoot
      {}).result = .error (.generation (.writing "types.zig" .canceled)) ∧
    (run (formatterOf bareRoot (some Formatter.unchanged) (fun _ _ _ => ({},·)) true) true bareRoot
      {}).files = {} ∧
    (run (formatterOf bareRoot (some Formatter.unchanged) (fun _ _ _ => ({},·)) true) true bareRoot
      Builder.coreTree).result = .error (.loading .canceled) ∧
    (run (formatterOf bareRoot (some Formatter.unchanged) (fun _ _ _ => ({},·)) true) true bareRoot
      Builder.coreTree).files = Builder.coreTree := by
  have hkeeps : ∀ g ∈ some (Formatter.unchanged : Formatter FileTree), g.Keeps := by
    rintro g hg
    cases hg
    intro path source t
    rfl
  refine ⟨by decide +kernel,(run_canceled _ _ _ _).2.2 hkeeps,by decide +kernel,
    (run_canceled _ _ _ _).2.2 hkeeps⟩

end Generation

end WaylandZig
