import WaylandZig.Proofs.Sink.UnitPath
import WaylandZig.Proofs.Zig.Emission
import WaylandZig.Proofs.Zig.UnitImports
import WaylandZig.Sink.Memory

/-! # What a failure leaves in memory

Every unit is compiled and formatted before the first is written, so a failure up to there changes
nothing. The memory looks at a path only when the unit is written, and the units before one that it
refuses stay written. The paths of documents are never refused, since the index has made words of
their names; those of the two shared units come from the settings, which nothing checks.
-/
namespace WaylandZig

namespace MemorySink

theorem write_fst (canceled : Bool) (path content : Bytes) (m : MemorySink) :
    (write canceled path content m).1 = Sink.admit canceled path := by
  unfold write
  split
  · rename_i h
    exact h.symm
  · rename_i h
    exact h.symm

theorem write_refused {canceled : Bool} {path content : Bytes} {m : MemorySink} {why : SinkFault}
    (h : (write canceled path content m).1 = .error why) : (write canceled path content m).2 = m := by
  rw [write_fst] at h
  simp only [write, h]

theorem write_accepted {canceled : Bool} {path content : Bytes} {m : MemorySink}
    (h : (write canceled path content m).1 = .ok ()) :
    (write canceled path content m).2 = m.insert path content := by
  rw [write_fst] at h
  simp only [write, h]

theorem insert_units_ne_nil (m : MemorySink) (path content : Bytes) :
    (m.insert path content).units ≠ [] := by
  simp [insert]

end MemorySink

namespace Zig

open Schema

variable {σ τ : Type}

/-- A generation into memory by a formatter with a state of its own. -/
def generateInto (s : DocumentSet) (settings : Settings) (f : Formatter σ) (canceled : Bool)
    (start : σ) (memory : MemorySink) : Except GenerateFault (List SourceUnit) × σ × MemorySink :=
  generate s settings f.onFirst (Sink.onSecond (MemorySink.write canceled)) (start,memory)

/-- A generation that fails leaves the memory as it was, with every formatter and every memory. -/
def FailureKeepsMemory (s : DocumentSet) (settings : Settings) : Prop :=
  ∀ (σ : Type) (f : Formatter σ) (canceled : Bool) (start : σ) (memory : MemorySink)
    (fault : GenerateFault), (generateInto s settings f canceled start memory).1 = .error fault →
      (generateInto s settings f canceled start memory).2.2 = memory

section Parts

theorem paths_of_formatUnits {f : Formatter σ} {units done : List SourceUnit} {state : σ}
    (h : (formatUnits f units state).1 = .ok done) :
    done.map SourceUnit.path = units.map SourceUnit.path := by
  induction units generalizing done state with
  | nil =>
    cases h
    rfl
  | cons u rest ih =>
    rcases hu : f u.path u.content state with ⟨fault | text,next⟩
    · simp [formatUnits, hu] at h
    · simp only [formatUnits, hu] at h
      obtain ⟨formatted,hf,rfl⟩ := Except.map_eq_ok_iff.mp h
      rw [List.map_cons, List.map_cons, ih hf]

theorem formatUnits_error {f : Formatter σ} {units : List SourceUnit} {state : σ}
    {fault : GenerateFault} (h : (formatUnits f units state).1 = .error fault) :
    ∃ path why, fault = .formatting path why := by
  induction units generalizing state with
  | nil => cases h
  | cons u rest ih =>
    rcases hu : f u.path u.content state with ⟨why | text,next⟩
    · simp only [formatUnits, hu] at h
      cases h
      exact ⟨u.path,why,rfl⟩
    · simp only [formatUnits, hu] at h
      cases hr : (formatUnits f rest next).1 with
      | error fault' =>
        rw [hr] at h
        cases h
        exact ih hr
      | ok done =>
        rw [hr] at h
        cases h

/-- Beside a state that it does not look at, a formatter does what it does without. -/
theorem formatUnits_onFirst (f : Formatter σ) (units : List SourceUnit) (start : σ) (rest : τ) :
    formatUnits f.onFirst units (start,rest) =
      ((formatUnits f units start).1,(formatUnits f units start).2,rest) := by
  induction units generalizing start with
  | nil => rfl
  | cons u units ih =>
    rcases hu : f u.path u.content start with ⟨fault | text,next⟩
    · simp only [formatUnits, Formatter.onFirst, hu]
    · have hr := ih next
      simp only [formatUnits, Formatter.onFirst, hu] at hr ⊢
      rw [hr]

theorem writeUnits_onSecond (sink : Sink τ) (units : List SourceUnit) (first : σ) (state : τ) :
    writeUnits sink.onSecond units (first,state) =
      ((writeUnits sink units state).1,first,(writeUnits sink units state).2) := by
  induction units generalizing state with
  | nil => rfl
  | cons u rest ih =>
    rcases hu : sink u.path u.content state with ⟨why | ⟨⟩,next⟩
    · simp [writeUnits, Sink.onSecond, hu]
    · have hr := ih next
      simp only [writeUnits, Sink.onSecond, hu] at hr ⊢
      exact hr

/-- Writing goes up to the first unit that the sink refuses. -/
theorem writeUnits_cases (sink : Sink σ) (units : List SourceUnit) (state : σ) :
    (Accepts sink units state ∧
      writeUnits sink units state = (.ok (),delivered sink units state)) ∨
    (∃ before u after why, units = before ++ u :: after ∧ Accepts sink before state ∧
      (sink u.path u.content (delivered sink before state)).1 = .error why ∧
      writeUnits sink units state =
        (.error (.writing u.path why),delivered sink (before ++ [u]) state)) := by
  rw [writeUnits_untraced sink units [] state]
  obtain ⟨ha,he⟩ | ⟨before,u,after,why,hs,ha,hw,he⟩ := writeUnits_traced sink units [] state
  · exact .inl ⟨ha,by rw [he]⟩
  · exact .inr ⟨before,u,after,why,hs,ha,hw,by rw [he]⟩

section Into

variable {s : DocumentSet} {settings : Settings} {f : Formatter σ} {canceled : Bool} {start : σ}
  {memory : MemorySink}

theorem generateInto_formatted {units done : List SourceUnit} {next : σ}
    (hc : compile s settings = .ok units)
    (hf : formatUnits f.onFirst units (start,memory) = (.ok done,next,memory)) :
    generateInto s settings f canceled start memory =
      ((writeUnits (MemorySink.write canceled) done memory).1.map fun _ => done,next,
        (writeUnits (MemorySink.write canceled) done memory).2) := by
  have hw := writeUnits_onSecond (MemorySink.write canceled) done next memory
  rcases hd : writeUnits (MemorySink.write canceled) done memory with ⟨why | ⟨⟩,final⟩
  · rw [hd] at hw
    simp only [generateInto, generate, build, hc, hf, hw]
    rfl
  · rw [hd] at hw
    simp only [generateInto, generate, build, hc, hf, hw]
    rfl

/-- A generation of what was compiled fails by formatting, or it does to the memory what writing
units with the compiled paths does. -/
theorem generateInto_compiled {units : List SourceUnit} (hc : compile s settings = .ok units)
    (f : Formatter σ) (canceled : Bool) (start : σ) (memory : MemorySink) :
    (∃ path why, (generateInto s settings f canceled start memory).1 = .error (.formatting path why) ∧
      (generateInto s settings f canceled start memory).2.2 = memory) ∨
    ∃ done next, done.map SourceUnit.path = units.map SourceUnit.path ∧
      generateInto s settings f canceled start memory =
        ((writeUnits (MemorySink.write canceled) done memory).1.map fun _ => done,next,
          (writeUnits (MemorySink.write canceled) done memory).2) := by
  have he := formatUnits_onFirst f units start memory
  rcases hf : formatUnits f units start with ⟨fault | done,next⟩
  · rw [hf] at he
    obtain ⟨path,why,rfl⟩ := formatUnits_error (congrArg Prod.fst hf)
    have hg : generateInto s settings f canceled start memory =
        (.error (.formatting path why),next,memory) := by
      simp only [generateInto, generate, build, hc, he]
    exact .inl ⟨path,why,by rw [hg],by rw [hg]⟩
  · rw [hf] at he
    exact .inr ⟨done,next,paths_of_formatUnits (congrArg Prod.fst hf),generateInto_formatted hc he⟩

/-- A generation fails before the first write, or it comes to writing. -/
theorem generateInto_cases : (generateInto s settings f canceled start memory).2.2 = memory ∨
    ∃ units done next, compile s settings = .ok units ∧
      done.map SourceUnit.path = units.map SourceUnit.path ∧
      generateInto s settings f canceled start memory =
        ((writeUnits (MemorySink.write canceled) done memory).1.map fun _ => done,next,
          (writeUnits (MemorySink.write canceled) done memory).2) := by
  cases hc : compile s settings with
  | error fault => exact .inl (by simp only [generateInto, generate, build, hc])
  | ok units =>
    rcases generateInto_compiled hc f canceled start memory with ⟨-,-,-,hm⟩ | ⟨done,next,hp,hg⟩
    · exact .inl hm
    · exact .inr ⟨units,done,next,rfl,hp,hg⟩

end Into

end Parts

section Memory

variable {canceled : Bool} {units : List SourceUnit} {memory : MemorySink}

theorem admitted_of_accepts (h : Accepts (MemorySink.write canceled) units memory) :
    ∀ u ∈ units, Sink.admit canceled u.path = .ok () := by
  induction units generalizing memory with
  | nil => simp
  | cons u rest ih =>
    obtain ⟨hu,hr⟩ := h
    rw [MemorySink.write_fst] at hu
    intro v hv
    rcases List.mem_cons.mp hv with rfl | hv
    · exact hu
    · exact ih hr v hv

/-- What was stored is never taken out again. -/
theorem delivered_ne_nil (h : memory.units ≠ []) :
    (delivered (MemorySink.write canceled) units memory).units ≠ [] := by
  induction units generalizing memory with
  | nil => exact h
  | cons u rest ih =>
    refine ih ?_
    change (MemorySink.write canceled u.path u.content memory).2.units ≠ []
    cases hw : (MemorySink.write canceled u.path u.content memory).1 with
    | error why =>
      rw [MemorySink.write_refused hw]
      exact h
    | ok done =>
      rw [MemorySink.write_accepted hw]
      exact MemorySink.insert_units_ne_nil _ _ _

/-- All of the paths are taken, or already the first is refused. -/
def AllOrNone (paths : List Bytes) : Prop :=
  (∀ p ∈ paths, UnitPath.check p = .ok ()) ∨ ∃ p ∈ paths.head?, UnitPath.check p ≠ .ok ()

theorem writeUnits_keeps (hp : AllOrNone (units.map SourceUnit.path)) {fault : GenerateFault}
    (h : (writeUnits (MemorySink.write canceled) units memory).1 = .error fault) :
    (writeUnits (MemorySink.write canceled) units memory).2 = memory := by
  obtain ⟨-,he⟩ | ⟨before,u,after,why,rfl,ha,hw,he⟩ :=
    writeUnits_cases (MemorySink.write canceled) units memory
  · rw [he] at h
    cases h
  cases before with
  | nil =>
    rw [he]
    exact MemorySink.write_refused hw
  | cons v before =>
    obtain ⟨hv,rfl⟩ := Sink.admit_eq_ok_iff.mp (admitted_of_accepts ha v List.mem_cons_self)
    rcases hp with hp | ⟨p,hp,hn⟩
    · have hu : Sink.admit false u.path = .ok () :=
        Sink.admit_eq_ok_iff.mpr ⟨hp u.path (by simp),rfl⟩
      rw [MemorySink.write_fst, hu] at hw
      cases hw
    · obtain rfl : v.path = p := by simpa using hp
      exact absurd hv hn

/-- Behind a path that is taken, one that is refused leaves something written. -/
theorem writeUnits_changes {paths : List Bytes} (hp : units.map SourceUnit.path = paths)
    (h : ¬ AllOrNone paths) : ∃ fault,
      (writeUnits (MemorySink.write false) units {}).1 = .error fault ∧
      (writeUnits (MemorySink.write false) units {}).2 ≠ {} := by
  simp only [AllOrNone, not_or, not_forall, not_exists, not_and, ne_eq, not_not] at h
  obtain ⟨⟨p,hmem,hn⟩,hhead⟩ := h
  rw [← hp] at hmem hhead
  obtain ⟨w,hw,rfl⟩ := List.mem_map.mp hmem
  obtain ⟨ha,-⟩ | ⟨before,u,after,why,rfl,ha,hu,he⟩ :=
    writeUnits_cases (MemorySink.write false) units {}
  · exact absurd (Sink.admit_eq_ok_iff.mp (admitted_of_accepts ha w hw)).1 hn
  cases before with
  | nil =>
    have hc : Sink.admit false u.path = .ok () :=
      Sink.admit_eq_ok_iff.mpr ⟨hhead u.path (by simp),rfl⟩
    rw [MemorySink.write_fst, hc] at hu
    cases hu
  | cons v before =>
    refine ⟨_,by rw [he],?_⟩
    rw [he]
    intro hf
    have hne : (delivered (MemorySink.write false) (before ++ [u])
        (MemorySink.write false v.path v.content {}).2).units ≠ [] := by
      refine delivered_ne_nil ?_
      rw [MemorySink.write_accepted ha.1]
      exact MemorySink.insert_units_ne_nil _ _ _
    exact hne (congrArg MemorySink.units hf)

end Memory

/-- The guarantee holds for a set and settings just when the memory takes the path of every unit, or
refuses the first. -/
theorem failureKeepsMemory_iff_paths {s : DocumentSet} {settings : Settings} :
    FailureKeepsMemory s settings ↔
      ∀ units, compile s settings = .ok units → AllOrNone (units.map SourceUnit.path) := by
  constructor
  · intro h units hc
    by_contra hn
    obtain ⟨fault,he,hm⟩ := writeUnits_changes rfl hn
    have hf : formatUnits Formatter.unchanged.onFirst units ((),({} : MemorySink)) =
        (.ok units,(),{}) := formatUnits_unchanged units _
    have hg : generateInto s settings Formatter.unchanged false () {} = _ :=
      generateInto_formatted hc hf
    have hk := h Unit Formatter.unchanged false () {} fault
    rw [hg, he] at hk
    exact hm (hk rfl)
  · intro h σ f canceled start memory fault he
    obtain hm | ⟨units,done,next,hc,hp,hg⟩ := generateInto_cases
    · exact hm
    have hd := h units hc
    rw [← hp] at hd
    rw [hg] at he ⊢
    cases hw : (writeUnits (MemorySink.write canceled) done memory).1 with
    | error why => exact writeUnits_keeps hd hw
    | ok d =>
      rw [hw] at he
      cases he

theorem isName_unitPath {name : Bytes} (h : ∀ b ∈ name, Ascii.isWord b = true) :
    Path.IsName (unitPath name) := by
  have hl : 4 ≤ (unitPath name).length := by
    have hz : (Bytes.ofString ".zig").length = 4 := by decide
    rw [unitPath, List.length_append, hz]
    omega
  have hne (p : Bytes) (hp : p.length < 4) : unitPath name ≠ p := by
    rintro rfl
    omega
  refine ⟨hne _ (by decide),hne _ (by decide),hne _ (by decide),?_⟩
  intro hs
  rcases List.mem_append.mp hs with hs | hs
  · have hw := h _ hs
    revert hw
    decide
  · revert hs
    decide

/-- The sink takes the path of a document that the index can import. -/
theorem check_unitPath {name : Bytes} (h : ∀ b ∈ name, Ascii.isWord b = true) :
    UnitPath.check (unitPath name) = .ok () := by
  have hcolon : Ascii.colon ∉ unitPath name := by
    intro hm
    rcases List.mem_append.mp hm with hm | hm
    · have hw := h _ hm
      revert hw
      decide
    · revert hm
      decide
  have hn : ∀ c ∈ [unitPath name], Path.IsName c := by
    intro c hc
    rw [List.mem_singleton.mp hc]
    exact isName_unitPath h
  exact UnitPath.check_joinWith hn (List.cons_ne_nil _ _) (UnitPath.hasDrive_eq_false hcolon)

/-- A failure leaves the memory as it was exactly for the sets that do not compile, for settings
whose two shared units have paths that the memory takes, and where the types unit comes first and is
already refused. -/
theorem failureKeepsMemory_iff (s : DocumentSet) (settings : Settings) :
    FailureKeepsMemory s settings ↔ ∀ units, compile s settings = .ok units →
      (UnitPath.check (unitPath settings.withDefaults.typesUnit) = .ok () ∧
        UnitPath.check (unitPath settings.withDefaults.indexUnit) = .ok ()) ∨
      (s.documents = [] ∧ UnitPath.check (unitPath settings.withDefaults.typesUnit) ≠ .ok ()) := by
  rw [failureKeepsMemory_iff_paths]
  refine forall_congr' fun units => imp_congr_right fun hc => ?_
  have hcompiled := compile_eq_ok_iff.mp hc
  obtain ⟨types,documents,index,-,-,hi,-⟩ := hcompiled.emitted
  obtain ⟨parts,i,hindex,-⟩ := indexUnit_eq_ok_iff.mp hi
  have hnames : ∀ p ∈ s.names.map unitPath, UnitPath.check p = .ok () := by
    intro p hp
    obtain ⟨name,hn,rfl⟩ := List.mem_map.mp hp
    obtain ⟨d,hd,rfl⟩ := List.mem_map.mp hn
    exact check_unitPath (hindex.isWord_name hd)
  rw [hcompiled.paths, AllOrNone]
  refine or_congr ?_ ?_
  · rw [List.forall_mem_append]
    simp only [List.forall_mem_cons, List.not_mem_nil, false_implies, implies_true, and_true]
    exact and_iff_right hnames
  · cases hd : s.documents with
    | nil => simp [DocumentSet.names, hd]
    | cons d rest =>
      have hfirst := hnames (unitPath d.name) (by simp [DocumentSet.names, hd])
      simp [DocumentSet.names, hd, hfirst]

/-- Without documents, the types unit is written before the index is refused. -/
theorem absoluteIndex_not_failureKeepsMemory :
    ¬ FailureKeepsMemory {} { indexUnit := "/x" } := by
  intro h
  have hk := h Unit Formatter.unchanged false () {}
    (.writing "/x.zig" (.invalidPath "/x.zig" .absolute)) (by decide +kernel)
  revert hk
  decide +kernel

end Zig

end WaylandZig
