import WaylandZig.Proofs.Fallible
import WaylandZig.Proofs.Pairing
import WaylandZig.Zig.Generator

/-! # Order of the phases of a generation

A traced formatter and a traced sink record every call that a generation makes. The trace shows that
all units are compiled, then all are formatted, and only then the first is written, so that a failure
of any earlier kind leaves the state of the sink as it was.
-/
namespace WaylandZig.Zig

open Schema

variable {σ : Type}

/-- The units of the documents of a set, in load order. -/
def EmitsDocuments (s : DocumentSet) (settings : Settings) (types : TypeMap)
    (documents : List SourceUnit) : Prop :=
  List.Forall₂ (fun d u => u.path = unitPath d.1.name ∧
    documentUnit s settings types d.2 d.1 = .ok u.content) s.documents.zipIdx documents

/-- Everything in front of formatting succeeded and gave these units: one for each document in load
order, the types unit and the index unit. -/
structure Compiled (s : DocumentSet) (settings : Settings) (units : List SourceUnit) : Prop where
  unitNames : settings.typesUnit ≠ settings.indexUnit
  valid : s.collisions (reservedNames settings) = []
  emitted : ∃ types documents index,
    TypeMap.ofMappings settings.typeMappings = .ok types ∧
    EmitsDocuments s settings types documents ∧
    indexUnit s settings = .ok index ∧
    units = documents ++
      [⟨unitPath settings.typesUnit,typesUnit⟩,⟨unitPath settings.indexUnit,index⟩]

theorem documentUnits_eq_ok_iff {s : DocumentSet} {settings : Settings} {types : TypeMap}
    {units : List SourceUnit} : documentUnits s settings types = .ok units ↔
      EmitsDocuments s settings types units := by
  rw [documentUnits, Except.mapM_eq_ok_iff, EmitsDocuments]
  have hu : ∀ (d : Document × Nat) (u : SourceUnit),
      (documentUnit s settings types d.2 d.1).map
        (fun text => (⟨unitPath d.1.name,text⟩ : SourceUnit)) = .ok u ↔
      u.path = unitPath d.1.name ∧ documentUnit s settings types d.2 d.1 = .ok u.content := by
    intro d u
    rw [Except.map_eq_ok_iff]
    constructor
    · rintro ⟨text,ht,rfl⟩
      exact ⟨rfl,ht⟩
    · rintro ⟨hp,ht⟩
      exact ⟨u.content,ht,by rw [← hp]⟩
  exact ⟨fun h => h.imp fun d u => (hu d u).mp, fun h => h.imp fun d u => (hu d u).mpr⟩

theorem compile_eq_ok_iff {s : DocumentSet} {settings : Settings} {units : List SourceUnit} :
    compile s settings = .ok units ↔ Compiled s settings.withDefaults units := by
  unfold compile
  by_cases hn : settings.withDefaults.typesUnit = settings.withDefaults.indexUnit
  · simp only [hn, if_true]
    exact ⟨nofun, fun h => absurd hn h.unitNames⟩
  by_cases hc : s.collisions (reservedNames settings.withDefaults) = []
  · simp only [hn, hc, if_false, List.isEmpty_nil, Bool.not_true, Bool.false_eq_true,
      Except.bind_eq_ok_iff, Except.pure_eq_ok_iff, Except.mapError_eq_ok_iff,
      documentUnits_eq_ok_iff]
    constructor
    · rintro ⟨types,ht,documents,hd,index,hi,rfl⟩
      exact ⟨hn,hc,types,documents,index,ht,hd,hi,rfl⟩
    · rintro ⟨-,-,types,documents,index,ht,hd,hi,rfl⟩
      exact ⟨types,ht,documents,hd,index,hi,rfl⟩
  · have he : (s.collisions (reservedNames settings.withDefaults)).isEmpty = false := by
      simpa using hc
    simp only [hn, if_false, he, Bool.not_false, if_true]
    exact ⟨nofun, fun h => absurd h.valid hc⟩

theorem Compiled.paths {s : DocumentSet} {settings : Settings} {units : List SourceUnit}
    (h : Compiled s settings units) : units.map SourceUnit.path =
      s.names.map unitPath ++ [unitPath settings.typesUnit,unitPath settings.indexUnit] := by
  obtain ⟨types,documents,index,-,hd,-,rfl⟩ := h.emitted
  have hp : List.Forall₂ (fun d u => u.path = unitPath d.1.name) s.documents.zipIdx documents :=
    hd.imp fun _ _ h => h.1
  have hm : documents.map SourceUnit.path =
      s.documents.zipIdx.map fun d => unitPath d.1.name :=
    (List.forall₂_map_eq_iff.mp (hp.imp fun _ _ h => h.symm)).symm
  have hz : (s.documents.zipIdx.map fun d => unitPath d.1.name) = s.names.map unitPath := by
    have hf := congrArg (List.map fun d : Document => unitPath d.name)
      (List.zipIdx_map_fst 0 s.documents)
    simpa only [DocumentSet.names, List.map_map, Function.comp_def] using hf
  simp [hm, hz]

/-- A call to the formatter or to the sink with the unit it was given. -/
inductive Call where
  | format (u : SourceUnit)
  | write (u : SourceUnit)
  deriving DecidableEq, Repr

/-- A state with the calls made so far. -/
abbrev Traced (σ : Type) := List Call × σ

def tracedFormatter (f : Bytes → Bytes → Except FormatFault Bytes) : Formatter (Traced σ) :=
  fun path source state => (f path source,state.1 ++ [.format ⟨path,source⟩],state.2)

def tracedSink (sink : Sink σ) : Sink (Traced σ) := fun path content state =>
  let outcome := sink path content state.2
  (outcome.1,state.1 ++ [.write ⟨path,content⟩],outcome.2)

/-- Each unit of `done` is what the formatter made of the unit at its position. -/
def Formatted (f : Bytes → Bytes → Except FormatFault Bytes) (units done : List SourceUnit) : Prop :=
  List.Forall₂ (fun u v => v.path = u.path ∧ f u.path u.content = .ok v.content) units done

theorem Formatted.paths {f : Bytes → Bytes → Except FormatFault Bytes} {units done : List SourceUnit}
    (h : Formatted f units done) : done.map SourceUnit.path = units.map SourceUnit.path := by
  exact (List.forall₂_map_eq_iff.mp (h.imp fun _ _ hp => hp.1.symm)).symm

/-- The state of a sink after it was given units in order. -/
def delivered (sink : Sink σ) (units : List SourceUnit) (state : σ) : σ :=
  units.foldl (fun state u => (sink u.path u.content state).2) state

/-- The sink takes every one of these units in order. -/
def Accepts (sink : Sink σ) : List SourceUnit → σ → Prop
  | [], _ => True
  | u :: rest, state => (sink u.path u.content state).1 = .ok () ∧
      Accepts sink rest (sink u.path u.content state).2

/-- Formatting calls the formatter once for each unit up to the first that fails, and nothing else. -/
theorem formatUnits_traced (f : Bytes → Bytes → Except FormatFault Bytes) (units : List SourceUnit)
    (calls : List Call) (state : σ) :
    (∃ done, Formatted f units done ∧ formatUnits (tracedFormatter f) units (calls,state) =
      (.ok done,calls ++ units.map .format,state)) ∨
    (∃ before u after done why, units = before ++ u :: after ∧ Formatted f before done ∧
      f u.path u.content = .error why ∧ formatUnits (tracedFormatter f) units (calls,state) =
        (.error (.formatting u.path why),calls ++ (before ++ [u]).map .format,state)) := by
  induction units generalizing calls with
  | nil => exact .inl ⟨[],.nil,by simp [formatUnits]⟩
  | cons u rest ih =>
    cases hu : f u.path u.content with
    | error why =>
      refine .inr ⟨[],u,rest,[],why,rfl,.nil,hu,?_⟩
      simp [formatUnits, tracedFormatter, hu]
    | ok text =>
      obtain ⟨done,hd,he⟩ | ⟨before,v,after,done,why,rfl,hd,hv,he⟩ :=
        ih (calls ++ [.format u])
      · refine .inl ⟨⟨u.path,text⟩ :: done,.cons ⟨rfl,hu⟩ hd,?_⟩
        simp only [formatUnits, tracedFormatter, hu] at he ⊢
        simp [he, Except.map]
      · refine .inr ⟨u :: before,v,after,⟨u.path,text⟩ :: done,why,rfl,.cons ⟨rfl,hu⟩ hd,hv,?_⟩
        simp only [formatUnits, tracedFormatter, hu] at he ⊢
        simp [he, Except.map]

/-- Writing calls the sink once for each unit up to the first that it refuses, and nothing else. -/
theorem writeUnits_traced (sink : Sink σ) (units : List SourceUnit) (calls : List Call) (state : σ) :
    (Accepts sink units state ∧ writeUnits (tracedSink sink) units (calls,state) =
      (.ok (),calls ++ units.map .write,delivered sink units state)) ∨
    (∃ before u after why, units = before ++ u :: after ∧ Accepts sink before state ∧
      (sink u.path u.content (delivered sink before state)).1 = .error why ∧
      writeUnits (tracedSink sink) units (calls,state) = (.error (.writing u.path why),
        calls ++ (before ++ [u]).map .write,delivered sink (before ++ [u]) state)) := by
  induction units generalizing calls state with
  | nil => exact .inl ⟨trivial,by simp [writeUnits, delivered]⟩
  | cons u rest ih =>
    rcases hu : sink u.path u.content state with ⟨why | ⟨⟩,next⟩
    · refine .inr ⟨[],u,rest,why,rfl,trivial,by simp [delivered, hu],?_⟩
      simp [writeUnits, tracedSink, delivered, hu]
    · obtain ⟨ha,he⟩ | ⟨before,v,after,why,rfl,ha,hv,he⟩ := ih (calls ++ [.write u]) next
      · refine .inl ⟨⟨by rw [hu],by rw [hu]; exact ha⟩,?_⟩
        simp only [writeUnits, tracedSink, hu] at he ⊢
        simp [he, delivered, hu]
      · refine .inr ⟨u :: before,v,after,why,rfl,⟨by rw [hu],by rw [hu]; exact ha⟩,?_,?_⟩
        · simpa [delivered, hu] using hv
        · simp only [writeUnits, tracedSink, hu] at he ⊢
          simp [he, delivered, hu]

/-- How a generation can go: the calls that it makes and the state that it leaves the sink in. -/
inductive GenerateTrace (s : DocumentSet) (settings : Settings)
    (f : Bytes → Bytes → Except FormatFault Bytes) (sink : Sink σ) (state : σ) :
    Except GenerateFault (List SourceUnit) → List Call → σ → Prop
  | uncompiled {fault : GenerateFault} (hc : compile s settings = .error fault) :
    GenerateTrace s settings f sink state (.error fault) [] state
  | unformatted {units done : List SourceUnit} {u : SourceUnit} {n : Nat} {why : FormatFault}
    (hc : compile s settings = .ok units) (hu : units[n]? = some u)
    (hf : Formatted f (units.take n) done) (hw : f u.path u.content = .error why) :
    GenerateTrace s settings f sink state (.error (.formatting u.path why))
      ((units.take (n + 1)).map .format) state
  | refused {units done : List SourceUnit} {u : SourceUnit} {n : Nat} {why : SinkFault}
    (hc : compile s settings = .ok units) (hf : Formatted f units done) (hu : done[n]? = some u)
    (ha : Accepts sink (done.take n) state)
    (hw : (sink u.path u.content (delivered sink (done.take n) state)).1 = .error why) :
    GenerateTrace s settings f sink state (.error (.writing u.path why))
      (units.map .format ++ (done.take (n + 1)).map .write)
      (delivered sink (done.take (n + 1)) state)
  | written {units done : List SourceUnit} (hc : compile s settings = .ok units)
    (hf : Formatted f units done) (ha : Accepts sink done state) :
    GenerateTrace s settings f sink state (.ok done)
      (units.map .format ++ done.map .write) (delivered sink done state)

theorem generate_traced (s : DocumentSet) (settings : Settings)
    (f : Bytes → Bytes → Except FormatFault Bytes) (sink : Sink σ) (state : σ) :
    let run := generate s settings (tracedFormatter f) (tracedSink sink) ([],state)
    GenerateTrace s settings f sink state run.1 run.2.1 run.2.2 := by
  intro run
  cases hc : compile s settings with
  | error fault =>
    have hr : run = (.error fault,[],state) := by simp only [run, generate, build, hc]
    rw [hr]
    exact .uncompiled hc
  | ok units =>
    obtain ⟨done,hf,he⟩ | ⟨before,u,after,done,why,rfl,hf,hw,he⟩ :=
      formatUnits_traced f units [] state
    · rw [List.nil_append] at he
      obtain ⟨ha,hd⟩ | ⟨before,u,after,why,rfl,ha,hw,hd⟩ :=
        writeUnits_traced sink done (units.map .format) state
      · have hr : run = (.ok done,units.map .format ++ done.map .write,
            delivered sink done state) := by
          simp only [run, generate, build, hc, he, hd]
        rw [hr]
        exact .written hc hf ha
      · have hr : run = (.error (.writing u.path why),
            units.map .format ++ (before ++ [u]).map .write,
            delivered sink (before ++ [u]) state) := by
          simp only [run, generate, build, hc, he, hd]
        have ht : (before ++ u :: after).take (before.length + 1) = before ++ [u] :=
          List.take_length_add_append 1
        rw [hr, ← ht]
        exact .refused hc hf (by simp) (by simpa using ha) (by simpa using hw)
    · rw [List.nil_append] at he
      have hr : run = (.error (.formatting u.path why),(before ++ [u]).map .format,state) := by
        simp only [run, generate, build, hc, he]
      have ht : (before ++ u :: after).take (before.length + 1) = before ++ [u] :=
          List.take_length_add_append 1
      rw [hr, ← ht]
      exact .unformatted hc (by simp) (by simpa using hf) hw

/-- A formatter that is a function only adds to the trace. -/
theorem formatUnits_untraced (f : Bytes → Bytes → Except FormatFault Bytes) (units : List SourceUnit)
    (calls : List Call) (state : σ) :
    formatUnits (Formatter.ofFunction f) units state =
      ((formatUnits (tracedFormatter f) units (calls,state)).1,
        (formatUnits (tracedFormatter f) units (calls,state)).2.2) := by
  induction units generalizing calls with
  | nil => rfl
  | cons u rest ih =>
    cases hu : f u.path u.content with
    | error why => simp [formatUnits, tracedFormatter, Formatter.ofFunction, hu]
    | ok text =>
      have hr := ih (calls ++ [.format u])
      simp only [formatUnits, tracedFormatter, Formatter.ofFunction, hu] at hr ⊢
      rw [hr]

theorem writeUnits_untraced (sink : Sink σ) (units : List SourceUnit) (calls : List Call) (state : σ) :
    writeUnits sink units state = ((writeUnits (tracedSink sink) units (calls,state)).1,
      (writeUnits (tracedSink sink) units (calls,state)).2.2) := by
  induction units generalizing calls state with
  | nil => rfl
  | cons u rest ih =>
    rcases hu : sink u.path u.content state with ⟨why | ⟨⟩,next⟩
    · simp [writeUnits, tracedSink, hu]
    · have hr := ih (calls ++ [.write u]) next
      simp only [writeUnits, tracedSink, hu] at hr ⊢
      exact hr

/-- Tracing changes neither the result nor the state of the sink. -/
theorem generate_untraced (s : DocumentSet) (settings : Settings)
    (f : Bytes → Bytes → Except FormatFault Bytes) (sink : Sink σ) (state : σ) :
    let run := generate s settings (tracedFormatter f) (tracedSink sink) ([],state)
    generate s settings (Formatter.ofFunction f) sink state = (run.1,run.2.2) := by
  cases hc : compile s settings with
  | error fault => simp only [generate, build, hc]
  | ok units =>
    have hf := formatUnits_untraced f units [] state
    rcases he : formatUnits (tracedFormatter f) units ([],state) with ⟨fault | done,calls,next⟩
    · simp only [generate, build, hc, hf, he]
    · have hw := writeUnits_untraced sink done calls next
      rcases hd : writeUnits (tracedSink sink) done (calls,next) with ⟨fault | ⟨⟩,_,_⟩
      · simp only [generate, build, hc, hf, he, hw, hd]
      · simp only [generate, build, hc, hf, he, hw, hd]

theorem write_notMem_formats (units : List SourceUnit) (u : SourceUnit) :
    Call.write u ∉ units.map Call.format := by
  simp

/-- The sink is called only when the set is valid and every unit was compiled and formatted. What it
is given is then a beginning of the formatted units in the order of their paths, all of them on
success, and every fault but a refusal of the sink leaves its state unchanged. -/
theorem generate_writes_after_formatting (s : DocumentSet) (settings : Settings)
    (f : Bytes → Bytes → Except FormatFault Bytes) (sink : Sink σ) (state : σ) :
    ∃ result calls final,
      generate s settings (tracedFormatter f) (tracedSink sink) ([],state) = (result,calls,final) ∧
      generate s settings (Formatter.ofFunction f) sink state = (result,final) ∧
      ((∃ u, Call.write u ∈ calls) → ∃ units done n,
        Compiled s settings.withDefaults units ∧ Formatted f units done ∧
        done.map SourceUnit.path = s.names.map unitPath ++
          [unitPath settings.withDefaults.typesUnit,unitPath settings.withDefaults.indexUnit] ∧
        calls = units.map .format ++ (done.take n).map .write ∧
        final = delivered sink (done.take n) state) ∧
      (∀ done, result = .ok done → ∃ units,
        Compiled s settings.withDefaults units ∧ Formatted f units done ∧
        done.map SourceUnit.path = s.names.map unitPath ++
          [unitPath settings.withDefaults.typesUnit,unitPath settings.withDefaults.indexUnit] ∧
        calls = units.map .format ++ done.map .write ∧
        Accepts sink done state ∧ final = delivered sink done state) ∧
      (∀ fault, result = .error fault → (∀ path why, fault ≠ .writing path why) →
        (∀ u, Call.write u ∉ calls) ∧ final = state) := by
  have ht := generate_traced s settings f sink state
  have hu := generate_untraced s settings f sink state
  rcases hr : generate s settings (tracedFormatter f) (tracedSink sink) ([],state) with
    ⟨result,calls,final⟩
  simp only [hr] at ht hu
  refine ⟨result,calls,final,rfl,hu,?_⟩
  cases ht with
  | uncompiled hc => exact ⟨by simp,nofun,fun _ _ _ => ⟨by simp,rfl⟩⟩
  | unformatted hc hu hf hw =>
    refine ⟨?_,nofun,fun _ _ _ => ⟨write_notMem_formats _,rfl⟩⟩
    rintro ⟨u,hu⟩
    exact absurd hu (write_notMem_formats _ u)
  | refused hc hf hu ha hw =>
    have hd := compile_eq_ok_iff.mp hc
    refine ⟨fun _ => ⟨_,_,_,hd,hf,hf.paths.trans hd.paths,rfl,rfl⟩,nofun,?_⟩
    intro fault he hn
    cases he
    exact absurd rfl (hn _ _)
  | @written units done hc hf ha =>
    have hd := compile_eq_ok_iff.mp hc
    have hp := hf.paths.trans hd.paths
    refine ⟨fun _ => ⟨units,done,done.length,hd,hf,hp,?_,?_⟩,?_,nofun⟩
    · rw [List.take_length]
    · rw [List.take_length]
    · intro done he
      cases he
      exact ⟨_,hd,hf,hp,rfl,ha,rfl⟩

end WaylandZig.Zig
