import WaylandZig.Proofs.Schema.Collisions
import WaylandZig.Proofs.Sink.Directory
import WaylandZig.Proofs.Zig.MemorySink

/-! # Units in a directory

The units of a set have different paths, each of which is one name. Written one after the other into
a directory, each of them stays where it was put, and once all are there, writing them again changes
nothing.
-/
namespace WaylandZig.Zig

open Schema DirectorySink

/-- The path of a unit whose name is made of word bytes. -/
def IsUnitPath (p : Bytes) : Prop :=
  ∃ name : Bytes, (∀ b ∈ name, Ascii.isWord b = true) ∧ p = unitPath name

/-- Paths of different units. -/
structure FileNames (paths : List Bytes) : Prop where
  unit : ∀ p ∈ paths, IsUnitPath p
  nodup : paths.Nodup

section Paths

theorem unitPath_injective : Function.Injective unitPath := fun _ _ h => List.append_cancel_right h

theorem unitPath_ne_temporaryName (name : Bytes) (n : Nat) : unitPath name ≠ temporaryName n := by
  intro h
  have hz : (unitPath name).getLast? = some 0x67 := by
    rw [unitPath, List.getLast?_append]
    rfl
  have ht : (temporaryName n).getLast? = some 0x70 := by
    rw [temporaryName, List.getLast?_append]
    rfl
  rw [h, ht] at hz
  cases hz

namespace IsUnitPath

variable {p : Bytes} (h : IsUnitPath p)

include h

theorem isName : Path.IsName p := by
  obtain ⟨name,hn,rfl⟩ := h
  exact isName_unitPath hn

theorem taken : UnitPath.check p = .ok () := by
  obtain ⟨name,hn,rfl⟩ := h
  exact check_unitPath hn

theorem lasting (n : Nat) : p ≠ temporaryName n := by
  obtain ⟨name,-,rfl⟩ := h
  exact unitPath_ne_temporaryName name n

end IsUnitPath

/-- The units of a set are files side by side where the settings name the shared units by words. -/
theorem Compiled.fileNames {s : DocumentSet} {settings : Settings} {units : List SourceUnit}
    (h : Compiled s settings units) (ht : isWordName settings.typesUnit = true)
    (hi : isWordName settings.indexUnit = true) : FileNames (units.map SourceUnit.path) := by
  obtain ⟨types,documents,index,-,-,hindex,-⟩ := h.emitted
  obtain ⟨parts,i,hindex,-⟩ := indexUnit_eq_ok_iff.mp hindex
  have hpaths : units.map SourceUnit.path =
      (s.names ++ [settings.typesUnit,settings.indexUnit]).map unitPath := by
    rw [h.paths, List.map_append]
    rfl
  have hword : ∀ name ∈ s.names ++ [settings.typesUnit,settings.indexUnit],
      ∀ b ∈ name, Ascii.isWord b = true := by
    intro name hn
    rcases List.mem_append.mp hn with hn | hn
    · obtain ⟨d,hd,rfl⟩ := List.mem_map.mp hn
      exact hindex.isWord_name hd
    · simp only [List.mem_cons, List.not_mem_nil, or_false] at hn
      rcases hn with rfl | rfl
      · exact fun b hb => isWord_of_isWordName ht hb
      · exact fun b hb => isWord_of_isWordName hi hb
  have hnodup : (s.names ++ [settings.typesUnit,settings.indexUnit]).Nodup := by
    refine (DocumentSet.nodup_names h.valid).append (by simpa using h.unitNames) ?_
    intro name hn hr
    refine DocumentSet.notMem_reserved h.valid hn ?_
    simp only [List.mem_cons, List.not_mem_nil, or_false] at hr
    rcases hr with rfl | rfl
    · exact List.mem_cons_self
    · exact List.mem_cons_of_mem _ List.mem_cons_self
  rw [hpaths]
  refine ⟨?_,hnodup.map unitPath_injective⟩
  intro p hp
  obtain ⟨name,hn,rfl⟩ := List.mem_map.mp hp
  exact ⟨name,hword name hn,rfl⟩

theorem FileNames.tail {p : Bytes} {paths : List Bytes} (h : FileNames (p :: paths)) :
    FileNames paths where
  unit q hq := h.unit q (List.mem_cons_of_mem _ hq)
  nodup := (List.nodup_cons.mp h.nodup).2

/-- A memory takes all of these units. -/
theorem writeUnits_memory {units : List SourceUnit} (h : FileNames (units.map SourceUnit.path))
    (memory : MemorySink) : (writeUnits (MemorySink.write false) units memory).1 = .ok () := by
  obtain ⟨-,he⟩ | ⟨before,u,after,why,rfl,-,hu,-⟩ :=
    writeUnits_cases (MemorySink.write false) units memory
  · rw [he]
  · have hc := (h.unit u.path (by simp)).taken
    rw [MemorySink.write_fst, Sink.admit_eq_ok_iff.mpr ⟨hc,rfl⟩] at hu
    cases hu

end Paths

section Writing

variable {out : Bytes} {directory : Location} {t t' : FileTree} {units : List SourceUnit}

/-- The first unit of a run that writes all is written, and the run goes on with the rest. -/
theorem writeUnits_cons_eq_ok {σ : Type} {sink : Sink σ} {u : SourceUnit} {rest : List SourceUnit}
    {state final : σ} (h : writeUnits sink (u :: rest) state = (.ok (),final)) :
    ∃ next, sink u.path u.content state = (.ok (),next) ∧
      writeUnits sink rest next = (.ok (),final) := by
  rw [writeUnits] at h
  rcases hu : sink u.path u.content state with ⟨why | ⟨⟩,next⟩
  · rw [hu] at h
    simp at h
  · rw [hu] at h
    exact ⟨next,rfl,h⟩

variable (hd : ∀ c ∈ directory, Path.IsName c)

include hd

theorem writeUnits_step (hr : t.absolute out = directory.path) {u : SourceUnit} {rest : List SourceUnit}
    (hn : FileNames ((u :: rest).map SourceUnit.path))
    (h : (replacing out).write false u.path u.content t = (.ok (),t')) :
    Settled out t' directory u.path u.content ∧ Wrote directory u.path u.content t t' ∧
      t'.absolute out = directory.path := by
  have hu : IsUnitPath u.path := hn.unit _ List.mem_cons_self
  obtain ⟨hres,hw⟩ := wrote_of_write hr hd hu.isName hu.taken hu.lasting h
  refine ⟨hw.settled hd hu.isName hu.lasting hres,hw,?_⟩
  rw [FileTree.absolute_congr hw.current_eq, hr]

/-- A run that wrote every unit has grown the tree by unit files. -/
theorem writeUnits_grown (hr : t.absolute out = directory.path)
    (hn : FileNames (units.map SourceUnit.path))
    (h : writeUnits ((replacing out).write false) units t = (.ok (),t')) :
    FileTree.Grown IsUnitPath t t' := by
  induction units generalizing t with
  | nil =>
    cases h
    exact FileTree.Grown.refl _ _
  | cons u rest ih =>
    obtain ⟨next,hu,hw⟩ := writeUnits_cons_eq_ok h
    obtain ⟨-,hwrote,hr'⟩ := writeUnits_step hd hr hn hu
    exact (hwrote.grown (hn.unit _ List.mem_cons_self)).trans (ih hr' hn.tail hw)

/-- Files that were settled before stay so while other units are written. -/
theorem writeUnits_settled_other (hr : t.absolute out = directory.path)
    (hn : FileNames (units.map SourceUnit.path)) {name content : Bytes} (ho : Path.IsName name)
    (hne : name ∉ units.map SourceUnit.path) (hs : Settled out t directory name content)
    (h : writeUnits ((replacing out).write false) units t = (.ok (),t')) :
    Settled out t' directory name content := by
  induction units generalizing t with
  | nil =>
    cases h
    exact hs
  | cons u rest ih =>
    obtain ⟨next,hu,h⟩ := writeUnits_cons_eq_ok h
    obtain ⟨-,hw,hr'⟩ := writeUnits_step hd hr hn hu
    rw [List.map_cons, List.mem_cons, not_or] at hne
    have hlast := (hn.unit u.path List.mem_cons_self).lasting
    exact ih hr' hn.tail hne.2 (hw.settled_other hd hlast ho hne.1 hs) h

/-- A run that wrote every unit leaves each of them in its place. -/
theorem writeUnits_settled (hr : t.absolute out = directory.path)
    (hn : FileNames (units.map SourceUnit.path))
    (h : writeUnits ((replacing out).write false) units t = (.ok (),t')) :
    t'.absolute out = directory.path ∧ ∀ u ∈ units, Settled out t' directory u.path u.content := by
  induction units generalizing t with
  | nil =>
    cases h
    exact ⟨hr,nofun⟩
  | cons u rest ih =>
    obtain ⟨next,hu,hw⟩ := writeUnits_cons_eq_ok h
    obtain ⟨hs,-,hr'⟩ := writeUnits_step hd hr hn hu
    obtain ⟨hroot,hrest⟩ := ih hr' hn.tail hw
    refine ⟨hroot,?_⟩
    intro v hv
    rcases List.mem_cons.mp hv with rfl | hv
    · have hname := (hn.unit v.path List.mem_cons_self).isName
      exact writeUnits_settled_other hd hr' hn.tail hname (List.nodup_cons.mp hn.nodup).1 hs hw
    · exact hrest v hv

/-- Units that are all in place are written again without a change. -/
theorem writeUnits_eq_self (hr : t.absolute out = directory.path)
    (hn : FileNames (units.map SourceUnit.path))
    (hs : ∀ u ∈ units, Settled out t directory u.path u.content) :
    writeUnits ((replacing out).write false) units t = (.ok (),t) := by
  induction units with
  | nil => rfl
  | cons u rest ih =>
    have hu : IsUnitPath u.path := hn.unit _ List.mem_cons_self
    have hw := (hs u List.mem_cons_self).write_eq hr hd hu.isName hu.taken hu.lasting
    rw [writeUnits, hw]
    exact ih hn.tail fun v hv => hs v (List.mem_cons_of_mem _ hv)

end Writing

end WaylandZig.Zig
