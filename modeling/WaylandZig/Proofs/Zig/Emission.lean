import WaylandZig.Proofs.Zig.DocumentUnit
import WaylandZig.Proofs.Zig.Generator
import WaylandZig.Proofs.Zig.Reference

/-! # Where the units of a set are emitted

The unit of a document stands at the position of the document, and in it the struct of an interface
at the position of the interface. A generation that leaves the text of its units unchanged returns the
units as they were compiled.
-/
namespace WaylandZig.Zig

open Schema

theorem formatUnits_unchanged {σ : Type} (units : List SourceUnit) (state : σ) :
    formatUnits Formatter.unchanged units state = (.ok units,state) := by
  induction units with
  | nil => rfl
  | cons u rest ih =>
    have hu : Formatter.unchanged u.path u.content state = (.ok u.content,state) := rfl
    simp only [formatUnits, hu, ih]
    rfl

theorem compiled_of_generate {σ : Type} {s : DocumentSet} {settings : Settings} {sink : Sink σ}
    {state : σ} {units : List SourceUnit}
    (h : (generate s settings Formatter.unchanged sink state).1 = .ok units) :
    Compiled s settings.withDefaults units := by
  rw [← compile_eq_ok_iff]
  cases hc : compile s settings with
  | error fault =>
    simp only [generate, build, hc] at h
    cases h
  | ok compiled =>
    simp only [generate, build, hc, formatUnits_unchanged] at h
    split at h
    · cases h
      rfl
    · cases h

/-- Whatever the formatter and the sink, a generation that succeeds has compiled the set. -/
theorem exists_compile_of_generate {σ : Type} {s : DocumentSet} {settings : Settings}
    {f : Formatter σ} {sink : Sink σ} {state : σ} {done : List SourceUnit}
    (h : (generate s settings f sink state).1 = .ok done) : ∃ units, compile s settings = .ok units := by
  cases hc : compile s settings with
  | error fault =>
    simp only [generate, build, hc] at h
    cases h
  | ok units => exact ⟨units,rfl⟩

/-- The unit of the document declares the interface of the site as `decl`. -/
def Site.EmittedAs (units : List SourceUnit) (indent : Nat) (here : Site) (decl : InterfaceDecl) :
    Prop :=
  ∃ u : UnitDecl, units[here.documentIndex]? =
      some ⟨unitPath here.document.name,SourceTree.text indent u.trees⟩ ∧
    u.interfaces[here.interfaceIndex]? = some decl

section Positions

variable {s : DocumentSet} {settings : Settings} {types : TypeMap} {documents : List SourceUnit}

theorem EmitsDocuments.exists_unit (h : EmitsDocuments s settings types documents) {k : Nat}
    {d : Document} (hd : s.documents[k]? = some d) : ∃ u, EmitsUnit s settings types k d u ∧
      documents[k]? = some ⟨unitPath d.name,SourceTree.text settings.indentSize.toNat u.trees⟩ := by
  have hz : s.documents.zipIdx[k]? = some (d,k) := by simp [List.getElem?_zipIdx, hd]
  obtain ⟨unit,hu,hp,hc⟩ := List.Forall₂.getElem? h hz
  obtain ⟨u,he,ht⟩ := documentUnit_eq_ok_iff.mp hc
  refine ⟨u,he,?_⟩
  rw [hu, ← hp, ← ht]

theorem EmitsUnit.exists_interface {here : Site} {u : UnitDecl}
    (h : EmitsUnit s settings types here.documentIndex here.document u)
    (hi : here.document.interfaces[here.interfaceIndex]? = some here.interface) :
    ∃ decl, u.interfaces[here.interfaceIndex]? = some decl ∧ here.EmitsInterface s types decl := by
  have hs : (sites here.documentIndex here.document)[here.interfaceIndex]? = some here := by
    rw [getElem?_sites, hi]
    rfl
  exact h.interfaces.getElem? hs

theorem exists_emittedAs {here : Site} (h : EmitsDocuments s settings types documents)
    (hh : here.InSet s) (shared : List SourceUnit) :
    ∃ decl, here.EmitsInterface s types decl ∧
      here.EmittedAs (documents ++ shared) settings.indentSize.toNat decl := by
  obtain ⟨u,he,hu⟩ := h.exists_unit hh.1
  obtain ⟨decl,hd,hi⟩ := he.exists_interface hh.2
  have hl : here.documentIndex < documents.length := (List.getElem?_eq_some_iff.mp hu).1
  refine ⟨decl,hi,u,?_,hd⟩
  rw [List.getElem?_append_left hl, hu]

end Positions

end WaylandZig.Zig
