import WaylandZig.Proofs.Fallible
import WaylandZig.Proofs.Pairing
import WaylandZig.Proofs.Zig.SourceTree

/-! # What the index unit declares

The index imports every document in load order and has an entry for every interface, document by
document. An entry is compiled with the naming of the document, and its path starts with the name
that the document is imported under.
-/
namespace WaylandZig.Zig

open Schema

/-- An interface as the index refers to it from the import `name` of its document. -/
def EmitsEntry (d : Document) (name : Bytes) (i : Interface) (e : IndexEntry) : Prop :=
  (Naming.ofNameSpace d.nameSpace).identifier i.name = .ok e.member ∧
    ∃ decl, (Naming.ofNameSpace d.nameSpace).interface i.name = .ok decl ∧ e.path = name ++ "." ++ decl

/-- The import of a document and the entries of its interfaces. -/
structure EmitsPart (d : Document) (part : IndexImport × List IndexEntry) : Prop where
  name : (Naming.ofNameSpace []).identifier d.name = .ok part.1.name
  unit : part.1.unit = d.name
  entries : List.Forall₂ (EmitsEntry d part.1.name) d.interfaces part.2

structure EmitsIndex (s : DocumentSet) (settings : Settings)
    (parts : List (IndexImport × List IndexEntry)) (i : IndexDecl) : Prop where
  documents : List.Forall₂ EmitsPart s.documents parts
  imports : i.imports = parts.map Prod.fst
  typesUnit : i.typesUnit = settings.typesUnit
  entries : i.entries = parts.flatMap Prod.snd
  eventsOnly : i.eventsOnly = settings.eventsOnlyIndex

theorem indexEntry_eq_ok_iff {d : Document} {name : Bytes} {i : Interface} {e : IndexEntry} :
    indexEntry d name i = .ok e ↔ EmitsEntry d name i e := by
  simp only [indexEntry, Except.mapError_eq_ok_iff, Except.bind_eq_ok_iff, Except.pure_eq_ok_iff,
    EmitsEntry]
  constructor
  · rintro ⟨member,hm,decl,hd,rfl⟩
    exact ⟨hm,decl,hd,rfl⟩
  · rintro ⟨hm,decl,hd,hp⟩
    exact ⟨e.member,hm,decl,hd,by rw [← hp]⟩

theorem indexPart_eq_ok_iff {d : Document} {part : IndexImport × List IndexEntry} :
    indexPart d = .ok part ↔ EmitsPart d part := by
  simp only [indexPart, importName, Except.mapError_eq_ok_iff, Except.bind_eq_ok_iff,
    Except.pure_eq_ok_iff, Except.mapM_eq_ok_iff, indexEntry_eq_ok_iff]
  constructor
  · rintro ⟨name,hn,entries,he,rfl⟩
    exact ⟨hn,rfl,he⟩
  · rintro ⟨hn,hu,he⟩
    exact ⟨part.1.name,hn,part.2,he,by rw [← hu]⟩

theorem indexDecl_eq_ok_iff {s : DocumentSet} {settings : Settings} {i : IndexDecl} :
    indexDecl s settings = .ok i ↔ ∃ parts, EmitsIndex s settings parts i := by
  simp only [indexDecl, Except.bind_eq_ok_iff, Except.pure_eq_ok_iff, Except.mapM_eq_ok_iff,
    indexPart_eq_ok_iff]
  constructor
  · rintro ⟨parts,hp,rfl⟩
    exact ⟨parts,hp,rfl,rfl,rfl,rfl⟩
  · rintro ⟨parts,hp,hi,ht,he,ho⟩
    exact ⟨parts,hp,by rw [← hi, ← ht, ← he, ← ho]⟩

/-- The index unit is the text of the tree of its declarations. -/
theorem indexUnit_eq_ok_iff {s : DocumentSet} {settings : Settings} {text : Bytes} :
    indexUnit s settings = .ok text ↔ ∃ parts i, EmitsIndex s settings parts i ∧
      text = SourceTree.text settings.indentSize.toNat i.trees := by
  simp only [indexUnit, Except.map_eq_ok_iff, indexDecl_eq_ok_iff, IndexDecl.text_eq]
  constructor
  · rintro ⟨i,⟨parts,hi⟩,rfl⟩
    exact ⟨parts,i,hi,rfl⟩
  · rintro ⟨parts,i,hi,rfl⟩
    exact ⟨i,⟨parts,hi⟩,rfl⟩

end WaylandZig.Zig
