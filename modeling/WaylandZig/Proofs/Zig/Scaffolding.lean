import WaylandZig.Proofs.Zig.Capture
import WaylandZig.Proofs.Zig.IndexNames

/-! # Names that the units declare themselves

A unit declares some names whatever the schema holds: the unit of a document the import of the types
unit, the struct of an interface the four types of its messages, and the index the standard library,
the types unit and its tables. The names that come from the schema stand beside them in the same
scopes, and it takes three different rules to keep them apart. An identifier is no reserved word, the
type of an enum has a capital in front or an underscore behind its lead, and a set in which a document
is called like a table of the index is refused before any name gets a lead.
-/
namespace WaylandZig.Zig

open Schema SourceTree

/-- A scope declares the names `own` of its unit and the names `derived` from the schema, and none of
the latter is one of the former. -/
structure Scaffolding (own derived : List Bytes) (scope : List SourceTree) : Prop where
  declared : (declaredNames scope).Perm (own ++ derived)
  apart : own.Disjoint derived

/-- What an index declares beside its documents. One for events alone lacks the last table. -/
def indexScaffold (eventsOnly : Bool) : List Bytes :=
  "std" :: "types" :: if eventsOnly then indexNames.dropLast else indexNames

structure UnitDecl.Scaffolded (u : UnitDecl) : Prop where
  unit : Scaffolding ["types"] (u.interfaces.map InterfaceDecl.name) u.trees
  structs : ∀ i ∈ u.interfaces, Scaffolding messageTypes (i.enums.map EnumDecl.name) i.tree.body

/-- The documents also keep away from the name of a table that the index leaves out. -/
structure IndexDecl.Scaffolded (i : IndexDecl) : Prop where
  unit : Scaffolding (indexScaffold i.eventsOnly) (i.imports.map IndexImport.name) i.trees
  tables : indexNames.Disjoint (i.imports.map IndexImport.name)

section Units

variable {s : DocumentSet} {settings : Settings} {types : TypeMap} {k : Nat} {d : Document}
  {u : UnitDecl}

theorem Site.EmitsInterface.scaffolding {here : Site} {decl : InterfaceDecl}
    (h : here.EmitsInterface s types decl) :
    Scaffolding messageTypes (decl.enums.map EnumDecl.name) decl.tree.body where
  declared := by rw [h.declaredNames_body]
  apart := by
    intro name hown hm
    obtain ⟨e,he,rfl⟩ := List.mem_map.mp hm
    obtain ⟨schemaName,hn⟩ := h.enumType_of_mem he
    exact enumType_notMem_messageTypes hn hown

theorem EmitsUnit.scaffolded (h : EmitsUnit s settings types k d u) : u.Scaffolded where
  unit := by
    refine ⟨by rw [h.declaredNames_eq]; rfl,?_⟩
    intro name hown hm
    obtain ⟨schemaName,-,hn⟩ := h.interfaceNames.exists_of_mem_right hm
    obtain rfl := List.mem_singleton.mp hown
    have hfixed : ("types" : Bytes) ∈ fixedNames := by decide
    exact Naming.notMem_fixedNames_of_identifier hn hfixed
  structs := by
    intro i hi
    obtain ⟨here,-,he⟩ := h.interfaces.exists_of_mem_right hi
    exact he.scaffolding

end Units

section Index

variable {s : DocumentSet} {settings : Settings} {parts : List (IndexImport × List IndexEntry)}
  {i : IndexDecl}

theorem mem_own_of_mem_indexScaffold (eventsOnly : Bool) :
    ∀ name ∈ indexScaffold eventsOnly, name ∈ [("std" : Bytes),"types"] ++ indexNames := by
  cases eventsOnly with
  | false => decide
  | true => decide

theorem EmitsIndex.scaffolded (h : EmitsIndex s settings parts i)
    (hv : s.collisions (reservedNames settings) = []) : i.Scaffolded where
  unit := by
    refine ⟨?_,?_⟩
    · -- The imports stand behind the standard library and in front of everything else.
      rw [declaredNames_index fun u hu => h.isWordName_import hu, indexScaffold, List.cons_append]
      exact List.perm_append_comm.cons _
    · intro name hown hm
      exact h.import_notMem_own hv name hm (mem_own_of_mem_indexScaffold _ name hown)
  tables := by
    intro name hown hm
    exact h.import_notMem_own hv name hm (List.mem_append_right _ hown)

end Index

/-- A generation declares nothing from the schema under a name that the units declare themselves: no
interface beside the import of the types unit, no enum beside the types of the messages, and no
document beside the imports and the tables of the index. -/
theorem generate_scaffolding_apart {σ : Type} {s : DocumentSet} {settings : Settings}
    {f : Formatter σ} {sink : Sink σ} {state : σ} {done : List SourceUnit}
    (h : (generate s settings f sink state).1 = .ok done) :
    (∀ k d, s.documents[k]? = some d → ∃ u, UnitOf s settings k d u ∧ u.Scaffolded) ∧
    ∃ i, IndexOf s settings i ∧ i.eventsOnly = settings.eventsOnlyIndex ∧ i.Scaffolded := by
  obtain ⟨units,hc⟩ := exists_compile_of_generate h
  have hv := (compile_eq_ok_iff.mp hc).valid
  refine ⟨?_,?_⟩
  · intro k d hd
    obtain ⟨types,u,hu,hunit⟩ := exists_unitOf hc hd
    exact ⟨u,hunit,hu.scaffolded⟩
  · obtain ⟨parts,i,he,hi⟩ := exists_indexOf hc
    exact ⟨i,hi,he.eventsOnly,he.scaffolded hv⟩

/-- Names that come near those of the units: words that are reserved, types of messages in small
letters, nothing at all, underscores alone, a digit in front, and a sign whose small form is ASCII. -/
def contestedSet : DocumentSet :=
  { documents := [
      { name := "types"
        nameSpace := "wl"
        interfaces := [{
          name := "wl_types"
          enums := [{ name := "request" },{ name := "ev" },{ name := "1rq" },{ name := [] },
            { name := "ev\u212A" }] }] },
      { name := "std"
        nameSpace := "rq"
        interfaces := [{ name := "rq_map", enums := [{ name := "__" }] }] }] }

theorem contestedSet_scaffolding_apart : ∃ done,
    (generate contestedSet { typesUnit := "shared" } Formatter.unchanged
      (MemorySink.write false) {}).1 = .ok done ∧
    (∀ k d, contestedSet.documents[k]? = some d →
      ∃ u, UnitOf contestedSet { typesUnit := "shared" } k d u ∧ u.Scaffolded) ∧
    ∃ i, IndexOf contestedSet { typesUnit := "shared" } i ∧ i.eventsOnly = false ∧ i.Scaffolded := by
  have hg : (generate contestedSet { typesUnit := "shared" } Formatter.unchanged
      (MemorySink.write false) {}).1.isOk = true := by decide +kernel
  obtain ⟨done,hg⟩ := Except.exists_of_isOk hg
  obtain ⟨hunits,hindex⟩ := generate_scaffolding_apart hg
  exact ⟨done,hg,hunits,hindex⟩

end WaylandZig.Zig
