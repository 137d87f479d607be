import WaylandZig.Proofs.Schema.Collisions
import WaylandZig.Proofs.Schema.NameSpace
import WaylandZig.Proofs.Zig.DeclaredNames
import WaylandZig.Proofs.Zig.IndexTables
import WaylandZig.Proofs.Zig.Qualification
import WaylandZig.Sink.Memory

/-! # Names of the index that are declared twice

A set is checked for names that occur twice before any name gets a lead. The index then imports its
documents and lists its interfaces under names with leads, beside names of its own. Which sets have
an index that declares a name twice, or an enum of interfaces with a member twice, is told here by the
names of the schema: a name may be spelled like another one with its lead, and an interface may have
the name of the member that stands for none.
-/
namespace WaylandZig.Zig

open Schema SourceTree

variable {s : DocumentSet} {settings : Settings}

/-- What the index unit of a set declares, with its text in front of formatting. -/
structure IndexOf (s : DocumentSet) (settings : Settings) (i : IndexDecl) : Prop where
  declared : indexDecl s settings.withDefaults = .ok i
  emitted : ∃ units, compile s settings = .ok units ∧ units.getLast? =
    some ⟨unitPath settings.withDefaults.indexUnit,
      SourceTree.text settings.withDefaults.indentSize.toNat i.trees⟩

theorem exists_indexOf {units : List SourceUnit} (h : compile s settings = .ok units) :
    ∃ parts i, EmitsIndex s settings.withDefaults parts i ∧ IndexOf s settings i := by
  obtain ⟨types,documents,index,-,-,hi,hu⟩ := (compile_eq_ok_iff.mp h).emitted
  obtain ⟨parts,i,he,rfl⟩ := indexUnit_eq_ok_iff.mp hi
  refine ⟨parts,i,he,indexDecl_eq_ok_iff.mpr ⟨parts,he⟩,units,h,?_⟩
  rw [hu]
  simp

/-- A property of the index that does not hold is refuted by evaluating the declaration. -/
theorem exists_indexOf_not {σ : Type} {f : Formatter σ} {sink : Sink σ} {state : σ}
    {p : IndexDecl → Prop} [DecidablePred p] (h : (generate s settings f sink state).1.isOk = true)
    (hp : (indexDecl s settings.withDefaults).map (fun i => decide (p i)) = .ok false) :
    ∃ units i, (generate s settings f sink state).1 = .ok units ∧ IndexOf s settings i ∧ ¬ p i := by
  obtain ⟨units,hg⟩ := Except.exists_of_isOk h
  obtain ⟨compiled,hc⟩ := exists_compile_of_generate hg
  obtain ⟨parts,i,-,hi⟩ := exists_indexOf hc
  rw [hi.declared] at hp
  exact ⟨units,i,hg,hi,of_decide_eq_false (Except.ok.inj hp)⟩

/-- The words of the index that a name could be equal to are their own identifiers. -/
theorem ownWord_needs_no_lead :
    ∀ w ∈ invalidMember :: indexNames, ¬ NeedsLead w ∧ Ascii.underscore ∉ w := by decide +kernel

section Imports

variable {parts : List (IndexImport × List IndexEntry)} {i : IndexDecl}

theorem map_snd_documents :
    (s.documents.map fun d => (Naming.ofNameSpace [],d.name)).map Prod.snd = s.names := by
  rw [List.map_map]
  rfl

theorem EmitsIndex.importIdentifiers (h : EmitsIndex s settings parts i) :
    Identifiers (s.documents.map fun d => (Naming.ofNameSpace [],d.name))
      (i.imports.map IndexImport.name) := by
  rw [h.imports, List.map_map, Identifiers, List.forall₂_map_left_iff, List.forall₂_map_right_iff]
  exact h.documents.imp fun _ _ hp => hp.name

theorem EmitsIndex.isWordName_import (h : EmitsIndex s settings parts i) {u : IndexImport}
    (hu : u ∈ i.imports) : isWordName u.name = true := by
  obtain ⟨p,-,hp⟩ := h.importIdentifiers.mem_iff.mp (List.mem_map_of_mem hu)
  exact Naming.isWordName_of_identifier hp

theorem EmitsIndex.imports_nodup_iff (h : EmitsIndex s settings parts i) (hn : s.names.Nodup) :
    (i.imports.map IndexImport.name).Nodup ↔
      ∀ d ∈ s.documents, NeedsLead d.name → fallbackLead ++ "_" ++ d.name ∉ s.names := by
  have hl : ∀ p ∈ s.documents.map fun d => (Naming.ofNameSpace [],d.name), p.1.LeadIsToken := by
    intro p hp
    obtain ⟨d,-,rfl⟩ := List.mem_map.mp hp
    exact Naming.leadIsToken_ofNameSpace List.not_mem_nil
  rw [h.importIdentifiers.nodup_iff hl (map_snd_documents ▸ hn), map_snd_documents, List.forall_mem_map]
  rfl

theorem EmitsIndex.imports_unit (h : EmitsIndex s settings parts i) :
    i.imports.map IndexImport.unit = s.names := by
  rw [h.imports, List.map_map]
  exact List.forall₂_map_eq_iff.mp (h.documents.flip.imp fun _ _ hp => hp.unit)

/-- No document is imported under a name that the index declares itself. -/
theorem EmitsIndex.import_notMem_own (h : EmitsIndex s settings parts i)
    (hv : s.collisions (reservedNames settings) = []) :
    ∀ name ∈ i.imports.map IndexImport.name,
      name ∉ [("std" : Bytes),"types"] ++ indexNames := by
  have hfixed : ∀ w ∈ [("std" : Bytes),"types"], w ∈ fixedNames := by decide
  intro name hm ho
  rcases List.mem_append.mp ho with ho | ho
  · obtain ⟨p,-,hi⟩ := h.importIdentifiers.mem_iff.mp hm
    exact Naming.notMem_fixedNames_of_identifier hi (hfixed name ho)
  · obtain ⟨hn,ht⟩ := ownWord_needs_no_lead name (List.mem_cons_of_mem _ ho)
    have hnames := (h.importIdentifiers.mem_iff_of_token hn ht).mp hm
    rw [map_snd_documents] at hnames
    refine DocumentSet.notMem_reserved hv hnames ?_
    exact List.mem_cons_of_mem _ (List.mem_cons_of_mem _ ho)

theorem nodup_withOwn_iff {names : List Bytes}
    (h : ∀ n ∈ names, n ∉ [("std" : Bytes),"types"] ++ indexNames) (eventsOnly : Bool) :
    (("std" : Bytes) :: (names ++ ("types" : Bytes) ::
      if eventsOnly then indexNames.dropLast else indexNames)).Nodup ↔ names.Nodup := by
  let own : List Bytes := "types" :: if eventsOnly then indexNames.dropLast else indexNames
  have hown : (("std" : Bytes) :: own).Nodup := by
    cases eventsOnly with
    | false => decide
    | true => decide
  have hsub : ∀ n ∈ ("std" : Bytes) :: own, n ∈ [("std" : Bytes),"types"] ++ indexNames := by
    cases eventsOnly with
    | false => decide
    | true => decide
  -- The first own name is moved behind the imports, next to the others.
  have hp : (("std" : Bytes) :: (names ++ own)).Perm (names ++ ("std" : Bytes) :: own) :=
    List.perm_middle.symm
  rw [hp.nodup_iff, List.nodup_append']
  constructor
  · exact fun hn => hn.1
  · intro hn
    refine ⟨hn,hown,?_⟩
    intro n hm ho
    exact h n hm (hsub n ho)

end Imports

/-- The index declares the standard library, the documents, the types unit and its tables. It declares
a name twice exactly when a document is named like another one with the lead that this other one
needs. -/
theorem generate_indexNames_nodup_iff {σ : Type} {f : Formatter σ} {sink : Sink σ} {state : σ}
    {done : List SourceUnit} (h : (generate s settings f sink state).1 = .ok done) :
    ∃ i, IndexOf s settings i ∧
      i.imports.map IndexImport.unit = s.names ∧
      declaredNames i.trees = ("std" : Bytes) :: (i.imports.map IndexImport.name ++
        ("types" : Bytes) :: if settings.eventsOnlyIndex then indexNames.dropLast else indexNames) ∧
      ((declaredNames i.trees).Nodup ↔
        ∀ d ∈ s.documents, NeedsLead d.name → fallbackLead ++ "_" ++ d.name ∉ s.names) := by
  obtain ⟨units,hc⟩ := exists_compile_of_generate h
  obtain ⟨parts,i,he,hi⟩ := exists_indexOf hc
  have hv := (compile_eq_ok_iff.mp hc).valid
  have hd := declaredNames_index fun u hu => he.isWordName_import hu
  rw [he.eventsOnly] at hd
  refine ⟨i,hi,?_,hd,?_⟩
  · exact he.imports_unit
  · rw [hd, ← he.imports_nodup_iff (DocumentSet.nodup_names hv)]
    exact nodup_withOwn_iff (he.import_notMem_own hv) settings.eventsOnlyIndex

/-- Documents whose names are reserved words, each imported under a name of its own. -/
def reservedImportSet : DocumentSet :=
  { documents := [{ name := "error" },{ name := "id" },{ name := "error_id" }] }

theorem reservedImportSet_indexNames : ∃ units i,
    (generate reservedImportSet {} Formatter.unchanged (MemorySink.write false) {}).1 = .ok units ∧
    IndexOf reservedImportSet {} i ∧
    i.imports.map IndexImport.unit = reservedImportSet.names ∧ (declaredNames i.trees).Nodup := by
  have hset : (generate reservedImportSet {} Formatter.unchanged
        (MemorySink.write false) {}).1.isOk = true ∧
      ∀ d ∈ reservedImportSet.documents, NeedsLead d.name →
        fallbackLead ++ "_" ++ d.name ∉ reservedImportSet.names := by decide +kernel
  obtain ⟨units,hg⟩ := Except.exists_of_isOk hset.1
  obtain ⟨i,hi,hu,-,hn⟩ := generate_indexNames_nodup_iff hg
  exact ⟨units,i,hg,hi,hu,hn.mpr hset.2⟩

/-- A document that is named like another one with the lead that this other one needs. -/
def leadImportSet : DocumentSet :=
  { documents := [{ name := "error" },{ name := "id_error" }] }

theorem leadImportSet_indexNames_not_nodup : ∃ units i,
    (generate leadImportSet {} Formatter.unchanged (MemorySink.write false) {}).1 = .ok units ∧
    IndexOf leadImportSet {} i ∧ ¬ (declaredNames i.trees).Nodup := by
  have hset : (generate leadImportSet {} Formatter.unchanged
        (MemorySink.write false) {}).1.isOk = true ∧
      (indexDecl leadImportSet (Settings.withDefaults {})).map
        (fun i => decide (declaredNames i.trees).Nodup) = .ok false := by decide +kernel
  exact exists_indexOf_not hset.1 hset.2

section Members

variable {parts : List (IndexImport × List IndexEntry)} {i : IndexDecl}

/-- The names of all interfaces of a set, each beside the naming of its document. -/
def interfaceItems (s : DocumentSet) : List (Naming × Bytes) :=
  s.documents.flatMap fun d => d.interfaceNames.map (Naming.ofNameSpace d.nameSpace,·)

theorem map_snd_interfaceItems (s : DocumentSet) :
    (interfaceItems s).map Prod.snd = s.interfaceNames := by
  simp [interfaceItems, DocumentSet.interfaceNames, List.map_flatMap, Function.comp_def]

theorem EmitsIndex.memberIdentifiers (h : EmitsIndex s settings parts i) :
    Identifiers (interfaceItems s) (i.entries.map IndexEntry.member) := by
  rw [h.entries, List.map_flatMap]
  refine List.rel_flatMap h.documents ?_
  intro d part hp
  simp only [Document.interfaceNames, List.map_map, List.forall₂_map_left_iff,
    List.forall₂_map_right_iff]
  exact hp.entries.imp fun _ _ he => he.1

/-- The members are different exactly when no interface is called invalid, or like another one with
its lead. -/
theorem EmitsIndex.members_nodup_iff (h : EmitsIndex s settings parts i)
    (hs : ∀ d ∈ s.documents, Ascii.underscore ∉ d.nameSpace) (hn : s.interfaceNames.Nodup) :
    (memberList i.entries).Nodup ↔ invalidMember ∉ s.interfaceNames ∧
      ∀ d ∈ s.documents, ∀ name ∈ d.interfaceNames, NeedsLead name →
        (Naming.ofNameSpace d.nameSpace).withLead name ∉ s.interfaceNames := by
  have hl : ∀ p ∈ interfaceItems s, p.1.LeadIsToken := by
    intro p hp
    obtain ⟨d,hd,hp⟩ := List.mem_flatMap.mp hp
    obtain ⟨name,-,rfl⟩ := List.mem_map.mp hp
    exact Naming.leadIsToken_ofNameSpace (hs d hd)
  obtain ⟨hinvalid,htoken⟩ := ownWord_needs_no_lead invalidMember List.mem_cons_self
  rw [memberList, List.nodup_cons, h.memberIdentifiers.mem_iff_of_token hinvalid htoken,
    h.memberIdentifiers.nodup_iff hl (map_snd_interfaceItems s ▸ hn), map_snd_interfaceItems]
  simp only [interfaceItems, List.forall_mem_flatMap, List.forall_mem_map]

end Members

/-- The enum of interfaces has a member for no interface and one for each. One of them occurs twice
exactly when an interface is called invalid, or like another one with the lead that this other one
needs. -/
theorem generate_members_nodup_iff {σ : Type} {f : Formatter σ} {sink : Sink σ} {state : σ}
    {done : List SourceUnit}
    (hs : ∀ d ∈ s.documents, d.nameSpace = NameSpace.infer d.interfaceNames)
    (h : (generate s settings f sink state).1 = .ok done) :
    ∃ i, IndexOf s settings i ∧
      SourceTree.block interfaceHead ";" ((memberList i.entries).map fun m => .line (m ++ ",")) ∈
        i.trees ∧
      ((memberList i.entries).Nodup ↔ invalidMember ∉ s.interfaceNames ∧
        ∀ d ∈ s.documents, ∀ name ∈ d.interfaceNames, NeedsLead name →
          (Naming.ofNameSpace d.nameSpace).withLead name ∉ s.interfaceNames) := by
  obtain ⟨units,hc⟩ := exists_compile_of_generate h
  obtain ⟨parts,i,he,hi⟩ := exists_indexOf hc
  have hn := DocumentSet.nodup_interfaceNames (compile_eq_ok_iff.mp hc).valid
  have htoken : ∀ d ∈ s.documents, Ascii.underscore ∉ d.nameSpace := by
    intro d hd
    rw [hs d hd]
    exact NameSpace.underscore_notMem_infer _
  refine ⟨i,hi,?_,he.members_nodup_iff htoken hn⟩
  rw [IndexDecl.trees_eq_tables]
  refine List.mem_append_right _ (List.mem_flatMap.mpr ⟨.interfaces,List.mem_cons_self,?_⟩)
  simp [IndexTable.tree, IndexTable.interfaces, IndexDecl.tableTree, memberList]

/-- Reserved names in two name spaces, of which one gives its lead and one does not. -/
def leadingNameSet : DocumentSet :=
  { documents := [
      { name := "wl", nameSpace := "wl", interfaces := [{ name := "wl" },{ name := "wl_error" }] },
      { name := "v", nameSpace := "var", interfaces := [{ name := "var" }] },
      { name := "e", nameSpace := "error", interfaces := [{ name := "error" }] }] }

theorem leadingNameSet_members : ∃ units i,
    (∀ d ∈ leadingNameSet.documents, d.nameSpace = NameSpace.infer d.interfaceNames) ∧
    (generate leadingNameSet {} Formatter.unchanged (MemorySink.write false) {}).1 = .ok units ∧
    IndexOf leadingNameSet {} i ∧ (memberList i.entries).Nodup := by
  have hs : ∀ d ∈ leadingNameSet.documents, d.nameSpace = NameSpace.infer d.interfaceNames := by
    decide +kernel
  have hset : (generate leadingNameSet {} Formatter.unchanged
        (MemorySink.write false) {}).1.isOk = true ∧
      invalidMember ∉ leadingNameSet.interfaceNames ∧
      ∀ d ∈ leadingNameSet.documents, ∀ name ∈ d.interfaceNames, NeedsLead name →
        (Naming.ofNameSpace d.nameSpace).withLead name ∉ leadingNameSet.interfaceNames := by
    decide +kernel
  obtain ⟨units,hg⟩ := Except.exists_of_isOk hset.1
  obtain ⟨i,hi,-,hn⟩ := generate_members_nodup_iff hs hg
  exact ⟨units,i,hs,hg,hi,hn.mpr hset.2⟩

/-- An interface that is called like the member for no interface. -/
def invalidNameSet : DocumentSet :=
  { documents := [{ name := "p", nameSpace := "invalid", interfaces := [{ name := "invalid" }] }] }

theorem invalidNameSet_members_not_nodup : ∃ units i,
    (∀ d ∈ invalidNameSet.documents, d.nameSpace = NameSpace.infer d.interfaceNames) ∧
    (generate invalidNameSet {} Formatter.unchanged (MemorySink.write false) {}).1 = .ok units ∧
    IndexOf invalidNameSet {} i ∧ ¬ (memberList i.entries).Nodup := by
  have hs : ∀ d ∈ invalidNameSet.documents, d.nameSpace = NameSpace.infer d.interfaceNames := by
    decide +kernel
  have hset : (generate invalidNameSet {} Formatter.unchanged
        (MemorySink.write false) {}).1.isOk = true ∧
      (indexDecl invalidNameSet (Settings.withDefaults {})).map
        (fun i => decide (memberList i.entries).Nodup) = .ok false := by decide +kernel
  obtain ⟨units,i,hg,hi,hn⟩ := exists_indexOf_not hset.1 hset.2
  exact ⟨units,i,hs,hg,hi,hn⟩

end WaylandZig.Zig
