import WaylandZig.Proofs.Zig.Emission
import WaylandZig.Proofs.Zig.UnitImports

/-! # No reference leads nowhere

The reference that types an argument and the declaration that it names are spelled in two places: the
reference by resolving the enum through the set, the declaration by compiling the interface that has
it. Both use the naming of the document that owns the enum, so the declaration is there under the name
that the reference spells, and whatever a unit imports is a unit that was emitted.
-/
namespace WaylandZig.Zig

open Schema

/-- What an enum is declared as. -/
def enumKind (e : Enum) : Bytes := if e.bitfield then "packed struct(u32)" else "enum(u32)"

/-- The struct of an interface has the type `name` in its body, declared as `kind`. -/
def InterfaceDecl.Declares (i : InterfaceDecl) (name kind : Bytes) : Prop :=
  ∃ body members, i.tree = .block ("pub const " ++ i.name ++ " = struct \x7b") ";" body ∧
    SourceTree.block ("pub const " ++ name ++ " = " ++ kind ++ " \x7b") ";" members ∈ body

/-- An argument that names an enum becomes one field, and the type of that field is the path to the
declaration of the enum in the unit of the document that the reference leads to. -/
def EnumTyped (s : DocumentSet) (units : List SourceUnit) (indent : Nat) (here : Site) (a : Arg)
    (fields : List Field) : Prop :=
  takesEnum a = true → ∃ name r target type,
    here.naming.identifier a.name = .ok name ∧
    resolve s here a.enum = .ok r ∧ r.site.InSet s ∧ r.enum ∈ r.site.interface.enums ∧
    r.site.EmittedAs units indent target ∧ target.Declares type (enumKind r.enum) ∧
    fields = [⟨name,here.pathTo r.site target.name type⟩]

theorem enum_tree_eq {here : Site} {e : Enum} {decl : EnumDecl} {name : Bytes}
    (h : here.enumDecl e = .ok decl) (hn : here.naming.enumType e.name = .ok name) :
    ∃ members, decl.tree =
      .block ("pub const " ++ name ++ " = " ++ enumKind e ++ " \x7b") ";" members := by
  have hbits : (" = packed struct(u32) \x7b" : Bytes) = " = " ++ ("packed struct(u32)" ++ " \x7b") := by
    decide
  have hplain : (" = enum(u32) \x7b" : Bytes) = " = " ++ ("enum(u32)" ++ " \x7b") := by decide
  obtain ⟨name',hn',h⟩ := Site.enumDecl_cases h
  obtain rfl : name = name' := Except.ok.inj (hn.symm.trans hn')
  obtain ⟨hb,layout,fields,-,-,rfl⟩ | ⟨hb,members,-,rfl⟩ := h
  · rw [EnumDecl.tree, hbits, enumKind, if_pos hb]
    simp only [List.append_assoc]
    exact ⟨_,rfl⟩
  · rw [EnumDecl.tree, hplain, enumKind, hb]
    simp only [List.append_assoc]
    exact ⟨_,rfl⟩

/-- An interface declares each of its enums under the type name that the naming gives it. -/
theorem declares_of_mem {here : Site} {s : DocumentSet} {types : TypeMap} {decl : InterfaceDecl}
    (h : here.EmitsInterface s types decl) {e : Enum} (he : e ∈ here.interface.enums) {name : Bytes}
    (hn : here.naming.enumType e.name = .ok name) : decl.Declares name (enumKind e) := by
  obtain ⟨d,hd,henum⟩ := h.enums.exists_of_mem_left he
  obtain ⟨members,hm⟩ := enum_tree_eq henum hn
  refine ⟨_,members,rfl,List.mem_append_right _ ?_⟩
  rw [← hm]
  exact List.mem_flatMap.mpr ⟨d,hd,by simp⟩

section References

variable {s : DocumentSet} {settings : Settings} {types : TypeMap}
  {documents shared : List SourceUnit}

/-- The field of an argument that takes an enum. -/
theorem fields_enum {a : Arg} (ha : takesEnum a = true) {name type : Bytes} (ht : type ≠ []) :
    types.fields a name type = [⟨name,type⟩] := by
  have hk : a.kind = .uint ∨ a.kind = .int := by
    simpa [takesEnum] using (Bool.and_eq_true_iff.mp ha).2
  have hfd : a.kind ≠ .fd := by
    rcases hk with hk | hk <;> simp [hk]
  have hid : a.kind ≠ .newId := by
    rcases hk with hk | hk <;> simp [hk]
  rw [TypeMap.fields, if_neg hfd, if_neg (fun h => hid h.1), if_pos ht]

theorem pathTo_ne_nil {here site : Site} {interface name : Bytes} (h : name ≠ []) :
    here.pathTo site interface name ≠ [] := by
  unfold Site.pathTo
  split
  · exact h
  split <;> simp [h]

theorem enumTyped_emitted {here : Site} (hh : here.InSet s)
    (hd : EmitsDocuments s settings types documents) {a : Arg} {fields : List Field}
    (h : here.EmitsArg s types a fields) :
    EnumTyped s (documents ++ shared) settings.indentSize.toNat here a fields := by
  intro ha
  obtain ⟨name,enumType,hn,he,rfl⟩ := h
  rw [Site.enumTypeOf, if_pos ha] at he
  obtain ⟨r,hr,ht⟩ := Except.bind_eq_ok_iff.mp he
  obtain ⟨hset,hmem⟩ := resolve_eq_ok hh hr
  obtain ⟨target,hemit,hat⟩ := exists_emittedAs hd hset shared
  obtain ⟨type,htype,hpath⟩ := typeRef_eq_ok ht
  have hp : enumType = here.pathTo r.site target.name type := by
    -- Inside its own interface the reference leaves out the name of the struct.
    rcases hpath with ⟨hs,rfl⟩ | ⟨interface,hi,rfl⟩
    · rw [Site.pathTo, if_pos hs]
    · rw [Except.ok.inj (hi.symm.trans hemit.name)]
  have hne : enumType ≠ [] := by
    rw [hp]
    refine pathTo_ne_nil ?_
    rintro rfl
    cases Naming.isWordName_of_identifier htype
  refine ⟨name,r,target,type,hn,hr,hset,hmem,hat,declares_of_mem hemit hmem htype,?_⟩
  rw [fields_enum ha hne, hp]

/-- The fields of a message, argument by argument, with the types of those that name an enum. -/
def EnumTypedMessage (s : DocumentSet) (units : List SourceUnit) (indent : Nat) (here : Site)
    (m : Message) (decl : MessageDecl) : Prop :=
  ∃ groups, List.Forall₂ (EnumTyped s units indent here) m.args groups ∧ decl.fields = groups.flatten

theorem enumTypedMessages_emitted {here : Site} (hh : here.InSet s)
    (hd : EmitsDocuments s settings types documents) {messages : List Message}
    {decls : List MessageDecl}
    (h : List.Forall₂ (here.EmitsMessage s types) messages decls) :
    List.Forall₂ (EnumTypedMessage s (documents ++ shared) settings.indentSize.toNat here) messages
      decls := by
  refine h.imp ?_
  rintro m decl ⟨-,groups,hg,hf⟩
  exact ⟨groups,hg.imp fun _ _ ha => enumTyped_emitted hh hd ha,hf⟩

end References

section Imports

variable {s : DocumentSet} {settings : Settings} {units : List SourceUnit}
  {parts : List (IndexImport × List IndexEntry)} {i : IndexDecl}

/-- What the code of the units may import: the standard library, and each unit. -/
def importable (units : List SourceUnit) : List Bytes := "std" :: units.map SourceUnit.path

theorem Compiled.documents_importable (h : Compiled s settings units)
    (hi : EmitsIndex s settings parts i) : Importable (importable units) s := by
  intro d hd
  have hn : d.name ∈ s.names := List.mem_map_of_mem hd
  refine ⟨hi.isWord_name hd,List.mem_cons_of_mem _ ?_⟩
  rw [h.paths]
  exact List.mem_append_left _ (List.mem_map_of_mem hn)

theorem Compiled.typesUnit_importable (h : Compiled s settings units) :
    unitPath settings.typesUnit ∈ importable units := by
  rw [importable, h.paths]
  simp

theorem Compiled.index_importsIn (h : Compiled s settings units)
    (hw : isWordName settings.typesUnit = true) (hi : EmitsIndex s settings parts i) :
    ∀ t ∈ i.trees, t.ImportsIn (importable units) :=
  indexTrees_importsIn (h.documents_importable hi) List.mem_cons_self
    (fun _ hb => isWord_of_isWordName hw hb) h.typesUnit_importable hi

/-- The code of every unit imports nothing but the standard library and the units. -/
theorem Compiled.importsOnly (h : Compiled s settings units)
    (hw : isWordName settings.typesUnit = true)
    (hm : ∀ p ∈ settings.typeMappings, ¬ importWord <:+: p.2 ∧ Ascii.newline ∉ p.2) :
    ∀ u ∈ units, ∀ line ∈ codeLines u.content, ImportsOnly (importable units) line := by
  obtain ⟨types,documents,index,htypes,hd,hi,hunits⟩ := h.emitted
  obtain ⟨parts,i,hindex,rfl⟩ := indexUnit_eq_ok_iff.mp hi
  have hplain : ∀ line ∈ codeLines typesUnit, Plain line := by decide
  intro u hu line hl
  rw [hunits] at hu
  rcases List.mem_append.mp hu with hu | hu
  · obtain ⟨⟨d,k⟩,hz,-,hdoc⟩ := hd.exists_of_mem_right hu
    obtain ⟨decl,hdecl,ht⟩ := documentUnit_eq_ok_iff.mp hdoc
    have hk : s.documents[k]? = some d := List.mem_zipIdx_iff_getElem?.mp hz
    rw [ht] at hl
    exact document_codeLines (h.documents_importable hindex) (ofMappings_importFree htypes hm) hk
      (fun _ hb => isWord_of_isWordName hw hb) h.typesUnit_importable hdecl _ line hl
  · simp only [List.mem_cons, List.not_mem_nil, or_false] at hu
    rcases hu with rfl | rfl
    · exact (hplain line hl).importsOnly
    · exact SourceTree.codeLines_text (h.index_importsIn hw hindex) _ line hl

end Imports

/-- What a line of code in any unit imports is the standard library or another unit, and every
argument that names an enum is typed by a declaration that the units hold. -/
theorem generate_references_emitted {σ : Type} {s : DocumentSet} {settings : Settings} {sink : Sink σ}
    {state : σ} {units : List SourceUnit}
    (hw : isWordName settings.withDefaults.typesUnit = true)
    (hm : ∀ p ∈ settings.typeMappings, ¬ importWord <:+: p.2 ∧ Ascii.newline ∉ p.2)
    (h : (generate s settings Formatter.unchanged sink state).1 = .ok units) :
    (∀ u ∈ units, ∀ line ∈ codeLines u.content, ∀ t ∈ importTargets line,
      t = "std" ∨ t ∈ units.map SourceUnit.path) ∧
    ∀ here : Site, here.InSet s → ∃ decl,
      here.EmittedAs units settings.withDefaults.indentSize.toNat decl ∧
      List.Forall₂ (EnumTypedMessage s units settings.withDefaults.indentSize.toNat here)
        here.interface.requests decl.requests ∧
      List.Forall₂ (EnumTypedMessage s units settings.withDefaults.indentSize.toNat here)
        here.interface.events decl.events := by
  have hc := compiled_of_generate h
  constructor
  · intro u hu line hl t ht
    exact List.mem_cons.mp ((hc.importsOnly hw hm u hu line hl).targets t ht)
  · intro here hh
    obtain ⟨types,documents,index,-,hd,-,rfl⟩ := hc.emitted
    obtain ⟨decl,he,hat⟩ := exists_emittedAs hd hh _
    exact ⟨decl,hat,enumTypedMessages_emitted hh hd he.requests,
      enumTypedMessages_emitted hh hd he.events⟩

/-- A request whose arguments name an enum of another document and a bitfield of its interface. -/
def sharedEnumSet : DocumentSet :=
  { documents := [
      { name := "a"
        interfaces := [{
          name := "a"
          enums := [{ name := "mode", entries := [⟨"off",0,false⟩] }] }] },
      { name := "b"
        interfaces := [{
          name := "b"
          requests := [⟨"set",.request,[⟨"m",.uint,"a.mode",[],false⟩,⟨"f",.uint,"bits",[],false⟩]⟩]
          enums := [{ name := "bits", bitfield := true, entries := [⟨"on",1,false⟩] }] }] }] }

def sharedEnumSettings : Settings := { typeMappings := [("fixed","f32")] }

theorem sharedEnumSet_references_emitted : ∃ units,
    (generate sharedEnumSet sharedEnumSettings Formatter.unchanged (fun _ _ => (.ok (),·)) ()).1 =
      .ok units ∧
    (∀ u ∈ units, ∀ line ∈ codeLines u.content, ∀ t ∈ importTargets line,
      t = "std" ∨ t ∈ units.map SourceUnit.path) ∧
    ∀ here : Site, here.InSet sharedEnumSet → ∃ decl, here.EmittedAs units 4 decl ∧
      List.Forall₂ (EnumTypedMessage sharedEnumSet units 4 here) here.interface.requests decl.requests ∧
      List.Forall₂ (EnumTypedMessage sharedEnumSet units 4 here) here.interface.events decl.events := by
  have hg : (generate sharedEnumSet sharedEnumSettings Formatter.unchanged
      (fun _ _ => (.ok (),·)) ()).1.isOk = true := by decide +kernel
  obtain ⟨units,hg⟩ := Except.exists_of_isOk hg
  have hm : ∀ p ∈ sharedEnumSettings.typeMappings, ¬ importWord <:+: p.2 ∧ Ascii.newline ∉ p.2 := by
    intro p hp
    obtain rfl := List.mem_singleton.mp hp
    have hf : Plain "f32" := by decide
    exact ⟨hf.importWord_notInfix,hf.newline_notMem⟩
  exact ⟨units,hg,generate_references_emitted (by decide) hm hg⟩

end WaylandZig.Zig
