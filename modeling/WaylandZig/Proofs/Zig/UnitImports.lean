import WaylandZig.Proofs.Text.Space
import WaylandZig.Proofs.Zig.DocumentUnit
import WaylandZig.Proofs.Zig.Imports
import WaylandZig.Proofs.Zig.Reference
import WaylandZig.Proofs.Zig.SharedUnits

/-! # What the units import

A document unit imports the types unit and the documents that its enum references lead to, and the
index imports every document and the types unit. Everything else in a unit is a word, a numeral or
fixed text, so nothing that a document names can bring in another import.
-/
namespace WaylandZig.Zig

open Schema
open SourceTree (ImportsIn)

variable {targets : List Bytes}

/-- The names of the documents are words, and their units are among the targets. -/
def Importable (targets : List Bytes) (s : DocumentSet) : Prop :=
  ∀ d ∈ s.documents, (∀ b ∈ d.name, Ascii.isWord b = true) ∧ unitPath d.name ∈ targets

/-- The type of every kind is a single line without an import. -/
def TypeMap.ImportFree (types : TypeMap) : Prop :=
  ∀ kind, Ascii.newline ∉ types.typeOf kind ∧ ¬ importWord <:+: types.typeOf kind

theorem Plain.importWord_notInfix {text : Bytes} (h : Plain text) : ¬ importWord <:+: text := by
  intro hi
  have ha : Ascii.atSign ∈ importWord := by decide
  exact h.atSign_notMem (hi.subset ha)

theorem plain_defaultType (kind : ArgKind) : Plain (defaultType kind) := by
  cases kind <;> decide

theorem replacement_eq_ok {mapping : Bytes × Bytes} {p : ArgKind × Bytes}
    (h : TypeMap.replacement mapping = .ok p) : p.2 = mapping.2 := by
  unfold TypeMap.replacement at h
  split at h
  · cases h
  · cases h
  · split at h
    · cases h
    · cases h
      rfl

/-- The type of a kind is its default or one that was configured. -/
theorem typeOf_cases {mappings : TypeMappings} {types : TypeMap}
    (h : TypeMap.ofMappings mappings = .ok types) (kind : ArgKind) :
    types.typeOf kind = defaultType kind ∨ ∃ mapping ∈ mappings, types.typeOf kind = mapping.2 := by
  obtain ⟨replaced,hr,rfl⟩ := Except.map_eq_ok_iff.mp h
  have hf := Except.mapM_eq_ok_iff.mp hr
  rw [TypeMap.typeOf]
  cases hl : replaced.lookup kind with
  | none => exact .inl rfl
  | some type =>
    obtain ⟨before,after,he,-⟩ := List.lookup_eq_some_iff.mp hl
    obtain ⟨mapping,hmem,hp⟩ := hf.exists_of_mem_right (b := (kind,type)) (by simp [he])
    exact .inr ⟨mapping,List.mem_mergeSort.mp hmem,replacement_eq_ok hp⟩

/-- A type map is free of imports when its mappings are. -/
theorem ofMappings_importFree {mappings : TypeMappings} {types : TypeMap}
    (h : TypeMap.ofMappings mappings = .ok types)
    (hm : ∀ p ∈ mappings, ¬ importWord <:+: p.2 ∧ Ascii.newline ∉ p.2) : types.ImportFree := by
  intro kind
  rcases typeOf_cases h kind with ht | ⟨mapping,hmem,ht⟩
  · rw [ht]
    exact ⟨(plain_defaultType kind).newline_notMem,(plain_defaultType kind).importWord_notInfix⟩
  · rw [ht]
    exact (hm mapping hmem).symm

theorem importsOnly_field {f : Field} (hn : Plain f.name) (hl : Ascii.newline ∉ f.type)
    (ht : ¬ importWord <:+: f.type) : ImportsOnly targets f.text := by
  have hc : ImportsOnly targets (f.type ++ ",") := by
    constructor
    · rw [List.mem_append, not_or]
      exact ⟨hl,by decide⟩
    · have he : importTargets (f.type ++ ",") = [] :=
        importTargets_append_of_importFree (b := Ascii.comma) (by decide) (by decide) ht
      rw [he]
      simp
  have hp : Plain (f.name ++ ": ") := plain_append.mpr ⟨hn,by decide⟩
  have h := hc.append_left hp
  rwa [← List.append_assoc] at h

/-- A path to a type imports at most the unit that the type is declared in. -/
theorem importsOnly_pathTo {here site : Site} {name interface type : Bytes} {s : DocumentSet}
    (hs : Importable targets s) (hd : site.document ∈ s.documents) (hn : Plain name)
    (hi : Plain interface) (ht : Plain type) :
    ImportsOnly targets (Field.text ⟨name,here.pathTo site interface type⟩) := by
  have hdot : Plain "." := by decide
  unfold Site.pathTo
  split
  · exact importsOnly_field hn ht.newline_notMem ht.importWord_notInfix
  split
  · have hp : Plain (interface ++ "." ++ type) := plain_around hi hdot ht
    exact importsOnly_field hn hp.newline_notMem hp.importWord_notInfix
  · have hr : Plain ("." ++ interface ++ "." ++ type ++ ",") := by
      simp only [plain_append]
      exact ⟨⟨⟨⟨hdot,hi⟩,hdot⟩,ht⟩,by decide⟩
    obtain ⟨hw,hm⟩ := hs site.document hd
    have hl : Plain (name ++ ": ") := plain_append.mpr ⟨hn,by decide⟩
    have h := (importsOnly_importOf hw hr hm).append_left hl
    simpa only [Field.text, List.append_assoc] using h

section Documents

variable {s : DocumentSet} {types : TypeMap} {here : Site}

theorem enumTypeOf_importsOnly {a : Arg} {name type : Bytes} (hs : Importable targets s)
    (hh : here.InSet s) (hn : Plain name) (h : here.enumTypeOf s a = .ok type) :
    ImportsOnly targets (Field.text ⟨name,type⟩) := by
  unfold Site.enumTypeOf at h
  split at h
  · obtain ⟨r,hr,h⟩ := Except.bind_eq_ok_iff.mp h
    obtain ⟨hset,-⟩ := resolve_eq_ok hh hr
    obtain ⟨enum,he,⟨-,rfl⟩ | ⟨interface,hi,rfl⟩⟩ := typeRef_eq_ok h
    · have hp := plain_of_identifier he
      exact importsOnly_field hn hp.newline_notMem hp.importWord_notInfix
    · exact importsOnly_pathTo hs (List.mem_of_getElem? hset.1) hn (plain_of_identifier hi)
        (plain_of_identifier he)
  · cases h
    have hp : Plain [] := by decide
    exact importsOnly_field hn hp.newline_notMem hp.importWord_notInfix

theorem fields_importsOnly {a : Arg} {fields : List Field} (hs : Importable targets s)
    (hh : here.InSet s) (ht : types.ImportFree) (h : here.EmitsArg s types a fields) :
    ∀ f ∈ fields, ImportsOnly targets f.text := by
  obtain ⟨name,enumType,hn,he,rfl⟩ := h
  have hn := plain_of_identifier hn
  have htype {n : Bytes} (hp : Plain n) (kind : ArgKind) :
      ImportsOnly targets (Field.text ⟨n,types.typeOf kind⟩) :=
    importsOnly_field hp (ht kind).1 (ht kind).2
  intro f hf
  unfold TypeMap.fields at hf
  split at hf
  · cases hf
  split at hf
  · simp only [List.mem_cons, List.not_mem_nil, or_false] at hf
    rcases hf with rfl | rfl | rfl
    · exact htype (by decide) .string
    · exact htype (by decide) .uint
    · exact htype hn .newId
  split at hf
  · obtain rfl := List.mem_singleton.mp hf
    exact enumTypeOf_importsOnly hs hh hn he
  · obtain rfl := List.mem_singleton.mp hf
    exact htype hn a.kind

theorem message_importsIn {m : Message} {decl : MessageDecl} {head tail : Bytes}
    (hs : Importable targets s) (hh : here.InSet s) (ht : types.ImportFree)
    (h : here.EmitsMessage s types m decl) (hhead : Plain head) (htail : Plain tail) :
    (decl.tree head tail).ImportsIn targets := by
  obtain ⟨-,groups,hg,hf⟩ := h
  refine .block hhead htail ?_
  intro t hm
  obtain ⟨f,hmem,rfl⟩ := List.mem_map.mp hm
  rw [hf] at hmem
  obtain ⟨group,hgroup,hmem⟩ := List.mem_flatten.mp hmem
  obtain ⟨a,-,ha⟩ := hg.exists_of_mem_right hgroup
  exact .line (fields_importsOnly hs hh ht ha f hmem)

theorem plain_entryValue (v : EntryValue) : Plain v.text := by
  unfold EntryValue.text
  split
  · exact plain_append.mpr ⟨by decide,plain_of_isWord (Numeral.isWord_hex _)⟩
  · exact plain_of_isWord (Numeral.isWord_decimal _)

theorem importsOnly_widthCheck {name : Bytes} (hn : Plain name) :
    ImportsOnly targets (widthCheck name) := by
  have hw : Numeral.decimal BitLayout.recordWidth = "32" := by decide
  let front : Bytes := "if (@bitSizeOf(@This()) != " ++ "32" ++ ") @compileError(\"invalid bitfield "
  have he : widthCheck name = front ++ (name ++ "\");") := by
    rw [widthCheck, hw]
    simp only [front, List.append_assoc]
  have hr : Plain (name ++ "\");") := plain_append.mpr ⟨hn,by decide⟩
  have hf : otherBuiltins front = true := by decide +kernel
  rw [he]
  constructor
  · rw [List.mem_append, not_or]
    exact ⟨by decide +kernel,hr.newline_notMem⟩
  · rw [importTargets_append_of_otherBuiltins hf, importTargets_eq_nil hr.atSign_notMem]
    simp

theorem enum_importsIn {e : Enum} {decl : EnumDecl} (h : here.enumDecl e = .ok decl) :
    decl.tree.ImportsIn targets := by
  obtain ⟨name,hn,⟨-,layout,fields,-,hf,rfl⟩ | ⟨-,members,hm,rfl⟩⟩ := Site.enumDecl_cases h
  · have hn := plain_of_identifier hn
    refine .block (plain_around (plain_ofString (by decide +kernel)) hn
      (plain_ofString (by decide +kernel))) (by decide) ?_
    intro t ht
    rcases List.mem_append.mp ht with ht | ht
    · obtain ⟨f,hmem,rfl⟩ := List.mem_map.mp ht
      obtain ⟨g,-,hg⟩ := hf.exists_of_mem_right hmem
      refine .line (Plain.importsOnly ?_)
      cases g with
      | flag flag =>
        obtain ⟨out,ho,rfl⟩ := Except.map_eq_ok_iff.mp hg
        exact plain_append.mpr ⟨plain_of_identifier ho,by decide⟩
      | padding bits =>
        cases hg
        exact plain_around (by decide) (plain_of_isWord (Numeral.isWord_decimal _)) (by decide)
    · simp only [List.mem_cons, List.not_mem_nil, or_false] at ht
      rcases ht with rfl | rfl
      · exact .blank
      · refine .block (by decide) (by decide) ?_
        intro t ht
        obtain rfl := List.mem_singleton.mp ht
        exact .line (importsOnly_widthCheck hn)
  · have hn := plain_of_identifier hn
    refine .block (plain_around (plain_ofString (by decide +kernel)) hn
      (plain_ofString (by decide +kernel))) (by decide) ?_
    intro t ht
    obtain ⟨m,hmem,rfl⟩ := List.mem_map.mp ht
    obtain ⟨entry,-,he⟩ := hm.exists_of_mem_right hmem
    obtain ⟨out,ho,he⟩ := Except.bind_eq_ok_iff.mp he
    have hm : m.name = out := by
      split at he
      · cases he
      · cases he
        rfl
    have hp : Plain m.name := hm ▸ plain_of_identifier ho
    refine .line (Plain.importsOnly ?_)
    simp only [EnumMember.text, plain_append]
    exact ⟨⟨⟨hp,by decide⟩,plain_entryValue m.value⟩,by decide⟩

/-- The struct of an interface imports only what its messages refer to. -/
theorem interface_importsIn {decl : InterfaceDecl} (hs : Importable targets s) (hh : here.InSet s)
    (ht : types.ImportFree) (h : here.EmitsInterface s types decl) :
    decl.tree.ImportsIn targets := by
  have hopen : Plain "pub const " := by decide
  have hsemi : Plain ";" := by decide
  have htag {messages : List Message} {decls : List MessageDecl} {head : Bytes} (hp : Plain head)
      (hm : List.Forall₂ (here.EmitsMessage s types) messages decls) :
      (tagsTree head decls).ImportsIn targets := by
    refine .block hp hsemi ?_
    intro t ht
    obtain ⟨d,hd,rfl⟩ := List.mem_map.mp ht
    obtain ⟨m,-,hm⟩ := hm.exists_of_mem_right hd
    exact .line (Plain.importsOnly (plain_append.mpr ⟨plain_of_identifier hm.1,by decide⟩))
  have hrq : (requestsTree decl.requests).ImportsIn targets := by
    refine .block (plain_ofString (by decide +kernel)) hsemi ?_
    intro t hm
    obtain ⟨d,hd,rfl⟩ := List.mem_map.mp hm
    obtain ⟨m,-,hm⟩ := h.requests.exists_of_mem_right hd
    have hn := plain_of_identifier hm.1
    exact message_importsIn hs hh ht hm (plain_append.mpr ⟨hn,by decide⟩) (by decide)
  have hev : (eventsTree decl.events).ImportsIn targets := by
    refine .block (plain_ofString (by decide +kernel)) hsemi ?_
    intro t hm
    obtain ⟨d,hd,rfl⟩ := List.mem_map.mp hm
    obtain ⟨m,-,hm⟩ := h.events.exists_of_mem_right hd
    have hn := plain_of_identifier hm.1
    exact message_importsIn hs hh ht hm (plain_around hopen hn (by decide)) hsemi
  refine .block (plain_around hopen (plain_of_identifier h.name) (by decide)) hsemi ?_
  intro t hm
  simp only [List.mem_append, List.mem_cons, List.not_mem_nil, or_false] at hm
  rcases hm with (rfl | rfl | rfl | rfl | rfl | rfl | rfl) | hm
  · exact htag (plain_ofString (by decide +kernel)) h.requests
  · exact .blank
  · exact htag (plain_ofString (by decide +kernel)) h.events
  · exact .blank
  · exact hrq
  · exact .blank
  · exact hev
  · obtain ⟨d,hd,hm⟩ := List.mem_flatMap.mp hm
    obtain ⟨e,-,he⟩ := h.enums.exists_of_mem_right hd
    simp only [List.mem_cons, List.not_mem_nil, or_false] at hm
    rcases hm with rfl | rfl
    · exact .blank
    · exact enum_importsIn he

/-- The lines of a notice are comments, or empty. -/
theorem mem_noticeLines {text line : Bytes} (h : line ∈ noticeLines text) :
    Ascii.newline ∉ line ∧ (line = [] ∨ line.startsWith "//" = true) := by
  simp only [noticeLines] at h
  split at h
  · cases h
  obtain ⟨part,hp,rfl⟩ := List.mem_map.mp h
  have hn : Ascii.newline ∉ Space.trim part := fun hm =>
    Bytes.notMem_of_mem_splitOn hp (Space.mem_of_mem_trim hm)
  split
  · exact ⟨List.not_mem_nil,.inl rfl⟩
  · refine ⟨?_,.inr rfl⟩
    rw [List.mem_append, not_or]
    exact ⟨by decide,hn⟩

/-- A document unit imports the types unit and other documents, its notice apart. -/
theorem document_codeLines {settings : Settings} {documentIndex : Nat} {d : Document} {u : UnitDecl}
    (hs : Importable targets s) (ht : types.ImportFree)
    (hd : s.documents[documentIndex]? = some d)
    (hw : ∀ b ∈ settings.typesUnit, Ascii.isWord b = true)
    (hm : unitPath settings.typesUnit ∈ targets)
    (h : EmitsUnit s settings types documentIndex d u) (indent : Nat) :
    ∀ line ∈ codeLines (SourceTree.text indent u.trees), ImportsOnly targets line := by
  have htypes : ImportsOnly targets ("const types = " ++ importOf u.typesUnit ++ ";") := by
    rw [h.typesUnit, List.append_assoc]
    exact (importsOnly_importOf hw (by decide) hm).append_left (by decide)
  have hinterfaces : ∀ i ∈ u.interfaces, i.tree.ImportsIn targets := by
    intro i hi
    obtain ⟨here,hmem,he⟩ := h.interfaces.exists_of_mem_right hi
    exact interface_importsIn hs (inSet_of_mem_sites hd hmem) ht he
  refine codeLines_importsOnly ?_
  intro line hl
  rw [SourceTree.allLines_eq_flatMap] at hl
  obtain ⟨t,hmem,hl⟩ := List.mem_flatMap.mp hl
  have hcode (ht : t.ImportsIn targets) : Ascii.newline ∉ line ∧
      (line.startsWith "//" = true ∨ ImportsOnly targets line) := by
    have hi := ht.lines indent 0 line hl
    exact ⟨hi.oneLine,.inr hi⟩
  obtain rfl | ⟨notice,hn,rfl⟩ | rfl | ⟨i,hi,rfl⟩ := UnitDecl.mem_trees hmem
  · exact hcode .blank
  · have hline : line = notice := by simpa [SourceTree.lines, SourceTree.pad, Bytes.spaces] using hl
    rw [h.notice, ← hline] at hn
    obtain ⟨hnl,rfl | hc⟩ := mem_noticeLines hn
    · exact ⟨hnl,.inr (Plain.importsOnly (by decide))⟩
    · exact ⟨hnl,.inl hc⟩
  · exact hcode (.line htypes)
  · exact hcode (hinterfaces i hi)

end Documents

section Index

variable {s : DocumentSet} {settings : Settings} {parts : List (IndexImport × List IndexEntry)}
  {i : IndexDecl}

/-- A document that the index can import has a name made of word bytes. -/
theorem EmitsIndex.isWord_name (h : EmitsIndex s settings parts i) {d : Document}
    (hd : d ∈ s.documents) : ∀ b ∈ d.name, Ascii.isWord b = true := by
  obtain ⟨part,-,hp⟩ := h.documents.exists_of_mem_left hd
  intro b hb
  exact Naming.isWord_of_identifier hp.name hb

theorem EmitsIndex.plain_entry (h : EmitsIndex s settings parts i) {e : IndexEntry}
    (he : e ∈ i.entries) : Plain e.member ∧ Plain e.path := by
  rw [h.entries] at he
  obtain ⟨part,hp,he⟩ := List.mem_flatMap.mp he
  obtain ⟨d,-,hpart⟩ := h.documents.exists_of_mem_right hp
  obtain ⟨interface,-,hm,decl,hd,hpath⟩ := hpart.entries.exists_of_mem_right he
  refine ⟨plain_of_identifier hm,?_⟩
  rw [hpath]
  exact plain_around (plain_of_identifier hpart.name) (by decide) (plain_of_identifier hd)

theorem EmitsIndex.importLine_importsOnly (h : EmitsIndex s settings parts i)
    (hs : Importable targets s) {u : IndexImport} (hu : u ∈ i.imports) :
    ImportsOnly targets (IndexDecl.importLine u) := by
  rw [h.imports] at hu
  obtain ⟨part,hp,rfl⟩ := List.mem_map.mp hu
  obtain ⟨d,hd,hpart⟩ := h.documents.exists_of_mem_right hp
  obtain ⟨hw,hm⟩ := hs d hd
  have hf : Plain ("pub const " ++ part.1.name ++ " = ") :=
    plain_around (by decide) (plain_of_identifier hpart.name) (by decide)
  rw [IndexDecl.importLine, hpart.unit, List.append_assoc]
  exact (importsOnly_importOf hw (by decide) hm).append_left hf

theorem tableTree_importsIn {head invalid tail : Bytes} {row : IndexEntry → Bytes}
    (hh : Plain head) (hi : Plain invalid) (ht : Plain tail) (hr : ∀ e ∈ i.entries, Plain (row e)) :
    (i.tableTree head invalid row tail).ImportsIn targets := by
  refine .block hh ht ?_
  intro t hm
  rcases List.mem_cons.mp hm with rfl | hm
  · exact .line hi.importsOnly
  · obtain ⟨e,he,rfl⟩ := List.mem_map.mp hm
    exact .line (hr e he).importsOnly

theorem plain_handlerType {events : Bytes} (h : Plain events) : Plain (handlerType events) := by
  simp only [handlerType, plain_append]
  have hfirst : Plain "std.EnumArray(" := plain_ofString (by decide +kernel)
  have hmiddle : Plain ", ?struct \x7b context: *anyopaque, call: *const fn (*anyopaque, u32, " :=
    plain_ofString (by decide +kernel)
  have hlast : Plain ", []const u8) void \x7d)" := plain_ofString (by decide +kernel)
  exact ⟨⟨⟨⟨hfirst,h⟩,hmiddle⟩,h⟩,hlast⟩

/-- The index imports the documents of the set and the types unit. -/
theorem indexTrees_importsIn (hs : Importable targets s) (hstd : ("std" : Bytes) ∈ targets)
    (hw : ∀ b ∈ settings.typesUnit, Ascii.isWord b = true)
    (hm : unitPath settings.typesUnit ∈ targets) (h : EmitsIndex s settings parts i) :
    ∀ t ∈ i.trees, t.ImportsIn targets := by
  have hrow {e : IndexEntry} (he : e ∈ i.entries) := h.plain_entry he
  have hstdLine : ImportsOnly targets "const std = @import(\"std\");" := by
    have ht : importTargets "const std = @import(\"std\");" = ["std"] := by decide +kernel
    refine ⟨by decide +kernel,?_⟩
    rw [ht]
    simpa using hstd
  have htypes : ImportsOnly targets ("pub const types = " ++ importOf i.typesUnit ++ ";") := by
    rw [h.typesUnit, List.append_assoc]
    exact (importsOnly_importOf hw (by decide) hm).append_left (by decide)
  have hinterface : i.interfaceTree.ImportsIn targets := by
    refine tableTree_importsIn (plain_ofString (by decide +kernel)) (by decide +kernel)
      (by decide) fun e he => ?_
    exact plain_append.mpr ⟨(hrow he).1,by decide⟩
  have hmap : i.mapTree.ImportsIn targets := by
    refine tableTree_importsIn (plain_ofString (by decide +kernel)) (by decide +kernel)
      (by decide) fun e he => ?_
    simp only [plain_append]
    exact ⟨⟨⟨⟨by decide,(hrow he).1⟩,by decide⟩,(hrow he).2⟩,by decide⟩
  have hhandler {member events : Bytes} (hm : Plain member) (he : Plain events) :
      Plain (member ++ ": " ++ handlerType events ++ ",") := by
    simp only [plain_append]
    exact ⟨⟨⟨hm,by decide⟩,plain_handlerType he⟩,by decide⟩
  have hevents : i.eventsTree.ImportsIn targets := by
    refine tableTree_importsIn (plain_ofString (by decide +kernel))
      (hhandler (by decide) (by decide)) (by decide) ?_
    intro e he
    exact hhandler (hrow he).1 (plain_append.mpr ⟨(hrow he).2,by decide⟩)
  have hrequests : i.requestsTree.ImportsIn targets := by
    refine tableTree_importsIn (plain_ofString (by decide +kernel)) (by decide +kernel)
      (by decide) fun e he => ?_
    simp only [plain_append]
    exact ⟨⟨⟨(hrow he).1,by decide⟩,(hrow he).2⟩,by decide⟩
  intro t ht
  rcases IndexDecl.mem_trees ht with rfl | ht | ht
  · exact .blank
  · obtain rfl | rfl | ⟨u,hu,rfl⟩ | rfl := IndexDecl.mem_importTrees ht
    · exact .blank
    · exact .line hstdLine
    · exact .line (h.importLine_importsOnly hs hu)
    · exact .line htypes
  · simp only [List.mem_cons, List.not_mem_nil, or_false] at ht
    rcases ht with rfl | rfl | rfl | rfl
    · exact hinterface
    · exact hmap
    · exact hevents
    · exact hrequests

end Index

end WaylandZig.Zig
