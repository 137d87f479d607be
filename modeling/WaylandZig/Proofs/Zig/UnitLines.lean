import WaylandZig.Proofs.Zig.Bitfield
import WaylandZig.Proofs.Zig.Emission
import WaylandZig.Proofs.Zig.Templates
import WaylandZig.Proofs.Zig.UnitImports

/-! # What the lines of the units hold

Every string of a document reaches its unit through the naming, which lets identifiers pass and
nothing else, or as a comment. A document name stands in the imports of other units without being
made an identifier there; the index, which is compiled with them, refuses a name that is no word. So
each line of code comes from a template, whatever the documents hold.
-/
namespace WaylandZig.Zig

open Schema
open SourceTree (FromTemplates)

variable {mappings : TypeMappings}

/-- The type of every kind that a field can have is a default or a configured one. -/
def TypeMap.Configured (types : TypeMap) (mappings : TypeMappings) : Prop :=
  ∀ kind ∈ ArgKind.all, kind ≠ .fd → Piece.type.Admits mappings (types.typeOf kind)

theorem ofMappings_configured {types : TypeMap} (h : TypeMap.ofMappings mappings = .ok types) :
    types.Configured mappings := by
  intro kind hk hfd
  rcases typeOf_cases h kind with ht | ht
  · exact .inr (.inl ⟨kind,hk,hfd,ht⟩)
  · exact .inr (.inr ht)

/-- Every argument is of a kind that the schema names. -/
def KnownKinds (s : DocumentSet) : Prop :=
  ∀ d ∈ s.documents, ∀ i ∈ d.interfaces, ∀ m ∈ i.requests ++ i.events, ∀ a ∈ m.args,
    a.kind ∈ ArgKind.all

instance (s : DocumentSet) : Decidable (KnownKinds s) :=
  inferInstanceAs (Decidable (∀ d ∈ s.documents, ∀ i ∈ d.interfaces, ∀ m ∈ i.requests ++ i.events,
    ∀ a ∈ m.args, a.kind ∈ ArgKind.all))

/-- The name of every document is made of word bytes. -/
def WordNames (s : DocumentSet) : Prop :=
  ∀ d ∈ s.documents, ∀ b ∈ d.name, Ascii.isWord b = true

theorem Naming.isIdentifier_of_identifier {n : Naming} {name out : Bytes}
    (h : n.identifier name = .ok out) : isIdentifier out = true :=
  (identifier_eq_ok_iff.mp h).2

/-- The head of a declaration is a name between fixed texts. -/
theorem fills_around {lead follow : String} {name : Bytes} (hn : isIdentifier name = true) :
    Fills mappings [lead,.identifier,follow] (lead ++ name ++ follow) :=
  ⟨[Bytes.ofString lead,name,follow],.cons rfl (.cons hn (.cons rfl .nil)),by simp⟩

theorem fills_import (lead : String) {unit : Bytes} (hu : ∀ b ∈ unit, Ascii.isWord b = true) :
    Fills mappings [.fixed (lead ++ "@import(\""),.unit,".zig\");"] (lead ++ importOf unit ++ ";") := by
  have he : Bytes.ofString ".zig\");" = ".zig\")" ++ ";" := Bytes.ofString_append ".zig\")" ";"
  refine ⟨[Bytes.ofString (lead ++ "@import(\""),unit,".zig\");"],
    .cons rfl (.cons hu (.cons rfl .nil)),?_⟩
  simp [importOf, he, Bytes.ofString_append]

/-- The names that units declare by themselves. -/
theorem isIdentifier_ownNames : isIdentifier "interface" = true ∧ isIdentifier "version" = true ∧
    isIdentifier invalidMember = true := by
  have hs : Bytes.ofString = fun s => s.toByteArray.data.toList := funext Bytes.ofString_eq_data
  simp only [isIdentifier, isReserved, reservedWords, keywords, primitiveTypes, fixedNames,
    invalidMember, hs]
  decide +kernel

section Documents

variable {s : DocumentSet} {types : TypeMap} {here : Site}

theorem isPath_pathTo {site : Site} {interface name : Bytes}
    (hs : ∀ b ∈ site.document.name, Ascii.isWord b = true) (hi : isIdentifier interface = true)
    (hn : isIdentifier name = true) : IsPath (here.pathTo site interface name) := by
  unfold Site.pathTo
  split
  · exact .name hn
  split
  · exact .member (.name hi) hn
  · have he : importOf site.document.name ++ "." ++ interface =
        "@import(\"" ++ site.document.name ++ ".zig\")." ++ interface := by
      have hd : Bytes.ofString ".zig\")." = ".zig\")" ++ "." := Bytes.ofString_append ".zig\")" "."
      simp only [importOf, hd, List.append_assoc]
    rw [he]
    exact .member (.imported hs hi) hn

/-- A type that a reference gives is a path to it. -/
theorem isPath_enumTypeOf {a : Arg} {type : Bytes} (hs : WordNames s) (hh : here.InSet s)
    (h : here.enumTypeOf s a = .ok type) (ht : type ≠ []) : IsPath type := by
  unfold Site.enumTypeOf at h
  split at h
  · obtain ⟨r,hr,h⟩ := Except.bind_eq_ok_iff.mp h
    obtain ⟨hset,-⟩ := resolve_eq_ok hh hr
    obtain ⟨enum,he,⟨-,rfl⟩ | ⟨interface,hi,rfl⟩⟩ := typeRef_eq_ok h
    · exact .name (Naming.isIdentifier_of_identifier he)
    · exact isPath_pathTo (hs _ (List.mem_of_getElem? hset.1))
        (Naming.isIdentifier_of_identifier hi) (Naming.isIdentifier_of_identifier he)
  · cases h
    exact absurd rfl ht

theorem templated_field {name type : Bytes} (hn : isIdentifier name = true)
    (ht : Piece.type.Admits mappings type) : Templated mappings (Field.text ⟨name,type⟩) :=
  ⟨.row .field,[name,": ",type,","],.cons hn (.cons rfl (.cons ht (.cons rfl .nil))),
    by simp [Field.text]⟩

theorem fields_templated {a : Arg} {fields : List Field} (hs : WordNames s) (hh : here.InSet s)
    (ht : types.Configured mappings) (hk : a.kind ∈ ArgKind.all)
    (h : here.EmitsArg s types a fields) : ∀ f ∈ fields, Templated mappings f.text := by
  obtain ⟨name,enumType,hn,he,rfl⟩ := h
  have hn := Naming.isIdentifier_of_identifier hn
  intro f hf
  unfold TypeMap.fields at hf
  split at hf
  · cases hf
  rename_i hfd
  split at hf
  · simp only [List.mem_cons, List.not_mem_nil, or_false] at hf
    rcases hf with rfl | rfl | rfl
    · exact templated_field isIdentifier_ownNames.1 (ht .string (by decide) (by decide))
    · exact templated_field isIdentifier_ownNames.2.1 (ht .uint (by decide) (by decide))
    · exact templated_field hn (ht .newId (by decide) (by decide))
  split at hf
  · rename_i hne
    obtain rfl := List.mem_singleton.mp hf
    exact templated_field hn (.inl (isPath_enumTypeOf hs hh he hne))
  · obtain rfl := List.mem_singleton.mp hf
    exact templated_field hn (ht a.kind hk hfd)

theorem message_fromTemplates {m : Message} {decl : MessageDecl} {head : Bytes} {b : Block}
    (hs : WordNames s) (hh : here.InSet s) (ht : types.Configured mappings)
    (hk : ∀ a ∈ m.args, a.kind ∈ ArgKind.all) (h : here.EmitsMessage s types m decl)
    (hhead : Fills mappings b.head head) (hb : b.folds = true) :
    (decl.tree head b.tail).FromTemplates mappings := by
  obtain ⟨-,groups,hg,hf⟩ := h
  refine .block b hhead (fun _ => hb) ?_
  intro t hm
  obtain ⟨f,hmem,rfl⟩ := List.mem_map.mp hm
  rw [hf] at hmem
  obtain ⟨group,hgroup,hmem⟩ := List.mem_flatten.mp hmem
  obtain ⟨a,ha,hemit⟩ := hg.exists_of_mem_right hgroup
  exact .line (fields_templated hs hh ht (hk a ha) hemit f hmem)

theorem admits_entryValue {v : EntryValue} (hv : v.number ≤ maxEnumValue) :
    Piece.value.Admits mappings v.text := by
  refine ⟨v.number.toNat,UInt64.le_iff_toNat_le.mp hv,?_⟩
  unfold EntryValue.text
  split
  · exact .inr ⟨_,rfl,Numeral.nat?_hex _⟩
  · exact .inl (Numeral.nat?_decimal _)

theorem member_templated {naming : Naming} {entry : Entry} {m : EnumMember}
    (h : Site.enumMember naming entry = .ok m) : Templated mappings m.text := by
  obtain ⟨name,hn,h⟩ := Except.bind_eq_ok_iff.mp h
  split at h
  · cases h
  rename_i hv
  cases h
  have hvalue : Piece.value.Admits mappings (EntryValue.text ⟨entry.value,entry.hex⟩) :=
    admits_entryValue (UInt64.not_lt.mp hv)
  exact ⟨.row .member,[name," = ",_,","],.cons (Naming.isIdentifier_of_identifier hn)
    (.cons rfl (.cons hvalue (.cons rfl .nil))),by simp [EnumMember.text]⟩

/-- A flag takes the name of its entry, and the width of a gap comes from the layout. -/
theorem bitField_templated {naming : Naming} {entries : List Entry} {layout : List BitField}
    (hl : BitLayout.layout entries = .ok layout) {f g : BitField} (hf : f ∈ layout)
    (h : Site.bitFieldDecl naming f = .ok g) : Templated mappings g.text := by
  cases f with
  | flag flag =>
    obtain ⟨name,hn,rfl⟩ := Except.map_eq_ok_iff.mp h
    exact ⟨.row .flag,[name,": bool,"],
      .cons (Naming.isIdentifier_of_identifier hn) (.cons rfl .nil),by simp [BitField.text]⟩
  | padding bits =>
    cases h
    have hw : 1 ≤ bits ∧ bits ≤ 32 := BitLayout.bits_of_mem_layout hl hf
    exact ⟨.row .padding,["_: u",Numeral.decimal bits,","],
      .cons rfl (.cons ⟨bits,Numeral.nat?_decimal bits,hw⟩ (.cons rfl .nil)),
      by simp [BitField.text]⟩

theorem widthCheck_templated {name : Bytes} (hn : isIdentifier name = true) :
    Templated mappings (widthCheck name) := by
  have hw : Numeral.decimal BitLayout.recordWidth = "32" := by decide
  refine ⟨.row .widthCheck,?_⟩
  rw [widthCheck, hw, ← Bytes.ofString_append, ← Bytes.ofString_append]
  exact fills_around hn

theorem enum_fromTemplates {e : Enum} {decl : EnumDecl} (h : here.enumDecl e = .ok decl) :
    decl.tree.FromTemplates mappings := by
  obtain ⟨name,hn,⟨-,layout,fields,hl,hf,rfl⟩ | ⟨-,members,hm,rfl⟩⟩ := Site.enumDecl_cases h
  · have hn := Naming.isIdentifier_of_identifier hn
    refine .block .bitfield (fills_around hn) (fun he => ?_) ?_
    · simp at he
    intro t ht
    rcases List.mem_append.mp ht with ht | ht
    · obtain ⟨g,hmem,rfl⟩ := List.mem_map.mp ht
      obtain ⟨f,hf,hg⟩ := hf.exists_of_mem_right hmem
      exact .line (bitField_templated hl hf hg)
    · simp only [List.mem_cons, List.not_mem_nil, or_false] at ht
      rcases ht with rfl | rfl
      · exact .blank
      · refine .block .comptime (fills_fixed mappings _) nofun ?_
        intro t ht
        obtain rfl := List.mem_singleton.mp ht
        exact .line (widthCheck_templated hn)
  · refine .block .enum (fills_around (Naming.isIdentifier_of_identifier hn)) (fun _ => rfl) ?_
    intro t ht
    obtain ⟨m,hmem,rfl⟩ := List.mem_map.mp ht
    obtain ⟨entry,-,he⟩ := hm.exists_of_mem_right hmem
    exact .line (member_templated he)

theorem tags_fromTemplates {messages : List Message} {decls : List MessageDecl} {head : Bytes}
    {b : Block} (hhead : Fills mappings b.head head) (hb : b.folds = true) (ht : b.tail = ";")
    (h : List.Forall₂ (here.EmitsMessage s types) messages decls) :
    (tagsTree head decls).FromTemplates mappings := by
  rw [tagsTree, ← ht]
  refine .block b hhead (fun _ => hb) ?_
  intro t ht
  obtain ⟨d,hd,rfl⟩ := List.mem_map.mp ht
  obtain ⟨m,-,hm⟩ := h.exists_of_mem_right hd
  exact .line ⟨.row .tag,[d.name,","],
    .cons (Naming.isIdentifier_of_identifier hm.1) (.cons rfl .nil),by simp⟩

/-- The struct of an interface comes from templates. -/
theorem interface_fromTemplates {decl : InterfaceDecl} (hs : WordNames s) (hh : here.InSet s)
    (ht : types.Configured mappings) (hk : KnownKinds s) (h : here.EmitsInterface s types decl) :
    decl.tree.FromTemplates mappings := by
  have hkinds : ∀ m ∈ here.interface.requests ++ here.interface.events, ∀ a ∈ m.args,
      a.kind ∈ ArgKind.all :=
    hk _ (List.mem_of_getElem? hh.1) _ (List.mem_of_getElem? hh.2)
  have hrq : (requestsTree decl.requests).FromTemplates mappings := by
    refine .block .requests (fills_fixed mappings _) (fun _ => rfl) ?_
    intro t hm
    obtain ⟨d,hd,rfl⟩ := List.mem_map.mp hm
    obtain ⟨m,hmem,hm⟩ := h.requests.exists_of_mem_right hd
    have hhead : Fills mappings Block.request.head (d.name ++ ": struct \x7b") :=
      ⟨[d.name,": struct \x7b"],
        .cons (Naming.isIdentifier_of_identifier hm.1) (.cons rfl .nil),by simp⟩
    exact message_fromTemplates (b := .request) hs hh ht (hkinds m (List.mem_append_left _ hmem)) hm
      hhead rfl
  have hev : (eventsTree decl.events).FromTemplates mappings := by
    refine .block .events (fills_fixed mappings _) (fun _ => rfl) ?_
    intro t hm
    obtain ⟨d,hd,rfl⟩ := List.mem_map.mp hm
    obtain ⟨m,hmem,hm⟩ := h.events.exists_of_mem_right hd
    have hhead : Fills mappings Block.struct.head ("pub const " ++ d.name ++ " = struct \x7b") :=
      fills_around (Naming.isIdentifier_of_identifier hm.1)
    exact message_fromTemplates (b := .struct) hs hh ht (hkinds m (List.mem_append_right _ hmem)) hm
      hhead rfl
  refine .block .struct (fills_around (Naming.isIdentifier_of_identifier h.name)) (fun _ => rfl) ?_
  intro t hm
  simp only [List.mem_append, List.mem_cons, List.not_mem_nil, or_false] at hm
  rcases hm with (rfl | rfl | rfl | rfl | rfl | rfl | rfl) | hm
  · exact tags_fromTemplates (b := .requestTags) (fills_fixed mappings _) rfl rfl h.requests
  · exact .blank
  · exact tags_fromTemplates (b := .eventTags) (fills_fixed mappings _) rfl rfl h.events
  · exact .blank
  · exact hrq
  · exact .blank
  · exact hev
  · obtain ⟨d,hd,hm⟩ := List.mem_flatMap.mp hm
    obtain ⟨e,-,he⟩ := h.enums.exists_of_mem_right hd
    simp only [List.mem_cons, List.not_mem_nil, or_false] at hm
    rcases hm with rfl | rfl
    · exact .blank
    · exact enum_fromTemplates he

/-- The lines of a document unit come from templates, those of its notice apart. -/
theorem document_unitLines {settings : Settings} {documentIndex : Nat} {d : Document} {u : UnitDecl}
    (hm : ∀ p ∈ mappings, Ascii.newline ∉ p.2) (hs : WordNames s) (ht : types.Configured mappings)
    (hk : KnownKinds s) (hd : s.documents[documentIndex]? = some d)
    (hw : ∀ b ∈ settings.typesUnit, Ascii.isWord b = true)
    (h : EmitsUnit s settings types documentIndex d u) (indent : Nat) :
    ∀ line ∈ SourceTree.allLines indent 0 u.trees,
      Ascii.newline ∉ line ∧ UnitLine mappings indent line := by
  intro line hl
  rw [SourceTree.allLines_eq_flatMap] at hl
  obtain ⟨t,hmem,hl⟩ := List.mem_flatMap.mp hl
  obtain rfl | ⟨notice,hn,rfl⟩ | rfl | ⟨i,hi,rfl⟩ := UnitDecl.mem_trees hmem
  · exact FromTemplates.blank.unitLines hm indent 0 line hl
  · have hline : line = notice := by simpa [SourceTree.lines, SourceTree.pad, Bytes.spaces] using hl
    rw [h.notice, ← hline] at hn
    obtain ⟨hnl,he | hc⟩ := mem_noticeLines hn
    · exact ⟨hnl,.inl he⟩
    · exact ⟨hnl,.inr (.inl hc)⟩
  · rw [h.typesUnit] at hl
    have hline : Templated mappings ("const types = " ++ importOf settings.typesUnit ++ ";") :=
      ⟨.row .typesImport,fills_import "const types = " hw⟩
    exact (FromTemplates.line hline).unitLines hm indent 0 line hl
  · obtain ⟨here,hsite,he⟩ := h.interfaces.exists_of_mem_right hi
    exact (interface_fromTemplates hs (inSet_of_mem_sites hd hsite) ht hk he).unitLines hm indent 0
      line hl

end Documents

section Index

variable {s : DocumentSet} {settings : Settings} {parts : List (IndexImport × List IndexEntry)}
  {i : IndexDecl}

theorem EmitsIndex.isPath_entry (h : EmitsIndex s settings parts i) {e : IndexEntry}
    (he : e ∈ i.entries) : isIdentifier e.member = true ∧ IsPath e.path := by
  rw [h.entries] at he
  obtain ⟨part,hp,he⟩ := List.mem_flatMap.mp he
  obtain ⟨d,-,hpart⟩ := h.documents.exists_of_mem_right hp
  obtain ⟨interface,-,hm,decl,hd,hpath⟩ := hpart.entries.exists_of_mem_right he
  refine ⟨Naming.isIdentifier_of_identifier hm,?_⟩
  rw [hpath]
  exact .member (.name (Naming.isIdentifier_of_identifier hpart.name))
    (Naming.isIdentifier_of_identifier hd)

theorem EmitsIndex.importLine_templated (h : EmitsIndex s settings parts i) {u : IndexImport}
    (hu : u ∈ i.imports) : Templated mappings (IndexDecl.importLine u) := by
  rw [h.imports] at hu
  obtain ⟨part,hp,rfl⟩ := List.mem_map.mp hu
  obtain ⟨d,hd,hpart⟩ := h.documents.exists_of_mem_right hp
  have hname : Fills mappings ["pub const ",.identifier] ("pub const " ++ part.1.name) :=
    ⟨["pub const ",part.1.name],
      .cons rfl (.cons (Naming.isIdentifier_of_identifier hpart.name) .nil),by simp⟩
  have himport : Fills mappings _ (" = " ++ importOf d.name ++ ";") :=
    fills_import " = " (h.isWord_name hd)
  have he : IndexDecl.importLine part.1 =
      "pub const " ++ part.1.name ++ (" = " ++ importOf d.name ++ ";") := by
    simp only [IndexDecl.importLine, hpart.unit, List.append_assoc]
  rw [he]
  exact ⟨.row .documentImport,hname.append himport⟩

theorem table_fromTemplates {b : Block} {head invalid : Bytes} {row : IndexEntry → Bytes}
    (hh : Fills mappings b.head head) (hi : Templated mappings invalid)
    (hr : ∀ e ∈ i.entries, Templated mappings (row e)) :
    (i.tableTree head invalid row b.tail).FromTemplates mappings := by
  refine .block b hh nofun ?_
  intro t hm
  rcases List.mem_cons.mp hm with rfl | hm
  · exact .line hi
  · obtain ⟨e,he,rfl⟩ := List.mem_map.mp hm
    exact .line (hr e he)

theorem handlers_templated {member path : Bytes} (hm : isIdentifier member = true)
    (hp : IsPath path) :
    Templated mappings (member ++ ": " ++ handlerType (path ++ ".event") ++ ",") := by
  have hopen : Bytes.ofString ": std.EnumArray(" = ": " ++ "std.EnumArray(" :=
    Bytes.ofString_append ": " "std.EnumArray("
  have hclose : Bytes.ofString ".event, []const u8) void \x7d)," =
      ".event" ++ ", []const u8) void \x7d)" ++ "," := by
    rw [← Bytes.ofString_append, ← Bytes.ofString_append]
    rfl
  refine ⟨.row .handlers,[member,": std.EnumArray(",path,".event",handlerStruct,path,
    ".event, []const u8) void \x7d),"],.cons hm (.cons rfl (.cons hp (.cons rfl (.cons rfl (.cons hp
    (.cons rfl .nil)))))),?_⟩
  rw [hopen, hclose]
  simp [handlerType, handlerStruct]

theorem noHandlers_templated :
    Templated mappings (invalidMember ++ ": " ++ handlerType "enum \x7b\x7d" ++ ",") := by
  have hopen : Bytes.ofString "invalid: std.EnumArray(enum \x7b\x7d" =
      invalidMember ++ ": " ++ "std.EnumArray(" ++ "enum \x7b\x7d" := by
    rw [invalidMember, ← Bytes.ofString_append, ← Bytes.ofString_append, ← Bytes.ofString_append]
    rfl
  have hclose : Bytes.ofString "enum \x7b\x7d, []const u8) void \x7d)," =
      "enum \x7b\x7d" ++ ", []const u8) void \x7d)" ++ "," := by
    rw [← Bytes.ofString_append, ← Bytes.ofString_append]
    rfl
  refine ⟨.row .noHandlers,["invalid: std.EnumArray(enum \x7b\x7d",handlerStruct,
    "enum \x7b\x7d, []const u8) void \x7d),"],.cons rfl (.cons rfl (.cons rfl .nil)),?_⟩
  rw [hopen, hclose]
  simp [handlerType, handlerStruct]

/-- Every line of the index comes from a template. -/
theorem index_fromTemplates (hw : ∀ b ∈ settings.typesUnit, Ascii.isWord b = true)
    (h : EmitsIndex s settings parts i) : ∀ t ∈ i.trees, t.FromTemplates mappings := by
  have hentry {e : IndexEntry} (he : e ∈ i.entries) := h.isPath_entry he
  have htag {name : Bytes} (hn : isIdentifier name = true) : Templated mappings (name ++ ",") :=
    ⟨.row .tag,[name,","],.cons hn (.cons rfl .nil),by simp⟩
  intro t ht
  rcases IndexDecl.mem_trees ht with rfl | ht | ht
  · exact .blank
  · obtain rfl | rfl | ⟨u,hu,rfl⟩ | rfl := IndexDecl.mem_importTrees ht
    · exact .blank
    · exact .line (Row.standardImport.templated_fixed mappings rfl)
    · exact .line (h.importLine_templated hu)
    · rw [h.typesUnit]
      exact .line ⟨.row .indexTypesImport,fills_import "pub const types = " hw⟩
  · simp only [List.mem_cons, List.not_mem_nil, or_false] at ht
    rcases ht with rfl | rfl | rfl | rfl
    · exact table_fromTemplates (b := .interfaces) (fills_fixed mappings _)
        (htag isIdentifier_ownNames.2.2) fun e he => htag (hentry he).1
    · refine table_fromTemplates (b := .map) (fills_fixed mappings _)
        (Row.noTags.templated_fixed mappings rfl) ?_
      intro e he
      exact ⟨.row .tags,[".",e.member," = ",e.path,".event,"],.cons rfl (.cons (hentry he).1
        (.cons rfl (.cons (hentry he).2 (.cons rfl .nil)))),by simp⟩
    · exact table_fromTemplates (b := .eventTable) (fills_fixed mappings _)
        noHandlers_templated
        fun e he => handlers_templated (hentry he).1 (hentry he).2
    · refine table_fromTemplates (b := .requestTable) (fills_fixed mappings _)
        (Row.noRequests.templated_fixed mappings rfl) ?_
      intro e he
      exact ⟨.row .requests,[e.member,": ",e.path,".rq,"],.cons (hentry he).1 (.cons rfl
        (.cons (hentry he).2 (.cons rfl .nil))),by simp⟩

end Index

theorem typesUnit_unitLines (mappings : TypeMappings) (indent : Nat) :
    ∀ line ∈ typesUnit.splitOn Ascii.newline, UnitLine mappings indent line := by
  have hl : typesUnit.splitOn Ascii.newline =
      ([("pub const String = []const u8;"),"pub const Array = []const u32;",""] : List Bytes) := by
    decide +kernel
  have hcode {code : Bytes} (h : Templated mappings code) : UnitLine mappings indent code :=
    .inr (.inr ⟨0,code,by simp [Bytes.spaces],h⟩)
  intro line hm
  rw [hl] at hm
  simp only [List.mem_cons, List.not_mem_nil, or_false] at hm
  rcases hm with rfl | rfl | rfl
  · exact hcode (Row.stringType.templated_fixed mappings rfl)
  · exact hcode (Row.arrayType.templated_fixed mappings rfl)
  · exact .inl rfl

/-- Whatever the documents hold, a line of a unit is empty, a comment, or code from a template. -/
theorem generate_unitLines {σ : Type} {s : DocumentSet} {settings : Settings} {sink : Sink σ}
    {state : σ} {units : List SourceUnit} (hk : KnownKinds s)
    (hw : isWordName settings.withDefaults.typesUnit = true)
    (hm : ∀ p ∈ settings.typeMappings, Ascii.newline ∉ p.2)
    (h : (generate s settings Formatter.unchanged sink state).1 = .ok units) :
    ∀ u ∈ units, ∀ line ∈ u.content.splitOn Ascii.newline,
      UnitLine settings.typeMappings settings.withDefaults.indentSize.toNat line := by
  have hw {b : UInt8} (hb : b ∈ settings.withDefaults.typesUnit) := isWord_of_isWordName hw hb
  obtain ⟨types,documents,index,htypes,hd,hi,rfl⟩ := (compiled_of_generate h).emitted
  obtain ⟨parts,i,hindex,rfl⟩ := indexUnit_eq_ok_iff.mp hi
  intro u hu
  rcases List.mem_append.mp hu with hu | hu
  · obtain ⟨⟨d,k⟩,hz,-,hdoc⟩ := hd.exists_of_mem_right hu
    obtain ⟨decl,hdecl,ht⟩ := documentUnit_eq_ok_iff.mp hdoc
    have hlines := document_unitLines hm (fun _ hd => hindex.isWord_name hd)
      (ofMappings_configured htypes) hk (List.mem_zipIdx_iff_getElem?.mp hz) (fun _ => hw) hdecl
      settings.withDefaults.indentSize.toNat
    rw [ht]
    exact unitLine_of_mem_splitOn hlines
  · simp only [List.mem_cons, List.not_mem_nil, or_false] at hu
    rcases hu with rfl | rfl
    · exact typesUnit_unitLines _ _
    · refine unitLine_of_mem_splitOn fun line hl => ?_
      rw [SourceTree.allLines_eq_flatMap] at hl
      obtain ⟨t,ht,hl⟩ := List.mem_flatMap.mp hl
      exact (index_fromTemplates (fun _ => hw) hindex t ht).unitLines hm _ 0 line hl

/-- Names that are reserved or start with a digit, a notice that goes on behind an empty line, and a
reference into another document. -/
def unrulySet : DocumentSet :=
  { documents := [
      { name := "a"
        copyright := "*/ pub const x = 1;\n\nconst y = 2;"
        interfaces := [{
          name := "error"
          enums := [{ name := "mode", entries := [⟨"off",255,true⟩] }] }] },
      { name := "9b"
        interfaces := [{
          name := "b"
          requests := [⟨"fn",.request,[⟨"m",.uint,"error.mode",[],false⟩,⟨"o",.newId,[],[],false⟩]⟩]
          enums := [{ name := "bits", bitfield := true, entries := [⟨"on",4,false⟩] }] }] }] }

def unrulySettings : Settings := { typeMappings := [("string","[]const u8")] }

theorem unrulySet_unitLines : ∃ units,
    (generate unrulySet unrulySettings Formatter.unchanged (fun _ _ => (.ok (),·)) ()).1 =
      .ok units ∧
    ∀ u ∈ units, ∀ line ∈ u.content.splitOn Ascii.newline,
      UnitLine unrulySettings.typeMappings 4 line := by
  have hg : (generate unrulySet unrulySettings Formatter.unchanged
      (fun _ _ => (.ok (),·)) ()).1.isOk = true := by decide +kernel
  obtain ⟨units,hg⟩ := Except.exists_of_isOk hg
  exact ⟨units,hg,generate_unitLines (by decide) (by decide) (by decide) hg⟩

end WaylandZig.Zig
