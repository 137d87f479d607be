import WaylandZig.Proofs.Fallible
import WaylandZig.Proofs.Zig.SourceTree

/-! # What a document unit declares

The declarations of a document are compiled in several passes over its messages. Taken together they
declare each interface, message, argument and enum once and in order, under the name that the naming
of the document gives it.
-/
namespace WaylandZig.Zig

open Schema

namespace Site

/-- The fields that an argument contributes to its message. -/
def EmitsArg (here : Site) (s : DocumentSet) (types : TypeMap) (a : Arg) (fields : List Field) :
    Prop :=
  ∃ name enumType, here.naming.identifier a.name = .ok name ∧
    here.enumTypeOf s a = .ok enumType ∧ fields = types.fields a name enumType

/-- The fields of a message are those of its arguments in order. -/
def EmitsMessage (here : Site) (s : DocumentSet) (types : TypeMap) (m : Message)
    (decl : MessageDecl) : Prop :=
  here.naming.identifier m.name = .ok decl.name ∧
    ∃ groups, List.Forall₂ (here.EmitsArg s types) m.args groups ∧ decl.fields = groups.flatten

structure EmitsInterface (here : Site) (s : DocumentSet) (types : TypeMap) (decl : InterfaceDecl) :
    Prop where
  name : here.naming.interface here.interface.name = .ok decl.name
  requests : List.Forall₂ (here.EmitsMessage s types) here.interface.requests decl.requests
  events : List.Forall₂ (here.EmitsMessage s types) here.interface.events decl.events
  enums : List.Forall₂ (fun e d => here.enumDecl e = .ok d) here.interface.enums decl.enums

theorem place_eq_ok_iff {α : Type} {here : Site} {subject : Bytes} {x : Except Diagnostic α} {a : α} :
    here.place subject x = .ok a ↔ x = .ok a :=
  Except.mapError_eq_ok_iff

theorem argFields_eq_ok_iff {here : Site} {s : DocumentSet} {types : TypeMap} {m : Message} {a : Arg}
    {fields : List Field} :
    here.argFields s types m a = .ok fields ↔ here.EmitsArg s types a fields := by
  simp only [argFields, place_eq_ok_iff, Except.bind_eq_ok_iff, Except.pure_eq_ok_iff, EmitsArg]
  constructor
  · rintro ⟨name,hn,enumType,he,rfl⟩
    exact ⟨name,enumType,hn,he,rfl⟩
  · rintro ⟨name,enumType,hn,he,rfl⟩
    exact ⟨name,hn,enumType,he,rfl⟩

theorem messageFields_eq_ok_iff {here : Site} {s : DocumentSet} {types : TypeMap} {m : Message}
    {fields : List Field} : here.messageFields s types m = .ok fields ↔
      ∃ groups, List.Forall₂ (here.EmitsArg s types) m.args groups ∧ fields = groups.flatten := by
  simp only [messageFields, Except.bind_eq_ok_iff, Except.pure_eq_ok_iff, Except.mapM_eq_ok_iff,
    argFields_eq_ok_iff]
  constructor
  · rintro ⟨groups,hg,rfl⟩
    exact ⟨groups,hg,rfl⟩
  · rintro ⟨groups,hg,rfl⟩
    exact ⟨groups,hg,rfl⟩

/-- The names and the fields of messages, compiled in two passes, stand at the same positions. -/
theorem zip_messages_iff {here : Site} {s : DocumentSet} {types : TypeMap} {messages : List Message}
    {decls : List MessageDecl} :
    (∃ names, List.Forall₂ (fun m n => here.messageName m = .ok n) messages names ∧
      ∃ fields, List.Forall₂ (fun m f => here.messageFields s types m = .ok f) messages fields ∧
        names.zipWith MessageDecl.mk fields = decls) ↔
    List.Forall₂ (here.EmitsMessage s types) messages decls := by
  constructor
  · rintro ⟨names,hn,fields,hf,rfl⟩
    induction hn generalizing fields with
    | nil =>
      cases hf
      exact .nil
    | cons hm _ ih =>
      cases hf with
      | cons hfields hrest =>
        exact .cons ⟨place_eq_ok_iff.mp hm,messageFields_eq_ok_iff.mp hfields⟩ (ih _ hrest)
  · intro h
    induction h with
    | nil => exact ⟨[],.nil,[],.nil,rfl⟩
    | cons hm _ ih =>
      obtain ⟨names,hn,fields,hf,rfl⟩ := ih
      exact ⟨_,.cons (place_eq_ok_iff.mpr hm.1) hn,_,
        .cons (messageFields_eq_ok_iff.mpr hm.2) hf,rfl⟩

/-- The declaration of an enum is a record exactly when the enum is a bitfield. -/
theorem enumDecl_cases {here : Site} {e : Enum} {decl : EnumDecl} (h : here.enumDecl e = .ok decl) :
    ∃ name, here.naming.enumType e.name = .ok name ∧
      ((e.bitfield = true ∧ ∃ layout fields, BitLayout.layout e.entries = .ok layout ∧
        List.Forall₂ (fun f d => bitFieldDecl here.naming f = .ok d) layout fields ∧
        decl = .bitfield name fields) ∨
      (e.bitfield = false ∧ ∃ members,
        List.Forall₂ (fun entry m => enumMember here.naming entry = .ok m) e.entries members ∧
        decl = .plain name members)) := by
  obtain ⟨name,hn,h⟩ := Except.bind_eq_ok_iff.mp (place_eq_ok_iff.mp h)
  refine ⟨name,hn,?_⟩
  by_cases hb : e.bitfield = true
  · rw [if_pos hb] at h
    obtain ⟨layout,hl,h⟩ := Except.bind_eq_ok_iff.mp h
    obtain ⟨fields,hf,h⟩ := Except.bind_eq_ok_iff.mp h
    exact .inl ⟨hb,layout,fields,hl,Except.mapM_eq_ok_iff.mp hf,(Except.pure_eq_ok_iff.mp h).symm⟩
  · rw [if_neg hb] at h
    obtain ⟨members,hm,h⟩ := Except.bind_eq_ok_iff.mp h
    exact .inr ⟨by simpa using hb,members,Except.mapM_eq_ok_iff.mp hm,
      (Except.pure_eq_ok_iff.mp h).symm⟩

theorem enumType_of_enumDecl {here : Site} {e : Enum} {decl : EnumDecl}
    (h : here.enumDecl e = .ok decl) : here.naming.enumType e.name = .ok decl.name := by
  obtain ⟨name,hn,⟨-,layout,fields,-,-,rfl⟩ | ⟨-,members,-,rfl⟩⟩ := enumDecl_cases h
  · exact hn
  · exact hn

theorem interfaceDecl_eq_ok_iff {here : Site} {s : DocumentSet} {types : TypeMap}
    {decl : InterfaceDecl} :
    here.interfaceDecl s types = .ok decl ↔ here.EmitsInterface s types decl := by
  simp only [interfaceDecl, Except.bind_eq_ok_iff, Except.pure_eq_ok_iff, Except.mapM_eq_ok_iff,
    place_eq_ok_iff]
  constructor
  · rintro ⟨name,hn,requests,hr,events,he,requestFields,hrf,eventFields,hef,enums,hs,rfl⟩
    exact ⟨hn,zip_messages_iff.mp ⟨requests,hr,requestFields,hrf,rfl⟩,
      zip_messages_iff.mp ⟨events,he,eventFields,hef,rfl⟩,hs⟩
  · rintro ⟨hn,hr,he,hs⟩
    obtain ⟨requests,hr,requestFields,hrf,hrz⟩ := zip_messages_iff.mpr hr
    obtain ⟨events,he,eventFields,hef,hez⟩ := zip_messages_iff.mpr he
    exact ⟨decl.name,hn,requests,hr,events,he,requestFields,hrf,eventFields,hef,decl.enums,hs,
      by rw [hrz, hez]⟩

end Site

theorem getElem?_sites (documentIndex : Nat) (d : Document) (k : Nat) :
    (sites documentIndex d)[k]? = d.interfaces[k]?.map fun i => ⟨documentIndex,d,k,i⟩ := by
  simp [sites, List.getElem?_zipIdx, Function.comp_def]

theorem sites_interfaces (documentIndex : Nat) (d : Document) :
    List.Forall₂ (fun i here => here.document = d ∧ here.interface = i) d.interfaces
      (sites documentIndex d) := by
  refine List.forall₂_iff_get.mpr ⟨by simp [sites],?_⟩
  intro k hi hs
  simp [sites]

/-- A unit declares the interfaces of its document in order. -/
structure EmitsUnit (s : DocumentSet) (settings : Settings) (types : TypeMap) (documentIndex : Nat)
    (d : Document) (u : UnitDecl) : Prop where
  notice : u.notice = noticeLines d.copyright
  typesUnit : u.typesUnit = settings.typesUnit
  interfaces : List.Forall₂ (fun here i => Site.EmitsInterface here s types i)
    (sites documentIndex d) u.interfaces

theorem documentDecl_eq_ok_iff {s : DocumentSet} {settings : Settings} {types : TypeMap}
    {documentIndex : Nat} {d : Document} {u : UnitDecl} :
    documentDecl s settings types documentIndex d = .ok u ↔
      EmitsUnit s settings types documentIndex d u := by
  simp only [documentDecl, Except.bind_eq_ok_iff, Except.pure_eq_ok_iff, Except.mapM_eq_ok_iff,
    Site.interfaceDecl_eq_ok_iff]
  constructor
  · rintro ⟨interfaces,hi,rfl⟩
    exact ⟨rfl,rfl,hi⟩
  · rintro ⟨hn,ht,hi⟩
    exact ⟨u.interfaces,hi,by rw [← hn, ← ht]⟩

/-- A document unit is the text of the tree of its declarations. -/
theorem documentUnit_eq_ok_iff {s : DocumentSet} {settings : Settings} {types : TypeMap}
    {documentIndex : Nat} {d : Document} {text : Bytes} :
    documentUnit s settings types documentIndex d = .ok text ↔
      ∃ u, EmitsUnit s settings types documentIndex d u ∧
        text = SourceTree.text settings.indentSize.toNat u.trees := by
  simp only [documentUnit, Except.map_eq_ok_iff, documentDecl_eq_ok_iff, UnitDecl.text_eq]
  exact exists_congr fun u => and_congr_right fun _ => eq_comm

/-- The writer of a unit follows the tree of its declarations, and what it wrote is the text of that
tree: it is back at the outermost depth, and no block that it found empty took back more than its own
head line. -/
theorem documentUnit_renders_tree {s : DocumentSet} {settings : Settings} {types : TypeMap}
    {documentIndex : Nat} {d : Document} {text : Bytes}
    (h : documentUnit s settings types documentIndex d = .ok text) :
    ∃ u, EmitsUnit s settings types documentIndex d u ∧
      text = SourceTree.text settings.indentSize.toNat u.trees ∧
      Writer.Renders (fun w => u.write w) u.trees ∧
      (u.write { indent := settings.indentSize.toNat }).text = text ∧
      (u.write { indent := settings.indentSize.toNat }).depth = 0 ∧
      ∀ body trees, Writer.Renders body trees → ∀ (w : Writer) (head : Bytes),
        ((body (w.open_ head)).written.length = (w.open_ head).written.length ↔ trees = []) ∧
        (trees = [] →
          (body (w.open_ head)).truncate w.written.length = { w with depth := w.depth + 1 }) := by
  obtain ⟨u,hu,ht⟩ := documentUnit_eq_ok_iff.mp h
  have hr := u.write_renders
  refine ⟨u,hu,ht,hr,?_,?_,?_⟩
  · rw [ht, ← UnitDecl.text_eq, UnitDecl.text]
  · rw [hr.eq_put]
    rfl
  · intro body trees hb w head
    refine ⟨hb.length_eq_iff _,?_⟩
    rintro rfl
    exact hb.truncate_eq w head

/-- Empty containers in a struct, a message without fields and a bitfield. -/
def sparseDocument : Document :=
  { name := "p"
    nameSpace := "wl"
    copyright := "first\n\n second "
    interfaces := [{
      name := "wl_surface"
      requests := [⟨"destroy",.request,[]⟩]
      enums := [{ name := "mode" },
        { name := "edge", bitfield := true, entries := [⟨"top",2,true⟩] }] }] }

theorem sparseDocument_renders_tree :
    ∃ text u, documentUnit { documents := [sparseDocument] } { indentSize := 2 } {} 0 sparseDocument =
        .ok text ∧
      EmitsUnit { documents := [sparseDocument] } { indentSize := 2 } {} 0 sparseDocument u ∧
      text = SourceTree.text 2 u.trees := by
  have hok : (documentUnit { documents := [sparseDocument] } { indentSize := 2 } {} 0
      sparseDocument).isOk = true := by
    decide +kernel
  obtain ⟨text,ht⟩ := Except.exists_of_isOk hok
  obtain ⟨u,hu,htext,-⟩ := documentUnit_renders_tree ht
  exact ⟨text,u,ht,hu,htext⟩

end WaylandZig.Zig
