import WaylandZig.Loading
import WaylandZig.Proofs.Zig.Emission
import WaylandZig.Proofs.Zig.LoadOrder
import WaylandZig.Proofs.Zig.TextParts

/-! # Leaving interfaces out

Interfaces that are left out of a run are taken out of their documents when these are loaded, and
nothing else that was loaded changes. What is generated changes as little: where no interface name
occurs twice, a reference that is resolved without these interfaces is resolved to the same enum with
them, so that each unit is the unit of all interfaces without the parts of those that are left out.
-/
namespace WaylandZig

open Schema

/-- The set with the interfaces of these names taken out of their documents. -/
def Schema.DocumentSet.without (s : DocumentSet) (skip : List Bytes) : DocumentSet :=
  { s with documents := s.documents.map (Loading.withoutInterfaces · skip) }

namespace Loading

/-- A file gives the same warnings and the same document but for the interfaces left out. -/
def Projects (skip : List Bytes) (full one : Loaded) : Prop :=
  one.document? = full.document?.map (withoutInterfaces · skip) ∧ one.warnings = full.warnings

theorem withoutInterfaces_nil (d : Document) : withoutInterfaces d [] = d := by
  simp [withoutInterfaces]

theorem loadFile_skip (t : FileTree) (policy : MismatchPolicy) (skip : List Bytes) (path : Bytes) :
    (∃ fault, loadFile t policy [] path = .error fault ∧ loadFile t policy skip path = .error fault) ∨
    ∃ full one, loadFile t policy [] path = .ok full ∧ loadFile t policy skip path = .ok one ∧
      Projects skip full one := by
  unfold loadFile
  cases readDocument t path with
  | ok d =>
    refine .inr ⟨_,_,rfl,rfl,?_,rfl⟩
    simp only [accepted, withoutInterfaces_nil, Option.map_some]
  | error fault =>
    by_cases hf : fault.isNotProtocol = true ∧ policy ≠ .error
    · refine .inr ⟨_,_,if_pos hf,if_pos hf,?_,rfl⟩
      cases policy <;> rfl
    · exact .inl ⟨_,if_neg hf,if_neg hf⟩

theorem loadFiles_skip (t : FileTree) (canceled : Bool) (policy : MismatchPolicy) (skip : List Bytes)
    (paths : List Bytes) :
    (∃ fault, (loadFiles t canceled policy [] paths).1 = .error fault ∧
      (loadFiles t canceled policy skip paths).1 = .error fault) ∨
    ∃ full parts, (loadFiles t canceled policy [] paths).1 = .ok full ∧
      (loadFiles t canceled policy skip paths).1 = .ok parts ∧
      List.Forall₂ (Projects skip) full parts := by
  induction paths with
  | nil => exact .inr ⟨[],[],rfl,rfl,.nil⟩
  | cons path rest ih =>
    cases canceled with
    | true => exact .inl ⟨.canceled,rfl,rfl⟩
    | false =>
      simp only [loadFiles, Bool.false_eq_true, if_false]
      obtain ⟨fault,hf,hs⟩ | ⟨full,one,hf,hs,hp⟩ := loadFile_skip t policy skip path
      · rw [hf, hs]
        exact .inl ⟨fault,rfl,rfl⟩
      · rw [hf, hs]
        obtain ⟨fault,hfs,hss⟩ | ⟨fulls,ones,hfs,hss,hps⟩ := ih
        · exact .inl ⟨fault,by simp only [hfs]; rfl,by simp only [hss]; rfl⟩
        · exact .inr ⟨full :: fulls,one :: ones,by simp only [hfs]; rfl,by simp only [hss]; rfl,
            .cons hp hps⟩

theorem documents_of_projects {skip : List Bytes} {full parts : List Loaded}
    (h : List.Forall₂ (Projects skip) full parts) :
    parts.filterMap Loaded.document? =
      (full.filterMap Loaded.document?).map (withoutInterfaces · skip) ∧
    parts.flatMap Loaded.warnings = full.flatMap Loaded.warnings := by
  induction h with
  | nil => exact ⟨rfl,rfl⟩
  | @cons full one fulls ones hp _ ih =>
    obtain ⟨hd,hw⟩ := hp
    refine ⟨?_,by rw [List.flatMap_cons, List.flatMap_cons, hw, ih.2]⟩
    rw [List.filterMap_cons, List.filterMap_cons, hd, ih.1]
    cases full.document? <;> rfl

/-- The names that are left out take their interfaces from what is loaded and change nothing else. -/
theorem load_skip (t : FileTree) (canceled : Bool) (policy : MismatchPolicy) (skip : List Bytes)
    (paths : List Bytes) : (load t canceled policy skip paths).1 =
      (load t canceled policy [] paths).1.map (DocumentSet.without · skip) := by
  have hl (skip : List Bytes) : (load t canceled policy skip paths).1 =
      (loadFiles t canceled policy skip paths).1.map fun parts =>
        ⟨parts.filterMap Loaded.document?,parts.flatMap Loaded.warnings⟩ := rfl
  rw [hl, hl]
  obtain ⟨fault,hf,hs⟩ | ⟨full,parts,hf,hs,hp⟩ := loadFiles_skip t canceled policy skip paths
  · rw [hf, hs]
    rfl
  · obtain ⟨hd,hw⟩ := documents_of_projects hp
    rw [hf, hs]
    simp only [Except.map, DocumentSet.without, hd, hw]

end Loading

namespace Schema

theorem interfaceNames_withoutInterfaces (d : Document) (skip : List Bytes) :
    (Loading.withoutInterfaces d skip).interfaceNames =
      d.interfaceNames.filter fun name => !skip.contains name := by
  rw [Document.interfaceNames, Document.interfaceNames, Loading.withoutInterfaces, List.filter_map]
  rfl

theorem DocumentSet.interfaceNames_without (s : DocumentSet) (skip : List Bytes) :
    (s.without skip).interfaceNames = s.interfaceNames.filter fun name => !skip.contains name := by
  rw [DocumentSet.interfaceNames, DocumentSet.interfaceNames, DocumentSet.without,
    List.flatMap_map, List.filter_flatMap]
  simp only [interfaceNames_withoutInterfaces]

theorem DocumentSet.getElem?_without {s : DocumentSet} {skip : List Bytes} {k : Nat} {d : Document} :
    (s.without skip).documents[k]? = some d ↔
      ∃ full, s.documents[k]? = some full ∧ Loading.withoutInterfaces full skip = d := by
  rw [DocumentSet.without, List.getElem?_map, Option.map_eq_some_iff]

end Schema

namespace Zig

open TextPart

section Unique

variable {s : DocumentSet} (hn : s.interfaceNames.Nodup)

include hn

theorem nodup_document {k : Nat} {d : Document} (hk : s.documents[k]? = some d) :
    d.interfaceNames.Nodup :=
  (List.nodup_flatMap.mp hn).1 d (List.mem_of_getElem? hk)

/-- Where no interface name occurs twice, the name tells the interface. -/
theorem Site.eq_of_name {a b : Site} (ha : a.InSet s) (hb : b.InSet s)
    (h : a.interface.name = b.interface.name) : a = b := by
  obtain ⟨j,d,m,i⟩ := a
  obtain ⟨k,e,n,i'⟩ := b
  obtain ⟨had,hai⟩ := ha
  obtain ⟨hbd,hbi⟩ := hb
  dsimp only at had hai hbd hbi h
  have hmem : i.name ∈ d.interfaceNames := List.mem_map_of_mem (List.mem_of_getElem? hai)
  have hmem' : i.name ∈ e.interfaceNames := h ▸ List.mem_map_of_mem (List.mem_of_getElem? hbi)
  obtain rfl : j = k := DocumentSet.index_eq_of_mem_interfaceNames hn had hbd hmem hmem'
  obtain rfl : d = e := Option.some.inj (had.symm.trans hbd)
  have hm : d.interfaceNames[m]? = some i.name := by
    rw [Document.interfaceNames, List.getElem?_map, hai]
    rfl
  have hm' : d.interfaceNames[n]? = some i.name := by
    rw [Document.interfaceNames, List.getElem?_map, hbi, h]
    rfl
  obtain ⟨hlt,-⟩ := List.getElem?_eq_some_iff.mp hm
  obtain rfl : m = n := (List.getElem?_inj hlt (nodup_document hn had)).mp (hm.trans hm'.symm)
  obtain rfl : i = i' := Option.some.inj (hai.symm.trans hbi)
  rfl

theorem Site.sameInterface_iff {a b : Site} (ha : a.InSet s) (hb : b.InSet s) :
    a.sameInterface b = true ↔ a.interface.name = b.interface.name := by
  constructor
  · intro h
    simp only [sameInterface, sameDocument, Bool.and_eq_true, beq_iff_eq] at h
    obtain ⟨hd,hi⟩ := h
    have hdoc : a.document = b.document := Option.some.inj (ha.1.symm.trans (hd ▸ hb.1))
    have hint := ha.2
    rw [hdoc, hi, hb.2] at hint
    rw [Option.some.inj hint]
  · intro h
    rw [eq_of_name hn ha hb h]
    simp [sameInterface, sameDocument]

theorem enumIn?_of_inSet {site : Site} (hs : site.InSet s) {name : Bytes} {e : Enum}
    (he : site.interface.findEnum? name = some e) :
    enumIn? site.interface.name name site.documentIndex site.document = some (site,e) := by
  have hf : site.document.findInterface? site.interface.name = some site.interfaceIndex := by
    cases hk : site.document.findInterface? site.interface.name with
    | none =>
      have hno := List.findIdx?_eq_none_iff.mp hk _ (List.mem_of_getElem? hs.2)
      simp at hno
    | some k =>
      obtain ⟨hl,hi,-⟩ := List.findIdx?_eq_some_iff_getElem.mp hk
      have hother : Site.InSet s ⟨site.documentIndex,site.document,k,site.document.interfaces[k]⟩ :=
        ⟨hs.1,List.getElem?_eq_getElem hl⟩
      have heq := Site.eq_of_name hn hother hs (by simpa using hi)
      rw [← heq]
  simp [enumIn?, hf, hs.2, he]

end Unique

/-- The interface that a reference names as it is seen from another. -/
def EnumRef.interfaceFrom (here : Site) : EnumRef → Bytes
  | .plain _ => here.interface.name
  | .qualified interface _ => interface

def EnumRef.enumName : EnumRef → Bytes
  | .plain name => name
  | .qualified _ name => name

theorem enumIn?_names {interface name : Bytes} {k : Nat} {d : Document} {site : Site} {e : Enum}
    (h : enumIn? interface name k d = some (site,e)) :
    site.interface.name = interface ∧ site.interface.findEnum? name = some e := by
  obtain ⟨n,i,hd,rfl⟩ := enumIn?_eq_some_iff.mp h
  exact ⟨hd.interface.holds,findEnum?_eq_some_iff.mpr hd.enum⟩

/-- Where no interface name occurs twice, a reference leads to the enum of that name in the interface
of that name, whatever the order of the search. -/
theorem EnumRef.find?_eq_some_iff {s : DocumentSet} (hn : s.interfaceNames.Nodup) {here : Site}
    (hh : here.InSet s) {ref : EnumRef} {site : Site} {e : Enum} :
    (∃ stage, ref.find? s here = some ⟨site,e,stage⟩) ↔
      site.InSet s ∧ site.interface.name = ref.interfaceFrom here ∧
        site.interface.findEnum? ref.enumName = some e := by
  constructor
  · rintro ⟨stage,h⟩
    cases ref with
    | plain name =>
      obtain ⟨e',he,h⟩ := Option.map_eq_some_iff.mp h
      cases h
      exact ⟨hh,rfl,he⟩
    | qualified interface name =>
      cases ho : enumIn? interface name here.documentIndex here.document with
      | some found =>
        simp only [EnumRef.find?, ho, Option.some.injEq] at h
        cases h
        obtain ⟨hk,hd,hi,-⟩ := enumIn?_eq_some ho
        refine ⟨⟨?_,?_⟩,enumIn?_names ho⟩
        · rw [hk, hd]
          exact hh.1
        · rw [hd]
          exact hi
      | none =>
        simp only [EnumRef.find?, ho] at h
        obtain ⟨⟨site',e'⟩,hs,h⟩ := Option.map_eq_some_iff.mp h
        cases h
        obtain ⟨⟨d,k⟩,-,hd⟩ := List.exists_of_findSome?_eq_some hs
        exact ⟨(enumInSet?_eq_some hs).1,enumIn?_names hd⟩
  · rintro ⟨hs,hname,he⟩
    cases ref with
    | plain name =>
      obtain rfl := Site.eq_of_name hn hs hh hname
      exact ⟨.interface,Option.map_eq_some_iff.mpr ⟨e,he,rfl⟩⟩
    | qualified interface name =>
      obtain rfl : site.interface.name = interface := hname
      have hsite : enumIn? site.interface.name name site.documentIndex site.document = some (site,e) :=
        enumIn?_of_inSet hn hs he
      cases ho : enumIn? site.interface.name name here.documentIndex here.document with
      | some found =>
        obtain ⟨own,e'⟩ := found
        have hi : here.documentIndex = site.documentIndex :=
          DocumentSet.index_eq_of_mem_interfaceNames hn hh.1 hs.1 (mem_interfaceNames_of_enumIn? ho)
            (mem_interfaceNames_of_enumIn? hsite)
        have hd : here.document = site.document := Option.some.inj (hh.1.symm.trans (hi ▸ hs.1))
        rw [hi, hd, hsite] at ho
        cases ho
        exact ⟨.document,by simp only [EnumRef.find?, hi, hd, hsite]⟩
      | none =>
        have hset := enumInSet?_eq_of_nodup hn hs.1 hsite
        refine ⟨if site.sameDocument here then .document else .global,?_⟩
        simp only [EnumRef.find?, ho, hset, Option.map_some]

/-- The same interface of the same document, once with all interfaces and once without some. -/
structure Site.Survives (skip : List Bytes) (here there : Site) : Prop where
  documentIndex : there.documentIndex = here.documentIndex
  document : there.document = Loading.withoutInterfaces here.document skip
  interface : there.interface = here.interface

theorem exists_survives {s : DocumentSet} {skip : List Bytes} {there : Site}
    (h : there.InSet (s.without skip)) : ∃ here, here.InSet s ∧ Site.Survives skip here there := by
  obtain ⟨d,hd,hw⟩ := DocumentSet.getElem?_without.mp h.1
  have hm : there.interface ∈ d.interfaces := by
    have hmem := List.mem_of_getElem? h.2
    rw [← hw] at hmem
    exact List.mem_of_mem_filter hmem
  obtain ⟨k,hk⟩ := List.mem_iff_getElem?.mp hm
  exact ⟨⟨there.documentIndex,d,k,there.interface⟩,⟨hd,hk⟩,rfl,hw.symm,rfl⟩

section Surviving

variable {s : DocumentSet} {skip : List Bytes} {types : TypeMap} {here there : Site}

theorem Site.Survives.naming_eq (h : Survives skip here there) : there.naming = here.naming := by
  rw [naming, naming, h.document]
  rfl

/-- An interface and what it refers to, in the set of all interfaces and without some. -/
structure Site.Kept (s : DocumentSet) (skip : List Bytes) (here there : Site) : Prop where
  nodup : s.interfaceNames.Nodup
  full : here.InSet s
  rest : there.InSet (s.without skip)
  survives : Survives skip here there

theorem Site.Kept.nodup_rest (h : Kept s skip here there) : (s.without skip).interfaceNames.Nodup := by
  rw [DocumentSet.interfaceNames_without]
  exact h.nodup.filter _

theorem Site.Kept.typeRef_eq (h : Kept s skip here there) {site rest : Site} {e : Enum}
    {stage stage' : Stage} (hs : site.InSet s) (hr : rest.InSet (s.without skip))
    (hk : Survives skip site rest) :
    Resolution.typeRef ⟨rest,e,stage'⟩ there = Resolution.typeRef ⟨site,e,stage⟩ here := by
  have hd : rest.sameDocument there = site.sameDocument here := by
    rw [sameDocument, sameDocument, hk.documentIndex, h.survives.documentIndex]
  have hi : rest.sameInterface there = site.sameInterface here := by
    rw [Bool.eq_iff_iff, sameInterface_iff h.nodup_rest hr h.rest, sameInterface_iff h.nodup hs h.full,
      hk.interface, h.survives.interface]
  simp only [Resolution.typeRef, hd, hi, hk.document, hk.interface, Loading.withoutInterfaces]

theorem Site.Kept.enumTypeOf (h : Kept s skip here there) {a : Arg} {type : Bytes}
    (ht : there.enumTypeOf (s.without skip) a = .ok type) : here.enumTypeOf s a = .ok type := by
  rw [Site.enumTypeOf] at ht ⊢
  by_cases ha : takesEnum a = true
  · rw [if_pos ha] at ht ⊢
    obtain ⟨⟨rest,e,stage'⟩,hr,ht⟩ := Except.bind_eq_ok_iff.mp ht
    obtain ⟨ref,href,hf⟩ := resolve_eq_ok_iff.mp hr
    obtain ⟨hin,hname,he⟩ := (EnumRef.find?_eq_some_iff h.nodup_rest h.rest).mp ⟨stage',hf⟩
    obtain ⟨site,hs,hk⟩ := exists_survives hin
    have hfrom : ref.interfaceFrom there = ref.interfaceFrom here := by
      cases ref with
      | plain name => rw [EnumRef.interfaceFrom, EnumRef.interfaceFrom, h.survives.interface]
      | qualified interface name => rfl
    rw [hk.interface] at hname he
    obtain ⟨stage,hfull⟩ :=
      (EnumRef.find?_eq_some_iff h.nodup h.full).mpr ⟨hs,hname.trans hfrom,he⟩
    refine Except.bind_eq_ok_iff.mpr ⟨_,resolve_eq_ok_iff.mpr ⟨ref,href,hfull⟩,?_⟩
    exact (h.typeRef_eq hs hin hk).symm.trans ht
  · rw [if_neg ha] at ht ⊢
    exact ht

theorem Site.Kept.emitsMessage (h : Kept s skip here there) {m : Message} {decl : MessageDecl}
    (hm : there.EmitsMessage (s.without skip) types m decl) : here.EmitsMessage s types m decl := by
  obtain ⟨hname,groups,hg,hf⟩ := hm
  have hnaming := h.survives.naming_eq
  refine ⟨hnaming ▸ hname,groups,hg.imp ?_,hf⟩
  rintro a fields ⟨name,type,ha,ht,rfl⟩
  exact ⟨name,type,hnaming ▸ ha,h.enumTypeOf ht,rfl⟩

theorem Site.Survives.enumDecl_eq (h : Survives skip here there) (e : Enum) :
    there.enumDecl e = here.enumDecl e := by
  simp only [Site.enumDecl, Site.place, h.naming_eq, h.document, h.interface,
    Loading.withoutInterfaces]

/-- An interface that is left in is declared as it is in the set of all interfaces. -/
theorem Site.Kept.emitsInterface (h : Kept s skip here there) {decl : InterfaceDecl}
    (hd : there.EmitsInterface (s.without skip) types decl) : here.EmitsInterface s types decl := by
  have hnaming := h.survives.naming_eq
  have hi := h.survives.interface
  obtain ⟨hname,hr,he,hs⟩ := hd
  rw [hnaming, hi] at hname
  rw [hi] at hr he hs
  refine ⟨hname,hr.imp fun _ _ => h.emitsMessage,he.imp fun _ _ => h.emitsMessage,hs.imp ?_⟩
  intro e decl he
  rwa [h.survives.enumDecl_eq] at he

end Surviving

section Units

variable {s : DocumentSet} {skip : List Bytes} {settings : Settings} {types : TypeMap}

/-- The interface of that name is declared like this. -/
def DeclaredAs (s : DocumentSet) (types : TypeMap) (name : Bytes) (decl : InterfaceDecl) : Prop :=
  ∃ here : Site, here.InSet s ∧ here.interface.name = name ∧ here.EmitsInterface s types decl

theorem DeclaredAs.unique (hn : s.interfaceNames.Nodup) {name : Bytes} {decl decl' : InterfaceDecl}
    (h : DeclaredAs s types name decl) (h' : DeclaredAs (s.without skip) types name decl') :
    decl = decl' := by
  obtain ⟨here,hh,rfl,hd⟩ := h
  obtain ⟨there,ht,hname,hd'⟩ := h'
  obtain ⟨site,hs,hk⟩ := exists_survives ht
  have hsite : site = here := by
    refine Site.eq_of_name hn hs hh ?_
    rw [← hk.interface, hname]
  subst hsite
  have hfull := Site.Kept.emitsInterface ⟨hn,hs,ht,hk⟩ hd'
  exact Except.ok.inj ((Site.interfaceDecl_eq_ok_iff.mpr hd).symm.trans
    (Site.interfaceDecl_eq_ok_iff.mpr hfull))

theorem EmitsUnit.declaredAs {k : Nat} {d : Document} {u : UnitDecl} (hk : s.documents[k]? = some d)
    (h : EmitsUnit s settings types k d u) :
    List.Forall₂ (DeclaredAs s types) d.interfaceNames u.interfaces := by
  rw [Document.interfaceNames, List.forall₂_map_left_iff]
  refine (sites_interfaces k d).with_mem.comp ?_ h.interfaces
  rintro i here decl ⟨-,hm,-,rfl⟩ hd
  exact ⟨here,inSet_of_mem_sites hk hm,rfl,hd⟩

/-- The unit of a document without some interfaces is its unit without their parts. -/
theorem EmitsUnit.remaining_parts (hn : s.interfaceNames.Nodup) {k : Nat} {d : Document}
    {u u' : UnitDecl} (hk : s.documents[k]? = some d) (h : EmitsUnit s settings types k d u)
    (h' : EmitsUnit (s.without skip) settings types k (Loading.withoutInterfaces d skip) u')
    (indent : Nat) : remaining skip (u.parts indent d.interfaceNames) =
      u'.parts indent (Loading.withoutInterfaces d skip).interfaceNames := by
  have hd := h.declaredAs hk
  have hd' := h'.declaredAs (DocumentSet.getElem?_without.mpr ⟨d,hk,rfl⟩)
  have hp : u'.preamble = u.preamble := by
    rw [UnitDecl.preamble, UnitDecl.preamble, h.notice, h'.notice, h.typesUnit, h'.typesUnit]
    rfl
  rw [interfaceNames_withoutInterfaces] at hd' ⊢
  exact UnitDecl.remaining_parts hp
    (Leaves.of_forall₂ hd hd' fun _ _ _ hu hu' => hu.unique hn hu') indent

/-- The interface of that name has this entry in the index. -/
def EnteredAs (s : DocumentSet) (name : Bytes) (e : IndexEntry) : Prop :=
  ∃ (k : Nat) (d : Document) (imported : Bytes) (i : Interface), s.documents[k]? = some d ∧ i ∈ d.interfaces ∧ i.name = name ∧
    (Naming.ofNameSpace []).identifier d.name = .ok imported ∧ EmitsEntry d imported i e

theorem EnteredAs.unique (hn : s.interfaceNames.Nodup) {name : Bytes} {e e' : IndexEntry}
    (h : EnteredAs s name e) (h' : EnteredAs (s.without skip) name e') : e = e' := by
  obtain ⟨k,d,imported,i,hd,hi,rfl,himp,hm,decl,hdecl,hpath⟩ := h
  obtain ⟨k',d',imported',i',hd',hi',hname,himp',hm',decl',hdecl',hpath'⟩ := h'
  obtain ⟨full,hfull,rfl⟩ := DocumentSet.getElem?_without.mp hd'
  have hmem : i.name ∈ full.interfaceNames :=
    hname ▸ List.mem_map_of_mem (List.mem_of_mem_filter hi')
  obtain rfl := DocumentSet.index_eq_of_mem_interfaceNames hn hd hfull (List.mem_map_of_mem hi) hmem
  obtain rfl : d = full := Option.some.inj (hd.symm.trans hfull)
  rw [hname] at hm' hdecl'
  obtain rfl : imported = imported' := Except.ok.inj (himp.symm.trans himp')
  obtain rfl : decl = decl' := Except.ok.inj (hdecl.symm.trans hdecl')
  have hmember : e.member = e'.member := Except.ok.inj (hm.symm.trans hm')
  cases e
  cases e'
  simp only [IndexEntry.mk.injEq]
  exact ⟨hmember,hpath.trans hpath'.symm⟩

variable {parts parts' : List (IndexImport × List IndexEntry)} {i i' : IndexDecl}

theorem EmitsIndex.enteredAs (h : EmitsIndex s settings parts i) :
    List.Forall₂ (EnteredAs s) s.interfaceNames i.entries := by
  rw [h.entries, DocumentSet.interfaceNames]
  refine List.rel_flatMap h.documents.with_mem ?_
  rintro d part ⟨hd,-,hp⟩
  obtain ⟨k,hk⟩ := List.mem_iff_getElem?.mp hd
  rw [Document.interfaceNames, List.forall₂_map_left_iff]
  refine hp.entries.with_mem.imp ?_
  rintro i e ⟨hi,-,he⟩
  exact ⟨k,d,_,i,hk,hi,rfl,hp.name,he⟩

theorem EmitsIndex.imports_eq (h : EmitsIndex s settings parts i)
    (h' : EmitsIndex (s.without skip) settings parts' i') : i'.imports = i.imports := by
  have hp' := h'.documents
  rw [DocumentSet.without, List.forall₂_map_left_iff] at hp'
  have hp : List.Forall₂ (fun part part' => part'.1 = part.1) parts parts' := by
    refine h.documents.flip.comp ?_ hp'
    intro part d part' hd hd'
    have hname : part.1.name = part'.1.name := Except.ok.inj (hd.name.symm.trans hd'.name)
    have hunit : part.1.unit = part'.1.unit := hd.unit.trans hd'.unit.symm
    obtain ⟨⟨name,unit⟩,entries⟩ := part
    obtain ⟨⟨name',unit'⟩,entries'⟩ := part'
    cases hname
    cases hunit
    rfl
  rw [h.imports, h'.imports]
  exact (List.forall₂_map_eq_iff.mp (hp.imp fun _ _ h => h.symm)).symm

/-- The index without some interfaces is the index without their rows. -/
theorem EmitsIndex.remaining_parts (hn : s.interfaceNames.Nodup) (h : EmitsIndex s settings parts i)
    (h' : EmitsIndex (s.without skip) settings parts' i') (indent : Nat) :
    remaining skip (i.parts indent s.interfaceNames) =
      i'.parts indent (s.without skip).interfaceNames := by
  have he' := h'.enteredAs
  have hi : i'.importTrees = i.importTrees := by
    rw [IndexDecl.importTrees, IndexDecl.importTrees, h.imports_eq h', h.typesUnit, h'.typesUnit]
  rw [DocumentSet.interfaceNames_without] at he' ⊢
  exact IndexDecl.remaining_parts hi (h'.eventsOnly.trans h.eventsOnly.symm)
    (Leaves.of_forall₂ h.enteredAs he' fun _ _ _ hu hu' => hu.unique hn hu') indent

end Units

/-- A unit with its text in parts. -/
structure PartedUnit where
  path : Bytes
  parts : List TextPart
  deriving DecidableEq, Repr

def PartedUnit.whole (p : PartedUnit) : SourceUnit := ⟨p.path,joined p.parts⟩

def PartedUnit.without (skip : List Bytes) (p : PartedUnit) : PartedUnit :=
  { p with parts := remaining skip p.parts }

/-- The parts of the unit of a document: each struct belongs to the interface at its position. -/
def PartedDocument (s : DocumentSet) (settings : Settings) (types : TypeMap) (d : Document × Nat)
    (p : PartedUnit) : Prop :=
  ∃ u, documentDecl s settings types d.2 d.1 = .ok u ∧
    p = ⟨unitPath d.1.name,u.parts settings.indentSize.toNat d.1.interfaceNames⟩

/-- The units of a set in parts. The rows of the index belong to the interfaces of the set in order. -/
def PartedUnits (s : DocumentSet) (settings : Settings) (units : List PartedUnit) : Prop :=
  ∃ types documents i, TypeMap.ofMappings settings.typeMappings = .ok types ∧
    List.Forall₂ (PartedDocument s settings types) s.documents.zipIdx documents ∧
    indexDecl s settings = .ok i ∧
    units = documents ++ [⟨unitPath settings.typesUnit,[common typesUnit]⟩,
      ⟨unitPath settings.indexUnit,i.parts settings.indentSize.toNat s.interfaceNames⟩]

section Parted

variable {s : DocumentSet} {skip : List Bytes} {settings : Settings} {types : TypeMap}
  {documents documents' : List SourceUnit}

theorem PartedUnit.whole_unit {k : Nat} {d : Document} {u : UnitDecl}
    (h : EmitsUnit s settings types k d u) (indent : Nat) :
    whole ⟨unitPath d.name,u.parts indent d.interfaceNames⟩ =
      ⟨unitPath d.name,SourceTree.text indent u.trees⟩ := by
  have hl : d.interfaceNames.length = u.interfaces.length := by
    rw [Document.interfaceNames, List.length_map, ← h.interfaces.length_eq, sites, List.length_map,
      List.length_zipIdx]
  rw [whole, UnitDecl.joined_parts hl]

theorem exists_partedDocument (hn : s.interfaceNames.Nodup) {k : Nat} {d : Document}
    (hk : s.documents[k]? = some d) {text text' : Bytes}
    (h : documentUnit s settings types k d = .ok text)
    (h' : documentUnit (s.without skip) settings types k (Loading.withoutInterfaces d skip) =
      .ok text') :
    ∃ p, PartedDocument s settings types (d,k) p ∧ ⟨unitPath d.name,text⟩ = p.whole ∧
      ⟨unitPath d.name,text'⟩ = (p.without skip).whole := by
  obtain ⟨u,hu,rfl⟩ := documentUnit_eq_ok_iff.mp h
  obtain ⟨u',hu',rfl⟩ := documentUnit_eq_ok_iff.mp h'
  refine ⟨_,⟨u,documentDecl_eq_ok_iff.mpr hu,rfl⟩,(PartedUnit.whole_unit hu _).symm,?_⟩
  rw [PartedUnit.without, hu.remaining_parts hn hk hu']
  exact (PartedUnit.whole_unit hu' _).symm

/-- One list of units in parts gives the units of both sets, position by position. -/
theorem exists_partedDocuments (hn : s.interfaceNames.Nodup)
    (h : EmitsDocuments s settings types documents)
    (h' : EmitsDocuments (s.without skip) settings types documents') :
    ∃ parted, List.Forall₂ (PartedDocument s settings types) s.documents.zipIdx parted ∧
      documents = parted.map PartedUnit.whole ∧
      documents' = parted.map fun p => (p.without skip).whole := by
  have hz : (s.without skip).documents.zipIdx =
      s.documents.zipIdx.map (Prod.map (Loading.withoutInterfaces · skip) id) := List.zipIdx_map ..
  rw [EmitsDocuments, hz, List.forall₂_map_left_iff] at h'
  refine List.Forall₂.exists_source h h' ?_
  rintro ⟨d,k⟩ hd ⟨path,text⟩ ⟨path',text'⟩ ⟨rfl,hu⟩ ⟨rfl,hu'⟩
  exact exists_partedDocument hn (List.mem_zipIdx_iff_getElem?.mp hd) hu hu'

/-- The units that are compiled without some interfaces are the units of the whole set without the
parts of these interfaces. -/
theorem compile_without {units units' : List SourceUnit} (h : compile s settings = .ok units)
    (h' : compile (s.without skip) settings = .ok units') :
    ∃ parted, PartedUnits s settings.withDefaults parted ∧ units = parted.map PartedUnit.whole ∧
      units' = parted.map fun p => (p.without skip).whole := by
  obtain ⟨-,hv,types,documents,index,ht,hd,hi,rfl⟩ := compile_eq_ok_iff.mp h
  obtain ⟨-,-,types',documents',index',ht',hd',hi',rfl⟩ := compile_eq_ok_iff.mp h'
  obtain rfl : types = types' := Except.ok.inj (ht.symm.trans ht')
  have hn := DocumentSet.nodup_interfaceNames hv
  obtain ⟨parted,hp,rfl,rfl⟩ := exists_partedDocuments hn hd hd'
  obtain ⟨parts,i,hindex,rfl⟩ := indexUnit_eq_ok_iff.mp hi
  obtain ⟨parts',i',hindex',rfl⟩ := indexUnit_eq_ok_iff.mp hi'
  have hj := IndexDecl.joined_parts hindex.enteredAs.length_eq settings.withDefaults.indentSize.toNat
  have hj' := IndexDecl.joined_parts hindex'.enteredAs.length_eq settings.withDefaults.indentSize.toNat
  rw [← hindex.remaining_parts hn hindex'] at hj'
  have htypes : joined (remaining skip [common typesUnit]) = typesUnit := joined_common _
  refine ⟨_,⟨types,parted,i,ht,hp,indexDecl_eq_ok_iff.mpr ⟨parts,hindex⟩,rfl⟩,?_,?_⟩
  · simp only [List.map_append, List.map_cons, List.map_nil, PartedUnit.whole, joined_common, hj]
  · simp only [List.map_append, List.map_cons, List.map_nil, PartedUnit.whole, PartedUnit.without,
      htypes, hj']

end Parted

/-- What a generation gives was compiled and then formatted. -/
theorem formatted_of_generate {σ : Type} {s : DocumentSet} {settings : Settings} {f : Formatter σ}
    {sink : Sink σ} {state : σ} {done : List SourceUnit}
    (h : (generate s settings f sink state).1 = .ok done) :
    ∃ units, compile s settings = .ok units ∧ (formatUnits f units state).1 = .ok done := by
  obtain ⟨units,hc⟩ := exists_compile_of_generate h
  refine ⟨units,hc,?_⟩
  rcases hf : formatUnits f units state with ⟨fault | formatted,next⟩
  · simp only [generate, build, hc, hf] at h
    cases h
  · simp only [generate, build, hc, hf] at h
    split at h
    · cases h
      rfl
    · cases h

/-- Loading without some interfaces gives what is loaded with all of them, their interfaces taken out
of the documents in place. Where a set can be generated both with and without them, every unit is the
same but for the parts of these interfaces, which are left out: their structs in the units of their
documents and their rows in the index. -/
theorem skipped_interfaces_project (skip : List Bytes) :
    (∀ t canceled policy paths, (Loading.load t canceled policy skip paths).1 =
      (Loading.load t canceled policy [] paths).1.map (DocumentSet.without · skip)) ∧
    ∀ (s : DocumentSet) (settings : Settings) (σ : Type) (f : Formatter σ) (sink : Sink σ)
      (state state' : σ) (done done' : List SourceUnit),
      (generate s settings f sink state).1 = .ok done →
      (generate (s.without skip) settings f sink state').1 = .ok done' →
      ∃ parted, PartedUnits s settings.withDefaults parted ∧
        (formatUnits f (parted.map PartedUnit.whole) state).1 = .ok done ∧
        (formatUnits f (parted.map fun p => (p.without skip).whole) state').1 = .ok done' ∧
        (f = Formatter.unchanged → done = parted.map PartedUnit.whole ∧
          done' = parted.map fun p => (p.without skip).whole) := by
  refine ⟨fun t canceled policy paths => Loading.load_skip t canceled policy skip paths,?_⟩
  intro s settings σ f sink state state' done done' h h'
  obtain ⟨units,hc,hf⟩ := formatted_of_generate h
  obtain ⟨units',hc',hf'⟩ := formatted_of_generate h'
  obtain ⟨parted,hp,rfl,rfl⟩ := compile_without hc hc'
  refine ⟨parted,hp,hf,hf',?_⟩
  rintro rfl
  rw [formatUnits_unchanged] at hf hf'
  exact ⟨(Except.ok.inj hf).symm,(Except.ok.inj hf').symm⟩

/-- The last interface refers to the one in front of it, and the first stands alone. -/
def threeInterfaces : DocumentSet :=
  { documents := [
      { name := "p"
        nameSpace := "wl"
        interfaces := [
          { name := "wl_seat" },
          { name := "wl_output"
            enums := [{ name := "transform", entries := [⟨"normal",0,false⟩] }] },
          { name := "wl_surface"
            requests := [⟨"set",.request,[⟨"by",.int,"wl_output.transform",[],false⟩]⟩] }] }] }

theorem threeInterfaces_project : ∃ done done' parted,
    (generate threeInterfaces {} Formatter.unchanged (fun _ _ => (.ok (),·)) ()).1 = .ok done ∧
    (generate (threeInterfaces.without ["wl_seat"]) {} Formatter.unchanged
      (fun _ _ => (.ok (),·)) ()).1 = .ok done' ∧
    PartedUnits threeInterfaces ({} : Settings).withDefaults parted ∧
    done = parted.map PartedUnit.whole ∧
    done' = parted.map fun p => (p.without ["wl_seat"]).whole := by
  have hg : (generate threeInterfaces {} Formatter.unchanged
      (fun _ _ => (.ok (),·)) ()).1.isOk = true := by decide +kernel
  have hg' : (generate (threeInterfaces.without ["wl_seat"]) {} Formatter.unchanged
      (fun _ _ => (.ok (),·)) ()).1.isOk = true := by decide +kernel
  obtain ⟨done,hg⟩ := Except.exists_of_isOk hg
  obtain ⟨done',hg'⟩ := Except.exists_of_isOk hg'
  obtain ⟨parted,hp,-,-,hu⟩ :=
    (skipped_interfaces_project ["wl_seat"]).2 _ _ _ _ _ _ _ _ _ hg hg'
  obtain ⟨hd,hd'⟩ := hu rfl
  exact ⟨done,done',parted,hg,hg',hp,hd,hd'⟩

end Zig

end WaylandZig
