import WaylandZig.Proofs.Schema.Collisions
import WaylandZig.Proofs.Zig.DocumentUnit
import WaylandZig.Proofs.Zig.Generator
import WaylandZig.Proofs.Zig.Reference

/-! # Units that do not depend on the rest of the set

The unit of a document depends on the other documents only through its enum references. Where no
interface name occurs twice, a reference that leaves the document leads to the one document that
declares the interface, wherever that document was loaded. A unit that could be compiled is therefore
the same in every set that has the documents of the first, in any order and with others between.
-/
namespace WaylandZig.Zig

open Schema

/-- The same interface with its document loaded at another position. -/
def Site.movedTo (k : Nat) (here : Site) : Site := { here with documentIndex := k }

theorem sites_movedTo (j k : Nat) (d : Document) : sites k d = (sites j d).map (Site.movedTo k) := by
  simp [sites, Site.movedTo, Function.comp_def]

theorem enumIn?_movedTo {interface name : Bytes} {j : Nat} {d : Document} {site : Site} {e : Enum}
    (h : enumIn? interface name j d = some (site,e)) (k : Nat) :
    enumIn? interface name k d = some (site.movedTo k,e) := by
  obtain ⟨n,i,hd,rfl⟩ := enumIn?_eq_some_iff.mp h
  exact enumIn?_eq_some_iff.mpr ⟨n,i,hd,rfl⟩

theorem mem_interfaceNames_of_enumIn? {interface name : Bytes} {k : Nat} {d : Document} {found : Site × Enum}
    (h : enumIn? interface name k d = some found) : interface ∈ d.interfaceNames := by
  obtain ⟨n,i,hd,-⟩ := enumIn?_eq_some_iff.mp h
  exact List.mem_map.mpr ⟨i,List.mem_of_getElem? hd.interface.item,hd.interface.holds⟩

/-- The search through a set ends at the document that declares the interface. -/
theorem enumInSet?_eq_of_nodup {t : DocumentSet} (ht : t.interfaceNames.Nodup) {k : Nat} {d : Document}
    (hk : t.documents[k]? = some d) {interface name : Bytes} {found : Site × Enum}
    (h : enumIn? interface name k d = some found) : enumInSet? t interface name = some found := by
  have hmem : (d,k) ∈ t.documents.zipIdx := List.mem_zipIdx_iff_getElem?.mpr hk
  cases hs : enumInSet? t interface name with
  | none => exact absurd (List.findSome?_eq_none_iff.mp hs _ hmem) (by simp [h])
  | some other =>
    obtain ⟨⟨e,n⟩,hm,ho⟩ := List.exists_of_findSome?_eq_some hs
    have hn : t.documents[n]? = some e := List.mem_zipIdx_iff_getElem?.mp hm
    obtain rfl : n = k := DocumentSet.index_eq_of_mem_interfaceNames ht hn hk
      (mem_interfaceNames_of_enumIn? ho) (mem_interfaceNames_of_enumIn? h)
    obtain rfl : e = d := Option.some.inj (hn.symm.trans hk)
    rw [← h, ← ho]

/-- What a reference leads to, as it is seen from the same interface in two sets: the same enum of
the same document, which is the own document in both or in neither. -/
structure Resolution.SameTarget (here : Site) (r : Resolution) (there : Site) (q : Resolution) :
    Prop where
  document : q.site.document = r.site.document
  interfaceIndex : q.site.interfaceIndex = r.site.interfaceIndex
  interface : q.site.interface = r.site.interface
  enum : q.enum = r.enum
  own : q.site.sameDocument there = r.site.sameDocument here

theorem Resolution.SameTarget.typeRef_eq {here there : Site} {r q : Resolution}
    (h : Resolution.SameTarget here r there q) (hi : there.interfaceIndex = here.interfaceIndex) :
    q.typeRef there = r.typeRef here := by
  have hs : q.site.sameInterface there = r.site.sameInterface here := by
    rw [Site.sameInterface, Site.sameInterface, h.own, h.interfaceIndex, hi]
  simp only [Resolution.typeRef, h.document, h.interface, h.enum, h.own, hs]

section Moved

variable {s t : DocumentSet} {here : Site} {k : Nat}

/-- The document of an interface is at the position `k` of the second set, and every document of the
first set is in the second. -/
structure Moves (s t : DocumentSet) (here : Site) (k : Nat) : Prop where
  source : here.InSet s
  target : t.documents[k]? = some here.document
  subset : s.documents ⊆ t.documents
  nodup : t.interfaceNames.Nodup

/-- A search that leaves the document ends at the same other document in both sets. -/
theorem Moves.enumInSet? (hm : Moves s t here k) {interface name : Bytes} {site : Site} {e : Enum}
    (ho : enumIn? interface name here.documentIndex here.document = none)
    (h : Zig.enumInSet? s interface name = some (site,e)) :
    ∃ n, Zig.enumInSet? t interface name = some (site.movedTo n,e) ∧
      site.documentIndex ≠ here.documentIndex ∧ n ≠ k := by
  obtain ⟨⟨d,m⟩,hmem,hd⟩ := List.exists_of_findSome?_eq_some h
  have hsd : s.documents[m]? = some d := List.mem_zipIdx_iff_getElem?.mp hmem
  obtain ⟨n,hn⟩ := List.mem_iff_getElem?.mp (hm.subset (List.mem_of_getElem? hsd))
  have htd := enumIn?_movedTo hd n
  -- The own document does not have the enum, so the one that has it is another.
  have hne : d ≠ here.document := by
    rintro rfl
    rw [enumIn?_movedTo hd here.documentIndex] at ho
    cases ho
  refine ⟨n,enumInSet?_eq_of_nodup hm.nodup hn htd,?_,?_⟩
  · rw [(enumIn?_eq_some hd).1]
    rintro rfl
    exact hne (Option.some.inj (hsd.symm.trans hm.source.1))
  · rintro rfl
    exact hne (Option.some.inj (hn.symm.trans hm.target))

theorem Moves.find? (hm : Moves s t here k) {ref : EnumRef} {r : Resolution}
    (h : ref.find? s here = some r) :
    ∃ q, ref.find? t (here.movedTo k) = some q ∧
      Resolution.SameTarget here r (here.movedTo k) q := by
  cases ref with
  | plain name =>
    obtain ⟨e,he,rfl⟩ := Option.map_eq_some_iff.mp h
    exact ⟨⟨here.movedTo k,e,.interface⟩,Option.map_eq_some_iff.mpr ⟨e,he,rfl⟩,
      rfl,rfl,rfl,rfl,by simp [Site.sameDocument]⟩
  | qualified interface name =>
    cases ho : enumIn? interface name here.documentIndex here.document with
    | some found =>
      obtain ⟨site,e⟩ := found
      simp only [EnumRef.find?, ho, Option.some.injEq] at h
      subst h
      have hk : enumIn? interface name (here.movedTo k).documentIndex (here.movedTo k).document =
          some (site.movedTo k,e) := enumIn?_movedTo ho k
      refine ⟨⟨site.movedTo k,e,.document⟩,by simp only [EnumRef.find?, hk],rfl,rfl,rfl,rfl,?_⟩
      have hi := (enumIn?_eq_some ho).1
      simp [Site.sameDocument, Site.movedTo, hi]
    | none =>
      simp only [EnumRef.find?, ho] at h
      obtain ⟨⟨site,e⟩,hs,rfl⟩ := Option.map_eq_some_iff.mp h
      obtain ⟨n,ht,hne,hnk⟩ := hm.enumInSet? ho hs
      have hk : enumIn? interface name (here.movedTo k).documentIndex (here.movedTo k).document =
          none := by
        cases hk : enumIn? interface name k here.document with
        | none => exact hk
        | some found =>
          rw [enumIn?_movedTo hk here.documentIndex] at ho
          cases ho
      let q : Resolution := ⟨site.movedTo n,e,
        if (site.movedTo n).sameDocument (here.movedTo k) then .document else .global⟩
      refine ⟨q,by simp only [EnumRef.find?, hk, ht, Option.map_some, q],rfl,rfl,rfl,rfl,?_⟩
      simp [q, Site.sameDocument, Site.movedTo, hne, hnk]

theorem Moves.enumTypeOf (hm : Moves s t here k) {a : Arg} {type : Bytes}
    (h : here.enumTypeOf s a = .ok type) : (here.movedTo k).enumTypeOf t a = .ok type := by
  rw [Site.enumTypeOf] at h ⊢
  by_cases ha : takesEnum a = true
  · rw [if_pos ha] at h ⊢
    obtain ⟨r,hr,h⟩ := Except.bind_eq_ok_iff.mp h
    obtain ⟨ref,href,hf⟩ := resolve_eq_ok_iff.mp hr
    obtain ⟨q,hq,hs⟩ := hm.find? hf
    refine Except.bind_eq_ok_iff.mpr ⟨q,resolve_eq_ok_iff.mpr ⟨ref,href,hq⟩,?_⟩
    exact (hs.typeRef_eq rfl).trans h
  · rw [if_neg ha] at h ⊢
    exact h

theorem Moves.emitsMessage (hm : Moves s t here k) {types : TypeMap} {m : Message} {decl : MessageDecl}
    (h : here.EmitsMessage s types m decl) : (here.movedTo k).EmitsMessage t types m decl := by
  obtain ⟨hn,groups,hg,hf⟩ := h
  refine ⟨hn,groups,hg.imp ?_,hf⟩
  rintro a fields ⟨name,type,hname,htype,rfl⟩
  exact ⟨name,type,hname,hm.enumTypeOf htype,rfl⟩

theorem Moves.emitsInterface (hm : Moves s t here k) {types : TypeMap} {decl : InterfaceDecl}
    (h : here.EmitsInterface s types decl) : (here.movedTo k).EmitsInterface t types decl where
  name := h.name
  requests := h.requests.imp fun _ _ hr => hm.emitsMessage hr
  events := h.events.imp fun _ _ he => hm.emitsMessage he
  enums := h.enums

end Moved

section Units

variable {s t : DocumentSet} {settings : Settings} {types : TypeMap} {j k : Nat} {d : Document}

theorem EmitsUnit.movedTo (hst : s.documents ⊆ t.documents) (ht : t.interfaceNames.Nodup)
    (hj : s.documents[j]? = some d) (hk : t.documents[k]? = some d) {u : UnitDecl}
    (h : EmitsUnit s settings types j d u) : EmitsUnit t settings types k d u where
  notice := h.notice
  typesUnit := h.typesUnit
  interfaces := by
    rw [sites_movedTo j k, List.forall₂_map_left_iff]
    refine h.interfaces.with_mem.imp ?_
    rintro here decl ⟨hh,-,hi⟩
    have hd : here.document = d := by
      obtain ⟨i,-,rfl⟩ := List.mem_map.mp hh
      rfl
    exact Moves.emitsInterface ⟨inSet_of_mem_sites hj hh,hd ▸ hk,hst,ht⟩ hi

theorem documentUnit_movedTo (hst : s.documents ⊆ t.documents) (ht : t.interfaceNames.Nodup)
    (hj : s.documents[j]? = some d) (hk : t.documents[k]? = some d) {text : Bytes}
    (h : documentUnit s settings types j d = .ok text) :
    documentUnit t settings types k d = .ok text := by
  obtain ⟨u,hu,rfl⟩ := documentUnit_eq_ok_iff.mp h
  exact documentUnit_eq_ok_iff.mpr ⟨u,hu.movedTo hst ht hj hk,rfl⟩

end Units

/-- A unit that can be compiled over one set is compiled to the same text over every set that has the
documents of the first, wherever they stand in it, and over a set of the same documents in another
order exactly the same units can be compiled. -/
theorem documentUnit_independent {s t : DocumentSet} (ht : t.interfaceNames.Nodup)
    (hst : s.documents ⊆ t.documents) (settings : Settings) (types : TypeMap) {j k : Nat}
    {d : Document} (hj : s.documents[j]? = some d) (hk : t.documents[k]? = some d) :
    (∀ text, documentUnit s settings types j d = .ok text →
      documentUnit t settings types k d = .ok text) ∧
    (s.documents.Perm t.documents → ∀ text, documentUnit s settings types j d = .ok text ↔
      documentUnit t settings types k d = .ok text) := by
  refine ⟨fun _ h => documentUnit_movedTo hst ht hj hk h,fun hp text => ⟨?_,?_⟩⟩
  · exact fun h => documentUnit_movedTo hst ht hj hk h
  · have hs : s.interfaceNames.Nodup := (hp.flatMap_right _).nodup_iff.mpr ht
    exact fun h => documentUnit_movedTo hp.symm.subset hs hk hj h

def outputDocument : Document :=
  { name := "output"
    nameSpace := "wl"
    interfaces := [{
      name := "wl_output"
      enums := [{ name := "transform", entries := [⟨"normal",0,false⟩] }] }] }

def surfaceDocument : Document :=
  { name := "surface"
    nameSpace := "wl"
    interfaces := [{
      name := "wl_surface"
      requests := [⟨"set_buffer",.request,[⟨"transform",.int,"wl_output.transform",[],false⟩]⟩] }] }

def seatDocument : Document :=
  { name := "seat"
    nameSpace := "wl"
    interfaces := [{ name := "wl_seat" }] }

theorem surfaceDocument_independent : ∃ text,
    documentUnit { documents := [outputDocument,surfaceDocument] } {} {} 1 surfaceDocument = .ok text ∧
    documentUnit { documents := [surfaceDocument,seatDocument,outputDocument] } {} {} 0 surfaceDocument =
      .ok text := by
  have h : (documentUnit { documents := [outputDocument,surfaceDocument] } {} {} 1
      surfaceDocument).isOk = true := by decide +kernel
  obtain ⟨text,h⟩ := Except.exists_of_isOk h
  have hn : (DocumentSet.interfaceNames
      { documents := [surfaceDocument,seatDocument,outputDocument] }).Nodup := by decide
  exact ⟨text,h,(documentUnit_independent hn (by simp) {} {} rfl rfl).1 text h⟩

/-- On whole runs: the units of a set, without the index, are units of every set that has its
documents. -/
theorem compile_dropLast_subset {s t : DocumentSet} {settings : Settings}
    {units more : List SourceUnit} (hs : compile s settings = .ok units)
    (ht : compile t settings = .ok more) (hst : s.documents ⊆ t.documents) :
    units.dropLast ⊆ more := by
  obtain ⟨-,-,types,documents,index,htypes,hd,-,rfl⟩ := compile_eq_ok_iff.mp hs
  obtain ⟨-,hv,types',documents',index',htypes',hd',-,rfl⟩ := compile_eq_ok_iff.mp ht
  obtain rfl : types = types' := Except.ok.inj (htypes.symm.trans htypes')
  have hn := DocumentSet.nodup_interfaceNames hv
  intro u hu
  rw [List.dropLast_append_of_ne_nil (by simp), List.mem_append] at hu
  rcases hu with hu | hu
  · obtain ⟨⟨d,j⟩,hj,hp,hc⟩ := hd.exists_of_mem_right hu
    have hj : s.documents[j]? = some d := List.mem_zipIdx_iff_getElem?.mp hj
    obtain ⟨k,hk⟩ := List.mem_iff_getElem?.mp (hst (List.mem_of_getElem? hj))
    have hmem : (d,k) ∈ t.documents.zipIdx := List.mem_zipIdx_iff_getElem?.mpr hk
    obtain ⟨v,hv,hp',hc'⟩ := hd'.exists_of_mem_left hmem
    have hcv := documentUnit_movedTo hst hn hj hk hc
    have he : u = v := by
      cases u
      cases v
      simp only [SourceUnit.mk.injEq]
      exact ⟨hp.trans hp'.symm,Except.ok.inj (hcv.symm.trans hc')⟩
    exact he ▸ List.mem_append_left _ hv
  · obtain rfl : u = ⟨unitPath settings.withDefaults.typesUnit,Zig.typesUnit⟩ := by simpa using hu
    exact List.mem_append_right _ List.mem_cons_self

end WaylandZig.Zig
