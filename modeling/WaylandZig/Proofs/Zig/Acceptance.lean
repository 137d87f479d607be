import WaylandZig.Proofs.Zig.Lookup
import WaylandZig.Proofs.Zig.MemberNames

/-! # Which documents are compiled

A document is compiled exactly when its names can be made identifiers, its references lead to types
that can be named, and the values of its enums fit. No check is lost on the way: what the passes over
the messages and enums refuse is refused by the unit. The finding is about the first interface that
does not pass, also where the name at fault is that of another document.
-/
namespace WaylandZig.Zig

open Schema

def Naming.Allows (n : Naming) (name : Bytes) : Prop := ∃ out, n.identifier name = .ok out

namespace Site

/-- An argument that is typed by an enum must lead to one whose type can be named from here. -/
structure AcceptsArg (here : Site) (s : DocumentSet) (a : Arg) : Prop where
  name : here.naming.Allows a.name
  reference : a.enum ≠ [] → a.kind = .int ∨ a.kind = .uint →
    ∃ r type, resolve s here a.enum = .ok r ∧ r.typeRef here = .ok type

structure AcceptsMessage (here : Site) (s : DocumentSet) (m : Message) : Prop where
  name : here.naming.Allows m.name
  args : ∀ a ∈ m.args, here.AcceptsArg s a

/-- In a bitfield only the entries that become flags need a name that passes. -/
structure AcceptsEnum (here : Site) (e : Enum) : Prop where
  type : ∃ out, here.naming.enumType e.name = .ok out
  members : e.bitfield = false → ∀ x ∈ e.entries, here.naming.Allows x.name ∧ x.value ≤ maxEnumValue
  layout : e.bitfield = true → ∃ fields, BitLayout.layout e.entries = .ok fields
  flags : e.bitfield = true → ∀ x ∈ e.entries, BitLayout.isSingleBit x.value = true → x.name ≠ [] →
    here.naming.Allows x.name

structure Compilable (here : Site) (s : DocumentSet) : Prop where
  name : ∃ out, here.naming.interface here.interface.name = .ok out
  requests : ∀ m ∈ here.interface.requests, here.AcceptsMessage s m
  events : ∀ m ∈ here.interface.events, here.AcceptsMessage s m
  enums : ∀ e ∈ here.interface.enums, here.AcceptsEnum e

section Acceptance

variable {here : Site} {s : DocumentSet} {types : TypeMap}

theorem takesEnum_iff {a : Arg} :
    takesEnum a = true ↔ a.enum ≠ [] ∧ (a.kind = .int ∨ a.kind = .uint) := by
  simp only [takesEnum, Bool.and_eq_true, Bool.or_eq_true, beq_iff_eq, Bool.not_eq_true',
    List.isEmpty_eq_false_iff, or_comm]

theorem exists_enumTypeOf_iff {a : Arg} : (∃ type, here.enumTypeOf s a = .ok type) ↔
    (a.enum ≠ [] → a.kind = .int ∨ a.kind = .uint →
      ∃ r type, resolve s here a.enum = .ok r ∧ r.typeRef here = .ok type) := by
  unfold enumTypeOf
  by_cases ht : takesEnum a = true
  · have hkind := takesEnum_iff.mp ht
    simp only [if_pos ht, Except.bind_eq_ok_iff]
    constructor
    · rintro ⟨type,r,hr,htype⟩ _ _
      exact ⟨r,type,hr,htype⟩
    · intro h
      obtain ⟨r,type,hr,htype⟩ := h hkind.1 hkind.2
      exact ⟨type,r,hr,htype⟩
  · simp only [if_neg ht]
    refine iff_of_true ⟨[],rfl⟩ ?_
    intro he hk
    exact absurd (takesEnum_iff.mpr ⟨he,hk⟩) ht

theorem exists_emitsArg_iff {a : Arg} :
    (∃ fields, here.EmitsArg s types a fields) ↔ here.AcceptsArg s a := by
  constructor
  · rintro ⟨fields,name,enumType,hn,he,-⟩
    exact ⟨⟨name,hn⟩,exists_enumTypeOf_iff.mp ⟨enumType,he⟩⟩
  · rintro ⟨⟨name,hn⟩,hr⟩
    obtain ⟨enumType,he⟩ := exists_enumTypeOf_iff.mpr hr
    exact ⟨_,name,enumType,hn,he,rfl⟩

theorem exists_emitsMessage_iff {m : Message} :
    (∃ decl, here.EmitsMessage s types m decl) ↔ here.AcceptsMessage s m := by
  have hargs : (∃ groups, List.Forall₂ (here.EmitsArg s types) m.args groups) ↔
      ∀ a ∈ m.args, here.AcceptsArg s a := by
    simp only [List.exists_forall₂_iff, exists_emitsArg_iff]
  constructor
  · rintro ⟨decl,hn,groups,hg,-⟩
    exact ⟨⟨decl.name,hn⟩,hargs.mp ⟨groups,hg⟩⟩
  · rintro ⟨⟨name,hn⟩,ha⟩
    obtain ⟨groups,hg⟩ := hargs.mpr ha
    exact ⟨⟨name,groups.flatten⟩,hn,groups,hg,rfl⟩

theorem exists_enumMember_iff {n : Naming} {x : Entry} :
    (∃ m, enumMember n x = .ok m) ↔ n.Allows x.name ∧ x.value ≤ maxEnumValue := by
  simp only [enumMember, Except.bind_eq_ok_iff, Naming.Allows]
  by_cases hv : x.value > maxEnumValue
  · have hle : ¬ x.value ≤ maxEnumValue := UInt64.not_le.mpr hv
    simp only [if_pos hv, hle, and_false, iff_false]
    rintro ⟨m,name,hn,h⟩
    cases h
  · have hle : x.value ≤ maxEnumValue := UInt64.not_lt.mp hv
    simp only [if_neg hv, hle, and_true]
    constructor
    · rintro ⟨m,name,hn,-⟩
      exact ⟨name,hn⟩
    · rintro ⟨name,hn⟩
      exact ⟨_,name,hn,rfl⟩

theorem exists_bitFieldDecl_iff {n : Naming} {f : BitField} :
    (∃ d, bitFieldDecl n f = .ok d) ↔ ∀ name, f.flagName? = some name → n.Allows name := by
  cases f with
  | flag name =>
    simp only [bitFieldDecl, Except.map_eq_ok_iff, BitField.flagName?, Option.some.injEq,
      forall_eq']
    constructor
    · rintro ⟨d,out,ho,-⟩
      exact ⟨out,ho⟩
    · rintro ⟨out,ho⟩
      exact ⟨_,out,ho,rfl⟩
  | padding bits =>
    refine iff_of_true ⟨_,rfl⟩ ?_
    intro name h
    cases h

/-- The flags whose names are checked are the single bits that have a name. -/
theorem mem_flags_iff {entries : List Entry} {name : Bytes} :
    name ∈ BitLayout.flags (BitLayout.fields entries) ↔
      ∃ x ∈ entries, BitLayout.isSingleBit x.value = true ∧ x.name ≠ [] ∧ x.name = name := by
  rw [(BitLayout.flags_perm entries).mem_iff]
  simp only [List.mem_map, List.mem_filter, Bool.and_eq_true, Bool.not_eq_true',
    List.isEmpty_eq_false_iff, and_assoc]

theorem exists_bitFields_iff {n : Naming} {entries : List Entry} :
    (∃ fields, List.Forall₂ (fun f d => bitFieldDecl n f = .ok d) (BitLayout.fields entries) fields) ↔
      ∀ x ∈ entries, BitLayout.isSingleBit x.value = true → x.name ≠ [] → n.Allows x.name := by
  simp only [List.exists_forall₂_iff, exists_bitFieldDecl_iff]
  constructor
  · intro h x hx hbit hne
    have hm := mem_flags_iff.mpr ⟨x,hx,hbit,hne,rfl⟩
    obtain ⟨f,hf,hflag⟩ := List.mem_filterMap.mp hm
    exact h f hf x.name hflag
  · intro h f hf name hflag
    have hm : name ∈ BitLayout.flags (BitLayout.fields entries) := List.mem_filterMap.mpr ⟨f,hf,hflag⟩
    obtain ⟨x,hx,hbit,hne,rfl⟩ := mem_flags_iff.mp hm
    exact h x hx hbit hne

theorem exists_enumDecl_iff {e : Enum} :
    (∃ decl, here.enumDecl e = .ok decl) ↔ here.AcceptsEnum e := by
  constructor
  · rintro ⟨decl,h⟩
    obtain ⟨name,hn,⟨hb,layout,fields,hl,hf,-⟩ | ⟨hb,members,hm,-⟩⟩ := enumDecl_cases h
    · obtain ⟨rfl,-⟩ := BitLayout.layout_eq_ok_iff.mp hl
      have hflags := exists_bitFields_iff.mp ⟨fields,hf⟩
      exact ⟨⟨name,hn⟩,by simp [hb],fun _ => ⟨_,hl⟩,fun _ => hflags⟩
    · have hmembers : ∀ x ∈ e.entries, here.naming.Allows x.name ∧ x.value ≤ maxEnumValue := by
        intro x hx
        obtain ⟨m,-,hxm⟩ := hm.exists_of_mem_left hx
        exact exists_enumMember_iff.mp ⟨m,hxm⟩
      exact ⟨⟨name,hn⟩,fun _ => hmembers,by simp [hb],by simp [hb]⟩
  · rintro ⟨⟨name,hn⟩,hmembers,hlayout,hflags⟩
    simp only [enumDecl, place_eq_ok_iff, Except.bind_eq_ok_iff]
    cases hb : e.bitfield with
    | false =>
      obtain ⟨members,hm⟩ := Except.exists_mapM_eq_ok_iff.mpr fun x hx =>
        exists_enumMember_iff.mpr (hmembers hb x hx)
      exact ⟨.plain name members,name,hn,by simp only [hm]; rfl⟩
    | true =>
      obtain ⟨layout,hl⟩ := hlayout hb
      obtain ⟨rfl,-⟩ := BitLayout.layout_eq_ok_iff.mp hl
      obtain ⟨fields,hf⟩ := exists_bitFields_iff.mpr (hflags hb)
      have hf := Except.mapM_eq_ok_iff.mpr hf
      refine ⟨.bitfield name fields,name,hn,?_⟩
      simp only [if_true, hl, bind, Except.bind, hf]
      rfl

theorem exists_interfaceDecl_iff :
    (∃ decl, here.interfaceDecl s types = .ok decl) ↔ here.Compilable s := by
  have hmessages (messages : List Message) :
      (∃ decls, List.Forall₂ (here.EmitsMessage s types) messages decls) ↔
        ∀ m ∈ messages, here.AcceptsMessage s m := by
    simp only [List.exists_forall₂_iff, exists_emitsMessage_iff]
  have henums : (∃ decls, List.Forall₂ (fun e d => here.enumDecl e = .ok d) here.interface.enums decls) ↔
      ∀ e ∈ here.interface.enums, here.AcceptsEnum e := by
    simp only [List.exists_forall₂_iff, exists_enumDecl_iff]
  simp only [interfaceDecl_eq_ok_iff]
  constructor
  · rintro ⟨decl,hn,hr,he,hs⟩
    exact ⟨⟨_,hn⟩,(hmessages _).mp ⟨_,hr⟩,(hmessages _).mp ⟨_,he⟩,henums.mp ⟨_,hs⟩⟩
  · rintro ⟨⟨name,hn⟩,hr,he,hs⟩
    obtain ⟨requests,hr⟩ := (hmessages _).mpr hr
    obtain ⟨events,he⟩ := (hmessages _).mpr he
    obtain ⟨enums,hs⟩ := henums.mpr hs
    exact ⟨⟨name,requests,events,enums⟩,hn,hr,he,hs⟩

end Acceptance

/-- The finding names no other place than this one. -/
def Concerns (here : Site) (d : Diagnostic) : Prop :=
  (d.document = [] ∨ d.document = here.document.name) ∧
    (d.interface = [] ∨ d.interface = here.interface.name)

structure Locates (here : Site) (d : Diagnostic) : Prop where
  document : d.document = here.document.name
  interface : d.interface = here.interface.name

section Failures

open Except (FailsWith)

variable {here : Site} {s : DocumentSet} {types : TypeMap}

theorem concerns_of_unplaced {d : Diagnostic} (hd : d.document = []) (hi : d.interface = []) :
    here.Concerns d :=
  ⟨.inl hd,.inl hi⟩

/-- An empty name of the document or interface leaves what the finding says already, and that is
the same name. -/
theorem Concerns.locates {d : Diagnostic} (h : here.Concerns d) (subject : Bytes) :
    here.Locates (placed here.document.name here.interface.name subject d) := by
  have hwithin : here.Locates (d.within here.document.name here.interface.name) := by
    refine ⟨?_,?_⟩
    · simp only [Diagnostic.within]
      split
      · rename_i hempty
        have hname : here.document.name = [] := List.isEmpty_iff.mp hempty
        rcases h.1 with hd | hd
        · rw [hd, hname]
        · exact hd
      · rfl
    · simp only [Diagnostic.within]
      split
      · rename_i hempty
        have hname : here.interface.name = [] := List.isEmpty_iff.mp hempty
        rcases h.2 with hi | hi
        · rw [hi, hname]
        · exact hi
      · rfl
  simp only [placed]
  split
  · exact ⟨hwithin.document,hwithin.interface⟩
  · exact hwithin

theorem place_failsWith {α : Type} {x : Except Diagnostic α} (hx : x.FailsWith here.Concerns)
    (subject : Bytes) : (here.place subject x).FailsWith here.Locates :=
  hx.mapError fun _ hd => hd.locates subject

theorem identifier_failsWith (n : Naming) (name : Bytes) :
    (n.identifier name).FailsWith here.Concerns := by
  intro d hd
  unfold Naming.identifier at hd
  split at hd
  · cases hd
  · cases hd
    exact concerns_of_unplaced rfl rfl

theorem resolve_failsWith (ref : Bytes) : (resolve s here ref).FailsWith here.Concerns := by
  intro d hd
  obtain ⟨hdoc,hi⟩ := resolve_error_names hd
  exact ⟨.inr hdoc,.inr hi⟩

/-- The names of a type belong to the document that declares it, and the finding says nothing of
that document. -/
theorem typeRef_failsWith (r : Resolution) : (r.typeRef here).FailsWith here.Concerns := by
  refine (identifier_failsWith _ _).bind ?_
  intro typeName
  split
  · exact Except.failsWith_ok _
  · refine (identifier_failsWith _ _).bind ?_
    intro interfaceName
    split
    · exact Except.failsWith_ok _
    · exact Except.failsWith_ok _

theorem argFields_failsWith (m : Message) (a : Arg) :
    (here.argFields s types m a).FailsWith here.Locates := by
  refine place_failsWith ?_ _
  refine (identifier_failsWith _ _).bind fun name => ?_
  refine Except.FailsWith.bind ?_ fun enumType => Except.failsWith_ok _
  unfold enumTypeOf
  split
  · exact (resolve_failsWith _).bind fun r => typeRef_failsWith r
  · exact Except.failsWith_ok _

theorem messageFields_failsWith (m : Message) :
    (here.messageFields s types m).FailsWith here.Locates :=
  (Except.FailsWith.mapM _ fun a => argFields_failsWith m a).bind fun _ => Except.failsWith_ok _

theorem enumMember_failsWith (n : Naming) (x : Entry) :
    (enumMember n x).FailsWith here.Concerns := by
  refine (identifier_failsWith _ _).bind fun name => ?_
  split
  · intro d hd
    cases hd
    exact concerns_of_unplaced rfl rfl
  · exact Except.failsWith_ok _

theorem layout_failsWith (entries : List Entry) :
    (BitLayout.layout entries).FailsWith here.Concerns := by
  intro d hd
  unfold BitLayout.layout at hd
  split at hd
  · cases hd
  · cases hd
    exact concerns_of_unplaced rfl rfl

theorem bitFieldDecl_failsWith (n : Naming) (f : BitField) :
    (bitFieldDecl n f).FailsWith here.Concerns := by
  cases f with
  | flag name =>
    intro d hd
    cases hn : n.identifier name with
    | ok out =>
      simp only [bitFieldDecl, hn] at hd
      cases hd
    | error found =>
      simp only [bitFieldDecl, hn] at hd
      cases hd
      exact identifier_failsWith n name d hn
  | padding bits => exact Except.failsWith_ok _

theorem enumDecl_failsWith (e : Enum) : (here.enumDecl e).FailsWith here.Locates := by
  refine place_failsWith ?_ _
  refine (identifier_failsWith _ _).bind fun name => ?_
  split
  · refine (layout_failsWith _).bind fun layout => ?_
    exact (Except.FailsWith.mapM _ (bitFieldDecl_failsWith _)).bind fun _ => Except.failsWith_ok _
  · exact (Except.FailsWith.mapM _ (enumMember_failsWith _)).bind fun _ => Except.failsWith_ok _

theorem interfaceDecl_failsWith : (here.interfaceDecl s types).FailsWith here.Locates := by
  have hnames (messages : List Message) : (messages.mapM here.messageName).FailsWith here.Locates :=
    Except.FailsWith.mapM _ fun _ => place_failsWith (identifier_failsWith _ _) _
  have hfields (messages : List Message) :
      (messages.mapM (here.messageFields s types)).FailsWith here.Locates :=
    Except.FailsWith.mapM _ messageFields_failsWith
  refine (place_failsWith (identifier_failsWith _ _) _).bind fun name => ?_
  refine (hnames _).bind fun requests => ?_
  refine (hnames _).bind fun events => ?_
  refine (hfields _).bind fun requestFields => ?_
  refine (hfields _).bind fun eventFields => ?_
  exact (Except.FailsWith.mapM _ enumDecl_failsWith).bind fun enums => Except.failsWith_ok _

end Failures

end Site

theorem exists_documentUnit_iff {s : DocumentSet} {settings : Settings} {types : TypeMap}
    {documentIndex : Nat} {d : Document} :
    (∃ text, documentUnit s settings types documentIndex d = .ok text) ↔
      ∀ here ∈ sites documentIndex d, here.Compilable s := by
  have hsites : (∃ decls, (sites documentIndex d).mapM (fun here => here.interfaceDecl s types) =
      .ok decls) ↔ ∀ here ∈ sites documentIndex d, here.Compilable s := by
    simp only [Except.exists_mapM_eq_ok_iff, Site.exists_interfaceDecl_iff]
  rw [← hsites]
  simp only [documentUnit, documentDecl, Except.map_eq_ok_iff, Except.bind_eq_ok_iff,
    Except.pure_eq_ok_iff]
  constructor
  · rintro ⟨text,u,⟨decls,hd,-⟩,-⟩
    exact ⟨decls,hd⟩
  · rintro ⟨decls,hd⟩
    exact ⟨_,_,⟨decls,hd,rfl⟩,rfl⟩

theorem documentUnit_error {s : DocumentSet} {settings : Settings} {types : TypeMap}
    {documentIndex : Nat} {d : Document} {found : Diagnostic}
    (h : documentUnit s settings types documentIndex d = .error found) :
    found.document = d.name ∧ ∃ before here after, sites documentIndex d = before ++ here :: after ∧
      (∀ other ∈ before, other.Compilable s) ∧ ¬ here.Compilable s ∧
      found.interface = here.interface.name := by
  have hsites : (sites documentIndex d).mapM (fun here => here.interfaceDecl s types) =
      .error found := by
    simp only [documentUnit, documentDecl] at h
    cases hm : (sites documentIndex d).mapM (fun here => here.interfaceDecl s types) with
    | ok decls =>
      rw [hm] at h
      cases h
    | error e =>
      rw [hm] at h
      cases h
      rfl
  obtain ⟨before,here,after,hsplit,hbefore,hhere⟩ := Except.mapM_eq_error hsites
  have hplace := Site.interfaceDecl_failsWith found hhere
  have hmem : here ∈ sites documentIndex d := by simp [hsplit]
  obtain ⟨i,-,hdoc,-⟩ := (sites_interfaces documentIndex d).exists_of_mem_right hmem
  refine ⟨by rw [hplace.document, hdoc],before,here,after,hsplit,?_,?_,hplace.interface⟩
  · intro other ho
    exact Site.exists_interfaceDecl_iff.mp (hbefore other ho)
  · intro hc
    have hdecl : ∃ decl, here.interfaceDecl s types = .ok decl := Site.exists_interfaceDecl_iff.mpr hc
    obtain ⟨decl,hok⟩ := hdecl
    rw [hhere] at hok
    cases hok

/-- A document is compiled exactly when each of its interfaces passes. Otherwise there is no text but
a finding in the name of the document and of the first interface that does not. -/
theorem documentUnit_accepts_iff (s : DocumentSet) (settings : Settings) (types : TypeMap)
    (documentIndex : Nat) (d : Document) :
    ((∃ text, documentUnit s settings types documentIndex d = .ok text) ↔
      ∀ here ∈ sites documentIndex d, here.Compilable s) ∧
    ((∃ here ∈ sites documentIndex d, ¬ here.Compilable s) →
      ∃ found, documentUnit s settings types documentIndex d = .error found ∧
        found.document = d.name ∧
        ∃ before here after, sites documentIndex d = before ++ here :: after ∧
          (∀ other ∈ before, other.Compilable s) ∧ ¬ here.Compilable s ∧
          found.interface = here.interface.name) := by
  refine ⟨exists_documentUnit_iff,?_⟩
  rintro ⟨here,hh,hc⟩
  cases hu : documentUnit s settings types documentIndex d with
  | ok text => exact absurd (exists_documentUnit_iff.mp ⟨text,hu⟩ here hh) hc
  | error found => exact ⟨found,rfl,documentUnit_error hu⟩

def misnamedDocument : Document :=
  { name := "formats"
    nameSpace := "px"
    interfaces := [{ name := "px_format", enums := [{ name := "pixel format" }] }] }

def borrowingDocument : Document :=
  { name := "p"
    nameSpace := "wl"
    interfaces := [{
      name := "wl_buffer"
      requests := [⟨"attach",.request,[⟨"f",.uint,"px_format.pixel format",[],false⟩]⟩] }] }

def borrowingSet : DocumentSet := { documents := [misnamedDocument,borrowingDocument] }

/-- A type that another document misnames is a finding about the document that refers to it. -/
theorem borrowingDocument_located :
    ∃ found, documentUnit borrowingSet {} {} 1 borrowingDocument = .error found ∧
      found.document = "p" ∧ found.interface = "wl_buffer" := by
  have haccepts := documentUnit_accepts_iff borrowingSet {} {} 1 borrowingDocument
  have hrefused : (documentUnit borrowingSet {} {} 1 borrowingDocument).isOk = false := by
    decide +kernel
  have hbad : ∃ here ∈ sites 1 borrowingDocument, ¬ here.Compilable borrowingSet := by
    by_contra hall
    have hc : ∀ here ∈ sites 1 borrowingDocument, here.Compilable borrowingSet := by
      simpa using hall
    obtain ⟨text,ht⟩ := haccepts.1.mpr hc
    rw [ht] at hrefused
    cases hrefused
  obtain ⟨found,hf,hdoc,before,here,after,hsplit,-,-,hi⟩ := haccepts.2 hbad
  refine ⟨found,hf,hdoc,?_⟩
  have hmem : here ∈ sites 1 borrowingDocument := by simp [hsplit]
  obtain rfl := List.mem_singleton.mp hmem
  exact hi

end WaylandZig.Zig
