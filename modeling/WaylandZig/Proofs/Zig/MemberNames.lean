import Mathlib.Data.List.Nodup
import WaylandZig.Proofs.Text.Utf8
import WaylandZig.Proofs.Zig.Bitfield
import WaylandZig.Proofs.Zig.DocumentUnit
import WaylandZig.Proofs.Zig.Qualification

/-! # Members of a container that are declared twice

The names that stand side by side in an interface all get the lead of its document, and only some of
them need it. Different requests, events or entries are therefore declared under one name exactly when
one of them is spelled like another with the lead in front. The types of enums are made of the words of
their names, so what counts for them is whether the capitalized words are different.
-/
namespace WaylandZig

namespace Lowercase

/-- Everything that is mapped is mapped past the punctuation in front of the small letters. -/
theorem lt_of_mem_runs : ∀ run ∈ runs, (0x60 : Int) < run.1 + run.2.2.2 := by
  decide +kernel

theorem eq_underscore_of_lowerChar {c : Char} (h : lowerChar c = '_') : c = '_' := by
  unfold lowerChar at h
  split at h
  · rename_i first last stride shift hf
    have hm := lt_of_mem_runs _ (List.mem_of_find?_eq_some hf)
    have hp := List.find?_some hf
    simp only [Bool.and_eq_true, decide_eq_true_eq] at hp
    have hn : 0x60 < ((c.toNat : Int) + shift).toNat := by
      have hle := hp.1.1
      simp only at hm
      omega
    have hc := congrArg Char.toNat h
    by_cases hv : ((c.toNat : Int) + shift).toNat.isValidChar
    · rw [Utf8.toNat_ofNat hv] at hc
      have hd : '_'.toNat = 0x5F := by decide
      omega
    · rw [Char.ofNat, dif_neg hv] at hc
      exact absurd hc (by decide)
  · exact h

theorem underscore_notMem_lower {text : Bytes} (h : Ascii.underscore ∉ text) :
    Ascii.underscore ∉ lower text := by
  intro hm
  simp only [lower, Bytes.ofChars, List.mem_flatMap, List.mem_map] at hm
  obtain ⟨c,⟨r,hr,rfl⟩,hc⟩ := hm
  have hlt : (lowerChar r.shown).toNat < 0x80 := by
    by_contra hge
    have hle := Utf8.le_of_mem_ofChar (Nat.le_of_not_lt hge) hc
    exact absurd hle (by decide)
  have hl : lowerChar r.shown = '_' := by
    have ha : (UInt8.ofNat (lowerChar r.shown).toNat).toNat = (lowerChar r.shown).toNat := by
      rw [UInt8.toNat_ofNat']
      omega
    have hb := Utf8.ofChar_ascii (a := UInt8.ofNat (lowerChar r.shown).toNat)
      (UInt8.lt_iff_toNat_lt.mpr (by rw [ha]; exact hlt))
    rw [ha, Char.ofNat_toNat] at hb
    rw [hb, List.mem_singleton] at hc
    have hn := congrArg UInt8.toNat hc
    rw [ha] at hn
    exact Char.toNat_inj.mp hn.symm
  have hs := eq_underscore_of_lowerChar hl
  cases r with
  | char c =>
    obtain rfl : c = '_' := hs
    exact h (Utf8.mem_of_mem_runes (b := Ascii.underscore) hr (by decide))
  | stray b =>
    have hne : Rune.replacement ≠ '_' := by decide
    exact hne hs

end Lowercase

namespace Zig

open Schema

namespace Naming

/-- No name is spelled like another one with the lead that this other one needs. -/
def KeepsApart (n : Naming) (names : List Bytes) : Prop :=
  ∀ name ∈ names, NeedsLead name → n.withLead name ∉ names

variable {n : Naming} {names outs : List Bytes}

theorem identifiers_eq_map
    (h : List.Forall₂ (fun name out => n.identifier name = .ok out) names outs) :
    outs = names.map n.qualify := by
  have hq := h.imp fun name out ho => (identifier_eq_ok_iff.mp ho).1
  have he : names.map n.qualify = outs.map id := List.forall₂_map_eq_iff.mp hq
  rw [he, List.map_id]

theorem qualify_withLead {a out : Bytes} (hl : startsWithLetter n.lead = true) (hn : NeedsLead a)
    (ha : n.identifier a = .ok out) : n.qualify (n.withLead a) = n.withLead a := by
  obtain ⟨hq,-⟩ := identifier_eq_ok_iff.mp ha
  rw [qualify_of_needsLead hn] at hq
  apply qualify_of_not_needsLead
  rintro (hr | hs)
  · rw [hq, not_isReserved_of_identifier ha] at hr
    cases hr
  · rw [startsWithLetter_withLead hl] at hs
    cases hs

theorem identifiers_nodup_iff
    (h : List.Forall₂ (fun name out => n.identifier name = .ok out) names outs)
    (hl : startsWithLetter n.lead = true) (hn : names.Nodup) :
    outs.Nodup ↔ n.KeepsApart names := by
  rw [identifiers_eq_map h, List.nodup_map_iff_inj_on hn]
  constructor
  · intro hinj a ha hna hw
    obtain ⟨out,-,ho⟩ := h.exists_of_mem_left ha
    have he : n.qualify (n.withLead a) = n.qualify a := by
      rw [qualify_withLead hl hna ho, qualify_of_needsLead hna]
    exact n.withLead_ne a (hinj _ hw a ha he)
  · intro hk a ha b hb he
    by_cases hna : NeedsLead a
    · by_cases hnb : NeedsLead b
      · rw [qualify_of_needsLead hna, qualify_of_needsLead hnb, withLead, withLead] at he
        exact List.append_cancel_left he
      · rw [qualify_of_needsLead hna, qualify_of_not_needsLead hnb] at he
        exact absurd (he ▸ hb) (hk a ha hna)
    · by_cases hnb : NeedsLead b
      · rw [qualify_of_not_needsLead hna, qualify_of_needsLead hnb] at he
        exact absurd (he ▸ ha) (hk b hb hnb)
      · rwa [qualify_of_not_needsLead hna, qualify_of_not_needsLead hnb] at he

theorem underscore_notMem_capitalize {word : Bytes} (h : Ascii.underscore ∉ word) :
    Ascii.underscore ∉ capitalize word := by
  cases word with
  | nil => simp [capitalize]
  | cons b rest =>
    simp only [List.mem_cons, not_or] at h
    rw [capitalize, List.mem_append, not_or]
    refine ⟨?_,Lowercase.underscore_notMem_lower h.2⟩
    unfold upperFirst
    split
    · intro hm
      have hu := List.mem_singleton.mp hm
      unfold Ascii.toUpper at hu
      split at hu
      · rename_i hb
        -- A capital letter is none of the punctuation behind the capital letters.
        have hall : ∀ k < 256, Ascii.isLower (UInt8.ofNat k) = true →
            Ascii.underscore ≠ UInt8.ofNat k - 0x20 := by
          decide +kernel
        have hk := hall b.toNat b.toNat_lt
        rw [UInt8.ofNat_toNat] at hk
        exact hk hb hu
      · exact h.1 hu
    · decide

theorem underscore_notMem_initialCaps (name : Bytes) : Ascii.underscore ∉ initialCaps name := by
  intro hm
  obtain ⟨word,hw,hm⟩ := List.mem_flatMap.mp hm
  exact underscore_notMem_capitalize (Bytes.notMem_of_mem_splitOn hw) hm

/-- A type name with the lead has an underscore, and capitalized words have none. -/
theorem keepsApart_initialCaps (n : Naming) (names : List Bytes) :
    n.KeepsApart (names.map initialCaps) := by
  intro caps _ _ hm
  obtain ⟨name,-,he⟩ := List.mem_map.mp hm
  apply underscore_notMem_initialCaps name
  rw [he, withLead_eq]
  simp

theorem enumTypes_nodup_iff
    (h : List.Forall₂ (fun name out => n.enumType name = .ok out) names outs)
    (hl : startsWithLetter n.lead = true) :
    outs.Nodup ↔ (names.map initialCaps).Nodup := by
  have hi : List.Forall₂ (fun caps out => n.identifier caps = .ok out) (names.map initialCaps) outs :=
    List.forall₂_map_left_iff.mpr h
  constructor
  · intro ho
    rw [identifiers_eq_map hi] at ho
    exact ho.of_map _
  · intro hn
    exact (identifiers_nodup_iff hi hl hn).mpr (n.keepsApart_initialCaps names)

end Naming

section Entries

/-- The entries that a declaration has a member for. -/
def memberEntries (e : Enum) : List Entry :=
  if e.bitfield then e.entries.filter fun x => BitLayout.isSingleBit x.value && !x.name.isEmpty
  else e.entries

def EnumDecl.members : EnumDecl → List Bytes
  | .plain _ members => members.map EnumMember.name
  | .bitfield _ fields => BitLayout.flags fields

theorem BitLayout.flags_gap (bits : Nat) : flags (gap bits) = [] := by
  unfold gap
  split
  · rfl
  · rfl

theorem BitLayout.flags_fieldsFrom (entries : List Entry) (next : Nat) :
    flags (fieldsFrom entries next) = (entries.filter fun x => !x.name.isEmpty).map Entry.name := by
  induction entries generalizing next with
  | nil => exact flags_gap _
  | cons x rest ih =>
    have hg := flags_gap (bitIndex x.value - next)
    have hr := ih (bitIndex x.value + 1)
    simp only [flags] at hg hr ⊢
    rw [fieldsFrom, List.filterMap_append, hg, List.nil_append, List.filterMap_cons, hr]
    by_cases hx : x.name.isEmpty = true
    · simp [BitField.ofEntry, BitField.flagName?, hx]
    · simp [BitField.ofEntry, BitField.flagName?, hx]

/-- The flags of a layout are the names of its single bits in another order. -/
theorem BitLayout.flags_perm (entries : List Entry) : (flags (fields entries)).Perm
    ((entries.filter fun x => isSingleBit x.value && !x.name.isEmpty).map Entry.name) := by
  rw [fields, flags_fieldsFrom, List.filter_filter]
  have hf : (fun x : Entry => !x.name.isEmpty && isSingleBit x.value) =
      fun x => isSingleBit x.value && !x.name.isEmpty := by
    funext x
    exact Bool.and_comm _ _
  rw [hf]
  exact ((List.mergeSort_perm _ _).filter _).map _

theorem bitFields_identifiers {n : Naming} {layout fields : List BitField}
    (h : List.Forall₂ (fun f d => Site.bitFieldDecl n f = .ok d) layout fields) :
    List.Forall₂ (fun name out => n.identifier name = .ok out) (BitLayout.flags layout)
      (BitLayout.flags fields) := by
  induction h with
  | nil => exact .nil
  | @cons f d _ _ hf _ ih =>
    cases f with
    | flag name =>
      obtain ⟨out,ho,rfl⟩ := Except.map_eq_ok_iff.mp hf
      exact .cons ho ih
    | padding bits =>
      cases hf
      exact ih

variable {here : Site} {e : Enum} {decl : EnumDecl}

/-- The members of a declaration are the identifiers of its entries, up to their order. -/
theorem Site.enumDecl_members (h : here.enumDecl e = .ok decl) :
    ∃ names, names.Perm ((memberEntries e).map Entry.name) ∧
      List.Forall₂ (fun name out => here.naming.identifier name = .ok out) names decl.members := by
  obtain ⟨name,-,⟨hb,layout,fields,hl,hf,rfl⟩ | ⟨hb,members,hm,rfl⟩⟩ := Site.enumDecl_cases h
  · obtain ⟨rfl,-⟩ := BitLayout.layout_eq_ok_iff.mp hl
    refine ⟨_,?_,bitFields_identifiers hf⟩
    rw [memberEntries, if_pos hb]
    exact BitLayout.flags_perm e.entries
  · refine ⟨_,.refl _,?_⟩
    rw [memberEntries, if_neg (by simp [hb])]
    simp only [EnumDecl.members, List.forall₂_map_left_iff, List.forall₂_map_right_iff]
    refine hm.imp ?_
    intro x m hx
    obtain ⟨out,ho,hx⟩ := Except.bind_eq_ok_iff.mp hx
    split at hx
    · cases hx
    · cases hx
      exact ho

theorem Site.enumDecl_members_nodup_iff (h : here.enumDecl e = .ok decl)
    (hn : (e.entries.map Entry.name).Nodup) :
    decl.members.Nodup ↔ here.naming.KeepsApart ((memberEntries e).map Entry.name) := by
  obtain ⟨names,hp,hi⟩ := Site.enumDecl_members h
  have hsub : ((memberEntries e).map Entry.name).Sublist (e.entries.map Entry.name) := by
    unfold memberEntries
    split
    · exact List.filter_sublist.map _
    · exact .refl _
  have hd : names.Nodup := hp.nodup_iff.mpr (hn.sublist hsub)
  rw [Naming.identifiers_nodup_iff hi (Naming.startsWithLetter_lead _) hd]
  simp only [Naming.KeepsApart, hp.mem_iff]

end Entries

/-- Where different names of a container are declared under different ones. -/
structure DeclaresApart (n : Naming) (i : Interface) (decl : InterfaceDecl) : Prop where
  requests : (i.requests.map Message.name).Nodup →
    ((decl.requests.map MessageDecl.name).Nodup ↔ n.KeepsApart (i.requests.map Message.name))
  events : (i.events.map Message.name).Nodup →
    ((decl.events.map MessageDecl.name).Nodup ↔ n.KeepsApart (i.events.map Message.name))
  enums : (decl.enums.map EnumDecl.name).Nodup ↔
    ((i.enums.map Enum.name).map Naming.initialCaps).Nodup
  entries : List.Forall₂ (fun (e : Enum) (d : EnumDecl) => (e.entries.map Entry.name).Nodup →
    (d.members.Nodup ↔ n.KeepsApart ((memberEntries e).map Entry.name))) i.enums decl.enums

section Interfaces

variable {here : Site} {s : DocumentSet} {types : TypeMap}

theorem Site.messages_nodup_iff {messages : List Message} {decls : List MessageDecl}
    (h : List.Forall₂ (here.EmitsMessage s types) messages decls)
    (hn : (messages.map Message.name).Nodup) :
    (decls.map MessageDecl.name).Nodup ↔ here.naming.KeepsApart (messages.map Message.name) := by
  refine Naming.identifiers_nodup_iff ?_ (Naming.startsWithLetter_lead _) hn
  rw [List.forall₂_map_left_iff, List.forall₂_map_right_iff]
  exact h.imp fun _ _ hm => hm.1

theorem Site.EmitsInterface.declaresApart {decl : InterfaceDecl}
    (h : here.EmitsInterface s types decl) : DeclaresApart here.naming here.interface decl where
  requests := Site.messages_nodup_iff h.requests
  events := Site.messages_nodup_iff h.events
  enums := by
    refine Naming.enumTypes_nodup_iff ?_ (Naming.startsWithLetter_lead here.document.nameSpace)
    rw [List.forall₂_map_left_iff, List.forall₂_map_right_iff]
    exact h.enums.imp fun _ _ he => Site.enumType_of_enumDecl he
  entries := h.enums.imp fun _ _ he hn => Site.enumDecl_members_nodup_iff he hn

end Interfaces

/-- In every interface of a unit, different requests, events, enums and entries have different
declarations exactly when the lead and the capitals keep their names apart. -/
theorem documentUnit_members_nodup_iff {s : DocumentSet} {settings : Settings} {types : TypeMap}
    {documentIndex : Nat} {d : Document} {text : Bytes}
    (h : documentUnit s settings types documentIndex d = .ok text) :
    ∃ u, documentDecl s settings types documentIndex d = .ok u ∧
      text = SourceTree.text settings.indentSize.toNat u.trees ∧
      List.Forall₂ (DeclaresApart (Naming.ofNameSpace d.nameSpace)) d.interfaces u.interfaces := by
  obtain ⟨u,hu,ht⟩ := documentUnit_eq_ok_iff.mp h
  refine ⟨u,documentDecl_eq_ok_iff.mpr hu,ht,?_⟩
  refine (sites_interfaces documentIndex d).comp ?_ hu.interfaces
  rintro i here decl ⟨rfl,rfl⟩ he
  exact he.declaresApart

/-- Reserved names beside names that end like them, and enums whose words fall together. -/
def apartDocument : Document :=
  { name := "p"
    nameSpace := "wl"
    interfaces := [{
      name := "wl_a"
      requests := [⟨"error",.request,[]⟩,⟨"id_error",.request,[]⟩]
      events := [⟨"type",.event,[]⟩,⟨"wl",.event,[]⟩]
      enums := [
        { name := "foo_bar", entries := [⟨"1",0,false⟩,⟨"id_1",1,false⟩] },
        { name := "foobar", bitfield := true, entries := [⟨"null",4,false⟩] }] }] }

theorem apartDocument_members : ∃ text u i,
    documentUnit { documents := [apartDocument] } {} {} 0 apartDocument = .ok text ∧
    documentDecl { documents := [apartDocument] } {} {} 0 apartDocument = .ok u ∧
    u.interfaces = [i] ∧ (i.requests.map MessageDecl.name).Nodup ∧
    (i.events.map MessageDecl.name).Nodup ∧ (i.enums.map EnumDecl.name).Nodup ∧
    ∀ e ∈ i.enums, e.members.Nodup := by
  have hd : (documentUnit { documents := [apartDocument] } {} {} 0 apartDocument).isOk = true := by
    decide +kernel
  obtain ⟨text,h⟩ := Except.exists_of_isOk hd
  obtain ⟨u,hu,-,hi⟩ := documentUnit_members_nodup_iff h
  obtain ⟨i,rest,ha,hr,he⟩ := List.forall₂_cons_left_iff.mp hi
  obtain rfl := List.forall₂_nil_left_iff.mp hr
  have hn : ∀ e ∈ apartDocument.interfaces.flatMap Interface.enums, (e.entries.map Entry.name).Nodup ∧
      (Naming.ofNameSpace "wl").KeepsApart ((memberEntries e).map Entry.name) := by
    simp only [Naming.KeepsApart]
    decide +kernel
  refine ⟨text,u,i,h,hu,he,(ha.requests ?_).mpr ?_,(ha.events ?_).mpr ?_,ha.enums.mpr ?_,?_⟩
  · decide +kernel
  · simp only [Naming.KeepsApart]
    decide +kernel
  · decide +kernel
  · simp only [Naming.KeepsApart]
    decide +kernel
  · decide +kernel
  · intro e hm
    obtain ⟨x,hx,hiff⟩ := ha.entries.exists_of_mem_right hm
    obtain ⟨hnodup,hapart⟩ := hn x hx
    exact (hiff hnodup).mpr hapart

/-- In every container, a name beside the same name with the lead, or in capitals. -/
def mergedDocument : Document :=
  { name := "p"
    nameSpace := "wl"
    interfaces := [{
      name := "wl_a"
      requests := [⟨"error",.request,[]⟩,⟨"wl_error",.request,[]⟩]
      events := [⟨"type",.event,[]⟩,⟨"wl_type",.event,[]⟩]
      enums := [
        { name := "mode", entries := [⟨"1",0,false⟩,⟨"wl_1",1,false⟩] },
        { name := "MODE", entries := [⟨"null",1,false⟩,⟨"wl_null",2,false⟩] }] }] }

theorem mergedDocument_members_not_nodup : ∃ text u i decl,
    documentUnit { documents := [mergedDocument] } {} {} 0 mergedDocument = .ok text ∧
    documentDecl { documents := [mergedDocument] } {} {} 0 mergedDocument = .ok u ∧
    mergedDocument.interfaces = [i] ∧ u.interfaces = [decl] ∧
    ((i.requests.map Message.name).Nodup ∧ ¬ (decl.requests.map MessageDecl.name).Nodup) ∧
    ((i.events.map Message.name).Nodup ∧ ¬ (decl.events.map MessageDecl.name).Nodup) ∧
    ((i.enums.map Enum.name).Nodup ∧ ¬ (decl.enums.map EnumDecl.name).Nodup) ∧
    (∀ e ∈ i.enums, (e.entries.map Entry.name).Nodup) ∧ ∀ e ∈ decl.enums, ¬ e.members.Nodup := by
  have hdoc : (documentUnit { documents := [mergedDocument] } {} {} 0 mergedDocument).isOk = true ∧
      (documentDecl { documents := [mergedDocument] } {} {} 0 mergedDocument).map (fun u =>
        decide (∀ decl ∈ u.interfaces, ¬ (decl.requests.map MessageDecl.name).Nodup ∧
          ¬ (decl.events.map MessageDecl.name).Nodup ∧ ¬ (decl.enums.map EnumDecl.name).Nodup ∧
          ∀ e ∈ decl.enums, ¬ e.members.Nodup)) = .ok true := by
    decide +kernel
  obtain ⟨text,h⟩ := Except.exists_of_isOk hdoc.1
  obtain ⟨u,hu,-⟩ := documentUnit_eq_ok_iff.mp h
  have hd := documentDecl_eq_ok_iff.mpr hu
  obtain ⟨decl,rest,-,hr,he⟩ := List.forall₂_cons_left_iff.mp hu.interfaces
  obtain rfl := List.forall₂_nil_left_iff.mp hr
  have hdup := hdoc.2
  rw [hd] at hdup
  obtain ⟨hreq,hev,henum,hentry⟩ :=
    of_decide_eq_true (Except.ok.inj hdup) decl (he ▸ List.mem_singleton_self decl)
  refine ⟨text,u,_,decl,h,hd,rfl,he,⟨?_,hreq⟩,⟨?_,hev⟩,⟨?_,henum⟩,?_,hentry⟩
  · decide +kernel
  · decide +kernel
  · decide +kernel
  · decide +kernel

end Zig

end WaylandZig
