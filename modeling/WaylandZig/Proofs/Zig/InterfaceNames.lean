import Mathlib.Data.List.Nodup
import Mathlib.Data.List.Infix
import WaylandZig.Proofs.Schema.NameSpace
import WaylandZig.Proofs.Zig.DeclaredNames
import WaylandZig.Proofs.Zig.Qualification

/-! # Interfaces of a unit that are declared twice

An interface is declared under what is left of its name behind the name space, with the lead in front
where that is needed. Both steps can bring two names together. A name that does not go on with an
underscore behind the name space is left as it is, and another name may leave the same; and what is
left of a name may be spelled like the rest of another one with its lead. Nothing else does, as every
name begins with the name space that was inferred from them.
-/
namespace WaylandZig.Zig

open Schema SourceTree

namespace Naming

/-- What is left of the name of an interface behind the name space. -/
def remainder (n : Naming) (name : Bytes) : Bytes :=
  if n.nameSpace.isEmpty then name else name.dropLead (n.nameSpace ++ "_")

/-- The name with the name space in front. -/
def inNameSpace (n : Naming) (name : Bytes) : Bytes :=
  if n.nameSpace.isEmpty then name else n.nameSpace ++ "_" ++ name

variable {n : Naming} {a b : Bytes} {names : List Bytes}

theorem interface_eq (n : Naming) (name : Bytes) : n.interface name = n.identifier (n.remainder name) :=
  rfl

theorem remainder_inNameSpace (n : Naming) (name : Bytes) : n.remainder (n.inNameSpace name) = name := by
  unfold remainder inNameSpace
  split
  · rfl
  · have hp : Bytes.startsWith (n.nameSpace ++ "_" ++ name) (n.nameSpace ++ "_") = true :=
      List.isPrefixOf_iff_prefix.mpr (List.prefix_append _ _)
    rw [Bytes.dropLead, if_pos hp, List.drop_left]

/-- A name stands in the name space, or nothing of it is dropped. -/
theorem remainder_cases (n : Naming) (name : Bytes) : n.inNameSpace (n.remainder name) = name ∨
    (n.nameSpace ≠ [] ∧ ¬ n.nameSpace ++ ("_" : Bytes) <+: name ∧ n.remainder name = name) := by
  by_cases he : n.nameSpace.isEmpty = true
  · left
    rw [inNameSpace, if_pos he, remainder, if_pos he]
  · rw [inNameSpace, if_neg he, remainder, if_neg he, Bytes.dropLead]
    split
    · rename_i hp
      left
      obtain ⟨rest,rfl⟩ := List.isPrefixOf_iff_prefix.mp hp
      rw [List.drop_left]
    · rename_i hp
      right
      refine ⟨fun hn => he (by rw [hn]; rfl),?_,rfl⟩
      intro hpre
      exact hp (List.isPrefixOf_iff_prefix.mpr hpre)

theorem inNameSpace_ne (hn : n.nameSpace ≠ []) (name : Bytes) : n.inNameSpace name ≠ name := by
  have he : ¬ n.nameSpace.isEmpty = true := fun he => hn (List.isEmpty_iff.mp he)
  intro h
  have hl := congrArg List.length h
  simp only [inNameSpace, if_neg he, List.length_append] at hl
  have hu : (Bytes.ofString "_").length = 1 := by decide
  omega

/-- Of two names with one remainder, one is the other with the name space in front. -/
theorem eq_of_remainder_eq (h : n.remainder a = n.remainder b) :
    a = b ∨ (n.remainder a = a ∧ n.inNameSpace a = b) ∨ (n.remainder b = b ∧ n.inNameSpace b = a) := by
  obtain ha | ⟨-,-,ha⟩ := n.remainder_cases a
  · obtain hb | ⟨-,-,hb⟩ := n.remainder_cases b
    · left
      rw [← ha, h, hb]
    · right
      right
      refine ⟨hb,?_⟩
      rw [← hb, ← h, ha]
  · obtain hb | ⟨-,-,hb⟩ := n.remainder_cases b
    · right
      left
      refine ⟨ha,?_⟩
      rw [← ha, h, hb]
    · left
      rw [← ha, h, hb]

/-- Remainders are different exactly when no name that is left as it is occurs in the name space as
well. -/
theorem remainders_nodup_iff (hn : names.Nodup) : (names.map n.remainder).Nodup ↔
    (n.nameSpace ≠ [] → ∀ name ∈ names, n.remainder name = name → n.inNameSpace name ∉ names) := by
  rw [List.nodup_map_iff_inj_on hn]
  constructor
  · intro h hne name hm hr hs
    have he := h _ hs name hm (by rw [remainder_inNameSpace, hr])
    exact inNameSpace_ne hne name he
  · intro h a ha b hb he
    by_cases hne : n.nameSpace = []
    · have hr (name : Bytes) : n.remainder name = name := by
        rw [remainder, hne]
        rfl
      rwa [hr, hr] at he
    obtain hab | ⟨hr,hs⟩ | ⟨hr,hs⟩ := eq_of_remainder_eq he
    · exact hab
    · exact absurd (hs ▸ hb) (h hne a ha hr)
    · exact absurd (hs ▸ ha) (h hne b hb hr)

/-- The fallback is the lead only of a name space that no name with the fallback in front begins
with. -/
theorem lead_eq_nameSpace {nameSpace rest : Bytes} (hn : nameSpace ≠ [])
    (ht : Ascii.underscore ∉ nameSpace) (h : nameSpace <+: (ofNameSpace nameSpace).withLead rest) :
    (ofNameSpace nameSpace).lead = nameSpace := by
  by_cases hi : (startsWithLetter nameSpace && isIdentifier nameSpace) = true
  · exact if_pos hi
  have hl : (ofNameSpace nameSpace).lead = fallbackLead := if_neg hi
  rw [withLead, hl] at h
  -- Of the fallback and its underscore, every beginning without the underscore is an identifier.
  have hstart : ∀ w ∈ (fallbackLead ++ "_").inits, w ≠ [] → Ascii.underscore ∉ w →
      (startsWithLetter w && isIdentifier w) = true := by decide +kernel
  rcases List.prefix_or_prefix_of_prefix h (List.prefix_append _ _) with hp | hp
  · exact absurd (hstart nameSpace ((List.mem_inits _ _).mpr hp) hn ht) hi
  · exact absurd (hp.subset (by decide)) ht

/-- A name with the lead in front that begins with the name space stands in the name space. -/
theorem prefix_withLead {nameSpace rest : Bytes} (hn : nameSpace ≠ [])
    (ht : Ascii.underscore ∉ nameSpace) (h : nameSpace <+: (ofNameSpace nameSpace).withLead rest) :
    nameSpace ++ ("_" : Bytes) <+: (ofNameSpace nameSpace).withLead rest := by
  rw [withLead, lead_eq_nameSpace hn ht h]
  exact List.prefix_append _ _

theorem withLead_mem_remainders_iff {nameSpace rest : Bytes} (ht : Ascii.underscore ∉ nameSpace)
    (hp : ∀ name ∈ names, nameSpace <+: name) :
    (ofNameSpace nameSpace).withLead rest ∈ names.map (ofNameSpace nameSpace).remainder ↔
      (ofNameSpace nameSpace).inNameSpace ((ofNameSpace nameSpace).withLead rest) ∈ names := by
  constructor
  · intro hm
    obtain ⟨name,hname,he⟩ := List.mem_map.mp hm
    obtain hs | ⟨hn,hl,hr⟩ := (ofNameSpace nameSpace).remainder_cases name
    · rwa [← he, hs]
    · -- A name of which nothing is dropped does not begin with the name space and an underscore.
      have hb := hp name hname
      rw [hr] at he
      rw [he] at hl hb
      exact absurd (prefix_withLead hn ht hb) hl
  · intro hm
    exact List.mem_map.mpr ⟨_,hm,remainder_inNameSpace _ _⟩

/-- No name occurs with the name space in front unless it stands in it already, and no name is spelled
like another one in the name space with the lead that this other one needs. -/
structure Separates (n : Naming) (names : List Bytes) : Prop where
  nameSpace : n.nameSpace ≠ [] →
    ∀ name ∈ names, n.remainder name = name → n.inNameSpace name ∉ names
  lead : ∀ name ∈ names, NeedsLead (n.remainder name) →
    n.inNameSpace (n.withLead (n.remainder name)) ∉ names

/-- The declaration names of different names in one name space. -/
theorem interfaces_nodup_iff {nameSpace : Bytes} {outs : List Bytes}
    (h : List.Forall₂ (fun name out => (ofNameSpace nameSpace).interface name = .ok out) names outs)
    (hn : names.Nodup) (ht : Ascii.underscore ∉ nameSpace) (hp : ∀ name ∈ names, nameSpace <+: name) :
    outs.Nodup ↔ (ofNameSpace nameSpace).Separates names := by
  let n := ofNameSpace nameSpace
  let items := names.map fun name => (n,n.remainder name)
  have hnames : List.Forall₂ (fun name out => n.identifier (n.remainder name) = .ok out) names outs :=
    h.imp fun name _ ho => (n.interface_eq name).symm.trans ho
  have hi : Identifiers items outs := List.forall₂_map_left_iff.mpr hnames
  have hsnd : items.map Prod.snd = names.map n.remainder := by
    rw [List.map_map]
    rfl
  have hlead : ∀ p ∈ items, p.1.LeadIsToken := by
    intro p hm
    obtain ⟨name,-,rfl⟩ := List.mem_map.mp hm
    exact leadIsToken_ofNameSpace ht
  have hiff (hr : (names.map n.remainder).Nodup) : outs.Nodup ↔
      ∀ name ∈ names, NeedsLead (n.remainder name) →
        n.inNameSpace (n.withLead (n.remainder name)) ∉ names := by
    rw [hi.nodup_iff hlead (hsnd ▸ hr), hsnd, List.forall_mem_map]
    simp only [n, withLead_mem_remainders_iff ht hp]
  constructor
  · intro ho
    have hr : (names.map n.remainder).Nodup := by
      -- A name is declared by what is left of it, so different names leave different rests.
      have hf : (names.map n.remainder).map n.identifier = outs.map .ok := by
        rw [List.map_map]
        exact List.forall₂_map_eq_iff.mp hnames
      refine List.Nodup.of_map n.identifier ?_
      rw [hf]
      exact ho.map fun _ _ he => Except.ok.inj he
    exact ⟨(remainders_nodup_iff hn).mp hr,(hiff hr).mp ho⟩
  · intro hs
    exact (hiff ((remainders_nodup_iff hn).mpr hs.nameSpace)).mpr hs.lead

end Naming

theorem EmitsUnit.interfaceNames {s : DocumentSet} {settings : Settings} {types : TypeMap}
    {documentIndex : Nat} {d : Document} {u : UnitDecl}
    (h : EmitsUnit s settings types documentIndex d u) :
    List.Forall₂ (fun name out => (Naming.ofNameSpace d.nameSpace).interface name = .ok out)
      d.interfaceNames (u.interfaces.map InterfaceDecl.name) := by
  simp only [Document.interfaceNames, List.forall₂_map_left_iff, List.forall₂_map_right_iff]
  refine (sites_interfaces documentIndex d).comp ?_ h.interfaces
  rintro i here decl ⟨rfl,rfl⟩ he
  exact he.name

theorem EmitsUnit.declaredNames_eq {s : DocumentSet} {settings : Settings} {types : TypeMap}
    {documentIndex : Nat} {d : Document} {u : UnitDecl}
    (h : EmitsUnit s settings types documentIndex d u) :
    declaredNames u.trees = ("types" : Bytes) :: u.interfaces.map InterfaceDecl.name := by
  refine declaredNames_unit ?_ ?_
  · intro line hl
    rw [h.notice] at hl
    exact declaredName?_comment (mem_noticeLines hl).2
  · intro i hi
    obtain ⟨here,-,he⟩ := h.interfaces.exists_of_mem_right hi
    exact Naming.isWordName_of_identifier he.name

/-- A document unit declares the import of the types unit and its interfaces in order. It declares an
interface name twice exactly when two names meet behind the name space. -/
theorem documentUnit_interfaces_nodup_iff {s : DocumentSet} {settings : Settings} {types : TypeMap}
    {documentIndex : Nat} {d : Document} {text : Bytes} (hn : d.interfaceNames.Nodup)
    (hs : d.nameSpace = NameSpace.infer d.interfaceNames)
    (h : documentUnit s settings types documentIndex d = .ok text) :
    ∃ u, documentDecl s settings types documentIndex d = .ok u ∧
      text = SourceTree.text settings.indentSize.toNat u.trees ∧
      declaredNames u.trees = ("types" : Bytes) :: u.interfaces.map InterfaceDecl.name ∧
      u.interfaces.length = d.interfaces.length ∧
      ((u.interfaces.map InterfaceDecl.name).Nodup ↔
        (Naming.ofNameSpace d.nameSpace).Separates d.interfaceNames) := by
  obtain ⟨u,hu,ht⟩ := documentUnit_eq_ok_iff.mp h
  have hl : u.interfaces.length = d.interfaces.length := by
    rw [← hu.interfaces.length_eq, (sites_interfaces documentIndex d).length_eq]
  refine ⟨u,documentDecl_eq_ok_iff.mpr hu,ht,hu.declaredNames_eq,hl,?_⟩
  refine Naming.interfaces_nodup_iff hu.interfaceNames hn ?_ ?_
  · rw [hs]
    exact NameSpace.underscore_notMem_infer _
  · intro name hm
    rw [hs]
    exact NameSpace.infer_isPrefix hm

/-- Rests that are reserved, end in a reserved word, or are the name space once more. -/
def separateDocument : Document :=
  { name := "p"
    nameSpace := "wl"
    interfaces := [{ name := "wl_error" },{ name := "wl_wl" },{ name := "wl_id_error" }] }

theorem separateDocument_interfaces : ∃ text u,
    separateDocument.interfaceNames.Nodup ∧
    separateDocument.nameSpace = NameSpace.infer separateDocument.interfaceNames ∧
    documentUnit { documents := [separateDocument] } {} {} 0 separateDocument = .ok text ∧
    documentDecl { documents := [separateDocument] } {} {} 0 separateDocument = .ok u ∧
    (u.interfaces.map InterfaceDecl.name).Nodup := by
  have hn : separateDocument.interfaceNames.Nodup := by decide +kernel
  have hs : separateDocument.nameSpace = NameSpace.infer separateDocument.interfaceNames := by
    decide +kernel
  have hdoc : (documentUnit { documents := [separateDocument] } {} {} 0 separateDocument).isOk = true ∧
      ∀ name ∈ separateDocument.interfaceNames,
        NeedsLead ((Naming.ofNameSpace "wl").remainder name) →
        (Naming.ofNameSpace "wl").inNameSpace ((Naming.ofNameSpace "wl").withLead
          ((Naming.ofNameSpace "wl").remainder name)) ∉ separateDocument.interfaceNames := by
    decide +kernel
  obtain ⟨text,h⟩ := Except.exists_of_isOk hdoc.1
  obtain ⟨u,hu,-,-,-,hiff⟩ := documentUnit_interfaces_nodup_iff hn hs h
  exact ⟨text,u,hn,hs,h,hu,hiff.mpr ⟨by decide +kernel,hdoc.2⟩⟩

/-- A name that is the name space, and one that repeats it. -/
def repeatedNameSpace : Document :=
  { name := "p", nameSpace := "wl", interfaces := [{ name := "wl" },{ name := "wl_wl" }] }

theorem repeatedNameSpace_interfaces_not_nodup : ∃ text u,
    repeatedNameSpace.interfaceNames.Nodup ∧
    repeatedNameSpace.nameSpace = NameSpace.infer repeatedNameSpace.interfaceNames ∧
    documentUnit { documents := [repeatedNameSpace] } {} {} 0 repeatedNameSpace = .ok text ∧
    documentDecl { documents := [repeatedNameSpace] } {} {} 0 repeatedNameSpace = .ok u ∧
    ¬ (u.interfaces.map InterfaceDecl.name).Nodup := by
  have hdoc : (documentUnit { documents := [repeatedNameSpace] } {} {} 0 repeatedNameSpace).isOk =
        true ∧
      (documentDecl { documents := [repeatedNameSpace] } {} {} 0 repeatedNameSpace).map
        (fun u => decide (u.interfaces.map InterfaceDecl.name).Nodup) = .ok false := by
    decide +kernel
  obtain ⟨text,h⟩ := Except.exists_of_isOk hdoc.1
  obtain ⟨u,hu,-⟩ := documentUnit_eq_ok_iff.mp h
  have hd := documentDecl_eq_ok_iff.mpr hu
  have hdup := hdoc.2
  rw [hd] at hdup
  exact ⟨text,u,by decide +kernel,by decide +kernel,h,hd,of_decide_eq_false (Except.ok.inj hdup)⟩

end WaylandZig.Zig
