import WaylandZig.Proofs.Fallible
import WaylandZig.Proofs.Search
import WaylandZig.Zig.DocumentUnit

/-! # Where a reference leads

A reference that is resolved leads to a site of the set and to an enum that this site declares. The
type it is written as spells the path to that enum from the interface that refers to it.
-/
namespace WaylandZig.Zig

open Schema

/-- The site stands in the set at its own positions. -/
def Site.InSet (s : DocumentSet) (here : Site) : Prop :=
  s.documents[here.documentIndex]? = some here.document ∧
    here.document.interfaces[here.interfaceIndex]? = some here.interface

theorem inSet_of_mem_sites {s : DocumentSet} {documentIndex : Nat} {d : Document} {here : Site}
    (hd : s.documents[documentIndex]? = some d) (h : here ∈ sites documentIndex d) : here.InSet s := by
  obtain ⟨⟨i,k⟩,hi,rfl⟩ := List.mem_map.mp h
  exact ⟨hd,List.mem_zipIdx_iff_getElem?.mp hi⟩

/-- The first interface of that name in the document declares the enum, as its first of that name. -/
structure Declares (interface name : Bytes) (d : Document) (k : Nat) (i : Interface) (e : Enum) :
    Prop where
  interface : FirstAt (fun i => i.name = interface) d.interfaces k i
  enum : ∃ j, FirstAt (fun e => e.name = name) i.enums j e

def HasEnum (interface name : Bytes) (d : Document) : Prop := ∃ k i e, Declares interface name d k i e

section Found

variable {s : DocumentSet} {site : Site} {interface name : Bytes} {m : Nat} {d : Document} {e : Enum}

theorem findEnum?_eq_some_iff {i : Interface} : i.findEnum? name = some e ↔
    ∃ j, FirstAt (fun e => e.name = name) i.enums j e := by
  rw [Interface.findEnum?, find?_iff_firstAt]
  simp only [beq_iff_eq]

theorem findInterface?_iff {k : Nat} {i : Interface} :
    d.findInterface? interface = some k ∧ d.interfaces[k]? = some i ↔
      FirstAt (fun i => i.name = interface) d.interfaces k i := by
  rw [Document.findInterface?, findIdx?_iff_firstAt]
  simp only [beq_iff_eq]

theorem enumIn?_eq_some_iff : enumIn? interface name m d = some (site,e) ↔
    ∃ k i, Declares interface name d k i e ∧ site = ⟨m,d,k,i⟩ := by
  constructor
  · intro h
    obtain ⟨k,hk,h⟩ := Option.bind_eq_some_iff.mp h
    obtain ⟨i,hi,h⟩ := Option.bind_eq_some_iff.mp h
    obtain ⟨e',he,h⟩ := Option.bind_eq_some_iff.mp h
    cases h
    exact ⟨k,i,⟨findInterface?_iff.mp ⟨hk,hi⟩,findEnum?_eq_some_iff.mp he⟩,rfl⟩
  · rintro ⟨k,i,⟨hi,he⟩,rfl⟩
    obtain ⟨hk,hi⟩ := findInterface?_iff.mpr hi
    have he := findEnum?_eq_some_iff.mpr he
    simp [enumIn?, hk, hi, he]

theorem enumIn?_eq_none_iff : enumIn? interface name m d = none ↔ ¬ HasEnum interface name d := by
  rw [Option.eq_none_iff_forall_not_mem]
  constructor
  · rintro h ⟨k,i,e,hd⟩
    exact h _ (enumIn?_eq_some_iff.mpr ⟨k,i,hd,rfl⟩)
  · rintro h ⟨site,e⟩ hs
    obtain ⟨k,i,hd,-⟩ := enumIn?_eq_some_iff.mp hs
    exact h ⟨k,i,e,hd⟩

theorem enumInSet?_eq_some_iff : enumInSet? s interface name = some (site,e) ↔
    ∃ m d k i, FirstAt (HasEnum interface name) s.documents m d ∧ Declares interface name d k i e ∧
      site = ⟨m,d,k,i⟩ := by
  rw [enumInSet?, findSome?_zipIdx_iff]
  simp only [Nat.zero_add, enumIn?_eq_some_iff, enumIn?_eq_none_iff]
  constructor
  · rintro ⟨m,d,hm,⟨k,i,hd,hs⟩,hfirst⟩
    exact ⟨m,d,k,i,⟨hm,⟨k,i,e,hd⟩,hfirst⟩,hd,hs⟩
  · rintro ⟨m,d,k,i,⟨hm,-,hfirst⟩,hd,hs⟩
    exact ⟨m,d,hm,⟨k,i,hd,hs⟩,hfirst⟩

theorem enumIn?_eq_some (h : enumIn? interface name m d = some (site,e)) :
    site.documentIndex = m ∧ site.document = d ∧
      d.interfaces[site.interfaceIndex]? = some site.interface ∧ e ∈ site.interface.enums := by
  obtain ⟨k,i,⟨hi,j,he⟩,rfl⟩ := enumIn?_eq_some_iff.mp h
  exact ⟨rfl,rfl,hi.item,List.mem_of_getElem? he.item⟩

theorem enumInSet?_eq_some (h : enumInSet? s interface name = some (site,e)) :
    site.InSet s ∧ e ∈ site.interface.enums := by
  obtain ⟨m,d,k,i,hm,⟨hi,j,he⟩,rfl⟩ := enumInSet?_eq_some_iff.mp h
  exact ⟨⟨hm.item,hi.item⟩,List.mem_of_getElem? he.item⟩

end Found

theorem resolve_eq_ok_iff {s : DocumentSet} {here : Site} {text : Bytes} {r : Resolution} :
    resolve s here text = .ok r ↔
      ∃ ref, EnumRef.ofBytes? text = some ref ∧ ref.find? s here = some r := by
  unfold resolve
  cases hp : EnumRef.ofBytes? text with
  | none => simp
  | some ref =>
    cases hf : ref.find? s here with
    | none => simp [hf]
    | some found => simp [hf]

theorem resolve_eq_ok {s : DocumentSet} {here : Site} {ref : Bytes} {r : Resolution}
    (hs : here.InSet s) (h : resolve s here ref = .ok r) :
    r.site.InSet s ∧ r.enum ∈ r.site.interface.enums := by
  obtain ⟨ref,-,hf⟩ := resolve_eq_ok_iff.mp h
  cases ref with
  | plain name =>
    obtain ⟨e,he,rfl⟩ := Option.map_eq_some_iff.mp hf
    exact ⟨hs,List.mem_of_find?_eq_some he⟩
  | qualified interface name =>
    simp only [EnumRef.find?] at hf
    split at hf
    · rename_i site e he
      cases hf
      obtain ⟨hk,hd,hi,hm⟩ := enumIn?_eq_some he
      refine ⟨⟨?_,?_⟩,hm⟩
      · rw [hk, hd]
        exact hs.1
      · rw [hd]
        exact hi
    · obtain ⟨⟨site,e⟩,he,rfl⟩ := Option.map_eq_some_iff.mp hf
      exact enumInSet?_eq_some he

/-- The path from an interface to the type `name` of the struct `interface` at another site. -/
def Site.pathTo (here site : Site) (interface name : Bytes) : Bytes :=
  if site.sameInterface here then name
  else if site.sameDocument here then interface ++ "." ++ name
  else importOf site.document.name ++ "." ++ interface ++ "." ++ name

theorem typeRef_eq_ok {r : Resolution} {here : Site} {type : Bytes} (h : r.typeRef here = .ok type) :
    ∃ name, r.site.naming.enumType r.enum.name = .ok name ∧
      ((r.site.sameInterface here = true ∧ type = name) ∨
        ∃ interface, r.site.naming.interface r.site.interface.name = .ok interface ∧
          type = here.pathTo r.site interface name) := by
  obtain ⟨name,hn,h⟩ := Except.bind_eq_ok_iff.mp h
  refine ⟨name,hn,?_⟩
  by_cases hs : r.site.sameInterface here = true
  · rw [if_pos hs] at h
    exact .inl ⟨hs,(Except.pure_eq_ok_iff.mp h).symm⟩
  rw [if_neg hs] at h
  obtain ⟨interface,hi,h⟩ := Except.bind_eq_ok_iff.mp h
  refine .inr ⟨interface,hi,?_⟩
  rw [Site.pathTo, if_neg hs]
  by_cases hd : r.site.sameDocument here = true
  · rw [if_pos hd] at h ⊢
    exact (Except.pure_eq_ok_iff.mp h).symm
  · rw [if_neg hd] at h ⊢
    rw [← Except.pure_eq_ok_iff.mp h]
    simp [importOf]
    rfl

end WaylandZig.Zig
