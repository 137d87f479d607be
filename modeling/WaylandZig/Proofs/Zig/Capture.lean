import Mathlib.Data.List.TakeWhile
import WaylandZig.Proofs.Zig.InterfaceNames
import WaylandZig.Proofs.Zig.References
import WaylandZig.Sink.Memory

/-! # What the type of a field reaches

A field whose enum is declared in its own unit spells the type without an import, by the enum alone
inside one interface and else by the interface and the enum. The first word of the type is looked up
from the field outwards: among the payloads that its message stands in, then in its interface, then in
the unit. Nothing keeps a name that is nearer from being the same, so which declaration is reached is
told here by the names that the scopes declare.
-/
namespace WaylandZig.Zig

open Schema

namespace SourceTree

/-- The declarations of a name in the innermost scope that has one. -/
def lookup (name : Bytes) : List (List SourceTree) → List SourceTree
  | [] => []
  | scope :: outer =>
    if name ∈ declaredNames scope then scope.filter (·.declares? == some name) else lookup name outer

variable {name : Bytes} {scope : List SourceTree} {outer : List (List SourceTree)}
  {target : SourceTree}

theorem lookup_of_mem (h : name ∈ declaredNames scope) :
    lookup name (scope :: outer) = scope.filter (·.declares? == some name) :=
  if_pos h

theorem lookup_of_notMem (h : name ∉ declaredNames scope) :
    lookup name (scope :: outer) = lookup name outer :=
  if_neg h

theorem length_filter_declares (name : Bytes) (scope : List SourceTree) :
    (scope.filter (·.declares? == some name)).length = (declaredNames scope).count name := by
  induction scope with
  | nil => rfl
  | cons t scope ih =>
    cases ht : t.declares? with
    | none =>
      rw [List.filter_cons_of_neg (by simp [ht]), ih, declaredNames, declaredNames,
        List.filterMap_cons_none ht]
    | some other =>
      rw [declaredNames, List.filterMap_cons_some ht, List.count_cons, ← declaredNames, ← ih]
      by_cases ho : other = name
      · rw [List.filter_cons_of_pos (by simp [ht, ho]), List.length_cons, if_pos (by simp [ho])]
      · rw [List.filter_cons_of_neg (by simp [ht, ho]), if_neg (by simp [ho])]
        rfl

/-- A declaration is reached in its own scope when no other one there has its name. -/
theorem lookup_own_iff (hm : target ∈ scope) (hd : target.declares? = some name) :
    lookup name (scope :: outer) = [target] ↔ (declaredNames scope).count name = 1 := by
  have hn : name ∈ declaredNames scope := List.mem_filterMap.mpr ⟨target,hm,hd⟩
  have hf : target ∈ scope.filter (·.declares? == some name) := by simp [hm, hd]
  rw [lookup_of_mem hn, ← length_filter_declares]
  constructor
  · intro h
    rw [h]
    rfl
  · intro h
    obtain ⟨t,ht⟩ := List.length_eq_one_iff.mp h
    rw [ht] at hf ⊢
    rw [List.mem_singleton.mp hf]

/-- A declaration of an outer scope is reached when the inner scope does not declare the name. -/
theorem lookup_outer_iff (hm : target ∉ scope) : lookup name (scope :: outer) = [target] ↔
    name ∉ declaredNames scope ∧ lookup name outer = [target] := by
  by_cases hn : name ∈ declaredNames scope
  · rw [lookup_of_mem hn]
    constructor
    · intro h
      have ht : target ∈ scope.filter (·.declares? == some name) := by
        rw [h]
        exact List.mem_singleton_self _
      exact absurd (List.mem_filter.mp ht).1 hm
    · exact fun h => absurd hn h.1
  · rw [lookup_of_notMem hn]
    exact (and_iff_right hn).symm

/-- The struct of an interface begins with a block and a blank line. -/
def beginsInterface : List SourceTree → Bool
  | .block _ _ _ :: .blank :: _ => true
  | _ => false

theorem ne_interface {t : SourceTree} (h : beginsInterface t.body = false) (i : InterfaceDecl) :
    t ≠ i.tree := by
  rintro rfl
  cases h

theorem beginsInterface_lines {α : Type} (text : α → Bytes) (items : List α) (rest : List SourceTree)
    (h : beginsInterface rest = false) :
    beginsInterface ((items.map fun a => .line (text a)) ++ rest) = false := by
  cases items with
  | nil => exact h
  | cons a items => rfl

theorem beginsInterface_messages (head : MessageDecl → Bytes) (tail : Bytes)
    (messages : List MessageDecl) :
    beginsInterface (messages.map fun m => m.tree (head m) tail) = false := by
  match messages with
  | [] => rfl
  | [m] => rfl
  | m :: n :: rest => rfl

end SourceTree

open SourceTree

section Trees

theorem MessageDecl.beginsInterface_tree (m : MessageDecl) (head tail : Bytes) :
    beginsInterface (m.tree head tail).body = false := by
  have h := beginsInterface_lines Field.text m.fields [] rfl
  rwa [List.append_nil] at h

theorem EnumDecl.beginsInterface_tree (e : EnumDecl) : beginsInterface e.tree.body = false := by
  cases e with
  | plain name members =>
    have h := beginsInterface_lines EnumMember.text members [] rfl
    rwa [List.append_nil] at h
  | bitfield name fields => exact beginsInterface_lines BitField.text fields _ rfl

theorem EnumDecl.tree_ne_event (e : EnumDecl) (m : MessageDecl) :
    m.tree ("pub const " ++ m.name ++ " = struct \x7b") ";" ≠ e.tree := by
  -- Both heads begin alike, but the text behind the name is no end of the other one.
  have hne {other : Bytes} (front name : Bytes) (hs : ¬ (" = struct \x7b" : Bytes) <:+ other)
      (ho : ¬ other <:+ (" = struct \x7b" : Bytes)) :
      front ++ m.name ++ " = struct \x7b" ≠ front ++ name ++ other := by
    intro h
    have hsuffix := List.suffix_append (front ++ m.name) (" = struct \x7b" : Bytes)
    rw [h] at hsuffix
    exact (List.suffix_or_suffix_of_suffix hsuffix (List.suffix_append _ _)).elim hs ho
  cases e with
  | plain name members =>
    intro h
    exact hne _ name (by decide) (by decide) (SourceTree.block.inj h).1
  | bitfield name fields =>
    intro h
    exact hne _ name (by decide) (by decide) (SourceTree.block.inj h).1

end Trees

/-- The two containers that hold the payloads of messages. -/
inductive Payload where
  | rq
  | ev
  deriving DecidableEq, Repr

namespace Payload

def messages : Payload → Interface → List Message
  | .rq, i => i.requests
  | .ev, i => i.events

def decls : Payload → InterfaceDecl → List MessageDecl
  | .rq, i => i.requests
  | .ev, i => i.events

def tree : Payload → InterfaceDecl → SourceTree
  | .rq, i => requestsTree i.requests
  | .ev, i => eventsTree i.events

/-- The scopes around the fields of a message, from inside out. -/
def scopes (p : Payload) (i : InterfaceDecl) (u : UnitDecl) : List (List SourceTree) :=
  [(p.tree i).body,i.tree.body,u.trees]

theorem beginsInterface_of_mem {p : Payload} {i : InterfaceDecl} {t : SourceTree}
    (h : t ∈ (p.tree i).body) : beginsInterface t.body = false := by
  cases p with
  | rq =>
    obtain ⟨m,-,rfl⟩ := List.mem_map.mp h
    exact m.beginsInterface_tree _ _
  | ev =>
    obtain ⟨m,-,rfl⟩ := List.mem_map.mp h
    exact m.beginsInterface_tree _ _

end Payload

theorem InterfaceDecl.beginsInterface_of_mem {i : InterfaceDecl} {t : SourceTree}
    (h : t ∈ i.tree.body) : beginsInterface t.body = false := by
  have htags (messages : List MessageDecl) :
      beginsInterface (messages.map fun m => .line (m.name ++ ",")) = false := by
    have h := beginsInterface_lines (fun m => m.name ++ ",") messages [] rfl
    rwa [List.append_nil] at h
  rcases List.mem_append.mp h with h | h
  · simp only [List.mem_cons, List.not_mem_nil, or_false] at h
    rcases h with rfl | rfl | rfl | rfl | rfl | rfl | rfl
    · exact htags i.requests
    · rfl
    · exact htags i.events
    · rfl
    · exact beginsInterface_messages (fun m => m.name ++ ": struct \x7b") "," i.requests
    · rfl
    · exact beginsInterface_messages (fun m => "pub const " ++ m.name ++ " = struct \x7b") ";" i.events
  · obtain ⟨e,-,h⟩ := List.mem_flatMap.mp h
    simp only [List.mem_cons, List.not_mem_nil, or_false] at h
    rcases h with rfl | rfl
    · rfl
    · exact e.beginsInterface_tree

section TypeNames

theorem isLower_toUpper (b : UInt8) : Ascii.isLower (Ascii.toUpper b) = false := by
  unfold Ascii.toUpper
  split
  · rename_i h
    simp only [Ascii.isLower, Bool.and_eq_true, decide_eq_true_eq] at h
    have hs : (b - 0x20).toNat = b.toNat - 0x20 :=
      UInt8.toNat_sub_of_le b 0x20 (UInt8.le_trans (by decide) h.1)
    have hu : b.toNat ≤ 0x7A := UInt8.le_iff_toNat_le.mp h.2
    have hl : ¬ 0x61 ≤ b - 0x20 := by
      rw [UInt8.le_iff_toNat_le, hs]
      change ¬ 0x61 ≤ b.toNat - 0x20
      omega
    simp [Ascii.isLower, hl]
  · rename_i h
    simpa using h

/-- A type name does not begin with a small letter, if it has no lead. -/
theorem isLower_of_head?_initialCaps {name : Bytes} {b : UInt8}
    (h : (Naming.initialCaps name).head? = some b) : Ascii.isLower b = false := by
  unfold Naming.initialCaps at h
  generalize name.splitOn Ascii.underscore = words at h
  induction words with
  | nil => cases h
  | cons word words ih =>
    cases word with
    | nil => exact ih h
    | cons first rest =>
      rw [List.flatMap_cons, Naming.capitalize, Naming.upperFirst] at h
      split at h
      · cases h
        exact isLower_toUpper first
      · cases h
        decide

theorem enumType_notMem_messageTypes {n : Naming} {name out : Bytes}
    (h : n.enumType name = .ok out) : out ∉ messageTypes := by
  have hw : ∀ w ∈ messageTypes, Ascii.underscore ∉ w ∧ w.head?.all Ascii.isLower = true ∧ w ≠ [] := by
    decide
  intro hm
  obtain ⟨hu,hl,hne⟩ := hw out hm
  obtain ⟨-,rfl⟩ | ⟨-,rfl⟩ := Naming.identifier_cases h
  · refine hu ?_
    rw [Naming.withLead_eq]
    simp
  · cases hh : (Naming.initialCaps name).head? with
    | none => exact hne (List.head?_eq_none_iff.mp hh)
    | some b =>
      rw [hh, Option.all_some, isLower_of_head?_initialCaps hh] at hl
      cases hl

end TypeNames

section Scopes

variable {s : DocumentSet} {settings : Settings} {types : TypeMap} {here : Site}
  {decl : InterfaceDecl} {u : UnitDecl}

theorem Site.EmitsInterface.notMem_payload_iff (h : here.EmitsInterface s types decl) (p : Payload)
    {name : Bytes} : name ∉ declaredNames (p.tree decl).body ↔
      (p = .ev → name ∉ decl.events.map MessageDecl.name) := by
  cases p with
  | rq =>
    have hn := declaredNames_requests fun m hm => by
      obtain ⟨message,-,hm⟩ := h.requests.exists_of_mem_right hm
      exact Naming.isWordName_of_identifier hm.1
    simp [Payload.tree, hn]
  | ev =>
    have hn := declaredNames_events fun m hm => by
      obtain ⟨message,-,hm⟩ := h.events.exists_of_mem_right hm
      exact Naming.isWordName_of_identifier hm.1
    simp [Payload.tree, hn]

theorem Site.EmitsInterface.enumType_of_mem (h : here.EmitsInterface s types decl) {e : EnumDecl}
    (he : e ∈ decl.enums) : ∃ name, here.naming.enumType name = .ok e.name := by
  obtain ⟨enum,-,he⟩ := h.enums.exists_of_mem_right he
  exact ⟨enum.name,enumType_of_enumDecl he⟩

theorem Site.EmitsInterface.declaredNames_body (h : here.EmitsInterface s types decl) :
    declaredNames decl.tree.body = messageTypes ++ decl.enums.map EnumDecl.name := by
  refine declaredNames_interface fun e he => ?_
  obtain ⟨name,hn⟩ := h.enumType_of_mem he
  exact Naming.isWordName_of_identifier hn

/-- An enum is reached from a field of its own interface exactly when no event around the field has
the name of its type, and no other enum of the interface has. -/
theorem Site.EmitsInterface.enum_reached_iff (h : here.EmitsInterface s types decl) {e : EnumDecl}
    (he : e ∈ decl.enums) (p : Payload) (u : UnitDecl) :
    lookup e.name (p.scopes decl u) = [e.tree] ↔
      (p = .ev → e.name ∉ decl.events.map MessageDecl.name) ∧
      (decl.enums.map EnumDecl.name).count e.name = 1 := by
  obtain ⟨name,hn⟩ := h.enumType_of_mem he
  have hword := Naming.isWordName_of_identifier hn
  -- The arm of a request declares nothing, and the struct of an event is no enum.
  have hpayload : e.tree ∉ (p.tree decl).body := by
    intro hm
    cases p with
    | rq =>
      obtain ⟨m,hmem,hm⟩ := List.mem_map.mp hm
      obtain ⟨message,-,hm'⟩ := h.requests.exists_of_mem_right hmem
      have hd := MessageDecl.declares?_request (Naming.isWordName_of_identifier hm'.1)
      rw [hm, EnumDecl.declares?_tree hword] at hd
      cases hd
    | ev =>
      obtain ⟨m,-,hm⟩ := List.mem_map.mp hm
      exact e.tree_ne_event m hm
  have hbody : e.tree ∈ decl.tree.body :=
    List.mem_append_right _ (List.mem_flatMap.mpr ⟨e,he,by simp⟩)
  rw [Payload.scopes, lookup_outer_iff hpayload, h.notMem_payload_iff,
    lookup_own_iff hbody (EnumDecl.declares?_tree hword), h.declaredNames_body, List.count_append,
    List.count_eq_zero_of_not_mem (enumType_notMem_messageTypes hn), Nat.zero_add]

/-- An interface is reached from a field of its unit exactly when no event around the field and no
type of the interface around it has its name, and no other interface of the unit has. -/
theorem Site.EmitsInterface.interface_reached_iff (h : here.EmitsInterface s types decl)
    {documentIndex : Nat} {d : Document} (hu : EmitsUnit s settings types documentIndex d u)
    {i : InterfaceDecl} (hi : i ∈ u.interfaces) (p : Payload) :
    lookup i.name (p.scopes decl u) = [i.tree] ↔
      (p = .ev → i.name ∉ decl.events.map MessageDecl.name) ∧
      i.name ∉ messageTypes ++ decl.enums.map EnumDecl.name ∧
      (u.interfaces.map InterfaceDecl.name).count i.name = 1 := by
  obtain ⟨there,-,hthere⟩ := hu.interfaces.exists_of_mem_right hi
  -- Nothing inside an interface has the shape of one, whatever its name is.
  have hpayload : i.tree ∉ (p.tree decl).body := fun hm =>
    ne_interface (Payload.beginsInterface_of_mem hm) i rfl
  have hbody : i.tree ∉ decl.tree.body := fun hm =>
    ne_interface (InterfaceDecl.beginsInterface_of_mem hm) i rfl
  have hunit : i.tree ∈ u.trees :=
    List.mem_append_right _ (List.mem_flatMap.mpr ⟨i,hi,by simp⟩)
  have htypes : ("types" : Bytes) ≠ i.name := by
    intro he
    refine Naming.notMem_fixedNames_of_identifier hthere.name ?_
    rw [← he]
    decide
  rw [Payload.scopes, lookup_outer_iff hpayload, h.notMem_payload_iff, lookup_outer_iff hbody,
    h.declaredNames_body, lookup_own_iff hunit
      (InterfaceDecl.declares?_tree (Naming.isWordName_of_identifier hthere.name)),
    hu.declaredNames_eq, List.count_cons_of_ne htypes]

end Scopes

/-- The word that a type begins with. -/
def typeWord (type : Bytes) : Bytes := type.takeWhile Ascii.isWord

theorem typeWord_of_isWordName {name : Bytes} (h : isWordName name = true) : typeWord name = name :=
  List.takeWhile_eq_self_iff.mpr fun _ hb => isWord_of_isWordName h hb

theorem typeWord_path {interface : Bytes} (h : isWordName interface = true) (name : Bytes) :
    typeWord (interface ++ "." ++ name) = interface := by
  have hd : ("." : Bytes) ++ name = Ascii.dot :: name := rfl
  rw [typeWord, List.append_assoc, hd,
    List.takeWhile_append_of_pos fun _ hb => isWord_of_isWordName h hb,
    List.takeWhile_cons_of_neg (by decide), List.append_nil]

/-- The unit of the document `d` at the position `k`, with its text in front of formatting. -/
structure UnitOf (s : DocumentSet) (settings : Settings) (k : Nat) (d : Document) (u : UnitDecl) :
    Prop where
  declared : ∃ types, TypeMap.ofMappings settings.withDefaults.typeMappings = .ok types ∧
    documentDecl s settings.withDefaults types k d = .ok u
  emitted : ∃ units, compile s settings = .ok units ∧ units[k]? =
    some ⟨unitPath d.name,SourceTree.text settings.withDefaults.indentSize.toNat u.trees⟩

/-- The argument `a` of a message in the interface `here` names an enum of its own document. -/
structure OwnReference (s : DocumentSet) (here : Site) (p : Payload) (n : Nat) (a : Arg)
    (r : Resolution) : Prop where
  inSet : here.InSet s
  argument : ∃ m, (p.messages here.interface)[n]? = some m ∧ a ∈ m.args
  takesEnum : takesEnum a = true
  resolved : resolve s here a.enum = .ok r
  sameDocument : r.site.sameDocument here = true

/-- The field of such an argument, and where it stands. -/
structure ReferenceField (s : DocumentSet) (settings : Settings) (here : Site) (p : Payload) (n : Nat)
    (a : Arg) (r : Resolution) (u : UnitDecl) (decl : InterfaceDecl) (field : Field) : Prop where
  unit : UnitOf s settings here.documentIndex here.document u
  interface : u.interfaces[here.interfaceIndex]? = some decl
  message : ∃ m, (p.decls decl)[n]? = some m ∧ field ∈ m.fields
  name : here.naming.identifier a.name = .ok field.name
  type : r.typeRef here = .ok field.type

/-- What the first word of a reference stands for: the enum where it stays inside one interface, and
else the interface that has the enum. -/
def Resolution.LeadsTo (r : Resolution) (here : Site) (u : UnitDecl) (t : SourceTree) : Prop :=
  ∃ i, u.interfaces[r.site.interfaceIndex]? = some i ∧
    if r.site.sameInterface here then ∃ e ∈ i.enums, r.site.enumDecl r.enum = .ok e ∧ t = e.tree
    else t = i.tree

/-- No scope between the field and what is meant declares the word, and the scope of what is meant
declares it once. -/
def Uncaptured (p : Payload) (own : Bool) (u : UnitDecl) (decl : InterfaceDecl) (word : Bytes) :
    Prop :=
  (p = .ev → word ∉ decl.events.map MessageDecl.name) ∧
    if own then (decl.enums.map EnumDecl.name).count word = 1
    else word ∉ messageTypes ++ decl.enums.map EnumDecl.name ∧
      (u.interfaces.map InterfaceDecl.name).count word = 1

instance (p : Payload) (own : Bool) (u : UnitDecl) (decl : InterfaceDecl) (word : Bytes) :
    Decidable (Uncaptured p own u decl word) :=
  inferInstanceAs (Decidable (_ ∧ _))

section References

variable {s : DocumentSet} {settings : Settings} {here : Site} {p : Payload} {n : Nat} {a : Arg}
  {r : Resolution}

theorem exists_unitOf {units : List SourceUnit} (h : compile s settings = .ok units) {k : Nat}
    {d : Document} (hd : s.documents[k]? = some d) :
    ∃ types u, EmitsUnit s settings.withDefaults types k d u ∧ UnitOf s settings k d u := by
  obtain ⟨types,documents,index,ht,he,-,rfl⟩ := (compile_eq_ok_iff.mp h).emitted
  obtain ⟨u,hu,hk⟩ := he.exists_unit hd
  have hl : k < documents.length := (List.getElem?_eq_some_iff.mp hk).1
  refine ⟨types,u,hu,⟨types,ht,documentDecl_eq_ok_iff.mpr hu⟩,_,h,?_⟩
  rw [List.getElem?_append_left hl, hk]

theorem Site.document_eq {here there : Site} (hh : here.InSet s) (ht : there.InSet s)
    (h : there.sameDocument here = true) :
    there.documentIndex = here.documentIndex ∧ there.document = here.document := by
  have hi : there.documentIndex = here.documentIndex := by simpa [Site.sameDocument] using h
  refine ⟨hi,?_⟩
  have hd := ht.1
  rw [hi, hh.1] at hd
  exact (Option.some.inj hd).symm

theorem Site.interfaceIndex_eq {here there : Site} (h : there.sameInterface here = true) :
    there.interfaceIndex = here.interfaceIndex := by
  simpa using (Bool.and_eq_true_iff.mp h).2

theorem typeRef_ne_nil {type : Bytes} (h : r.typeRef here = .ok type) : type ≠ [] := by
  obtain ⟨name,hn,hp⟩ := typeRef_eq_ok h
  have hne : name ≠ [] := by
    rintro rfl
    cases Naming.isWordName_of_identifier hn
  obtain ⟨-,rfl⟩ | ⟨interface,-,rfl⟩ := hp
  · exact hne
  · exact pathTo_ne_nil hne

/-- Inside one interface a reference is the name of the type. -/
theorem typeWord_of_sameInterface {type : Bytes} (h : r.typeRef here = .ok type)
    (hs : r.site.sameInterface here = true) {e : EnumDecl} (he : r.site.enumDecl r.enum = .ok e) :
    typeWord type = e.name := by
  obtain ⟨name,hn,hpath⟩ := typeRef_eq_ok h
  obtain rfl : name = e.name := Except.ok.inj (hn.symm.trans (Site.enumType_of_enumDecl he))
  have ht : type = e.name := by
    obtain ⟨-,ht⟩ | ⟨interface,-,ht⟩ := hpath
    · exact ht
    · rw [ht, Site.pathTo, if_pos hs]
  rw [ht]
  exact typeWord_of_isWordName (Naming.isWordName_of_identifier hn)

/-- Between the interfaces of a document a reference begins with the name of the interface. -/
theorem typeWord_of_sameDocument {type : Bytes} (h : r.typeRef here = .ok type)
    (hs : ¬ r.site.sameInterface here = true) (hd : r.site.sameDocument here = true) {name : Bytes}
    (hi : r.site.naming.interface r.site.interface.name = .ok name) : typeWord type = name := by
  obtain ⟨enum,-,⟨hown,-⟩ | ⟨interface,hinterface,ht⟩⟩ := typeRef_eq_ok h
  · exact absurd hown hs
  · rw [ht, Site.pathTo, if_neg hs, if_pos hd, Except.ok.inj (hinterface.symm.trans hi)]
    exact typeWord_path (Naming.isWordName_of_identifier hi) enum

theorem OwnReference.exists_field (h : OwnReference s here p n a r) {types : TypeMap}
    {decl : InterfaceDecl} (hd : here.EmitsInterface s types decl) :
    ∃ m field, (p.decls decl)[n]? = some m ∧ field ∈ m.fields ∧
      here.naming.identifier a.name = .ok field.name ∧ r.typeRef here = .ok field.type := by
  obtain ⟨message,hm,ha⟩ := h.argument
  have hmessages : List.Forall₂ (here.EmitsMessage s types) (p.messages here.interface)
      (p.decls decl) := by
    cases p with
    | rq => exact hd.requests
    | ev => exact hd.events
  obtain ⟨m,hn,-,groups,hg,hf⟩ := hmessages.getElem? hm
  obtain ⟨group,hmem,name,type,hname,ht,hgroup⟩ := hg.exists_of_mem_left ha
  rw [Site.enumTypeOf, if_pos h.takesEnum, h.resolved] at ht
  have ht : r.typeRef here = .ok type := ht
  rw [fields_enum h.takesEnum (typeRef_ne_nil ht)] at hgroup
  refine ⟨m,⟨name,type⟩,hn,?_,hname,ht⟩
  rw [hf]
  exact List.mem_flatten.mpr ⟨group,hmem,by simp [hgroup]⟩

/-- The reference in a field leads to a declaration of the unit, and reaches it exactly when its first
word is not captured. -/
theorem OwnReference.reached_iff {units : List SourceUnit} (h : OwnReference s here p n a r)
    (hc : compile s settings = .ok units) :
    ∃ u decl field target, ReferenceField s settings here p n a r u decl field ∧
      r.LeadsTo here u target ∧
      (lookup (typeWord field.type) (p.scopes decl u) = [target] ↔
        Uncaptured p (r.site.sameInterface here) u decl (typeWord field.type)) := by
  obtain ⟨types,u,hu,hunit⟩ := exists_unitOf hc h.inSet.1
  obtain ⟨decl,hdecl,hemits⟩ := hu.exists_interface h.inSet.2
  obtain ⟨m,field,hm,hfield,hname,htype⟩ := h.exists_field hemits
  have hfieldAt : ReferenceField s settings here p n a r u decl field :=
    ⟨hunit,hdecl,⟨m,hm,hfield⟩,hname,htype⟩
  -- The reference stays in the document, so that the same unit declares what it leads to.
  obtain ⟨hset,hmem⟩ := resolve_eq_ok h.inSet h.resolved
  obtain ⟨hindex,hdoc⟩ := Site.document_eq h.inSet hset h.sameDocument
  rw [← hindex, ← hdoc] at hu
  obtain ⟨i,hi,hthere⟩ := hu.exists_interface hset.2
  by_cases hs : r.site.sameInterface here = true
  · obtain rfl : i = decl := by
      rw [Site.interfaceIndex_eq hs, hdecl] at hi
      exact (Option.some.inj hi).symm
    obtain ⟨e,he,henum⟩ := hthere.enums.exists_of_mem_left hmem
    refine ⟨u,i,field,e.tree,hfieldAt,⟨i,hi,?_⟩,?_⟩
    · rw [if_pos hs]
      exact ⟨e,he,henum,rfl⟩
    · rw [typeWord_of_sameInterface htype hs henum, Uncaptured, if_pos hs]
      exact hemits.enum_reached_iff he p u
  · refine ⟨u,decl,field,i.tree,hfieldAt,⟨i,hi,?_⟩,?_⟩
    · rw [if_neg hs]
    · rw [typeWord_of_sameDocument htype hs h.sameDocument hthere.name, Uncaptured, if_neg hs]
      exact hemits.interface_reached_iff hu (List.mem_of_getElem? hi) p

end References

/-- Every field that is typed by an enum of its own document refers to a declaration of its unit. The
first word of its type reaches that declaration exactly when no scope on the way declares the word and
nothing else beside the declaration does. -/
theorem generate_reference_reached_iff {σ : Type} {s : DocumentSet} {settings : Settings}
    {f : Formatter σ} {sink : Sink σ} {state : σ} {done : List SourceUnit} {here : Site} {p : Payload}
    {n : Nat} {a : Arg} {r : Resolution} (h : (generate s settings f sink state).1 = .ok done)
    (ho : OwnReference s here p n a r) :
    ∃ u decl field target, ReferenceField s settings here p n a r u decl field ∧
      r.LeadsTo here u target ∧
      (lookup (typeWord field.type) (p.scopes decl u) = [target] ↔
        Uncaptured p (r.site.sameInterface here) u decl (typeWord field.type)) := by
  obtain ⟨units,hc⟩ := exists_compile_of_generate h
  exact ho.reached_iff hc

section Example

variable (event : Bytes)

def kindEnum : Enum := { name := "kind", entries := [⟨"a",0,false⟩] }

def kindArg : Arg := { name := "k", kind := .uint, enum := "wl_surface.kind" }

def surfaceInterface : Interface := { name := "wl_surface", enums := [kindEnum] }

def outputInterface : Interface := { name := "wl_output", events := [⟨event,.event,[kindArg]⟩] }

/-- An event of one interface with an argument that names an enum of another. -/
def outputSet : DocumentSet :=
  { documents := [
      { name := "p", nameSpace := "wl", interfaces := [surfaceInterface,outputInterface event] }] }

def outputSite : Site :=
  { documentIndex := 0
    document :=
      { name := "p", nameSpace := "wl", interfaces := [surfaceInterface,outputInterface event] }
    interfaceIndex := 1
    interface := outputInterface event }

def kindResolution : Resolution :=
  { site := { outputSite event with interfaceIndex := 0, interface := surfaceInterface }
    enum := kindEnum
    stage := .document }

theorem kindArg_ownReference :
    OwnReference (outputSet event) (outputSite event) .ev 0 kindArg (kindResolution event) :=
  ⟨⟨rfl,rfl⟩,⟨⟨event,.event,[kindArg]⟩,rfl,List.mem_singleton_self _⟩,by decide,rfl,rfl⟩

/-- Whether the unit of the set leaves the interface to the field of the event. -/
def surfaceUncaptured : Except Diagnostic (Option Bool) :=
  (documentDecl (outputSet event) (Settings.withDefaults {}) {} 0 (outputSite event).document).map
    fun u => u.interfaces[1]?.map fun decl => decide (Uncaptured .ev false u decl "surface")

theorem kindResolution_typeRef :
    (kindResolution event).typeRef (outputSite event) = .ok (.ofString "surface.Kind") := by
  have hn : (Naming.ofNameSpace "wl").enumType kindEnum.name = .ok (.ofString "Kind") ∧
      (Naming.ofNameSpace "wl").interface surfaceInterface.name = .ok (.ofString "surface") := by
    decide +kernel
  change ((Naming.ofNameSpace "wl").enumType kindEnum.name >>= fun typeName =>
    (Naming.ofNameSpace "wl").interface surfaceInterface.name >>= fun interfaceName =>
      .ok (interfaceName ++ "." ++ typeName)) = _
  rw [hn.1, hn.2]
  decide

variable {event} {u : UnitDecl} {decl : InterfaceDecl} {field : Field}

theorem kindField_uncaptured_iff {answer : Bool}
    (hf : ReferenceField (outputSet event) {} (outputSite event) .ev 0 kindArg (kindResolution event)
      u decl field) (ha : surfaceUncaptured event = .ok (some answer)) :
    field.type = "surface.Kind" ∧
      (Uncaptured .ev false u decl (typeWord field.type) ↔ answer = true) := by
  have htype : field.type = "surface.Kind" :=
    Except.ok.inj (hf.type.symm.trans (kindResolution_typeRef event))
  have hword : typeWord "surface.Kind" = "surface" := by decide
  obtain ⟨types,ht,hu⟩ := hf.unit.declared
  have hdefault : TypeMap.ofMappings (Settings.withDefaults {}).typeMappings = .ok {} := by
    simp only [TypeMap.ofMappings, Settings.withDefaults, List.mergeSort_nil, List.mapM_nil]
    rfl
  obtain rfl : {} = types := Except.ok.inj (hdefault.symm.trans ht)
  have hi : u.interfaces[1]? = some decl := hf.interface
  change documentDecl (outputSet event) (Settings.withDefaults {}) {} 0 (outputSite event).document =
    .ok u at hu
  rw [surfaceUncaptured, hu] at ha
  have ha : u.interfaces[1]?.map (fun decl => decide (Uncaptured .ev false u decl "surface")) =
      some answer := Except.ok.inj ha
  rw [hi] at ha
  rw [htype, hword, ← Option.some.inj ha, decide_eq_true_iff]
  exact ⟨rfl,Iff.rfl⟩

end Example

theorem enterEvent_reference_reached : ∃ units u decl field target,
    (generate (outputSet "enter") {} Formatter.unchanged (MemorySink.write false) {}).1 = .ok units ∧
    OwnReference (outputSet "enter") (outputSite "enter") .ev 0 kindArg (kindResolution "enter") ∧
    ReferenceField (outputSet "enter") {} (outputSite "enter") .ev 0 kindArg (kindResolution "enter")
      u decl field ∧
    (kindResolution "enter").LeadsTo (outputSite "enter") u target ∧ field.type = "surface.Kind" ∧
    lookup (typeWord field.type) (Payload.ev.scopes decl u) = [target] := by
  have hset : (generate (outputSet "enter") {} Formatter.unchanged
        (MemorySink.write false) {}).1.isOk = true ∧
      surfaceUncaptured "enter" = .ok (some true) := by decide +kernel
  obtain ⟨units,hg⟩ := Except.exists_of_isOk hset.1
  have ho := kindArg_ownReference "enter"
  obtain ⟨u,decl,field,target,hf,hl,hiff⟩ := generate_reference_reached_iff hg ho
  obtain ⟨ht,hu⟩ := kindField_uncaptured_iff hf hset.2
  exact ⟨units,u,decl,field,target,hg,ho,hf,hl,ht,hiff.mpr (hu.mpr rfl)⟩

/-- An event that is called like the other interface hides it from its own field. -/
theorem surfaceEvent_reference_captured : ∃ units u decl field target,
    (generate (outputSet "surface") {} Formatter.unchanged (MemorySink.write false) {}).1 = .ok units ∧
    OwnReference (outputSet "surface") (outputSite "surface") .ev 0 kindArg
      (kindResolution "surface") ∧
    ReferenceField (outputSet "surface") {} (outputSite "surface") .ev 0 kindArg
      (kindResolution "surface") u decl field ∧
    (kindResolution "surface").LeadsTo (outputSite "surface") u target ∧ field.type = "surface.Kind" ∧
    lookup (typeWord field.type) (Payload.ev.scopes decl u) ≠ [target] := by
  have hset : (generate (outputSet "surface") {} Formatter.unchanged
        (MemorySink.write false) {}).1.isOk = true ∧
      surfaceUncaptured "surface" = .ok (some false) := by decide +kernel
  obtain ⟨units,hg⟩ := Except.exists_of_isOk hset.1
  have ho := kindArg_ownReference "surface"
  obtain ⟨compiled,hc⟩ := exists_compile_of_generate hg
  obtain ⟨u,decl,field,target,hf,hl,hiff⟩ := ho.reached_iff hc
  obtain ⟨ht,hu⟩ := kindField_uncaptured_iff hf hset.2
  refine ⟨units,u,decl,field,target,hg,ho,hf,hl,ht,?_⟩
  intro h
  cases hu.mp (hiff.mp h)

end WaylandZig.Zig
