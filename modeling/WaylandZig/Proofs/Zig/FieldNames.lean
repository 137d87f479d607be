import Mathlib.Data.List.Nodup
import Mathlib.Data.List.Perm.Basic
import WaylandZig.Proofs.Zig.DocumentUnit
import WaylandZig.Proofs.Zig.Qualification

/-! # Fields of a message that are declared twice

An argument becomes a field under its own name. An object of an interface that is only known when the
message is sent has two more fields in front, and these have the same names in every message. Where the
arguments of a message have different names, its fields have different names exactly when there is at
most one such object, and no argument beside it that is called like one of the two fields.
-/
namespace WaylandZig.Zig

open Schema

/-- The argument is an object of an interface that is only known when the message is sent. -/
def Untyped (a : Arg) : Prop := a.kind = .newId ∧ a.interface = []

instance (a : Arg) : Decidable (Untyped a) := inferInstanceAs (Decidable (_ ∧ _))

/-- The fields that carry the interface of such an object. -/
def carriedNames : List Bytes := ["interface","version"]

/-- The names of the fields of an argument. -/
def Naming.fieldNames (n : Naming) (a : Arg) : List Bytes :=
  (if Untyped a then carriedNames else []) ++ if a.kind ≠ .fd then [n.qualify a.name] else []

/-- The interface of one object at most is carried, and then no field is called like those that
carry it. -/
structure FieldsApart (args : List Arg) : Prop where
  single : (args.filter fun a => Untyped a).length ≤ 1
  own : ∀ a ∈ args, Untyped a → ∀ b ∈ args, b.kind ≠ .fd → b.name ∉ carriedNames

section Names

variable {n : Naming} {args : List Arg}

theorem map_fieldNames (types : TypeMap) (a : Arg) (enumType : Bytes) :
    (types.fields a (n.qualify a.name) enumType).map Field.name = n.fieldNames a := by
  rw [TypeMap.fields, Naming.fieldNames]
  by_cases hf : a.kind = .fd
  · have hu : ¬ Untyped a := by
      rintro ⟨hk,-⟩
      rw [hf] at hk
      cases hk
    simp [hf, hu]
  by_cases hu : Untyped a
  · have hc : a.kind = .newId ∧ a.interface = [] := hu
    rw [if_neg hf, if_pos hc, if_pos hu, if_pos hf]
    rfl
  · have hc : ¬ (a.kind = .newId ∧ a.interface = []) := hu
    rw [if_neg hf, if_neg hc, if_neg hu, if_pos hf]
    split
    · rfl
    · rfl

/-- The fields of the arguments are those that carry an interface and the own ones. -/
theorem fieldNames_perm (n : Naming) (args : List Arg) :
    (((args.filter fun a => Untyped a).flatMap fun _ => carriedNames) ++
      (args.filter fun a => a.kind ≠ .fd).map fun a => n.qualify a.name).Perm
      (args.flatMap n.fieldNames) := by
  rw [List.map_eq_flatMap, ← List.flatMap_ite_nil, ← List.flatMap_ite_nil]
  simp only [decide_eq_true_eq]
  exact List.flatMap_append_perm args _ _

theorem carried_nodup_iff (objects : List Arg) :
    (objects.flatMap fun _ => carriedNames).Nodup ↔ objects.length ≤ 1 := by
  cases objects with
  | nil => simp
  | cons a objects =>
    cases objects with
    | nil =>
      have hc : carriedNames.Nodup := by decide
      simpa using hc
    | cons b objects =>
      have hm : ("interface" : Bytes) ∈ carriedNames := by decide
      refine iff_of_false ?_ (by simp)
      rw [List.flatMap_cons, List.flatMap_cons]
      intro h
      have hd := (List.nodup_append.mp h).2.2
      exact hd _ hm _ (List.mem_append_left _ hm) rfl

/-- A name becomes one of the two words only if it is that word. -/
theorem qualify_mem_carriedNames {name out : Bytes} (h : n.identifier name = .ok out) :
    n.qualify name ∈ carriedNames ↔ name ∈ carriedNames := by
  have hword : ∀ w ∈ carriedNames, ¬ NeedsLead w ∧ Ascii.underscore ∉ w := by decide +kernel
  obtain ⟨hq,-⟩ := Naming.identifier_eq_ok_iff.mp h
  obtain ⟨hl,ho⟩ | ⟨-,ho⟩ := Naming.identifier_cases h
  · refine iff_of_false ?_ ?_
    · intro hm
      refine (hword _ hm).2 ?_
      rw [hq, ho, Naming.withLead_eq]
      simp
    · intro hm
      exact (hword name hm).1 hl
  · rw [hq, ho]

theorem fieldNames_nodup_iff (hn : (args.map fun a => n.qualify a.name).Nodup)
    (hi : ∀ a ∈ args, ∃ out, n.identifier a.name = .ok out) :
    (args.flatMap n.fieldNames).Nodup ↔ FieldsApart args := by
  have hown : ((args.filter fun a => a.kind ≠ .fd).map fun a => n.qualify a.name).Nodup :=
    hn.sublist (List.filter_sublist.map _)
  rw [← (fieldNames_perm n args).nodup_iff, List.nodup_append, carried_nodup_iff]
  constructor
  · rintro ⟨hs,-,hd⟩
    refine ⟨hs,?_⟩
    intro a ha hu b hb hf hc
    obtain ⟨out,ho⟩ := hi b hb
    have hq := (qualify_mem_carriedNames ho).mpr hc
    refine hd _ (List.mem_flatMap.mpr ⟨a,by simp [ha, hu],hq⟩) _ ?_ rfl
    exact List.mem_map.mpr ⟨b,by simp [hb, hf],rfl⟩
  · rintro ⟨hs,ho⟩
    refine ⟨hs,hown,?_⟩
    rintro w hw v hv rfl
    obtain ⟨a,ha,hc⟩ := List.mem_flatMap.mp hw
    obtain ⟨b,hb,rfl⟩ := List.mem_map.mp hv
    obtain ⟨ha,hu⟩ := List.mem_filter.mp ha
    obtain ⟨hb,hf⟩ := List.mem_filter.mp hb
    obtain ⟨out,hout⟩ := hi b hb
    refine ho a ha (by simpa using hu) b hb (by simpa using hf) ?_
    exact (qualify_mem_carriedNames hout).mp hc

end Names

/-- The fields of a declaration, and where they have different names. -/
structure DeclaresFields (n : Naming) (m : Message) (decl : MessageDecl) : Prop where
  names : decl.fields.map Field.name = m.args.flatMap n.fieldNames
  nodup_iff : (m.args.map fun a => n.qualify a.name).Nodup →
    ((decl.fields.map Field.name).Nodup ↔ FieldsApart m.args)

section Messages

variable {here : Site} {s : DocumentSet} {types : TypeMap}

theorem Site.EmitsMessage.fieldNames {m : Message} {decl : MessageDecl}
    (h : here.EmitsMessage s types m decl) :
    decl.fields.map Field.name = m.args.flatMap here.naming.fieldNames := by
  obtain ⟨-,groups,hg,hf⟩ := h
  have hnames : m.args.map here.naming.fieldNames = groups.map fun g => g.map Field.name := by
    refine List.forall₂_map_eq_iff.mp (hg.imp ?_)
    rintro a fields ⟨name,enumType,hn,-,rfl⟩
    obtain ⟨rfl,-⟩ := Naming.identifier_eq_ok_iff.mp hn
    exact (map_fieldNames types a enumType).symm
  rw [hf, List.map_flatten, ← hnames, List.flatMap]

theorem Site.EmitsMessage.declaresFields {m : Message} {decl : MessageDecl}
    (h : here.EmitsMessage s types m decl) : DeclaresFields here.naming m decl := by
  refine ⟨h.fieldNames,?_⟩
  intro hn
  rw [h.fieldNames]
  refine fieldNames_nodup_iff hn ?_
  intro a ha
  obtain ⟨-,groups,hg,-⟩ := h
  obtain ⟨fields,-,name,enumType,hname,-⟩ := hg.exists_of_mem_left ha
  exact ⟨name,hname⟩

end Messages

/-- In a unit the fields of a message whose arguments have different names have different names
exactly when they are not called like the fields that carry an interface, and these occur once. -/
theorem documentUnit_fields_nodup_iff {s : DocumentSet} {settings : Settings} {types : TypeMap}
    {documentIndex : Nat} {d : Document} {text : Bytes}
    (h : documentUnit s settings types documentIndex d = .ok text) :
    ∃ u, documentDecl s settings types documentIndex d = .ok u ∧
      text = SourceTree.text settings.indentSize.toNat u.trees ∧
      List.Forall₂ (fun (i : Interface) (decl : InterfaceDecl) =>
        List.Forall₂ (DeclaresFields (Naming.ofNameSpace d.nameSpace)) i.requests decl.requests ∧
        List.Forall₂ (DeclaresFields (Naming.ofNameSpace d.nameSpace)) i.events decl.events)
        d.interfaces u.interfaces := by
  obtain ⟨u,hu,ht⟩ := documentUnit_eq_ok_iff.mp h
  refine ⟨u,documentDecl_eq_ok_iff.mpr hu,ht,?_⟩
  refine (sites_interfaces documentIndex d).comp ?_ hu.interfaces
  rintro i here decl ⟨rfl,rfl⟩ he
  exact ⟨he.requests.imp fun _ _ hm => hm.declaresFields,he.events.imp fun _ _ hm => hm.declaresFields⟩

/-- An object of any interface beside a descriptor that is called like a field of it, which is no
field, and an argument of every other shape. -/
def registryDocument : Document :=
  { name := "p"
    nameSpace := "wl"
    interfaces := [{
      name := "wl_registry"
      requests := [⟨"bind",.request,[⟨"name",.uint,[],[],false⟩,⟨"interface",.fd,[],[],false⟩,
        ⟨"id",.newId,[],[],false⟩]⟩]
      events := [⟨"global",.event,[⟨"interface",.string,[],[],false⟩,⟨"version",.uint,[],[],false⟩,
        ⟨"id",.newId,[],"wl_output",false⟩]⟩] }] }

theorem registryDocument_fields : ∃ text u i,
    documentUnit { documents := [registryDocument] } {} {} 0 registryDocument = .ok text ∧
    documentDecl { documents := [registryDocument] } {} {} 0 registryDocument = .ok u ∧
    u.interfaces = [i] ∧ ∀ m ∈ i.requests ++ i.events, (m.fields.map Field.name).Nodup := by
  have hd : (documentUnit { documents := [registryDocument] } {} {} 0 registryDocument).isOk = true := by
    decide +kernel
  obtain ⟨text,h⟩ := Except.exists_of_isOk hd
  obtain ⟨u,hu,-,hi⟩ := documentUnit_fields_nodup_iff h
  obtain ⟨i,rest,⟨hr,he⟩,hrest,hcons⟩ := List.forall₂_cons_left_iff.mp hi
  obtain rfl := List.forall₂_nil_left_iff.mp hrest
  have hapart : ∀ m ∈ registryDocument.interfaces.flatMap fun i => i.requests ++ i.events,
      (m.args.map fun a => (Naming.ofNameSpace "wl").qualify a.name).Nodup ∧
        (m.args.filter fun a => Untyped a).length ≤ 1 ∧
        ∀ a ∈ m.args, Untyped a → ∀ b ∈ m.args, b.kind ≠ .fd → b.name ∉ carriedNames := by
    decide +kernel
  refine ⟨text,u,i,h,hu,hcons,?_⟩
  intro decl hm
  obtain ⟨m,hmem,hfields⟩ := (List.rel_append hr he).exists_of_mem_right hm
  obtain ⟨hn,hs,ho⟩ := hapart m (List.mem_append_left _ hmem)
  exact (hfields.nodup_iff hn).mpr ⟨hs,ho⟩

/-- An object of any interface beside an argument that is called like a field of it. -/
def boundDocument : Document :=
  { name := "p"
    nameSpace := "wl"
    interfaces := [{
      name := "wl_registry"
      requests := [⟨"bind",.request,[⟨"interface",.string,[],[],false⟩,⟨"id",.newId,[],[],false⟩]⟩] }] }

theorem boundDocument_fields_not_nodup : ∃ text u i decl m d,
    documentUnit { documents := [boundDocument] } {} {} 0 boundDocument = .ok text ∧
    documentDecl { documents := [boundDocument] } {} {} 0 boundDocument = .ok u ∧
    boundDocument.interfaces = [i] ∧ u.interfaces = [decl] ∧ i.requests = [m] ∧ decl.requests = [d] ∧
    (m.args.map fun a => (Naming.ofNameSpace "wl").qualify a.name).Nodup ∧
    ¬ (d.fields.map Field.name).Nodup := by
  have hdoc : (documentUnit { documents := [boundDocument] } {} {} 0 boundDocument).isOk = true ∧
      (documentDecl { documents := [boundDocument] } {} {} 0 boundDocument).map (fun u =>
        decide (∀ decl ∈ u.interfaces, ∀ d ∈ decl.requests, ¬ (d.fields.map Field.name).Nodup)) =
          .ok true := by
    decide +kernel
  obtain ⟨text,h⟩ := Except.exists_of_isOk hdoc.1
  obtain ⟨u,hu,-⟩ := documentUnit_eq_ok_iff.mp h
  have hd := documentDecl_eq_ok_iff.mpr hu
  obtain ⟨decl,rest,he,hrest,hi⟩ := List.forall₂_cons_left_iff.mp hu.interfaces
  obtain rfl := List.forall₂_nil_left_iff.mp hrest
  obtain ⟨d,rest,-,hrest,hr⟩ := List.forall₂_cons_left_iff.mp he.requests
  obtain rfl := List.forall₂_nil_left_iff.mp hrest
  have hdup := hdoc.2
  rw [hd] at hdup
  have hfields := of_decide_eq_true (Except.ok.inj hdup) decl (hi ▸ List.mem_singleton_self decl) d
    (hr ▸ List.mem_singleton_self d)
  refine ⟨text,u,_,decl,_,d,h,hd,rfl,hi,rfl,hr,?_,hfields⟩
  decide +kernel

end WaylandZig.Zig
