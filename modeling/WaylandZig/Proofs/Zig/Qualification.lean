import WaylandZig.Proofs.Pairing
import WaylandZig.Proofs.Text.Lines
import WaylandZig.Proofs.Zig.Identifier

/-! # Different names that become one identifier

A name that is reserved or does not start with a letter gets the lead of its document in front, and
every other name stays as it is. Two different names therefore become one identifier exactly when one
of them is spelled like the other with the lead in front. Which document a name comes from makes no
difference to this as long as the leads are single tokens.
-/
namespace WaylandZig.Zig

/-- A name that cannot stand as an identifier without a lead. -/
def NeedsLead (name : Bytes) : Prop := isReserved name = true ∨ startsWithLetter name = false

instance (name : Bytes) : Decidable (NeedsLead name) := inferInstanceAs (Decidable (_ ∨ _))

theorem isReserved_of_mem_fixedNames {name : Bytes} (h : name ∈ fixedNames) :
    isReserved name = true := by
  have hm : name ∈ reservedWords := List.mem_append_right _ h
  rw [isReserved, List.contains_iff_mem.mpr hm]
  rfl

namespace Naming

def withLead (n : Naming) (name : Bytes) : Bytes := n.lead ++ "_" ++ name

/-- The lead is one token, and it starts with a letter. -/
structure LeadIsToken (n : Naming) : Prop where
  letter : startsWithLetter n.lead = true
  token : Ascii.underscore ∉ n.lead

theorem startsWithLetter_lead (nameSpace : Bytes) :
    startsWithLetter (ofNameSpace nameSpace).lead = true := by
  simp only [ofNameSpace]
  split
  · rename_i h
    exact (Bool.and_eq_true_iff.mp h).1
  · decide

theorem leadIsToken_ofNameSpace {nameSpace : Bytes} (h : Ascii.underscore ∉ nameSpace) :
    (ofNameSpace nameSpace).LeadIsToken := by
  refine ⟨startsWithLetter_lead nameSpace,?_⟩
  simp only [ofNameSpace]
  split
  · exact h
  · decide

variable {n m : Naming} {a b out : Bytes}

theorem withLead_eq (n : Naming) (name : Bytes) :
    n.withLead name = n.lead ++ Ascii.underscore :: name := by
  rw [withLead, List.append_assoc]
  rfl

theorem withLead_ne (n : Naming) (name : Bytes) : n.withLead name ≠ name := by
  intro h
  have hl := congrArg List.length h
  simp only [withLead_eq, List.length_append, List.length_cons] at hl
  omega

/-- A lead that is one token ends at the first underscore. -/
theorem withLead_inj (hn : Ascii.underscore ∉ n.lead) (hm : Ascii.underscore ∉ m.lead)
    (h : n.withLead a = m.withLead b) : n.lead = m.lead ∧ a = b := by
  rw [withLead_eq, withLead_eq] at h
  have hs := congrArg (Bytes.splitOn Ascii.underscore) h
  rw [Bytes.splitOn_append hn, Bytes.splitOn_append hm] at hs
  have hl : n.lead = m.lead := (List.cons.inj hs).1
  rw [hl] at h
  exact ⟨hl,(List.cons.inj (List.append_cancel_left h)).2⟩

theorem startsWithLetter_withLead (h : startsWithLetter n.lead = true) (name : Bytes) :
    startsWithLetter (n.withLead name) = true := by
  rw [withLead]
  cases hl : n.lead with
  | nil =>
    rw [hl] at h
    cases h
  | cons b rest =>
    rw [hl] at h
    exact h

theorem qualify_of_needsLead (h : NeedsLead a) : n.qualify a = n.withLead a := by
  have hq : (isReserved a || !startsWithLetter a) = true := by simpa [NeedsLead] using h
  rw [qualify, if_pos hq]
  rfl

theorem qualify_of_not_needsLead (h : ¬ NeedsLead a) : n.qualify a = a := by
  have hq : ¬ (isReserved a || !startsWithLetter a) = true := by simpa [NeedsLead] using h
  rw [qualify, if_neg hq]

/-- An identifier is the name with the lead, or the name where it needs none. -/
theorem identifier_cases (h : n.identifier a = .ok out) :
    (NeedsLead a ∧ out = n.withLead a) ∨ (¬ NeedsLead a ∧ out = a) := by
  obtain ⟨rfl,-⟩ := identifier_eq_ok_iff.mp h
  by_cases ha : NeedsLead a
  · exact .inl ⟨ha,qualify_of_needsLead ha⟩
  · exact .inr ⟨ha,qualify_of_not_needsLead ha⟩

theorem not_isReserved_of_identifier (h : n.identifier a = .ok out) : isReserved out = false := by
  have hi := (identifier_eq_ok_iff.mp h).2
  simp only [isIdentifier, Bool.and_eq_true, Bool.not_eq_true'] at hi
  exact hi.2

theorem notMem_fixedNames_of_identifier (h : n.identifier a = .ok out) : out ∉ fixedNames := by
  intro hm
  have hr := not_isReserved_of_identifier h
  rw [isReserved_of_mem_fixedNames hm] at hr
  cases hr

/-- Of two names with one identifier, one is the other with its lead in front. -/
theorem eq_or_withLead_of_identifier (hn : Ascii.underscore ∉ n.lead) (hm : Ascii.underscore ∉ m.lead)
    (ha : n.identifier a = .ok out) (hb : m.identifier b = .ok out) :
    a = b ∨ (NeedsLead a ∧ b = n.withLead a) ∨ (NeedsLead b ∧ a = m.withLead b) := by
  obtain ⟨hna,hoa⟩ | ⟨hna,rfl⟩ := identifier_cases ha
  · obtain ⟨hnb,hob⟩ | ⟨hnb,rfl⟩ := identifier_cases hb
    · exact .inl (withLead_inj hn hm (hoa.symm.trans hob)).2
    · exact .inr (.inl ⟨hna,hoa⟩)
  · obtain ⟨hnb,hob⟩ | ⟨hnb,hob⟩ := identifier_cases hb
    · exact .inr (.inr ⟨hnb,hob⟩)
    · exact .inl hob

/-- A name that is spelled like another with its lead becomes the same identifier. -/
theorem identifier_withLead_eq {other : Bytes} (hl : startsWithLetter n.lead = true) (hn : NeedsLead a)
    (ha : n.identifier a = .ok out) (ho : m.identifier (n.withLead a) = .ok other) : other = out := by
  obtain ⟨hq,hi⟩ := identifier_eq_ok_iff.mp ha
  rw [qualify_of_needsLead hn] at hq
  have hne : ¬ NeedsLead (n.withLead a) := by
    rintro (hr | hs)
    · rw [hq, not_isReserved_of_identifier ha] at hr
      cases hr
    · rw [startsWithLetter_withLead hl] at hs
      cases hs
  obtain ⟨hn',-⟩ | ⟨-,rfl⟩ := identifier_cases ho
  · exact absurd hn' hne
  · exact hq

end Naming

/-- The outputs are the identifiers of names, each by the naming that stands beside it. -/
def Identifiers (items : List (Naming × Bytes)) (outs : List Bytes) : Prop :=
  List.Forall₂ (fun p out => p.1.identifier p.2 = .ok out) items outs

theorem Identifiers.mem_iff {items : List (Naming × Bytes)} {outs : List Bytes}
    (h : Identifiers items outs) {out : Bytes} :
    out ∈ outs ↔ ∃ p ∈ items, p.1.identifier p.2 = .ok out := by
  constructor
  · exact List.Forall₂.exists_of_mem_right h
  · rintro ⟨p,hp,ho⟩
    obtain ⟨other,hm,he⟩ := List.Forall₂.exists_of_mem_left h hp
    obtain rfl : other = out := Except.ok.inj (he.symm.trans ho)
    exact hm

/-- A word that needs no lead and is one token is the identifier of that word alone. -/
theorem Identifiers.mem_iff_of_token {items : List (Naming × Bytes)} {outs : List Bytes}
    (h : Identifiers items outs) {out : Bytes} (hn : ¬ NeedsLead out) (ht : Ascii.underscore ∉ out) :
    out ∈ outs ↔ out ∈ items.map Prod.snd := by
  constructor
  · intro hm
    obtain ⟨p,hp,ho⟩ := h.mem_iff.mp hm
    obtain ⟨-,rfl⟩ | ⟨-,rfl⟩ := Naming.identifier_cases ho
    · refine absurd ?_ ht
      rw [Naming.withLead_eq]
      simp
    · exact List.mem_map_of_mem hp
  · intro hm
    obtain ⟨p,hp,rfl⟩ := List.mem_map.mp hm
    obtain ⟨other,hm,ho⟩ := List.Forall₂.exists_of_mem_left h hp
    obtain ⟨hl,-⟩ | ⟨-,rfl⟩ := Naming.identifier_cases ho
    · exact absurd hl hn
    · exact hm

/-- The identifiers of different names are different exactly when no name is spelled like another
with the lead that this other one needs. -/
theorem Identifiers.nodup_iff {items : List (Naming × Bytes)} {outs : List Bytes}
    (h : Identifiers items outs) (hl : ∀ p ∈ items, p.1.LeadIsToken)
    (hn : (items.map Prod.snd).Nodup) :
    outs.Nodup ↔ ∀ p ∈ items, NeedsLead p.2 → p.1.withLead p.2 ∉ items.map Prod.snd := by
  induction h with
  | nil => simp
  | @cons p out items outs hp hr ih =>
    obtain ⟨hlp,hli⟩ := List.forall_mem_cons.mp hl
    obtain ⟨hnp,hni⟩ := List.nodup_cons.mp hn
    have hmem : out ∈ outs ↔ (NeedsLead p.2 ∧ p.1.withLead p.2 ∈ items.map Prod.snd) ∨
        ∃ q ∈ items, NeedsLead q.2 ∧ q.1.withLead q.2 = p.2 := by
      rw [Identifiers.mem_iff hr]
      constructor
      · rintro ⟨q,hq,ho⟩
        have hqn : q.2 ∈ items.map Prod.snd := List.mem_map_of_mem hq
        obtain he | ⟨hnl,he⟩ | ⟨hnl,he⟩ :=
          Naming.eq_or_withLead_of_identifier hlp.token (hli q hq).token hp ho
        · exact absurd (he ▸ hqn) hnp
        · exact .inl ⟨hnl,he ▸ hqn⟩
        · exact .inr ⟨q,hq,hnl,he.symm⟩
      · rintro (⟨hnl,hw⟩ | ⟨q,hq,hnl,he⟩)
        · obtain ⟨q,hq,he⟩ := List.mem_map.mp hw
          obtain ⟨other,-,ho⟩ := List.Forall₂.exists_of_mem_left hr hq
          refine ⟨q,hq,?_⟩
          rw [he] at ho
          rw [he, ho, Naming.identifier_withLead_eq hlp.letter hnl hp ho]
        · obtain ⟨other,-,ho⟩ := List.Forall₂.exists_of_mem_left hr hq
          refine ⟨q,hq,?_⟩
          rw [← he] at hp
          rw [ho, Naming.identifier_withLead_eq (hli q hq).letter hnl ho hp]
    rw [List.nodup_cons, ih hli hni, hmem, List.forall_mem_cons]
    simp only [List.map_cons, List.mem_cons, not_or, not_and, not_exists]
    constructor
    · rintro ⟨⟨hfirst,hlater⟩,hrest⟩
      refine ⟨fun hnl => ⟨p.1.withLead_ne p.2,hfirst hnl⟩,?_⟩
      intro q hq hnl
      exact ⟨hlater q hq hnl,hrest q hq hnl⟩
    · rintro ⟨hfirst,hrest⟩
      refine ⟨⟨fun hnl => (hfirst hnl).2,?_⟩,?_⟩
      · intro q hq hnl
        exact (hrest q hq hnl).1
      · intro q hq hnl
        exact (hrest q hq hnl).2

end WaylandZig.Zig
