import WaylandZig.Proofs.Zig.Qualification

/-! # Qualified names

A qualified name needs no lead, whatever the name space and the name are made of, so that qualifying
changes a name once. The lead of a document is an identifier itself, and no reserved word can be cut
at an underscore into such a lead and a name that needs one. A name of letters, digits and underscores
is therefore an identifier as soon as it is qualified, and no other name becomes one.
-/
namespace WaylandZig.Zig

theorem isWordName_of_startsWithLetter {w : Bytes} (hl : startsWithLetter w = true)
    (hw : ∀ b ∈ w, Ascii.isWord b = true) : isWordName w = true := by
  cases w with
  | nil => cases hl
  | cons first rest =>
    simp only [startsWithLetter] at hl
    simp only [isWordName, hl, Bool.true_or, Bool.true_and, List.all_eq_true]
    intro b hb
    exact hw b (List.mem_cons_of_mem _ hb)

/-- The width of an integer type has digits only. -/
theorem underscore_notMem_of_isIntegerType {w : Bytes} (h : isIntegerType w = true) :
    Ascii.underscore ∉ w := by
  match w with
  | [] => cases h
  | [_] => cases h
  | b :: d :: ds =>
    simp only [isIntegerType, Bool.and_eq_true, Bool.or_eq_true, beq_iff_eq, List.all_eq_true] at h
    intro hm
    rcases List.mem_cons.mp hm with rfl | hm
    · rcases h.1 with he | he <;> cases he
    · cases h.2 _ hm

/-- Where a reserved word is cut at an underscore, its front is reserved too, or the rest of it needs
no lead. -/
theorem isReserved_or_not_needsLead {front back : Bytes}
    (h : isReserved (front ++ Ascii.underscore :: back) = true) :
    isReserved front = true ∨ ¬ NeedsLead back := by
  -- Names are arbitrary but the words are finitely many, so that all cuts of them are looked at.
  have hwords : ∀ w ∈ reservedWords, ∀ k < w.length, w[k]? = some Ascii.underscore →
      isReserved (w.take k) = true ∨ ¬ NeedsLead (w.drop (k + 1)) := by
    decide +kernel
  rw [isReserved, Bool.or_eq_true, List.contains_iff_mem] at h
  rcases h with hm | hi
  · have hk : front.length < (front ++ Ascii.underscore :: back).length := by simp
    simpa using hwords _ hm front.length hk (by simp)
  · exact absurd (by simp) (underscore_notMem_of_isIntegerType hi)

namespace Naming

/-- The lead of a document is an identifier. -/
theorem isIdentifier_lead (nameSpace : Bytes) : isIdentifier (ofNameSpace nameSpace).lead = true := by
  simp only [ofNameSpace]
  split
  · rename_i h
    exact (Bool.and_eq_true_iff.mp h).2
  · decide +kernel

theorem not_needsLead_withLead (nameSpace : Bytes) {name : Bytes} (h : NeedsLead name) :
    ¬ NeedsLead ((ofNameSpace nameSpace).withLead name) := by
  have hlead := isIdentifier_lead nameSpace
  simp only [isIdentifier, Bool.and_eq_true, Bool.not_eq_true'] at hlead
  rintro (hr | hs)
  · rw [withLead_eq] at hr
    rcases isReserved_or_not_needsLead hr with hf | hb
    · rw [hlead.2] at hf
      cases hf
    · exact hb h
  · rw [startsWithLetter_withLead (startsWithLetter_lead nameSpace)] at hs
    cases hs

theorem not_needsLead_qualify (nameSpace name : Bytes) :
    ¬ NeedsLead ((ofNameSpace nameSpace).qualify name) := by
  by_cases h : NeedsLead name
  · rw [qualify_of_needsLead h]
    exact not_needsLead_withLead nameSpace h
  · rw [qualify_of_not_needsLead h]
    exact h

/-- A name is qualified once. -/
theorem qualify_idempotent (nameSpace name : Bytes) :
    (ofNameSpace nameSpace).qualify ((ofNameSpace nameSpace).qualify name) =
      (ofNameSpace nameSpace).qualify name :=
  qualify_of_not_needsLead (not_needsLead_qualify nameSpace name)

theorem qualify_cases (n : Naming) (name : Bytes) :
    n.qualify name = name ∨ n.qualify name = n.withLead name := by
  by_cases h : NeedsLead name
  · exact .inr (qualify_of_needsLead h)
  · exact .inl (qualify_of_not_needsLead h)

theorem isWord_qualify {nameSpace name : Bytes} (h : ∀ b ∈ name, Ascii.isWord b = true) :
    ∀ b ∈ (ofNameSpace nameSpace).qualify name, Ascii.isWord b = true := by
  have hlead := isIdentifier_lead nameSpace
  simp only [isIdentifier, Bool.and_eq_true] at hlead
  rcases qualify_cases (ofNameSpace nameSpace) name with hq | hq
  · rw [hq]
    exact h
  · rw [hq, withLead_eq]
    intro b hb
    rcases List.mem_append.mp hb with hb | hb
    · exact isWord_of_isWordName hlead.1.1 hb
    rcases List.mem_cons.mp hb with rfl | hb
    · decide
    · exact h b hb

/-- A qualified name of word bytes is an identifier: it starts with a letter and is not reserved. -/
theorem isIdentifier_qualify {nameSpace name : Bytes} (h : ∀ b ∈ name, Ascii.isWord b = true) :
    isIdentifier ((ofNameSpace nameSpace).qualify name) = true := by
  have hn := not_needsLead_qualify nameSpace name
  simp only [NeedsLead, not_or, Bool.not_eq_true, Bool.not_eq_false] at hn
  obtain ⟨hr,hl⟩ := hn
  have hne : (ofNameSpace nameSpace).qualify name ≠ "_" := by
    intro he
    rw [he] at hl
    exact absurd hl (by decide)
  simp only [isIdentifier, isWordName_of_startsWithLetter hl (isWord_qualify h), bne_iff_ne.mpr hne,
    hr, Bool.not_false, Bool.and_true]

/-- The names that become identifiers are those of letters, digits and underscores, the empty one
among them, in whatever name space. The identifier starts with a letter, is none of the words of the
language or of the units, and is the name as it was or the name behind the lead. -/
theorem identifier_accepts_words (nameSpace name : Bytes) :
    ((∃ out, (ofNameSpace nameSpace).identifier name = .ok out) ↔
      ∀ b ∈ name, Ascii.isWord b = true) ∧
    ∀ out, (ofNameSpace nameSpace).identifier name = .ok out →
      (∃ first rest, out = first :: rest ∧ Ascii.isLetter first = true ∧
        ∀ b ∈ rest, Ascii.isWord b = true) ∧
      out ∉ keywords ∧ out ∉ primitiveTypes ∧ isIntegerType out = false ∧ out ∉ fixedNames ∧
      (out = name ∨ out = (ofNameSpace nameSpace).lead ++ "_" ++ name) := by
  refine ⟨⟨?_,?_⟩,?_⟩
  · rintro ⟨out,h⟩ b hb
    exact isWord_of_identifier h hb
  · intro h
    exact ⟨_,identifier_eq_ok_iff.mpr ⟨rfl,isIdentifier_qualify h⟩⟩
  intro out h
  have hwords := isWordName_of_identifier h
  obtain ⟨rfl,-⟩ := identifier_eq_ok_iff.mp h
  have hn := not_needsLead_qualify nameSpace name
  simp only [NeedsLead, not_or, isReserved, Bool.or_eq_true, List.contains_iff_mem, reservedWords,
    List.mem_append, Bool.not_eq_true, Bool.not_eq_false] at hn
  obtain ⟨⟨⟨⟨hkeywords,hprimitive⟩,hfixed⟩,hinteger⟩,hletter⟩ := hn
  refine ⟨?_,hkeywords,hprimitive,hinteger,hfixed,qualify_cases _ name⟩
  cases hq : (ofNameSpace nameSpace).qualify name with
  | nil =>
    rw [hq] at hletter
    cases hletter
  | cons first rest =>
    rw [hq] at hwords hletter
    simp only [isWordName, Bool.and_eq_true, List.all_eq_true] at hwords
    exact ⟨first,rest,rfl,hletter,hwords.2⟩

/-- A name space of one letter that some reserved words begin with, and such a reserved word. -/
theorem leadOfReserved_accepts_words :
    (ofNameSpace "c").identifier "c_int" = .ok "c_c_int" ∧
    (∃ first rest, ("c_c_int" : Bytes) = first :: rest ∧ Ascii.isLetter first = true ∧
      ∀ b ∈ rest, Ascii.isWord b = true) ∧
    ("c_c_int" : Bytes) ∉ reservedWords ∧
    ¬ ∃ out, (ofNameSpace "c").identifier "c-int" = .ok out := by
  have hname : (ofNameSpace "c").identifier "c_int" = .ok "c_c_int" := by decide +kernel
  obtain ⟨hshape,hk,hp,-,hf,-⟩ := (identifier_accepts_words "c" "c_int").2 _ hname
  refine ⟨hname,hshape,by simp [reservedWords, hk, hp, hf],?_⟩
  rw [(identifier_accepts_words "c" "c-int").1]
  decide +kernel

end Naming

end WaylandZig.Zig
