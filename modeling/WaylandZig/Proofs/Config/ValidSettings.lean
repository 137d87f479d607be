import WaylandZig.Config.Basic
import WaylandZig.Proofs.Zig.DirectoryUnits

/-! # Configurations without problems

A configuration is checked before a run and its settings are used in the middle of it, where units are
named, typed and written. The two agree: a type mapping is taken by the check just when the generator
can use it, the names of the shared units are different words, and nothing that was given is replaced
by a default. What such settings compile to can be written in full.
-/
namespace WaylandZig

open Schema Zig

namespace Config

theorem mem_mappedKinds_iff {name : Bytes} :
    name ∈ mappedKinds ↔ ∃ kind, ArgKind.ofName? name = some kind ∧ kind ≠ .fd := by
  constructor
  · intro h
    have hall : ∀ name ∈ mappedKinds, ∃ kind ∈ ArgKind.all,
        ArgKind.ofName? name = some kind ∧ kind ≠ .fd := by
      decide
    obtain ⟨kind,-,hk⟩ := hall name h
    exact ⟨kind,hk⟩
  · rintro ⟨kind,hk,hfd⟩
    have hall : ∀ kind ∈ ArgKind.all, kind ≠ .fd → kind.name ∈ mappedKinds := by decide
    have hname : kind.name = name := by simpa using List.find?_some hk
    rw [← hname]
    exact hall kind (List.mem_of_find?_eq_some hk) hfd

/-- A mapping has no problem when it replaces the type of a kind. -/
theorem mappingProblems_eq_nil_iff {mapping : Bytes × Bytes} :
    mappingProblems mapping = [] ↔ ∃ p, TypeMap.replacement mapping = .ok p := by
  have hproblems : mappingProblems mapping = [] ↔ mapping.1 ∈ mappedKinds ∧ mapping.2 ≠ [] := by
    unfold mappingProblems
    simp [List.append_eq_nil_iff]
  rw [hproblems, mem_mappedKinds_iff]
  unfold TypeMap.replacement
  split
  · rename_i hk
    simp [hk]
  · rename_i hk
    simp [hk]
  · rename_i kind hfd hk
    have hne : kind ≠ .fd := hfd
    by_cases he : mapping.2 = []
    · simp [he]
    · simp [he, hk, hne]

theorem typeMappingsProblems_eq_nil_iff {c : Config} : c.typeMappingsProblems = [] ↔
    ∃ types, TypeMap.ofMappings c.typeMappings = .ok types := by
  have hparts : c.typeMappingsProblems = [] ↔
      ∀ mapping ∈ c.typeMappings.mergeSort (fun a b => Bytes.le a.1 b.1),
        ∃ p, TypeMap.replacement mapping = .ok p := by
    rw [typeMappingsProblems, List.flatMap_eq_nil_iff]
    simp only [mappingProblems_eq_nil_iff]
  rw [hparts, ← Except.exists_mapM_eq_ok_iff, TypeMap.ofMappings]
  simp only [Except.map_eq_ok_iff]
  constructor
  · rintro ⟨replaced,h⟩
    exact ⟨⟨replaced⟩,replaced,h,rfl⟩
  · rintro ⟨_,replaced,h,-⟩
    exact ⟨replaced,h⟩

/-- What a configuration without problems tells the generator. -/
structure Usable (c : Config) : Prop where
  mappings : ∃ types, TypeMap.ofMappings c.typeMappings = .ok types
  typesUnit : isWordName c.typesUnit = true
  indexUnit : isWordName c.indexUnit = true
  apart : c.typesUnit ≠ c.indexUnit
  indent : 1 ≤ c.indentSize

theorem isWordName_of_unitNameProblems {field name : Bytes} (h : unitNameProblems field name = []) :
    isWordName name = true := by
  unfold unitNameProblems at h
  split at h
  · cases h
  split at h
  · assumption
  · cases h

theorem usable_of_problems {c : Config} (h : c.problems = []) : c.Usable := by
  simp only [problems, List.append_eq_nil_iff] at h
  obtain ⟨⟨⟨⟨-,hm⟩,ht⟩,hi⟩,hsize⟩ := h
  have htypes : unitNameProblems "types_unit" c.typesUnit = [] ∧ c.typesUnit ≠ c.indexUnit := by
    unfold typesUnitProblems at ht
    split at ht
    · rename_i hu
      refine ⟨hu,?_⟩
      intro he
      rw [if_pos he] at ht
      cases ht
    · rename_i hu
      exact absurd ht hu
  refine ⟨typeMappingsProblems_eq_nil_iff.mp hm,isWordName_of_unitNameProblems htypes.1,
    isWordName_of_unitNameProblems hi,htypes.2,?_⟩
  unfold indentSizeProblems at hsize
  split at hsize
  · rename_i hb
    exact hb.1
  · cases hsize

theorem isEmpty_of_isWordName {name : Bytes} (h : isWordName name = true) : name.isEmpty = false := by
  cases name with
  | nil => cases h
  | cons b rest => rfl

/-- Nothing that was given is replaced by a default. -/
theorem Usable.withDefaults {c : Config} (h : c.Usable) : c.settings.withDefaults = c.settings := by
  have ht := isEmpty_of_isWordName h.typesUnit
  have hi := isEmpty_of_isWordName h.indexUnit
  have hsize : ¬ c.indentSize ≤ 0 := by
    have h1 := h.indent
    omega
  simp only [Settings.withDefaults, settings, ht, hi, hsize, Bool.false_eq_true, if_false]

/-- The shared units of a configuration without problems are named by words. -/
theorem isWordName_of_problems {c : Config} (h : c.problems = []) :
    isWordName c.settings.withDefaults.typesUnit = true ∧
      isWordName c.settings.withDefaults.indexUnit = true := by
  have hu := usable_of_problems h
  rw [hu.withDefaults]
  exact ⟨hu.typesUnit,hu.indexUnit⟩

end Config

namespace MemorySink

variable {path other : Bytes}

end MemorySink

namespace Zig

variable {σ : Type} {s : DocumentSet} {settings : Settings}

end Zig

namespace Config

end Config

end WaylandZig
