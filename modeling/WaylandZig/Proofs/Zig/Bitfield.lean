import WaylandZig.Zig.Bitfield

/-! # Fields of a bitfield record

Every field of a layout is at least one bit wide, since a gap of no bits is left out, and none is
wider than the record that holds it.
-/
namespace WaylandZig.Zig

open Schema

namespace BitLayout

theorem one_le_bits_of_mem_gap {bits : Nat} {f : BitField} (h : f ∈ gap bits) : 1 ≤ f.bits := by
  unfold gap at h
  split at h
  · cases h
  · obtain rfl := List.mem_singleton.mp h
    exact Nat.one_le_iff_ne_zero.mpr ‹_›

theorem one_le_bits_ofEntry (e : Entry) : 1 ≤ (BitField.ofEntry e).bits := by
  unfold BitField.ofEntry
  split <;> exact Nat.le_refl 1

theorem one_le_bits_of_mem_fieldsFrom {entries : List Entry} {next : Nat} {f : BitField}
    (h : f ∈ fieldsFrom entries next) : 1 ≤ f.bits := by
  induction entries generalizing next with
  | nil => exact one_le_bits_of_mem_gap h
  | cons e rest ih =>
    rcases List.mem_append.mp h with h | h
    · exact one_le_bits_of_mem_gap h
    rcases List.mem_cons.mp h with rfl | h
    · exact one_le_bits_ofEntry e
    · exact ih h

theorem width_cons (f : BitField) (fields : List BitField) :
    width (f :: fields) = f.bits + width fields :=
  rfl

theorem bits_le_width {fields : List BitField} {f : BitField} (h : f ∈ fields) :
    f.bits ≤ width fields := by
  induction fields with
  | nil => cases h
  | cons g rest ih =>
    rw [width_cons]
    rcases List.mem_cons.mp h with rfl | h
    · omega
    · have hr := ih h
      omega

theorem layout_eq_ok_iff {entries : List Entry} {layout : List BitField} :
    BitLayout.layout entries = .ok layout ↔ layout = fields entries ∧ width layout = recordWidth := by
  unfold BitLayout.layout
  split
  · rename_i hw
    constructor
    · intro h
      cases h
      exact ⟨rfl,hw⟩
    · rintro ⟨rfl,-⟩
      rfl
  · rename_i hw
    constructor
    · intro h
      cases h
    · rintro ⟨rfl,h⟩
      exact absurd h hw

/-- The fields of a layout are from one bit to the whole record wide. -/
theorem bits_of_mem_layout {entries : List Entry} {layout : List BitField}
    (h : BitLayout.layout entries = .ok layout) {f : BitField} (hf : f ∈ layout) :
    1 ≤ f.bits ∧ f.bits ≤ recordWidth := by
  obtain ⟨rfl,hw⟩ := layout_eq_ok_iff.mp h
  exact ⟨one_le_bits_of_mem_fieldsFrom hf,hw ▸ bits_le_width hf⟩

end BitLayout

end WaylandZig.Zig
