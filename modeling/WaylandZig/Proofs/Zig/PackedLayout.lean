import Mathlib.Algebra.GroupWithZero.Nat
import Mathlib.Data.List.Chain
import WaylandZig.Proofs.Zig.Bitfield

/-! # Where the flags of a bitfield stand

Only the width of the record is checked, and this is enough. Laying entries out from a bit on never
takes fewer bits than the record has left, and it takes just as many when the entries stand at rising
bits below the end of the record: a bit that was already covered costs one bit too many, and nothing
after it can win that back. Each flag then starts at its own bit. Entries that are no single bit drop
out before anything is laid out, whatever the order they were in.
-/
namespace List

variable {α : Type} {le : α → α → Bool}

/-- A list is cut in one way into a part that fails a test and a part that passes it. -/
theorem append_eq_append_of_test {p : α → Bool} {front back front' back' : List α}
    (h : front ++ back = front' ++ back') (hf : ∀ a ∈ front, p a = false)
    (hb : ∀ a ∈ back, p a = true) (hf' : ∀ a ∈ front', p a = false)
    (hb' : ∀ a ∈ back', p a = true) : front = front' ∧ back = back' := by
  have htake (xs ys : List α) (hx : ∀ a ∈ xs, p a = false) (hy : ∀ a ∈ ys, p a = true) :
      (xs ++ ys).filter p = ys := by
    rw [filter_append, filter_eq_nil_iff.mpr (by simpa using hx), nil_append,
      filter_eq_self.mpr hy]
  have hback : back = back' := by
    rw [← htake front back hf hb, h, htake front' back' hf' hb']
  subst hback
  exact ⟨append_cancel_right h,rfl⟩

/-- Sorting is stable, so what a test leaves out has no effect on the order of the rest. -/
theorem filter_mergeSort (htrans : ∀ a b c, le a b = true → le b c = true → le a c = true)
    (htotal : ∀ a b, (le a b || le b a) = true) (p : α → Bool) (xs : List α) :
    (xs.mergeSort le).filter p = (xs.filter p).mergeSort le := by
  induction xs with
  | nil => simp
  | cons a xs ih =>
    obtain ⟨front,back,hs,hr,hlt⟩ := mergeSort_cons htrans htotal a xs
    have hsorted := pairwise_mergeSort htrans htotal (a :: xs)
    rw [hr, filter_append] at ih
    rw [hs] at hsorted ⊢
    rw [filter_append, filter_cons, filter_cons]
    cases hp : p a with
    | false => simpa using ih
    | true =>
      obtain ⟨front',back',hs',hr',hlt'⟩ := mergeSort_cons htrans htotal a (xs.filter p)
      have hsorted' := pairwise_mergeSort htrans htotal (a :: xs.filter p)
      rw [hs'] at hsorted'
      have hge := (pairwise_cons.mp (pairwise_append.mp hsorted).2.1).1
      have hge' := (pairwise_cons.mp (pairwise_append.mp hsorted').2.1).1
      -- Both lists have in front what does not follow the new element, and behind what does.
      have hcut := append_eq_append_of_test (p := le a) (ih.trans hr')
        (fun b hb => by simpa using hlt b (mem_filter.mp hb).1)
        (fun b hb => hge b (mem_filter.mp hb).1) (fun b hb => by simpa using hlt' b hb) hge'
      simp only [if_true, hs', hcut.1, hcut.2]

end List

namespace WaylandZig.Zig

open Schema

def BitField.isFlag (f : BitField) : Bool := f.flagName?.isSome

namespace BitLayout

/-- The entries that name one bit. -/
def powers (entries : List Entry) : List Entry :=
  entries.filter fun e => e.value.toNat.isPowerOfTwo

/-- Fields that are laid out from a bit on, each with the bit it starts at. -/
def placedFrom : Nat → List BitField → List (Nat × BitField)
  | _, [] => []
  | start, f :: rest => (start,f) :: placedFrom (start + f.bits) rest

section Values

theorem isSingleBit_iff {v : UInt64} : isSingleBit v = true ↔ v.toNat.isPowerOfTwo := by
  rw [← Nat.ne_zero_and_sub_one_eq_zero_iff_isPowerOfTwo, isSingleBit, Bool.and_eq_true, bne_iff_ne,
    beq_iff_eq, ne_eq, ← UInt64.toNat_inj, ← UInt64.toNat_inj, UInt64.toNat_and]
  refine and_congr_right fun hv => ?_
  have hle : (1 : UInt64) ≤ v := by
    rw [UInt64.le_iff_toNat_le]
    exact Nat.one_le_iff_ne_zero.mpr hv
  rw [UInt64.toNat_sub_of_le _ _ hle]
  rfl

theorem eq_two_pow_bitIndex {v : UInt64} (h : v.toNat.isPowerOfTwo) : v.toNat = 2 ^ bitIndex v := by
  obtain ⟨k,hk⟩ := h
  rw [bitIndex, hk, Nat.log2_two_pow]

theorem bitIndex_lt_iff {v w : UInt64} (hv : v.toNat.isPowerOfTwo) (hw : w.toNat.isPowerOfTwo) :
    bitIndex v < bitIndex w ↔ v < w := by
  rw [UInt64.lt_iff_toNat_lt, eq_two_pow_bitIndex hv, eq_two_pow_bitIndex hw]
  exact (Nat.pow_lt_pow_iff_right (by decide)).symm

theorem bitIndex_lt_recordWidth_iff {v : UInt64} (hv : v.toNat.isPowerOfTwo) :
    bitIndex v < recordWidth ↔ v.toNat < 2 ^ recordWidth := by
  rw [eq_two_pow_bitIndex hv]
  exact (Nat.pow_lt_pow_iff_right (by decide)).symm

end Values

section Sorted

theorem value_le_trans (a b c : Entry) (hab : decide (a.value ≤ b.value) = true)
    (hbc : decide (b.value ≤ c.value) = true) : decide (a.value ≤ c.value) = true := by
  simp only [decide_eq_true_eq] at hab hbc ⊢
  exact UInt64.le_trans hab hbc

theorem value_le_total (a b : Entry) :
    (decide (a.value ≤ b.value) || decide (b.value ≤ a.value)) = true := by
  simp only [Bool.or_eq_true, decide_eq_true_eq]
  exact UInt64.le_total a.value b.value

/-- The entries of single bits in the order in which they are laid out. -/
def rising (entries : List Entry) : List Entry :=
  (powers entries).mergeSort fun a b => a.value ≤ b.value

theorem fields_eq (entries : List Entry) : fields entries = fieldsFrom (rising entries) 0 := by
  have hf : (fun e : Entry => isSingleBit e.value) =
      fun e => decide e.value.toNat.isPowerOfTwo := by
    funext e
    rw [Bool.eq_iff_iff, decide_eq_true_eq]
    exact isSingleBit_iff
  rw [fields, hf, rising, powers, List.filter_mergeSort value_le_trans value_le_total]

theorem powers_powers (entries : List Entry) : powers (powers entries) = powers entries := by
  rw [powers, powers, List.filter_filter]
  simp only [Bool.and_self]

theorem rising_perm (entries : List Entry) : (rising entries).Perm (powers entries) :=
  List.mergeSort_perm _ _

theorem isPowerOfTwo_of_mem {entries : List Entry} {e : Entry} (h : e ∈ rising entries) :
    e.value.toNat.isPowerOfTwo := by
  have hm := (rising_perm entries).mem_iff.mp h
  simpa using (List.mem_filter.mp hm).2

/-- Entries of different single bits are laid out at rising bits. -/
theorem pairwise_bitIndex_iff (entries : List Entry) :
    (rising entries).Pairwise (fun a b => bitIndex a.value < bitIndex b.value) ↔
      ((powers entries).map Entry.value).Nodup := by
  have hperm := (rising_perm entries).map Entry.value
  rw [← hperm.nodup_iff, List.Nodup, List.pairwise_map]
  have hsorted := List.pairwise_mergeSort value_le_trans value_le_total (powers entries)
  constructor
  · intro h
    refine h.imp ?_
    intro a b hlt he
    rw [he] at hlt
    exact Nat.lt_irrefl _ hlt
  · intro h
    refine (hsorted.and h).imp_of_mem ?_
    rintro a b ha hb ⟨hle,hne⟩
    rw [decide_eq_true_eq] at hle
    rw [bitIndex_lt_iff (isPowerOfTwo_of_mem ha) (isPowerOfTwo_of_mem hb)]
    exact UInt64.lt_of_le_of_ne hle hne

end Sorted

section Width

theorem width_append (front back : List BitField) : width (front ++ back) = width front + width back := by
  induction front with
  | nil => simp [width]
  | cons f front ih =>
    rw [List.cons_append, width_cons, width_cons, ih]
    omega

theorem width_gap (bits : Nat) : width (gap bits) = bits := by
  unfold gap
  split
  · rename_i h
    rw [h]
    rfl
  · rfl

theorem bits_ofEntry (e : Entry) : (BitField.ofEntry e).bits = 1 := by
  unfold BitField.ofEntry
  split <;> rfl

theorem width_fieldsFrom_cons (e : Entry) (rest : List Entry) (next : Nat) :
    width (fieldsFrom (e :: rest) next) =
      (bitIndex e.value - next) + 1 + width (fieldsFrom rest (bitIndex e.value + 1)) := by
  rw [fieldsFrom, width_append, width_gap, width_cons, bits_ofEntry]
  omega

/-- The record is always filled. -/
theorem recordWidth_le_width (entries : List Entry) (next : Nat) :
    recordWidth ≤ width (fieldsFrom entries next) + next := by
  induction entries generalizing next with
  | nil =>
    rw [fieldsFrom, width_gap]
    omega
  | cons e rest ih =>
    have hr := ih (bitIndex e.value + 1)
    rw [width_fieldsFrom_cons]
    omega

/-- Each entry stands at a bit of the record that no field before it covers. -/
structure Fits (entries : List Entry) (next : Nat) : Prop where
  inside : ∀ e ∈ entries, next ≤ bitIndex e.value ∧ bitIndex e.value < recordWidth
  apart : entries.Pairwise fun a b => bitIndex a.value < bitIndex b.value

theorem fits_cons_iff {e : Entry} {rest : List Entry} {next : Nat} :
    Fits (e :: rest) next ↔ next ≤ bitIndex e.value ∧ bitIndex e.value < recordWidth ∧
      Fits rest (bitIndex e.value + 1) := by
  constructor
  · rintro ⟨hin,hap⟩
    obtain ⟨hlt,hap⟩ := List.pairwise_cons.mp hap
    obtain ⟨hle,hw⟩ := hin e List.mem_cons_self
    exact ⟨hle,hw,fun x hx => ⟨hlt x hx,(hin x (List.mem_cons_of_mem _ hx)).2⟩,hap⟩
  · rintro ⟨hle,hw,hin,hap⟩
    refine ⟨?_,List.pairwise_cons.mpr ⟨fun x hx => (hin x hx).1,hap⟩⟩
    intro x hx
    rcases List.mem_cons.mp hx with rfl | hx
    · exact ⟨hle,hw⟩
    · obtain ⟨hx,hxw⟩ := hin x hx
      exact ⟨by omega,hxw⟩

/-- The record is filled without a bit too many just when the entries fit into it. -/
theorem width_fieldsFrom_eq_iff {entries : List Entry} {next : Nat} (hn : next ≤ recordWidth) :
    width (fieldsFrom entries next) + next = recordWidth ↔ Fits entries next := by
  induction entries generalizing next with
  | nil =>
    rw [fieldsFrom, width_gap]
    exact ⟨fun _ => ⟨nofun,.nil⟩,fun _ => by omega⟩
  | cons e rest ih =>
    rw [width_fieldsFrom_cons, fits_cons_iff]
    have hfull := recordWidth_le_width rest (bitIndex e.value + 1)
    by_cases hlt : bitIndex e.value < recordWidth
    · have hr := @ih (bitIndex e.value + 1) hlt
      constructor
      · intro h
        -- A bit that is already covered would be counted twice.
        have hle : next ≤ bitIndex e.value := by omega
        exact ⟨hle,hlt,hr.mp (by omega)⟩
      · rintro ⟨hle,-,h⟩
        have hw := hr.mpr h
        omega
    · constructor
      · intro h
        omega
      · rintro ⟨-,h,-⟩
        exact absurd h hlt

theorem layout_isOk_iff (entries : List Entry) : (∃ fields, layout entries = .ok fields) ↔
    ((powers entries).map Entry.value).Nodup ∧
      ∀ e ∈ powers entries, e.value.toNat < 2 ^ recordWidth := by
  have hw : width (fieldsFrom (rising entries) 0) + 0 = recordWidth ↔ Fits (rising entries) 0 :=
    width_fieldsFrom_eq_iff (Nat.zero_le recordWidth)
  have hmem (e : Entry) : e ∈ rising entries ↔ e ∈ powers entries := (rising_perm entries).mem_iff
  have hfits : Fits (rising entries) 0 ↔ ((powers entries).map Entry.value).Nodup ∧
      ∀ e ∈ powers entries, e.value.toNat < 2 ^ recordWidth := by
    rw [← pairwise_bitIndex_iff]
    constructor
    · rintro ⟨hin,hap⟩
      refine ⟨hap,?_⟩
      intro e he
      have hm := (hmem e).mpr he
      exact (bitIndex_lt_recordWidth_iff (isPowerOfTwo_of_mem hm)).mp (hin e hm).2
    · rintro ⟨hap,hlt⟩
      refine ⟨?_,hap⟩
      intro e hm
      have he := hlt e ((hmem e).mp hm)
      exact ⟨Nat.zero_le _,(bitIndex_lt_recordWidth_iff (isPowerOfTwo_of_mem hm)).mpr he⟩
  rw [← hfits, ← hw, Nat.add_zero, ← fields_eq]
  constructor
  · rintro ⟨fields,h⟩
    obtain ⟨rfl,hwidth⟩ := layout_eq_ok_iff.mp h
    exact hwidth
  · intro h
    exact ⟨_,layout_eq_ok_iff.mpr ⟨rfl,h⟩⟩

end Width

section Placement

variable {entries : List Entry} {next : Nat}

theorem placedFrom_gap {bit : Nat} (h : next ≤ bit) (fields : List BitField) :
    (placedFrom next (gap (bit - next) ++ fields)).filter (fun p => p.2.isFlag) =
      (placedFrom bit fields).filter fun p => p.2.isFlag := by
  unfold gap
  split
  · obtain rfl : bit = next := by omega
    rfl
  · have hb : next + (bit - next) = bit := by omega
    rw [List.singleton_append, placedFrom, BitField.bits, hb, List.filter_cons]
    rfl

theorem ofEntry_eq_flag {e : Entry} (h : e.name ≠ []) : BitField.ofEntry e = .flag e.name := by
  rw [BitField.ofEntry, if_neg (by simpa using h)]

/-- The flags of entries that fit stand at the bits of these entries. -/
theorem placedFrom_fieldsFrom (hf : Fits entries next) (hn : ∀ e ∈ entries, e.name ≠ []) :
    (placedFrom next (fieldsFrom entries next)).filter (fun p => p.2.isFlag) =
      entries.map fun e => (bitIndex e.value,.flag e.name) := by
  induction entries generalizing next with
  | nil =>
    rw [fieldsFrom, gap]
    split
    · rfl
    · rfl
  | cons e rest ih =>
    obtain ⟨hle,-,hr⟩ := fits_cons_iff.mp hf
    have hrest := ih hr fun x hx => hn x (List.mem_cons_of_mem _ hx)
    rw [fieldsFrom, placedFrom_gap hle, ofEntry_eq_flag (hn e List.mem_cons_self), placedFrom,
      List.filter_cons_of_pos rfl, BitField.bits, hrest, List.map_cons]

/-- Padding is followed by a flag and follows a flag. -/
theorem isChain_fieldsFrom (hn : ∀ e ∈ entries, e.name ≠ []) (next : Nat) :
    (fieldsFrom entries next).IsChain fun f g => f.isFlag = true ∨ g.isFlag = true := by
  have hgap (bits : Nat) : (gap bits).IsChain fun f g => f.isFlag = true ∨ g.isFlag = true := by
    unfold gap
    split
    · exact .nil
    · exact .singleton _
  induction entries generalizing next with
  | nil => exact hgap _
  | cons e rest ih =>
    have hrest := ih (fun x hx => hn x (List.mem_cons_of_mem _ hx)) (bitIndex e.value + 1)
    have hflag : (BitField.ofEntry e).isFlag = true := by
      rw [ofEntry_eq_flag (hn e List.mem_cons_self)]
      rfl
    rw [fieldsFrom, List.isChain_append]
    refine ⟨hgap _,List.isChain_cons.mpr ⟨fun g _ => .inl hflag,hrest⟩,?_⟩
    intro f _ g hg
    cases hg
    exact .inr hflag

end Placement

/-- Entries are laid out just when those that name one bit name different ones below the end of the
record. Their flags then stand at these bits, one bit wide each; no field is empty, no padding stands
beside padding, and the fields fill the record. Otherwise the width of the record is reported, and
the entries that name no bit or several make no difference. -/
theorem layout_places_flags (entries : List Entry) (hn : ∀ e ∈ entries, e.name ≠ []) :
    ((∃ fields, layout entries = .ok fields) ↔
      ((powers entries).map Entry.value).Nodup ∧ ∀ e ∈ powers entries, e.value.toNat < 2 ^ 32) ∧
    (∀ fields, layout entries = .ok fields →
      (∃ order, order.Perm (powers entries) ∧
        List.Forall₂ (fun e p => p.2 = BitField.flag e.name ∧ p.2.bits = 1 ∧ e.value.toNat = 2 ^ p.1)
          order ((placedFrom 0 fields).filter fun p => p.2.isFlag)) ∧
      (∀ f ∈ fields, f.bits ≠ 0) ∧
      fields.IsChain (fun f g => f.isFlag = true ∨ g.isFlag = true) ∧
      (fields.map BitField.bits).sum = 32) ∧
    (∀ found, layout entries = .error found → found.code = .bitfieldWidth) ∧
    layout entries = layout (powers entries) := by
  have hnames : ∀ e ∈ rising entries, e.name ≠ [] := by
    intro e he
    exact hn e (List.mem_filter.mp ((rising_perm entries).mem_iff.mp he)).1
  refine ⟨layout_isOk_iff entries,?_,?_,?_⟩
  · intro fields h
    have hpos : ∀ f ∈ fields, f.bits ≠ 0 := by
      intro f hf
      have h1 := (bits_of_mem_layout h hf).1
      omega
    obtain ⟨rfl,hw⟩ := layout_eq_ok_iff.mp h
    rw [fields_eq] at hw ⊢
    have hfits := (width_fieldsFrom_eq_iff (Nat.zero_le recordWidth)).mp hw
    rw [placedFrom_fieldsFrom hfits hnames]
    refine ⟨⟨rising entries,rising_perm entries,?_⟩,?_,isChain_fieldsFrom hnames 0,hw⟩
    · rw [List.forall₂_map_right_iff, List.forall₂_same]
      intro e he
      exact ⟨rfl,rfl,eq_two_pow_bitIndex (isPowerOfTwo_of_mem he)⟩
    · rwa [fields_eq] at hpos
  · intro found h
    unfold layout at h
    split at h
    · cases h
    · cases h
      rfl
  · have hf : fields (powers entries) = fields entries := by
      rw [fields_eq, fields_eq, rising, rising, powers_powers]
    rw [layout, layout, hf]

/-- Out of order, with a zero and a combination among them. -/
def unsortedEntries : List Entry :=
  [{ name := "top", value := 0x80000000 },{ name := "none", value := 0 },{ name := "low", value := 1 },
    { name := "both", value := 9 },{ name := "mid", value := 8 }]

theorem unsortedEntries_places_flags :
    (∀ e ∈ unsortedEntries, e.name ≠ []) ∧
    layout unsortedEntries =
      .ok [.flag "low",.padding 2,.flag "mid",.padding 27,.flag "top"] ∧
    ∃ order, order.Perm (powers unsortedEntries) ∧
      List.Forall₂ (fun e p => p.2 = BitField.flag e.name ∧ p.2.bits = 1 ∧ e.value.toNat = 2 ^ p.1)
        order [(0,.flag "low"),(3,.flag "mid"),(31,.flag "top")] := by
  have hn : ∀ e ∈ unsortedEntries, e.name ≠ [] := by decide
  have hp : powers unsortedEntries = [{ name := "top", value := 0x80000000 },
      { name := "low", value := 1 },{ name := "mid", value := 8 }] := by
    decide +kernel
  have hr : rising unsortedEntries = [{ name := "low", value := 1 },{ name := "mid", value := 8 },
      { name := "top", value := 0x80000000 }] := by
    rw [rising, hp]
    simp [List.mergeSort, List.MergeSort.Internal.splitInTwo]
  have hl : layout unsortedEntries =
      .ok [.flag "low",.padding 2,.flag "mid",.padding 27,.flag "top"] := by
    rw [layout_eq_ok_iff, fields_eq, hr]
    decide +kernel
  obtain ⟨-,hplaced,-⟩ := layout_places_flags unsortedEntries hn
  exact ⟨hn,hl,(hplaced _ hl).1⟩

end BitLayout

end WaylandZig.Zig
