import WaylandZig.Proofs.Text.Numeral
import WaylandZig.Proofs.Text.Space
import WaylandZig.Schema.Reader

/-! # Entry values are read back

An entry value is read from the numeral that a text spells between white space. The base is the one
that the numeral is written in, so the text of a value is read as that value again, in its base.
-/
namespace WaylandZig.Schema

namespace EntryValue

open Numeral (Denotes)

/-- A number is written in decimal digits, or in hexadecimal digits behind `0x` or `0X`. -/
inductive Writes : Bytes → Bool → Nat → Prop where
  | decimal {ds : Bytes} {n : Nat} (hd : Denotes 10 ds n) : Writes ds false n
  | hex {x : UInt8} {ds : Bytes} {n : Nat} (hx : x = 0x78 ∨ x = 0x58) (hd : Denotes 16 ds n) :
    Writes (0x30 :: x :: ds) true n

/-- The numeral of a number stands in a text, with nothing but white space around it. -/
def Spells (text : Bytes) (hex : Bool) (n : Nat) : Prop :=
  ∃ front numeral back, Space.IsBlank front ∧ Space.IsBlank back ∧
    text = front ++ numeral ++ back ∧ Writes numeral hex n

theorem not_denotes_decimal {x : UInt8} (hx : x = 0x78 ∨ x = 0x58) (ds : Bytes) (n : Nat) :
    ¬ Denotes 10 (0x30 :: x :: ds) n := by
  rintro ⟨-,values,hv,-⟩
  obtain ⟨d,-,hd⟩ := hv.exists_of_mem_left (List.mem_cons_of_mem _ List.mem_cons_self)
  rw [← Numeral.digitValue?_eq_some_iff] at hd
  rcases hx with rfl | rfl
  · cases hd
  · cases hd

theorem Writes.isWord {numeral : Bytes} {hex : Bool} {n : Nat} (h : Writes numeral hex n) :
    ∀ b ∈ numeral, Ascii.isWord b = true := by
  cases h with
  | decimal hd => exact Numeral.isWord_of_nat? (Numeral.nat?_eq_some_iff.mpr hd)
  | hex hx hd =>
    have hds := Numeral.isWord_of_nat? (Numeral.nat?_eq_some_iff.mpr hd)
    simp only [List.mem_cons]
    rintro b (rfl | rfl | hb)
    · decide
    · rcases hx with rfl | rfl <;> decide
    · exact hds b hb

/-- What is left of a text is read in the base that it is written in. -/
theorem read?_eq_some_iff_trim {text : Bytes} {v : EntryValue} :
    read? text = some v ↔ Writes (Space.trim text) v.hex v.number.toNat := by
  have hval {base : Nat} {hex : Bool} {ds : Bytes} :
      (Numeral.uint64? base ds).map (⟨·,hex⟩) = some v ↔
        Denotes base ds v.number.toNat ∧ hex = v.hex := by
    rw [Option.map_eq_some_iff, ← Numeral.uint64?_eq_some_iff]
    constructor
    · rintro ⟨n,hn,rfl⟩
      exact ⟨hn,rfl⟩
    · rintro ⟨hn,rfl⟩
      exact ⟨v.number,hn,rfl⟩
  have hdecimal {ds : Bytes} (h : Denotes 10 ds v.number.toNat ∧ false = v.hex) :
      Writes ds v.hex v.number.toNat :=
    h.2 ▸ .decimal h.1
  rw [read?]
  split
  · rename_i x d ds htrim
    rw [htrim]
    split
    · rename_i hx
      rw [hval]
      constructor
      · rintro ⟨hd,hh⟩
        exact hh ▸ .hex hx hd
      · generalize v.hex = hex
        rintro (hd | ⟨-,hd⟩)
        · exact absurd hd (not_denotes_decimal hx _ _)
        · exact ⟨hd,rfl⟩
    · rename_i hx
      rw [hval]
      refine ⟨hdecimal,?_⟩
      generalize v.hex = hex
      rintro (hd | ⟨hx',-⟩)
      · exact ⟨hd,rfl⟩
      · exact absurd hx' hx
  · rename_i hraw
    rw [hval]
    refine ⟨hdecimal,?_⟩
    generalize Space.trim text = raw at hraw
    generalize v.hex = hex
    rintro (hd | ⟨-,hd⟩)
    · exact ⟨hd,rfl⟩
    · -- At least one digit stands behind the `x`.
      obtain ⟨d,ds,rfl⟩ := List.exists_cons_of_ne_nil hd.1
      exact absurd rfl (hraw _ _ _)

/-- Exactly the numerals below `2 ^ 64` are read, and as what they write. -/
theorem read?_eq_some_iff {text : Bytes} {v : EntryValue} :
    read? text = some v ↔ Spells text v.hex v.number.toNat := by
  rw [read?_eq_some_iff_trim]
  constructor
  · intro h
    obtain ⟨front,back,hf,hb,ht⟩ := Space.trim_splits text
    exact ⟨front,_,back,hf,hb,ht,h⟩
  · rintro ⟨front,numeral,back,hf,hb,ht,hw⟩
    rwa [(Space.trim_eq_word_iff hw.isWord).mpr ⟨front,back,hf,hb,ht⟩]

theorem read?_eq_none_iff {text : Bytes} :
    read? text = none ↔ ∀ hex n, Spells text hex n → 2 ^ 64 ≤ n := by
  rw [Option.eq_none_iff_forall_ne_some]
  constructor
  · intro h hex n hs
    by_contra hlt
    have hn : (UInt64.ofNat n).toNat = n := UInt64.toNat_ofNat_of_lt' (Nat.lt_of_not_le hlt)
    exact h ⟨UInt64.ofNat n,hex⟩ (read?_eq_some_iff.mpr (by rwa [hn]))
  · intro h v hv
    exact Nat.not_le.mpr v.number.toNat_lt (h _ _ (read?_eq_some_iff.mp hv))

theorem writes_text (v : EntryValue) : Writes v.text v.hex v.number.toNat := by
  obtain ⟨number,hex⟩ := v
  cases hex with
  | false => exact .decimal (Numeral.nat?_eq_some_iff.mp (Numeral.nat?_decimal _))
  | true => exact .hex (.inl rfl) (Numeral.nat?_eq_some_iff.mp (Numeral.nat?_hex _))

theorem spells_text (v : EntryValue) : Spells v.text v.hex v.number.toNat := by
  have hn : Space.IsBlank [] := ⟨[],by simp,rfl⟩
  exact ⟨[],v.text,[],hn,hn,by simp,v.writes_text⟩

theorem read?_text (v : EntryValue) : read? v.text = some v :=
  read?_eq_some_iff.mpr v.spells_text

end EntryValue

namespace Reader

open EntryValue (Spells)

variable {r : Reader} {e : Enum} {name text : Bytes}

theorem readEntry_eq_ok_iff {result : Enum} : r.readEntry e name text = .ok result ↔
    ∃ v : EntryValue, Spells text v.hex v.number.toNat ∧
      result = { e with entries := e.entries ++ [⟨name,v.number,v.hex⟩] } := by
  simp only [← EntryValue.read?_eq_some_iff]
  rw [readEntry]
  cases hv : EntryValue.read? text with
  | none =>
    simp [fail]
  | some v =>
    simp only [Except.ok.injEq, Option.some_inj, exists_eq_left']
    exact eq_comm

theorem readEntry_eq_error_iff {fault : ReadFault} : r.readEntry e name text = .error fault ↔
    (∀ hex n, Spells text hex n → 2 ^ 64 ≤ n) ∧
      fault = .invalid r.scopes (.entryValue name text) := by
  rw [← EntryValue.read?_eq_none_iff, readEntry]
  cases hv : EntryValue.read? text with
  | none =>
    simp only [fail, Except.error.injEq, true_and]
    exact eq_comm
  | some v => simp

end Reader

end WaylandZig.Schema
