import WaylandZig.Text.Numeral
import WaylandZig.Zig.Identifier

/-! # Word bytes

Every name that a unit declares is a word: letters, digits and underscores. This holds of what a
naming accepts and of the name that it was given, since a qualified name only has something in front.
Numerals are made of word bytes too.
-/
namespace WaylandZig

namespace Zig

theorem isWord_of_isWordName {w : Bytes} (h : isWordName w = true) {b : UInt8} (hb : b ∈ w) :
    Ascii.isWord b = true := by
  cases w with
  | nil => cases h
  | cons first rest =>
    simp only [isWordName, Bool.and_eq_true, Bool.or_eq_true, List.all_eq_true] at h
    rcases List.mem_cons.mp hb with rfl | hb
    · rcases h.1 with hl | hu
      · simp [Ascii.isWord, hl]
      · simp [Ascii.isWord, hu]
    · exact h.2 b hb

namespace Naming

theorem identifier_eq_ok_iff {n : Naming} {name out : Bytes} :
    n.identifier name = .ok out ↔ n.qualify name = out ∧ isIdentifier out = true := by
  unfold identifier
  split
  · rename_i hi
    constructor
    · intro h
      cases h
      exact ⟨rfl,hi⟩
    · rintro ⟨rfl,-⟩
      rfl
  · rename_i hi
    constructor
    · intro h
      cases h
    · rintro ⟨rfl,h⟩
      exact absurd h hi

theorem isWordName_of_identifier {n : Naming} {name out : Bytes} (h : n.identifier name = .ok out) :
    isWordName out = true := by
  have hi := (identifier_eq_ok_iff.mp h).2
  simp only [isIdentifier, Bool.and_eq_true] at hi
  exact hi.1.1

theorem isWord_of_identifier {n : Naming} {name out : Bytes} (h : n.identifier name = .ok out)
    {b : UInt8} (hb : b ∈ name) : Ascii.isWord b = true := by
  refine isWord_of_isWordName (isWordName_of_identifier h) ?_
  rw [← (identifier_eq_ok_iff.mp h).1, qualify]
  split
  · exact List.mem_append_right _ hb
  · exact hb

end Naming

end Zig

namespace Numeral

theorem isWord_digit {d : Nat} (h : d < 16) : Ascii.isWord (digit d) = true := by
  have hd : ∀ d : Fin 16, Ascii.isWord (digit d) = true := by decide
  exact hd ⟨d,h⟩

theorem isWord_digitsInto {base fuel n : Nat} {tail : Bytes} (h0 : 0 < base) (h16 : base ≤ 16)
    (ht : ∀ b ∈ tail, Ascii.isWord b = true) :
    ∀ b ∈ digitsInto base fuel n tail, Ascii.isWord b = true := by
  induction fuel generalizing n tail with
  | zero => exact ht
  | succ fuel ih =>
    have hd : Ascii.isWord (digit (n % base)) = true :=
      isWord_digit (Nat.lt_of_lt_of_le (Nat.mod_lt n h0) h16)
    have hc : ∀ b ∈ digit (n % base) :: tail, Ascii.isWord b = true := by
      intro b hb
      rcases List.mem_cons.mp hb with rfl | hb
      · exact hd
      · exact ht b hb
    simp only [digitsInto]
    split
    · exact hc
    · exact ih hc

theorem isWord_decimal (n : Nat) : ∀ b ∈ decimal n, Ascii.isWord b = true :=
  isWord_digitsInto (by decide) (by decide) (by simp)

theorem isWord_hex (n : Nat) : ∀ b ∈ hex n, Ascii.isWord b = true :=
  isWord_digitsInto (by decide) (by decide) (by simp)

end Numeral

end WaylandZig
