import Mathlib.Data.List.Basic
import WaylandZig.Text.Utf8

/-! # UTF-8 text is read back

What is read at the front of a text is the code point that its first bytes encode, and an encoded code
point is read whatever follows it. So no byte is lost, and code points are read back. An ASCII byte
encodes itself and takes no part in any longer code.
-/
namespace WaylandZig.Utf8

theorem toNat_ofNat {n : Nat} (h : n.isValidChar) : (Char.ofNat n).toNat = n := by
  rw [Char.ofNat, dif_pos h]
  rfl

/-- A code point past ASCII is encoded without an ASCII byte. -/
theorem le_of_mem_ofChar {c : Char} (hc : 0x80 ≤ c.toNat) {b : UInt8} (hb : b ∈ Bytes.ofChar c) :
    0x80 ≤ b := by
  have hv : ¬ c.val.toNat ≤ 0x7F := by
    rw [Char.toNat_val]
    omega
  have hle (n : Nat) (hn : 0x80 ≤ n) (hm : n < 0x100) : 0x80 ≤ UInt8.ofNat n := by
    rw [UInt8.le_iff_toNat_le, UInt8.toNat_ofNat', Nat.mod_eq_of_lt hm]
    exact hn
  simp only [Bytes.ofChar, String.utf8EncodeChar, if_neg hv] at hb
  split at hb
  · simp only [List.mem_cons, List.not_mem_nil, or_false] at hb
    rcases hb with rfl | rfl <;> exact hle _ (by omega) (by omega)
  split at hb
  · simp only [List.mem_cons, List.not_mem_nil, or_false] at hb
    rcases hb with rfl | rfl | rfl <;> exact hle _ (by omega) (by omega)
  · simp only [List.mem_cons, List.not_mem_nil, or_false] at hb
    rcases hb with rfl | rfl | rfl | rfl <;> exact hle _ (by omega) (by omega)

theorem ofChar_ascii {a : UInt8} (ha : a < 0x80) : Bytes.ofChar (Char.ofNat a.toNat) = [a] := by
  have hn : a.toNat < 0x80 := UInt8.lt_iff_toNat_lt.mp ha
  have hv : (Char.ofNat a.toNat).val.toNat = a.toNat := toNat_ofNat (.inl (by omega))
  simp only [Bytes.ofChar, String.utf8EncodeChar, hv]
  rw [if_pos (by omega), UInt8.ofNat_toNat]

theorem isTail_iff {b : UInt8} : isTail b = true ↔ b.toNat = 0x80 + tailBits b := by
  have hb := b.toNat_lt
  simp only [isTail, Bool.and_eq_true, decide_eq_true_eq, UInt8.le_iff_toNat_le, tailBits]
  change 128 ≤ b.toNat ∧ b.toNat ≤ 191 ↔ _
  omega

theorem tailBits_lt (b : UInt8) : tailBits b < 64 := Nat.mod_lt _ (by decide)

theorem ofNat_eq {n : Nat} {b : UInt8} (h : n = b.toNat) : UInt8.ofNat n = b := by
  rw [h, UInt8.ofNat_toNat]

section Longer

variable {a b c d : UInt8}

theorem ofChar_two (ha : 0xC0 ≤ a.toNat) (ha' : a.toNat < 0xE0) (hb : isTail b = true)
    (hn : 0x80 ≤ (a.toNat - 0xC0) * 64 + tailBits b) :
    Bytes.ofChar (Char.ofNat ((a.toNat - 0xC0) * 64 + tailBits b)) = [a,b] := by
  have hb' := tailBits_lt b
  rw [isTail_iff] at hb
  have hv : Nat.isValidChar ((a.toNat - 0xC0) * 64 + tailBits b) := .inl (by omega)
  rw [Bytes.ofChar, String.utf8EncodeChar, Char.toNat_val, toNat_ofNat hv, if_neg (by omega),
    if_pos (by omega), ofNat_eq (b := a) (by omega), ofNat_eq (b := b) (by omega)]

/-- The codes of the surrogates are left out. -/
theorem ofChar_three (ha : 0xE0 ≤ a.toNat) (ha' : a.toNat < 0xF0) (hb : isTail b = true)
    (hc : isTail c = true) (hn : 0x800 ≤ (a.toNat - 0xE0) * 4096 + tailBits b * 64 + tailBits c)
    (hv : Nat.isValidChar ((a.toNat - 0xE0) * 4096 + tailBits b * 64 + tailBits c)) :
    Bytes.ofChar (Char.ofNat ((a.toNat - 0xE0) * 4096 + tailBits b * 64 + tailBits c)) =
      [a,b,c] := by
  have hb' := tailBits_lt b
  have hc' := tailBits_lt c
  rw [isTail_iff] at hb hc
  rw [Bytes.ofChar, String.utf8EncodeChar, Char.toNat_val, toNat_ofNat hv, if_neg (by omega),
    if_neg (by omega), if_pos (by omega), ofNat_eq (b := a) (by omega),
    ofNat_eq (b := b) (by omega), ofNat_eq (b := c) (by omega)]

theorem ofChar_four (ha : 0xF0 ≤ a.toNat) (ha' : a.toNat < 0xF8) (hb : isTail b = true)
    (hc : isTail c = true) (hd : isTail d = true)
    (hn : 0x10000 ≤ (a.toNat - 0xF0) * 262144 + tailBits b * 4096 + tailBits c * 64 + tailBits d)
    (hm : (a.toNat - 0xF0) * 262144 + tailBits b * 4096 + tailBits c * 64 + tailBits d ≤ 0x10FFFF) :
    Bytes.ofChar (Char.ofNat
      ((a.toNat - 0xF0) * 262144 + tailBits b * 4096 + tailBits c * 64 + tailBits d)) =
      [a,b,c,d] := by
  have hb' := tailBits_lt b
  have hc' := tailBits_lt c
  have hd' := tailBits_lt d
  rw [isTail_iff] at hb hc hd
  have hv : Nat.isValidChar
      ((a.toNat - 0xF0) * 262144 + tailBits b * 4096 + tailBits c * 64 + tailBits d) :=
    .inr ⟨by omega,by omega⟩
  rw [Bytes.ofChar, String.utf8EncodeChar, Char.toNat_val, toNat_ofNat hv, if_neg (by omega),
    if_neg (by omega), if_neg (by omega), ofNat_eq (b := a) (by omega),
    ofNat_eq (b := b) (by omega), ofNat_eq (b := c) (by omega), ofNat_eq (b := d) (by omega)]

end Longer

/-- The bytes that were read at the front encode the code point. -/
theorem ofChar_leading? {a : UInt8} {rest : Bytes} {c : Char} {owed : Nat}
    (h : leading? (a :: rest) = some (c,owed)) : Bytes.ofChar c = a :: rest.take owed := by
  simp only [leading?] at h
  split at h
  · rename_i ha
    cases h
    exact ofChar_ascii ha
  simp only [UInt8.lt_iff_toNat_lt] at h
  split at h
  · cases h
  rename_i ha
  -- The three longer forms differ in their number of tail bytes and in their bounds alone.
  split at h
  · rename_i ha'
    split at h
    · rename_i b tail
      split at h
      · rename_i hn
        simp only [Bool.and_eq_true, decide_eq_true_eq] at hn
        cases h
        exact ofChar_two (Nat.le_of_not_lt ha) ha' hn.1 hn.2
      · cases h
    · cases h
  rename_i ha
  split at h
  · rename_i ha'
    split at h
    · rename_i b c tail
      split at h
      · rename_i hn
        simp only [Bool.and_eq_true, decide_eq_true_eq, Bool.not_eq_true', Bool.and_eq_false_iff,
          decide_eq_false_iff_not] at hn
        obtain ⟨⟨⟨hb,hc⟩,hn⟩,hs⟩ := hn
        cases h
        have hb' := tailBits_lt b
        have hc' := tailBits_lt c
        have ha' : a.toNat < 0xF0 := ha'
        refine ofChar_three (Nat.le_of_not_lt ha) ha' hb hc hn ?_
        rcases hs with hs | hs
        · exact .inl (by omega)
        · exact .inr ⟨by omega,by omega⟩
      · cases h
    · cases h
  rename_i ha
  split at h
  · rename_i ha'
    split at h
    · rename_i b c d tail
      split at h
      · rename_i hn
        simp only [Bool.and_eq_true, decide_eq_true_eq] at hn
        obtain ⟨⟨⟨⟨hb,hc⟩,hd⟩,hn⟩,hm⟩ := hn
        cases h
        exact ofChar_four (Nat.le_of_not_lt ha) ha' hb hc hd hn hm
      · cases h
    · cases h
  · cases h

theorem tail_ofNat {n : Nat} (h : n < 64) :
    isTail (UInt8.ofNat (n + 128)) = true ∧ tailBits (UInt8.ofNat (n + 128)) = n := by
  have hn : (UInt8.ofNat (n + 128)).toNat = n + 128 :=
    UInt8.toNat_ofNat_of_lt' (Nat.lt_of_lt_of_le (Nat.add_lt_add_right h 128) (by decide))
  have ht : tailBits (UInt8.ofNat (n + 128)) = n := by
    rw [tailBits, hn]
    omega
  exact ⟨isTail_iff.mpr (by rw [hn, ht]; omega),ht⟩

/-- An encoded code point is read, whatever follows it. -/
theorem leading?_ofChar (c : Char) (rest : Bytes) : ∃ a more, Bytes.ofChar c = a :: more ∧
    leading? (a :: (more ++ rest)) = some (c,more.length) := by
  have hlt {n : Nat} {k : UInt8} (hn : n < 256) (h : n < k.toNat) : UInt8.ofNat n < k := by
    rw [UInt8.lt_iff_toNat_lt, UInt8.toNat_ofNat_of_lt' hn]
    exact h
  have hge {n : Nat} {k : UInt8} (hn : n < 256) (h : k.toNat ≤ n) : ¬ UInt8.ofNat n < k := by
    rw [UInt8.lt_iff_toNat_lt, UInt8.toNat_ofNat_of_lt' hn]
    exact Nat.not_lt.mpr h
  have hvalid : c.toNat.isValidChar := c.valid
  have hmax : c.toNat < 0x110000 := hvalid.elim (fun h => by omega) And.right
  have hc {n : Nat} (h : n = c.toNat) : Char.ofNat n = c := by rw [h, Char.ofNat_toNat]
  have hlead {n : Nat} (h : n < 256) : (UInt8.ofNat n).toNat = n := UInt8.toNat_ofNat_of_lt' h
  have ht (n : Nat) := tail_ofNat (Nat.mod_lt n (by decide : 0 < 64))
  simp only [Bytes.ofChar, String.utf8EncodeChar, Char.toNat_val]
  by_cases h1 : c.toNat ≤ 0x7F
  · rw [if_pos h1]
    refine ⟨_,[],rfl,?_⟩
    simp only [leading?]
    rw [if_pos (hlt (by omega) (show _ < 128 by omega)), hlead (by omega), hc rfl]
    rfl
  rw [if_neg h1]
  by_cases h2 : c.toNat ≤ 0x7FF
  · rw [if_pos h2]
    refine ⟨_,[_],rfl,?_⟩
    have ha : c.toNat / 64 % 32 + 192 < 256 := by omega
    simp only [leading?, List.cons_append, List.nil_append, hlead ha, ht]
    have hn : (c.toNat / 64 % 32 + 192 - 0xC0) * 64 + c.toNat % 64 = c.toNat := by omega
    rw [if_neg (hge ha (show 128 ≤ _ by omega)), if_neg (hge ha (show 192 ≤ _ by omega)),
      if_pos (hlt ha (show _ < 224 by omega)), hn, hc rfl, if_pos]
    · rfl
    · simp only [Bool.true_and, decide_eq_true_eq]
      omega
  rw [if_neg h2]
  by_cases h3 : c.toNat ≤ 0xFFFF
  · rw [if_pos h3]
    refine ⟨_,[_,_],rfl,?_⟩
    have ha : c.toNat / 4096 % 16 + 224 < 256 := by omega
    simp only [leading?, List.cons_append, List.nil_append, hlead ha, ht]
    have hn : (c.toNat / 4096 % 16 + 224 - 0xE0) * 4096 + c.toNat / 64 % 64 * 64 + c.toNat % 64
        = c.toNat := by omega
    rw [if_neg (hge ha (show 128 ≤ _ by omega)), if_neg (hge ha (show 192 ≤ _ by omega)),
      if_neg (hge ha (show 224 ≤ _ by omega)), if_pos (hlt ha (show _ < 240 by omega)), hn, hc rfl,
      if_pos]
    · rfl
    · -- What is left is that no valid code point is a surrogate.
      simp only [Bool.true_and, Bool.and_eq_true, Bool.not_eq_true', Bool.and_eq_false_iff,
        decide_eq_true_eq, decide_eq_false_iff_not]
      refine ⟨by omega,?_⟩
      rcases hvalid with hs | hs
      · exact .inl (by omega)
      · exact .inr (by omega)
  · rw [if_neg h3]
    refine ⟨_,[_,_,_],rfl,?_⟩
    have ha : c.toNat / 262144 % 8 + 240 < 256 := by omega
    simp only [leading?, List.cons_append, List.nil_append, hlead ha, ht]
    have hn : (c.toNat / 262144 % 8 + 240 - 0xF0) * 262144 + c.toNat / 4096 % 64 * 4096
        + c.toNat / 64 % 64 * 64 + c.toNat % 64 = c.toNat := by omega
    rw [if_neg (hge ha (show 128 ≤ _ by omega)), if_neg (hge ha (show 192 ≤ _ by omega)),
      if_neg (hge ha (show 224 ≤ _ by omega)), if_neg (hge ha (show 240 ≤ _ by omega)),
      if_pos (hlt ha (show _ < 248 by omega)), hn, hc rfl, if_pos]
    · rfl
    · simp only [Bool.true_and, Bool.and_eq_true, decide_eq_true_eq]
      omega

/-- The tail of an item that is already read is passed over. -/
theorem runesFrom_eq (owed : Nat) (text : Bytes) : runesFrom owed text = runes (text.drop owed) := by
  induction text generalizing owed with
  | nil => rw [List.drop_nil, runes, runesFrom, runesFrom]
  | cons a rest ih =>
    cases owed with
    | zero => rfl
    | succ owed => rw [runesFrom, ih, List.drop_succ_cons]

theorem runes_ofChar_append (c : Char) (rest : Bytes) :
    runes (Bytes.ofChar c ++ rest) = .char c :: runes rest := by
  obtain ⟨a,more,hc,hl⟩ := leading?_ofChar c rest
  rw [hc, List.cons_append, runes, runesFrom]
  simp only [hl]
  rw [runesFrom_eq, List.drop_left]

theorem runes_ofChars (cs : List Char) : runes (Bytes.ofChars cs) = cs.map .char := by
  induction cs with
  | nil => rfl
  | cons c cs ih =>
    rw [Bytes.ofChars] at ih ⊢
    rw [List.flatMap_cons, runes_ofChar_append, ih, List.map_cons]

theorem ofRunes_chars (cs : List Char) : ofRunes (cs.map .char) = Bytes.ofChars cs :=
  List.flatMap_map ..

theorem ofRunes_runesFrom (owed : Nat) (text : Bytes) :
    ofRunes (runesFrom owed text) = text.drop owed := by
  induction text generalizing owed with
  | nil => simp [runesFrom, ofRunes]
  | cons a rest ih =>
    cases owed with
    | succ owed => rw [runesFrom, ih, List.drop_succ_cons]
    | zero =>
      have hcons (r : Rune) (rs : List Rune) : ofRunes (r :: rs) = r.bytes ++ ofRunes rs := rfl
      rw [runesFrom, List.drop_zero]
      split
      · rename_i c owed hl
        rw [hcons, ih, Rune.bytes, ofChar_leading? hl, List.cons_append, List.take_append_drop]
      · rw [hcons, ih]
        rfl

theorem ofRunes_runes (text : Bytes) : ofRunes (runes text) = text :=
  ofRunes_runesFrom 0 text

theorem ofChars_ascii {text : Bytes} (h : ∀ b ∈ text, b < 0x80) :
    Bytes.ofChars (text.map fun b => Char.ofNat b.toNat) = text := by
  rw [Bytes.ofChars, List.flatMap_map]
  refine Eq.trans ?_ (List.flatMap_singleton' text)
  exact List.flatMap_congr fun b hb => ofChar_ascii (h b hb)

theorem mem_of_mem_runes {text : Bytes} {r : Rune} {b : UInt8} (hr : r ∈ runes text)
    (hb : b ∈ r.bytes) : b ∈ text := by
  rw [← ofRunes_runes text]
  exact List.mem_flatMap.mpr ⟨r,hr,hb⟩

end WaylandZig.Utf8
