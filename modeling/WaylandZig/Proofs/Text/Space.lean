import Mathlib.Data.List.DropRight
import WaylandZig.Ascii
import WaylandZig.Proofs.Text.Utf8
import WaylandZig.Text.Space

/-! # What trimming takes away

A text is what trimming leaves of it, with white space in front and behind. A word has no white space
of its own, so it is what is left of exactly the texts that it stands in with white space around it.
-/
namespace WaylandZig.Space

/-- Nothing but white space. -/
def IsBlank (text : Bytes) : Prop :=
  ∃ cs : List Char, (∀ c ∈ cs, isSpace c = true) ∧ text = Bytes.ofChars cs

theorem isBlank_ofRunes {rs : List Rune} (h : ∀ r ∈ rs, isSpaceRune r = true) :
    IsBlank (Utf8.ofRunes rs) := by
  have hc : ∃ cs : List Char, rs = cs.map .char := by
    induction rs with
    | nil => exact ⟨[],rfl⟩
    | cons r rs ih =>
      obtain ⟨cs,rfl⟩ := ih fun r hr => h r (List.mem_cons_of_mem _ hr)
      cases r with
      | char c => exact ⟨c :: cs,rfl⟩
      | stray b => cases h (.stray b) List.mem_cons_self
  obtain ⟨cs,rfl⟩ := hc
  exact ⟨cs,fun c hc => h (.char c) (List.mem_map_of_mem hc),Utf8.ofRunes_chars cs⟩

/-- Only white space is taken away. -/
theorem trim_splits (text : Bytes) : ∃ front back, IsBlank front ∧ IsBlank back ∧
    text = front ++ trim text ++ back := by
  let items := Utf8.runes text
  let kept := items.dropWhile isSpaceRune
  have hf : IsBlank (Utf8.ofRunes (items.takeWhile isSpaceRune)) :=
    isBlank_ofRunes fun r hr => List.mem_takeWhile_imp hr
  have hb : IsBlank (Utf8.ofRunes (kept.rtakeWhile isSpaceRune)) :=
    isBlank_ofRunes fun r hr => List.mem_rtakeWhile_imp hr
  have happ (rs rs' : List Rune) : Utf8.ofRunes (rs ++ rs') = Utf8.ofRunes rs ++ Utf8.ofRunes rs' :=
    List.flatMap_append
  have htrim : trim text = Utf8.ofRunes (kept.rdropWhile isSpaceRune) := rfl
  refine ⟨_,_,hf,hb,?_⟩
  rw [htrim, List.append_assoc, ← happ, List.rdropWhile_append_rtakeWhile, ← happ,
    List.takeWhile_append_dropWhile, Utf8.ofRunes_runes]

/-- What is dropped at both ends is what stands in front and behind. -/
theorem rdropWhile_dropWhile {α : Type} {p : α → Bool} {front middle back : List α}
    (hf : ∀ a ∈ front, p a = true) (hm : ∀ a ∈ middle, p a = false) (hb : ∀ a ∈ back, p a = true) :
    ((front ++ middle ++ back).dropWhile p).rdropWhile p = middle := by
  cases middle with
  | nil =>
    have hall : ∀ a ∈ front ++ [] ++ back, p a = true := by
      simpa [or_imp, forall_and] using ⟨hf,hb⟩
    rw [List.dropWhile_eq_nil_iff.mpr hall, List.rdropWhile_nil]
  | cons m ms =>
    have hfirst : ¬ p m = true := by simp [hm m List.mem_cons_self]
    have hlast : (m :: ms).reverse.dropWhile p = (m :: ms).reverse := by
      refine List.dropWhile_eq_self_iff.mpr ?_
      intro hl
      rw [hm _ (List.mem_reverse.mp (List.getElem_mem hl))]
      exact Bool.false_ne_true
    have hb' : ∀ a ∈ back.reverse, p a = true := fun a ha => hb a (List.mem_reverse.mp ha)
    rw [List.append_assoc, List.dropWhile_append_of_pos hf, List.cons_append,
      List.dropWhile_cons_of_neg hfirst, ← List.cons_append, List.rdropWhile, List.reverse_append,
      List.dropWhile_append_of_pos hb', hlast, List.reverse_reverse]

theorem trim_ofChars {front middle back : List Char} (hf : ∀ c ∈ front, isSpace c = true)
    (hm : ∀ c ∈ middle, isSpace c = false) (hb : ∀ c ∈ back, isSpace c = true) :
    trim (Bytes.ofChars (front ++ middle ++ back)) = Bytes.ofChars middle := by
  have htrim (text : Bytes) : trim text =
      Utf8.ofRunes (((Utf8.runes text).dropWhile isSpaceRune).rdropWhile isSpaceRune) :=
    rfl
  have hf' : ∀ r ∈ front.map Rune.char, isSpaceRune r = true := List.forall_mem_map.mpr hf
  have hm' : ∀ r ∈ middle.map Rune.char, isSpaceRune r = false := List.forall_mem_map.mpr hm
  have hb' : ∀ r ∈ back.map Rune.char, isSpaceRune r = true := List.forall_mem_map.mpr hb
  rw [htrim, Utf8.runes_ofChars, List.map_append, List.map_append, rdropWhile_dropWhile hf' hm' hb',
    Utf8.ofRunes_chars]

/-- A word is what is left of the texts that it stands in with white space around it. -/
theorem trim_eq_word_iff {text word : Bytes} (hw : ∀ b ∈ word, Ascii.isWord b = true) :
    trim text = word ↔ ∃ front back, IsBlank front ∧ IsBlank back ∧ text = front ++ word ++ back := by
  constructor
  · rintro rfl
    exact trim_splits text
  · rintro ⟨_,_,⟨front,hf,rfl⟩,⟨back,hb,rfl⟩,rfl⟩
    have hbyte : ∀ n : Fin 256, Ascii.isWord (UInt8.ofNat n) = true →
        UInt8.ofNat n < 0x80 ∧ isSpace (Char.ofNat (UInt8.ofNat n).toNat) = false := by
      decide +kernel
    have hword : ∀ b ∈ word, b < 0x80 ∧ isSpace (Char.ofNat b.toNat) = false := by
      intro b hm
      simpa using hbyte ⟨b.toNat,b.toNat_lt⟩ (by simpa using hw b hm)
    have hchars := Utf8.ofChars_ascii fun b hm => (hword b hm).1
    have hm : ∀ c ∈ word.map fun b => Char.ofNat b.toNat, isSpace c = false :=
      List.forall_mem_map.mpr fun b hm => (hword b hm).2
    have happ (cs cs' : List Char) :
        Bytes.ofChars cs ++ Bytes.ofChars cs' = Bytes.ofChars (cs ++ cs') :=
      List.flatMap_append.symm
    rw [← hchars, happ, happ, trim_ofChars hf hm hb]

theorem mem_of_mem_trim {text : Bytes} {b : UInt8} (h : b ∈ trim text) : b ∈ text := by
  obtain ⟨front,back,-,-,ht⟩ := trim_splits text
  rw [ht]
  exact List.mem_append_left _ (List.mem_append_right _ h)

end WaylandZig.Space
