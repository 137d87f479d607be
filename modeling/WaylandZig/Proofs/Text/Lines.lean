import WaylandZig.Bytes

/-! # Lines of a text

A text that is written line by line is split into these lines again, as long as no line holds the
separator.
-/
namespace WaylandZig

namespace Bytes

variable {sep : UInt8}

theorem splitOn_ne_nil (sep : UInt8) (text : Bytes) : text.splitOn sep ≠ [] := by
  cases text with
  | nil => simp [splitOn]
  | cons b rest =>
    rw [splitOn]
    split
    · simp
    · split <;> simp

theorem splitOn_cons_of_ne {b : UInt8} (hb : b ≠ sep) (rest : Bytes) : ∃ part parts,
    rest.splitOn sep = part :: parts ∧ splitOn sep (b :: rest) = (b :: part) :: parts := by
  obtain ⟨part,parts,hp⟩ := List.exists_cons_of_ne_nil (splitOn_ne_nil sep rest)
  exact ⟨part,parts,hp,by rw [splitOn, if_neg hb, hp]⟩

theorem notMem_of_mem_splitOn {text part : Bytes} (h : part ∈ text.splitOn sep) : sep ∉ part := by
  induction text generalizing part with
  | nil =>
    obtain rfl : part = [] := by simpa [splitOn] using h
    exact List.not_mem_nil
  | cons b rest ih =>
    by_cases hb : b = sep
    · rw [splitOn, if_pos hb, List.mem_cons] at h
      rcases h with rfl | h
      · exact List.not_mem_nil
      · exact ih h
    · obtain ⟨first,parts,hf,hc⟩ := splitOn_cons_of_ne hb rest
      rw [hc, List.mem_cons] at h
      rcases h with rfl | h
      · have hn := ih (hf ▸ List.mem_cons_self)
        simp only [List.mem_cons, not_or]
        exact ⟨Ne.symm hb,hn⟩
      · exact ih (hf ▸ List.mem_cons_of_mem _ h)

theorem splitOn_eq_singleton {text : Bytes} (h : sep ∉ text) : text.splitOn sep = [text] := by
  induction text with
  | nil => rfl
  | cons b rest ih =>
    simp only [List.mem_cons, not_or] at h
    rw [splitOn, if_neg (Ne.symm h.1), ih h.2]

theorem splitOn_append {line : Bytes} (h : sep ∉ line) (rest : Bytes) :
    splitOn sep (line ++ sep :: rest) = line :: splitOn sep rest := by
  induction line with
  | nil => simp [splitOn]
  | cons b line ih =>
    simp only [List.mem_cons, not_or] at h
    rw [List.cons_append, splitOn, if_neg (Ne.symm h.1), ih h.2]

/-- Lines that are ended by the separator are read back, with an empty one behind the last. -/
theorem splitOn_lines {lines : List Bytes} (h : ∀ line ∈ lines, sep ∉ line) :
    splitOn sep (lines.flatMap (· ++ [sep])) = lines ++ [[]] := by
  induction lines with
  | nil => rfl
  | cons line lines ih =>
    have hl := h line List.mem_cons_self
    have hr := ih fun l hl => h l (List.mem_cons_of_mem _ hl)
    rw [List.flatMap_cons, List.append_assoc, List.singleton_append, splitOn_append hl, hr]
    rfl

theorem ofString_append (a b : String) : ofString (a ++ b) = ofString a ++ ofString b := by
  simp [ofString]

/-- The bytes that a string is stored as. A literal is evaluated faster this way, since its characters
are not decoded first. -/
theorem ofString_eq_data (s : String) : ofString s = s.toByteArray.data.toList := by
  obtain ⟨cs,rfl⟩ : ∃ cs, s = String.ofList cs := ⟨s.toList,String.ofList_toList.symm⟩
  rw [ofString, String.toList_ofList, String.toByteArray_ofList, List.utf8Encode,
    List.toList_data_toByteArray]

end Bytes

end WaylandZig
