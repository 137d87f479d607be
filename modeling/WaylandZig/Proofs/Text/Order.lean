import WaylandZig.Bytes

/-! # The order of byte strings

Byte strings are ordered by their first different byte, and a string comes before those that it
begins. This is a total order, so the sorted form of a list depends only on what is in the list.
-/
namespace WaylandZig.Bytes

theorem le_cons_iff {x y : UInt8} {a b : Bytes} :
    le (x :: a) (y :: b) = true ↔ x < y ∨ x = y ∧ le a b = true := by
  simp [le]

theorem le_total (a b : Bytes) : (le a b || le b a) = true := by
  rw [Bool.or_eq_true]
  induction a generalizing b with
  | nil => exact .inl rfl
  | cons x a ih =>
    cases b with
    | nil => exact .inr rfl
    | cons y b =>
      rw [le_cons_iff, le_cons_iff]
      rcases Nat.lt_trichotomy x.toNat y.toNat with h | h | h
      · exact .inl (.inl (UInt8.lt_iff_toNat_lt.mpr h))
      · obtain rfl := UInt8.toNat_inj.mp h
        exact (ih b).imp (fun h => .inr ⟨rfl,h⟩) fun h => .inr ⟨rfl,h⟩
      · exact .inr (.inl (UInt8.lt_iff_toNat_lt.mpr h))

theorem le_trans (a b c : Bytes) (hab : le a b = true) (hbc : le b c = true) : le a c = true := by
  induction a generalizing b c with
  | nil => rfl
  | cons x a ih =>
    cases b with
    | nil => cases hab
    | cons y b =>
      cases c with
      | nil => cases hbc
      | cons z c =>
        rw [le_cons_iff] at hab hbc ⊢
        rcases hab with hab | ⟨rfl,hab⟩
        · rcases hbc with hbc | ⟨rfl,-⟩
          · exact .inl (UInt8.lt_trans hab hbc)
          · exact .inl hab
        · rcases hbc with hbc | ⟨rfl,hbc⟩
          · exact .inl hbc
          · exact .inr ⟨rfl,ih b c hab hbc⟩

theorem le_antisymm {a b : Bytes} (hab : le a b = true) (hba : le b a = true) : a = b := by
  induction a generalizing b with
  | nil =>
    cases b with
    | nil => rfl
    | cons y b => cases hba
  | cons x a ih =>
    cases b with
    | nil => cases hab
    | cons y b =>
      rw [le_cons_iff] at hab hba
      rcases hab with hab | ⟨rfl,hab⟩
      · rcases hba with hba | ⟨rfl,-⟩
        · exact absurd hba (UInt8.lt_asymm hab)
        · exact absurd hab (UInt8.lt_irrefl _)
      · rcases hba with hba | ⟨-,hba⟩
        · exact absurd hba (UInt8.lt_irrefl _)
        · rw [ih hab hba]

/-- Lists with the same items have the same sorted form. -/
theorem sort_eq_of_perm {xs ys : List Bytes} (h : xs.Perm ys) : sort xs = sort ys := by
  refine List.Perm.eq_of_pairwise (fun a b _ _ => le_antisymm) (List.pairwise_mergeSort le_trans le_total xs)
    (List.pairwise_mergeSort le_trans le_total ys) ?_
  exact (List.mergeSort_perm xs le).trans (h.trans (List.mergeSort_perm ys le).symm)

end WaylandZig.Bytes
