/-! # Searches in a list

A search takes the first item that fits. It is described by the position of that item, with nothing
that fits in front of it. A pass looks at each item and those before it, so that it can search them.
-/
namespace WaylandZig

/-- The first of the items with the property, at its position. -/
structure FirstAt {α : Type} (P : α → Prop) (items : List α) (k : Nat) (a : α) : Prop where
  item : items[k]? = some a
  holds : P a
  first : ∀ j < k, ∀ b, items[j]? = some b → ¬ P b

section FirstAt

variable {α : Type} {P : α → Prop} {items : List α} {k : Nat} {a : α}

theorem FirstAt.mem (h : FirstAt P items k a) : a ∈ items := List.mem_of_getElem? h.item

/-- Items behind the first one that fits change nothing. -/
theorem FirstAt.append (h : FirstAt P items k a) (more : List α) : FirstAt P (items ++ more) k a := by
  obtain ⟨hk,-⟩ := List.getElem?_eq_some_iff.mp h.item
  refine ⟨by rw [List.getElem?_append_left hk, h.item],h.holds,?_⟩
  intro j hj b hb
  rw [List.getElem?_append_left (Nat.lt_trans hj hk)] at hb
  exact h.first j hj b hb

theorem FirstAt.append_of_none (h : FirstAt P items k a) {before : List α} (hn : ∀ b ∈ before, ¬ P b) :
    FirstAt P (before ++ items) (before.length + k) a := by
  refine ⟨?_,h.holds,?_⟩
  · rw [List.getElem?_append_right (Nat.le_add_right _ _), Nat.add_sub_cancel_left, h.item]
  · intro j hj b hb
    by_cases hlt : j < before.length
    · rw [List.getElem?_append_left hlt] at hb
      exact hn b (List.mem_of_getElem? hb)
    · rw [List.getElem?_append_right (Nat.le_of_not_lt hlt)] at hb
      exact h.first _ (by omega) b hb

end FirstAt

section Searches

variable {α β : Type} {items : List α}

theorem findIdx?_iff_firstAt {p : α → Bool} {k : Nat} {a : α} :
    items.findIdx? p = some k ∧ items[k]? = some a ↔ FirstAt (fun x => p x = true) items k a := by
  constructor
  · rintro ⟨hk,ha⟩
    obtain ⟨hlt,hp,hfirst⟩ := List.findIdx?_eq_some_iff_getElem.mp hk
    rw [List.getElem?_eq_getElem hlt, Option.some.injEq] at ha
    refine ⟨by rw [List.getElem?_eq_getElem hlt, ha],ha ▸ hp,?_⟩
    intro j hj b hb
    rw [List.getElem?_eq_getElem (Nat.lt_trans hj hlt), Option.some.injEq] at hb
    exact hb ▸ hfirst j hj
  · rintro ⟨ha,hp,hfirst⟩
    obtain ⟨hlt,rfl⟩ := List.getElem?_eq_some_iff.mp ha
    refine ⟨List.findIdx?_eq_some_iff_getElem.mpr ⟨hlt,hp,?_⟩,ha⟩
    intro j hj
    exact hfirst j hj _ (List.getElem?_eq_getElem _)

theorem find?_iff_firstAt {p : α → Bool} {a : α} :
    items.find? p = some a ↔ ∃ k, FirstAt (fun x => p x = true) items k a := by
  simp only [← findIdx?_iff_firstAt, List.findIdx?_eq_some_iff_getElem]
  constructor
  · intro h
    obtain ⟨hp,k,hlt,rfl,hfirst⟩ := List.find?_eq_some_iff_getElem.mp h
    refine ⟨k,⟨hlt,hp,?_⟩,List.getElem?_eq_getElem hlt⟩
    intro j hj
    simpa using hfirst j hj
  · rintro ⟨k,⟨hlt,hp,hfirst⟩,ha⟩
    rw [List.getElem?_eq_getElem hlt, Option.some.injEq] at ha
    refine List.find?_eq_some_iff_getElem.mpr ⟨ha ▸ hp,k,hlt,ha,?_⟩
    intro j hj
    simpa using hfirst j hj

/-- A search that is told the positions stops at the first item for which it succeeds. -/
theorem findSome?_zipIdx_iff {f : α × Nat → Option β} {b : β} (n : Nat) :
    (items.zipIdx n).findSome? f = some b ↔ ∃ k a, items[k]? = some a ∧ f (a,n + k) = some b ∧
      ∀ j < k, ∀ c, items[j]? = some c → f (c,n + j) = none := by
  induction items generalizing n with
  | nil => simp
  | cons x items ih =>
    rw [List.zipIdx_cons, List.findSome?_cons]
    cases hx : f (x,n) with
    | some y =>
      constructor
      · intro h
        cases h
        exact ⟨0,x,rfl,hx,nofun⟩
      · rintro ⟨k,a,ha,hf,hfirst⟩
        cases k with
        | zero =>
          cases ha
          exact hx.symm.trans hf
        | succ k =>
          have hn := hfirst 0 (Nat.succ_pos k) x rfl
          rw [Nat.add_zero, hx] at hn
          cases hn
    | none =>
      have hshift (k : Nat) : n + 1 + k = n + (k + 1) := by omega
      simp only [ih, hshift]
      constructor
      · rintro ⟨k,a,ha,hf,hfirst⟩
        refine ⟨k + 1,a,ha,hf,?_⟩
        intro j hj c hc
        cases j with
        | zero =>
          cases hc
          exact hx
        | succ j => exact hfirst j (by omega) c hc
      · rintro ⟨k,a,ha,hf,hfirst⟩
        cases k with
        | zero =>
          cases ha
          rw [Nat.add_zero, hx] at hf
          cases hf
        | succ k =>
          refine ⟨k,a,ha,hf,?_⟩
          intro j hj c hc
          exact hfirst (j + 1) (by omega) c hc

end Searches

section Passes

variable {α β γ : Type}

/-- What a pass makes of each item and those before it. -/
def eachAfter (f : List α → α → List β) (items : List α) : List β :=
  items.zipIdx.flatMap fun (a,k) => f (items.take k) a

@[simp] theorem eachAfter_nil (f : List α → α → List β) : eachAfter f [] = [] := rfl

theorem eachAfter_cons (f : List α → α → List β) (a : α) (items : List α) :
    eachAfter f (a :: items) = f [] a ++ eachAfter (fun before => f (a :: before)) items := by
  simp only [eachAfter, List.zipIdx_cons, List.flatMap_cons, List.take_zero, Nat.zero_add]
  rw [List.zipIdx_succ, List.flatMap_map]
  rfl

/-- A pass that goes on behind other items. -/
theorem eachAfter_behind_cons (f : List α → α → List β) (before : List α) (a : α) (items : List α) :
    eachAfter (fun between => f (before ++ between)) (a :: items) =
      f before a ++ eachAfter (fun between => f (before ++ [a] ++ between)) items := by
  rw [eachAfter_cons, List.append_nil]
  simp only [List.append_assoc, List.singleton_append]

theorem eachAfter_append (f : List α → α → List β) (front back : List α) :
    eachAfter f (front ++ back) =
      eachAfter f front ++ eachAfter (fun before => f (front ++ before)) back := by
  induction front generalizing f with
  | nil => rfl
  | cons a front ih =>
    rw [List.cons_append, eachAfter_cons, eachAfter_cons, ih, List.append_assoc]
    rfl

theorem eachAfter_const (f : α → List β) (items : List α) :
    eachAfter (fun _ => f) items = items.flatMap f := by
  induction items with
  | nil => rfl
  | cons a items ih => rw [eachAfter_cons, ih, List.flatMap_cons]

theorem eachAfter_flatMap (f : List β → β → List γ) (g : α → List β) (items : List α) :
    eachAfter f (items.flatMap g) =
      eachAfter (fun before a => eachAfter (fun above => f (before.flatMap g ++ above)) (g a))
        items := by
  induction items generalizing f with
  | nil => rfl
  | cons a items ih =>
    rw [List.flatMap_cons, eachAfter_append, eachAfter_cons, ih]
    simp only [List.flatMap_nil, List.nil_append, List.flatMap_cons, List.append_assoc]

/-- A pass makes nothing of a list when it makes nothing of any item in it. -/
theorem eachAfter_eq_nil_iff {f : List α → α → List β} {items : List α} :
    eachAfter f items = [] ↔ ∀ before a after, items = before ++ a :: after → f before a = [] := by
  induction items generalizing f with
  | nil => simp
  | cons a items ih =>
    rw [eachAfter_cons, List.append_eq_nil_iff, ih]
    constructor
    · rintro ⟨ha,hr⟩ before b after he
      rcases List.cons_eq_append_iff.mp he with ⟨rfl,he⟩ | ⟨before,rfl,rfl⟩
      · cases he
        exact ha
      · exact hr before b after rfl
    · intro h
      refine ⟨h [] a items rfl,?_⟩
      rintro before b after rfl
      exact h (a :: before) b after rfl

theorem eachAfter_both_eq_nil_iff {f g : List α → α → List β} {items : List α} :
    eachAfter (fun before a => f before a ++ g before a) items = [] ↔
      eachAfter f items = [] ∧ eachAfter g items = [] := by
  simp only [eachAfter_eq_nil_iff, List.append_eq_nil_iff, forall_and]

/-- A search for the key of each item among the items before it finds nothing when the keys are
distinct. -/
theorem eachAfter_find?_eq_nil_iff [BEq γ] [LawfulBEq γ] {key : α → γ} {f : α → α → β}
    {items : List α} :
    eachAfter (fun before a => ((before.find? fun b => key b == key a).map (f a)).toList) items = [] ↔
      (items.map key).Nodup := by
  simp only [eachAfter_eq_nil_iff, Option.toList_eq_nil_iff, Option.map_eq_none_iff,
    List.find?_eq_none, beq_iff_eq]
  induction items with
  | nil => simp
  | cons a items ih =>
    rw [List.map_cons, List.nodup_cons, ← ih]
    constructor
    · intro h
      constructor
      · intro hm
        obtain ⟨b,hb,hk⟩ := List.mem_map.mp hm
        obtain ⟨before,after,rfl⟩ := List.append_of_mem hb
        exact h (a :: before) b after rfl a List.mem_cons_self hk.symm
      · rintro before b after rfl c hc
        exact h (a :: before) b after rfl c (List.mem_cons_of_mem _ hc)
    · rintro ⟨hn,hr⟩ before b after he c hc hk
      rcases List.cons_eq_append_iff.mp he with ⟨rfl,-⟩ | ⟨before,rfl,rfl⟩
      · cases hc
      · rcases List.mem_cons.mp hc with rfl | hc
        · exact hn (List.mem_map.mpr ⟨b,by simp,hk.symm⟩)
        · exact hr before b after rfl c hc hk

end Passes

end WaylandZig
