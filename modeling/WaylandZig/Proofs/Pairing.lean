import Mathlib.Data.List.Forall2

/-! # Lists that agree position by position

What a computation makes of a list is stated by pairing the two lists position by position. These
lemmas chain such pairings and look a pair up by its position. What only some of the items contribute
to a list is what these items alone contribute.
-/
namespace List

variable {α β γ : Type}

theorem Forall₂.comp {R : α → β → Prop} {S : β → γ → Prop} {T : α → γ → Prop}
    (h : ∀ a b c, R a b → S b c → T a c) {as : List α} {bs : List β} {cs : List γ}
    (hr : Forall₂ R as bs) (hs : Forall₂ S bs cs) : Forall₂ T as cs := by
  induction hr generalizing cs with
  | nil =>
    cases hs
    exact .nil
  | cons hab _ ih =>
    cases hs with
    | cons hbc hs => exact .cons (h _ _ _ hab hbc) (ih hs)

theorem Forall₂.getElem? {R : α → β → Prop} {as : List α} {bs : List β} (h : Forall₂ R as bs)
    {n : Nat} {a : α} (ha : as[n]? = some a) : ∃ b, bs[n]? = some b ∧ R a b := by
  induction h generalizing n with
  | nil => simp at ha
  | cons hr _ ih =>
    cases n with
    | zero =>
      cases ha
      exact ⟨_,rfl,hr⟩
    | succ n => exact ih ha

theorem Forall₂.exists_of_mem_right {R : α → β → Prop} {as : List α} {bs : List β}
    (h : Forall₂ R as bs) {b : β} (hb : b ∈ bs) : ∃ a ∈ as, R a b := by
  induction h with
  | nil => cases hb
  | cons hr _ ih =>
    rcases mem_cons.mp hb with rfl | hb
    · exact ⟨_,mem_cons_self,hr⟩
    · obtain ⟨a,ha,hr⟩ := ih hb
      exact ⟨a,mem_cons_of_mem _ ha,hr⟩

theorem Forall₂.exists_of_mem_left {R : α → β → Prop} {as : List α} {bs : List β}
    (h : Forall₂ R as bs) {a : α} (ha : a ∈ as) : ∃ b ∈ bs, R a b := by
  have hf : Forall₂ (fun b a => R a b) bs as := Forall₂.flip h
  exact hf.exists_of_mem_right ha

theorem Forall₂.with_mem {R : α → β → Prop} {as : List α} {bs : List β} (h : Forall₂ R as bs) :
    Forall₂ (fun a b => a ∈ as ∧ b ∈ bs ∧ R a b) as bs := by
  induction h with
  | nil => exact .nil
  | cons hr _ ih =>
    refine .cons ⟨mem_cons_self,mem_cons_self,hr⟩ (ih.imp ?_)
    rintro a b ⟨ha,hb,hr⟩
    exact ⟨mem_cons_of_mem _ ha,mem_cons_of_mem _ hb,hr⟩

/-- Two lists paired with a third are images of one list when they are so position by position. -/
theorem Forall₂.exists_source {δ : Type} {R : α → β → Prop} {S : α → γ → Prop} {P : α → δ → Prop}
    {f : δ → β} {g : δ → γ} {as : List α} {bs : List β} {cs : List γ} (hr : Forall₂ R as bs)
    (hs : Forall₂ S as cs)
    (h : ∀ a ∈ as, ∀ b c, R a b → S a c → ∃ d, P a d ∧ b = f d ∧ c = g d) :
    ∃ ds, Forall₂ P as ds ∧ bs = ds.map f ∧ cs = ds.map g := by
  induction hr generalizing cs with
  | nil =>
    cases hs
    exact ⟨[],.nil,rfl,rfl⟩
  | cons hab _ ih =>
    cases hs with
    | cons hac hs =>
      obtain ⟨ds,hp,rfl,rfl⟩ := ih hs fun a ha => h a (mem_cons_of_mem _ ha)
      obtain ⟨d,hd,rfl,rfl⟩ := h _ mem_cons_self _ _ hab hac
      exact ⟨d :: ds,.cons hd hp,rfl,rfl⟩

/-- A list can be paired when each of its items can. -/
theorem exists_forall₂_iff {R : α → β → Prop} {as : List α} :
    (∃ bs, Forall₂ R as bs) ↔ ∀ a ∈ as, ∃ b, R a b := by
  induction as with
  | nil => exact ⟨fun _ => nofun,fun _ => ⟨[],.nil⟩⟩
  | cons a as ih =>
    rw [forall_mem_cons, ← ih]
    constructor
    · rintro ⟨bs,h⟩
      cases h with
      | cons ha has => exact ⟨⟨_,ha⟩,_,has⟩
    · rintro ⟨⟨b,ha⟩,bs,has⟩
      exact ⟨b :: bs,.cons ha has⟩

theorem forall₂_map_eq_iff {f : α → γ} {g : β → γ} {as : List α} {bs : List β} :
    Forall₂ (fun a b => f a = g b) as bs ↔ as.map f = bs.map g := by
  rw [← forall₂_eq_eq_eq, forall₂_map_left_iff, forall₂_map_right_iff]

theorem flatMap_ite_nil (p : α → Bool) (f : α → List β) (as : List α) :
    (as.flatMap fun a => if p a = true then f a else []) = (as.filter p).flatMap f := by
  induction as with
  | nil => rfl
  | cons a as ih =>
    by_cases ha : p a = true
    · rw [flatMap_cons, if_pos ha, filter_cons_of_pos ha, flatMap_cons, ih]
    · rw [flatMap_cons, if_neg ha, filter_cons_of_neg ha, ih, nil_append]

end List
