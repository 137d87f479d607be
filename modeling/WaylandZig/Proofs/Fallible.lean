import WaylandZig.Proofs.Pairing

/-! # Computations that may fail

A computation of several parts succeeds exactly when each of its parts does. The lemmas take a
success apart in the order in which the parts were carried out, and trace a failure to the first part
that failed.
-/
namespace Except

variable {ε ε' α β : Type}

theorem bind_eq_ok_iff {x : Except ε α} {f : α → Except ε β} {b : β} :
    (x >>= f) = .ok b ↔ ∃ a, x = .ok a ∧ f a = .ok b := by
  cases x with
  | error e => simp [bind, Except.bind]
  | ok a => simp [bind, Except.bind]

theorem pure_eq_ok_iff {a b : α} : (pure a : Except ε α) = .ok b ↔ a = b := by
  simp [pure, Except.pure]

theorem map_eq_ok_iff {f : α → β} {x : Except ε α} {b : β} :
    x.map f = .ok b ↔ ∃ a, x = .ok a ∧ f a = b := by
  cases x with
  | error e => simp [Except.map]
  | ok a => simp [Except.map]

theorem map_eq_error_iff {f : α → β} {x : Except ε α} {e : ε} : x.map f = .error e ↔ x = .error e := by
  cases x with
  | error e' => simp [Except.map]
  | ok a => simp [Except.map]

theorem mapError_eq_ok_iff {f : ε → ε'} {x : Except ε α} {a : α} :
    x.mapError f = .ok a ↔ x = .ok a := by
  cases x with
  | error e => simp [Except.mapError]
  | ok b => simp [Except.mapError]

theorem exists_of_isOk {x : Except ε α} (h : x.isOk = true) : ∃ a, x = .ok a := by
  cases x with
  | error e => cases h
  | ok a => exact ⟨a,rfl⟩

theorem mapM_eq_ok_iff {f : α → Except ε β} {xs : List α} {ys : List β} :
    xs.mapM f = .ok ys ↔ List.Forall₂ (fun x y => f x = .ok y) xs ys := by
  induction xs generalizing ys with
  | nil =>
    simp only [List.mapM_nil, pure_eq_ok_iff, List.forall₂_nil_left_iff]
    exact eq_comm
  | cons x xs ih =>
    simp only [List.mapM_cons, bind_eq_ok_iff, pure_eq_ok_iff, List.forall₂_cons_left_iff, ih]
    constructor
    · rintro ⟨y,hy,zs,hzs,rfl⟩
      exact ⟨y,zs,hy,hzs,rfl⟩
    · rintro ⟨y,zs,hy,hzs,rfl⟩
      exact ⟨y,hy,zs,hzs,rfl⟩

/-- A list of computations succeeds when each of them does. -/
theorem exists_mapM_eq_ok_iff {f : α → Except ε β} {xs : List α} :
    (∃ ys, xs.mapM f = .ok ys) ↔ ∀ x ∈ xs, ∃ y, f x = .ok y := by
  simp only [mapM_eq_ok_iff]
  exact List.exists_forall₂_iff

/-- A list of computations fails as the first of them that fails. -/
theorem mapM_eq_error {f : α → Except ε β} {xs : List α} {e : ε} (h : xs.mapM f = .error e) :
    ∃ before x after, xs = before ++ x :: after ∧ (∀ y ∈ before, ∃ z, f y = .ok z) ∧
      f x = .error e := by
  induction xs with
  | nil => cases h
  | cons x xs ih =>
    rw [List.mapM_cons] at h
    cases hx : f x with
    | error e' =>
      rw [hx] at h
      cases h
      exact ⟨[],x,xs,rfl,nofun,hx⟩
    | ok z =>
      cases hxs : xs.mapM f with
      | ok zs =>
        rw [hx, hxs] at h
        cases h
      | error e' =>
        rw [hx, hxs] at h
        cases h
        obtain ⟨before,y,after,rfl,hbefore,hy⟩ := ih hxs
        refine ⟨x :: before,y,after,rfl,?_,hy⟩
        intro w hw
        rcases List.mem_cons.mp hw with rfl | hw
        · exact ⟨z,hx⟩
        · exact hbefore w hw

/-- A list of computations fails as one that fails behind others that succeed. -/
theorem mapM_append_cons_eq_error {f : α → Except ε β} {before : List α} {x : α} {e : ε}
    (hbefore : ∀ y ∈ before, ∃ z, f y = .ok z) (hx : f x = .error e) (after : List α) :
    (before ++ x :: after).mapM f = .error e := by
  induction before with
  | nil =>
    rw [List.nil_append, List.mapM_cons, hx]
    rfl
  | cons y before ih =>
    obtain ⟨⟨z,hz⟩,hrest⟩ := List.forall_mem_cons.mp hbefore
    rw [List.cons_append, List.mapM_cons, hz, ih hrest]
    rfl

theorem mapM_map {γ : Type} (f : α → Except ε β) (g : β → γ) (xs : List α) :
    (xs.mapM fun x => (f x).map g) = (xs.mapM f).map (List.map g) := by
  induction xs with
  | nil => rfl
  | cons x xs ih =>
    rw [List.mapM_cons, List.mapM_cons, ih]
    cases f x with
    | error e => rfl
    | ok y => cases xs.mapM f <;> rfl

/-- If the computation fails, its error has the property. -/
def FailsWith (P : ε → Prop) (x : Except ε α) : Prop := ∀ e, x = .error e → P e

theorem failsWith_ok {P : ε → Prop} (a : α) : FailsWith P (.ok a : Except ε α) := by
  intro e he
  cases he

theorem FailsWith.bind {P : ε → Prop} {x : Except ε α} {f : α → Except ε β} (hx : x.FailsWith P)
    (hf : ∀ a, (f a).FailsWith P) : (x >>= f).FailsWith P := by
  intro e he
  cases x with
  | error e' =>
    cases he
    exact hx e rfl
  | ok a => exact hf a e he

theorem FailsWith.mapM {P : ε → Prop} {f : α → Except ε β} (xs : List α)
    (hf : ∀ x, (f x).FailsWith P) : (xs.mapM f).FailsWith P := by
  intro e he
  obtain ⟨_,x,_,_,_,hx⟩ := mapM_eq_error he
  exact hf x e hx

theorem FailsWith.mapError {P : ε → Prop} {Q : ε' → Prop} {g : ε → ε'} {x : Except ε α}
    (hx : x.FailsWith P) (hg : ∀ e, P e → Q (g e)) : (x.mapError g).FailsWith Q := by
  intro e he
  cases x with
  | ok a => cases he
  | error e' =>
    cases he
    exact hg e' (hx e' rfl)

end Except
