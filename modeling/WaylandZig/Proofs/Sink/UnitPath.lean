import WaylandZig.Proofs.Path
import WaylandZig.Sink.Basic

/-! # Paths that a sink takes

A path is taken exactly if it spells names with single slashes between them, or is the path without
names, and does not begin with a drive. Cleaning leaves these paths alone: the components of a path of
names are these names, and the reduction has nothing to take back. A sink that was not called off takes
exactly these paths.
-/
namespace WaylandZig

namespace Path

section Names

variable {cs : List Bytes} (h : ∀ c ∈ cs, IsName c)

include h

theorem components_names : components (Bytes.joinWith "/" cs) = cs :=
  components_joinWith fun c hc => ⟨(h c hc).ne_nil,(h c hc).ne_dot,(h c hc).no_slash⟩

theorem isAbsolute_joinWith : isAbsolute (Bytes.joinWith "/" cs) = false := by
  cases cs with
  | nil => rfl
  | cons c cs =>
    have hr : isAbsolute (render false (c :: cs)) = false :=
      isAbsolute_render false fun d hd => ⟨(h d hd).ne_nil,(h d hd).ne_dot,(h d hd).no_slash⟩
    exact hr

theorem clean_joinWith (hne : cs ≠ []) :
    clean (Bytes.joinWith "/" cs) = Bytes.joinWith "/" cs := by
  rw [clean, isAbsolute_joinWith h, components_names h, reduce_names fun c hc => (h c hc).ne_up, render,
    if_neg (by simp), if_neg (by simpa using hne)]

end Names

end Path

namespace UnitPath

/-- A path spells names with single slashes between them. -/
def SpellsNames (p : Bytes) : Prop :=
  ∃ cs, cs ≠ [] ∧ (∀ c ∈ cs, Path.IsName c) ∧ p = Bytes.joinWith "/" cs

/-- A path begins with a drive letter and a colon. -/
def BeginsWithDrive (p : Bytes) : Prop :=
  ∃ letter rest, Ascii.isLetter letter = true ∧ p = letter :: Ascii.colon :: rest

theorem hasDrive_iff {p : Bytes} : hasDrive p = true ↔ BeginsWithDrive p := by
  unfold hasDrive
  split
  · rename_i letter rest
    constructor
    · intro h
      exact ⟨letter,rest,h,rfl⟩
    · rintro ⟨letter,rest,h,he⟩
      cases he
      exact h
  · rename_i hne
    refine iff_of_false nofun ?_
    rintro ⟨letter,rest,-,rfl⟩
    exact hne letter rest rfl

theorem hasDrive_eq_false {p : Bytes} (h : Ascii.colon ∉ p) : hasDrive p = false := by
  rw [Bool.eq_false_iff, ne_eq, hasDrive_iff]
  rintro ⟨letter,rest,-,rfl⟩
  simp at h

/-- A path that is taken is its components, none of which leads up. -/
theorem render_components {p : Bytes} (h : check p = .ok ()) :
    Path.render false (Path.components p) = p ∧ ∀ c ∈ Path.components p, c ≠ ".." := by
  unfold check at h
  split at h
  · cases h
  split at h
  · cases h
  rename_i habs
  split at h
  · cases h
  rename_i htrav
  split at h
  · cases h
  rename_i hclean
  have hrel : Path.isAbsolute p = false := by
    cases ha : Path.isAbsolute p with
    | false => rfl
    | true => simp [ha] at habs
  have hup : ∀ c ∈ Path.components p, c ≠ ".." := by
    rintro c hc rfl
    have hm := (List.mem_filter.mp hc).1
    simp [hm] at htrav
  have hp := Classical.not_not.mp hclean
  rw [Path.clean, hrel, Path.reduce_names hup] at hp
  exact ⟨hp,hup⟩

/-- A path that is taken is made of names, or it is the path without any. -/
theorem isName_of_check {p : Bytes} (h : check p = .ok ()) :
    (∀ c ∈ Path.components p, Path.IsName c) ∧ (Path.components p = [] ↔ p = ".") := by
  obtain ⟨heq,hup⟩ := render_components h
  refine ⟨?_,?_⟩
  · intro c hc
    obtain ⟨hn,hd,hs⟩ := Path.mem_components hc
    exact ⟨hn,hd,hup c hc,hs⟩
  · constructor
    · intro hnil
      rw [hnil] at heq
      exact heq.symm
    · rintro rfl
      rfl

theorem hasDrive_of_check {p : Bytes} (h : check p = .ok ()) : hasDrive p = false := by
  unfold check at h
  split at h
  · cases h
  split at h
  · cases h
  rename_i hd
  simp only [Bool.or_eq_true, not_or] at hd
  simpa using hd.2

theorem check_joinWith {cs : List Bytes} (h : ∀ c ∈ cs, Path.IsName c) (hne : cs ≠ [])
    (hd : hasDrive (Bytes.joinWith "/" cs) = false) : check (Bytes.joinWith "/" cs) = .ok () := by
  have hc := Path.components_names h
  have hempty : (Bytes.joinWith "/" cs).isEmpty = false := by
    rw [List.isEmpty_eq_false_iff]
    intro he
    rw [he] at hc
    exact hne hc.symm
  have htrav : ((Bytes.joinWith "/" cs).splitOn Ascii.slash).contains ".." = false := by
    rw [Bool.eq_false_iff, ne_eq, List.contains_iff_mem]
    intro hm
    have hup : (".." : Bytes) ∈ Path.components (Bytes.joinWith "/" cs) :=
      List.mem_filter.mpr ⟨hm,by decide⟩
    rw [hc] at hup
    exact (h _ hup).ne_up rfl
  rw [check, hempty, Path.isAbsolute_joinWith h, hd, htrav, Path.clean_joinWith h hne]
  simp

/-- A path with names is these names with slashes between them. -/
theorem joinWith_components {p : Bytes} (h : check p = .ok ()) (hp : p ≠ ".") :
    Path.components p ≠ [] ∧ Bytes.joinWith "/" (Path.components p) = p := by
  have hne : Path.components p ≠ [] := fun he => hp ((isName_of_check h).2.mp he)
  have hr := (render_components h).1
  rw [Path.render, if_neg (by simp), if_neg (by simpa using hne)] at hr
  exact ⟨hne,hr⟩

/-- The paths that are taken. -/
theorem check_eq_ok_iff_names (p : Bytes) :
    check p = .ok () ↔ p = "." ∨ (SpellsNames p ∧ ¬BeginsWithDrive p) := by
  constructor
  · intro h
    by_cases hp : p = "."
    · exact .inl hp
    · obtain ⟨hne,hj⟩ := joinWith_components h hp
      refine .inr ⟨⟨Path.components p,hne,(isName_of_check h).1,hj.symm⟩,?_⟩
      rw [← hasDrive_iff, hasDrive_of_check h]
      nofun
  · rintro (rfl | ⟨⟨cs,hne,hcs,rfl⟩,hd⟩)
    · rfl
    · refine check_joinWith hcs hne ?_
      rw [← hasDrive_iff] at hd
      simpa using hd

end UnitPath

theorem Sink.admit_eq_ok_iff {canceled : Bool} {path : Bytes} :
    Sink.admit canceled path = .ok () ↔ UnitPath.check path = .ok () ∧ canceled = false := by
  unfold Sink.admit
  cases UnitPath.check path with
  | error fault => simp
  | ok done =>
    cases canceled with
    | false => simp
    | true => simp

end WaylandZig
