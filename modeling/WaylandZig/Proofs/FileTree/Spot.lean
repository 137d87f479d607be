import WaylandZig.Proofs.FileTree.Growth

/-! # The location that a path spells

A tree has no links, so a path leads to no other location than the one that it spells, where each `..`
takes back the name before it. What differs between spellings of one location is only whether it can be
reached; and what stands there is missed only when a name or the path is too long to be followed.
-/
namespace WaylandZig

namespace Location

/-- Where one component of a path leads from a location. -/
def step (l : Location) (c : Bytes) : Location := if c = ".." then l.dropLast else l ++ [c]

theorem step_up (l : Location) : l.step ".." = l.dropLast := if_pos rfl

theorem step_name {c : Bytes} (h : c ≠ "..") (l : Location) : l.step c = l ++ [c] := if_neg h

theorem foldl_step_names {cs : List Bytes} (h : ∀ c ∈ cs, c ≠ "..") (l : Location) :
    cs.foldl step l = l ++ cs := by
  induction cs generalizing l with
  | nil => simp
  | cons c cs ih =>
    have hr := ih (fun c hc => h c (List.mem_cons_of_mem _ hc)) (l ++ [c])
    rw [List.foldl_cons, step_name (h c List.mem_cons_self), hr, List.append_assoc]
    rfl

/-- A component that is added to reduced ones leads one step on from where these lead. -/
theorem foldl_step_push {rooted : Bool} {start : Location} (h : rooted = true → start = [])
    (done : List Bytes) (c : Bytes) :
    (Path.push rooted done c).reverse.foldl step start = (done.reverse.foldl step start).step c := by
  have hadd (d : Bytes) (ds : List Bytes) :
      (d :: ds).reverse.foldl step start = (ds.reverse.foldl step start).step d := by simp
  by_cases hc : c = ".."
  · subst hc
    cases done with
    | nil =>
      cases rooted with
      | true =>
        obtain rfl := h rfl
        rfl
      | false => rfl
    | cons last before =>
      by_cases hl : last = ".."
      · have hp : Path.push rooted (last :: before) ".." = ("..": Bytes) :: last :: before := by
          rw [Path.push, if_pos rfl]
          exact if_pos hl
        rw [hp, hadd]
      · rw [Path.push_up_cons hl, hadd, step_up, step_name hl, List.dropLast_concat]
  · rw [Path.push_name hc, hadd]

/-- Components lead where they lead when they are reduced. -/
theorem foldl_step_reduce {rooted : Bool} {start : Location} (h : rooted = true → start = [])
    (cs : List Bytes) : (Path.reduce rooted cs).foldl step start = cs.foldl step start := by
  -- Reduced components are kept in reverse, and the induction is for any that were reduced before.
  have hall (done : List Bytes) : (cs.foldl (Path.push rooted) done).reverse.foldl step start =
      cs.foldl step (done.reverse.foldl step start) := by
    induction cs generalizing done with
    | nil => rfl
    | cons c cs ih => rw [List.foldl_cons, ih, foldl_step_push h, List.foldl_cons]
  exact hall []

theorem ofPath_clean {p : Bytes} (h : Path.isAbsolute p = true) :
    ofPath (Path.clean p) = (Path.components p).foldl step [] := by
  obtain ⟨k,ns,he,hn,hk⟩ := Path.exists_reduce_eq true fun c hc => Path.mem_components (p := p) hc
  obtain rfl := hk rfl
  have hp : Path.clean p = path ns := by
    rw [Path.clean, h, he]
    rfl
  rw [hp, ofPath_path hn, ← foldl_step_reduce (fun _ => rfl), he]
  exact (foldl_step_names (fun c hc => (hn c hc).ne_up) []).symm

end Location

namespace Path

theorem components_render (rooted : Bool) {cs : List Bytes}
    (h : ∀ c ∈ cs, c ≠ [] ∧ c ≠ "." ∧ Ascii.slash ∉ c) : components (render rooted cs) = cs := by
  have hj := components_joinWith h
  cases rooted with
  | true => exact (components_append [] _).trans hj
  | false =>
    cases cs with
    | nil => rfl
    | cons c cs => exact hj

theorem mem_reduce {rooted : Bool} {cs : List Bytes}
    (h : ∀ c ∈ cs, c ≠ [] ∧ c ≠ "." ∧ Ascii.slash ∉ c) :
    ∀ c ∈ reduce rooted cs, c ≠ [] ∧ c ≠ "." ∧ Ascii.slash ∉ c := by
  obtain ⟨k,ns,he,hn,-⟩ := exists_reduce_eq rooted h
  intro c hc
  rw [he] at hc
  rcases List.mem_append.mp hc with hc | hc
  · obtain rfl := List.eq_of_mem_replicate hc
    decide
  · exact ⟨(hn c hc).ne_nil,(hn c hc).ne_dot,(hn c hc).no_slash⟩

theorem components_clean (p : Bytes) :
    components (clean p) = reduce (isAbsolute p) (components p) :=
  components_render _ (mem_reduce fun _ hc => mem_components hc)

theorem isAbsolute_clean (p : Bytes) : isAbsolute (clean p) = isAbsolute p :=
  isAbsolute_render _ (mem_reduce fun _ hc => mem_components hc)

end Path

namespace FileTree

/-- A tree whose entries have names, each once. -/
structure Sound (t : FileTree) : Prop extends WellFormed t where
  named : ∀ e ∈ t.nodes, ∀ c ∈ e.1, Path.IsName c
  nodup : (t.nodes.map Prod.fst).Nodup

instance (t : FileTree) : Decidable t.Sound :=
  decidable_of_iff ((∀ e ∈ t.nodes, t.node? e.1.dropLast = some .directory) ∧
      t.node? t.current = some .directory ∧ (∀ e ∈ t.nodes, ∀ c ∈ e.1, Path.IsName c) ∧
      (t.nodes.map Prod.fst).Nodup)
    ⟨fun h => ⟨⟨h.1,h.2.1⟩,h.2.2.1,h.2.2.2⟩,fun h => ⟨h.parents,h.current,h.named,h.nodup⟩⟩

/-- The location that a path spells, whether something stands there or not. -/
def spot (t : FileTree) (p : Bytes) : Location := Location.ofPath (t.absolute p)

theorem path_spot (t : FileTree) (p : Bytes) : (t.spot p).path = t.absolute p := by
  obtain ⟨l,hl,h⟩ := t.exists_absolute_eq_path p
  rw [spot, h, Location.ofPath_path hl]

section Sound

variable {t : FileTree} (hs : t.Sound)

include hs

theorem Sound.node?_eq_some_iff {k : Location} {n : FileNode} (hk : k ≠ []) :
    t.node? k = some n ↔ (k,n) ∈ t.nodes := by
  rw [node?_of_ne_nil hk, List.lookup_eq_some_iff]
  constructor
  · rintro ⟨before,after,he,-⟩
    rw [he]
    simp
  · intro h
    obtain ⟨before,after,he⟩ := List.append_of_mem h
    refine ⟨before,after,he,?_⟩
    intro e hm
    rw [bne_iff_ne]
    rintro rfl
    have hn := hs.nodup
    rw [he, List.map_append, List.nodup_append] at hn
    exact hn.2.2 e.1 (List.mem_map_of_mem hm) e.1 (by simp) rfl

theorem Sound.isName {k : Location} {n : FileNode} (h : t.node? k = some n) :
    ∀ c ∈ k, Path.IsName c := by
  by_cases hk : k = []
  · subst hk
    exact nofun
  · exact hs.named _ ((hs.node?_eq_some_iff hk).mp h)

theorem Sound.spot_eq (p : Bytes) :
    t.spot p = (Path.components p).foldl Location.step (t.startOf p) := by
  have hc := hs.isName hs.current
  unfold spot absolute Path.absolute startOf
  by_cases hp : Path.isAbsolute p = true
  · rw [if_pos hp, if_pos hp, Location.ofPath_clean hp]
  · have hj : Path.join t.currentPath p = Path.clean (t.currentPath ++ "/" ++ p) := if_neg nofun
    have ha : Path.isAbsolute (t.currentPath ++ "/" ++ p) = true := by
      rw [currentPath, Location.path, List.append_assoc, List.append_assoc]
      exact Path.isAbsolute_slash _
    have hcomp : Path.components t.currentPath = t.current := Location.ofPath_path hc
    have hcur := Location.foldl_step_names (fun c hm => (hc c hm).ne_up) []
    rw [if_neg hp, if_neg hp, hj, Location.ofPath_clean ha, Path.components_append, hcomp,
      List.foldl_append, hcur, List.nil_append]

theorem Sound.spot_clean (p : Bytes) : t.spot (Path.clean p) = t.spot p := by
  have hstart : t.startOf (Path.clean p) = t.startOf p := by
    rw [startOf, startOf, Path.isAbsolute_clean]
  have hroot (h : Path.isAbsolute p = true) : t.startOf p = [] := if_pos h
  rw [hs.spot_eq, hs.spot_eq, hstart, Path.components_clean, Location.foldl_step_reduce hroot]

theorem Sound.spot_append {a : Bytes} (ha : a ≠ []) (p : Bytes) :
    t.spot (a ++ "/" ++ p) = (Path.components p).foldl Location.step (t.spot a) := by
  have hstart : t.startOf (a ++ "/" ++ p) = t.startOf a := by
    rw [startOf, startOf, List.append_assoc, Path.isAbsolute_append ha]
  rw [hs.spot_eq, hs.spot_eq, hstart, Path.components_append, List.foldl_append]

theorem Sound.spot_join (root : Bytes) {c : Bytes} (hc : Path.IsName c) :
    t.spot (Path.join root c) = t.spot root ++ [c] := by
  have hlast := Path.components_name hc.ne_nil hc.ne_dot hc.no_slash
  unfold Path.join
  by_cases hr : root = []
  · subst hr
    have hrel : t.startOf c = t.startOf [] := by
      rw [startOf, Path.isAbsolute_eq_false hc.no_slash]
      rfl
    rw [if_pos (show List.isEmpty [] = true from rfl), if_neg (by simpa using hc.ne_nil), hs.spot_clean, hs.spot_eq, hs.spot_eq, hlast,
      hrel]
    exact Location.step_name hc.ne_up _
  · rw [if_neg (by simpa using hr), hs.spot_clean, hs.spot_append hr, hlast]
    exact Location.step_name hc.ne_up _

end Sound

section Leading

variable {t : FileTree}

theorem follow_eq_foldl {l k : Location} {cs : List Bytes} (h : t.follow l cs = .ok k) :
    k = (cs.filter (· ≠ ("." : Bytes))).foldl Location.step l := by
  fun_induction t.follow l cs with
  | case1 =>
    cases h
    rfl
  | case2 => cases h
  | case3 l rest he ih =>
    rw [List.filter_cons_of_neg (by simp)]
    exact ih h
  | case4 l rest he hd ih =>
    rw [List.filter_cons_of_pos (by decide), List.foldl_cons, Location.step_up]
    exact ih h
  | case5 => cases h
  | case6 l name rest he hd hu hl ih =>
    rw [List.filter_cons_of_pos (by simpa using hd), List.foldl_cons, Location.step_name hu]
    exact ih h

theorem filter_names (p : Bytes) : (names p).filter (· ≠ ("." : Bytes)) = Path.components p := by
  have hn : ((p.splitOn Ascii.slash).filter (· ≠ [])).filter (· ≠ ("." : Bytes)) = Path.components p := by
    rw [List.filter_filter, Path.components]
    congr 1
    funext c
    exact Bool.and_comm _ _
  unfold names
  split
  · rw [List.filter_append, hn]
    exact List.append_nil _
  · exact hn

theorem Sound.eq_spot (hs : t.Sound) {p : Bytes} {l : Location} {n : FileNode}
    (h : t.find p = .ok (l,n)) : l = t.spot p := by
  obtain ⟨hl,-⟩ := find_eq_ok_iff.mp h
  obtain ⟨-,hf⟩ := locate_eq_ok_iff.mp hl
  rw [follow_eq_foldl hf, filter_names, hs.spot_eq]

/-- Names that lead to something are followed, unless one of them is too long. -/
theorem WellFormed.follow_names (hw : t.WellFormed) {ns : List Bytes}
    (hns : ∀ n ∈ ns, Path.IsName n) {start : Location} {m : FileNode}
    (h : t.node? (start ++ ns) = some m) :
    t.follow start ns = .ok (start ++ ns) ∨ t.follow start ns = .error .nameTooLong := by
  induction ns generalizing start with
  | nil =>
    rw [List.append_nil]
    exact .inl rfl
  | cons c cs ih =>
    -- What the names lead to is there, so everything above it is a directory.
    have hd : t.node? start = some .directory := by
      have ht := hw.node?_take h (i := start.length) (by simp)
      rwa [List.take_left] at ht
    have happ : start ++ c :: cs = start ++ [c] ++ cs := by simp
    rw [happ] at h ⊢
    rw [follow_name (hns c List.mem_cons_self), enter_eq_ok_iff.mpr hd]
    by_cases hlen : c.length > maxName
    · exact .inr (if_pos hlen)
    · have hstep : (Except.ok () >>= fun _ => if c.length > maxName then .error Errno.nameTooLong
          else t.follow (start ++ [c]) cs) = t.follow (start ++ [c]) cs := if_neg hlen
      rw [hstep]
      exact ih (fun n hn => hns n (List.mem_cons_of_mem _ hn)) h

theorem WellFormed.follow_up (hw : t.WellFormed) (k : Nat) {start : Location}
    (hd : t.node? start = some .directory) (cs : List Bytes) :
    t.follow start (List.replicate k (".." : Bytes) ++ cs) =
      t.follow ((List.replicate k (".." : Bytes)).foldl Location.step start) cs := by
  induction k generalizing start with
  | zero => rfl
  | succ k ih =>
    rw [List.replicate_succ, List.cons_append, follow, enter_eq_ok_iff.mpr hd, List.foldl_cons,
      Location.step_up]
    exact ih (hw.dropLast hd)

theorem WellFormed.startOf (hw : t.WellFormed) (p : Bytes) :
    t.node? (t.startOf p) = some .directory := by
  unfold FileTree.startOf
  split
  · rfl
  · exact hw.current

theorem join_ne_nil (root : Bytes) {c : Bytes} (hc : Path.IsName c) : Path.join root c ≠ [] := by
  obtain ⟨up,ns,hnames,-⟩ := exists_names_join root hc
  intro hnil
  have hnone : names [] = [] := rfl
  rw [hnil, hnone] at hnames
  simp at hnames

theorem Sound.follow_join (hs : t.Sound) {root c : Bytes} (hc : Path.IsName c) {m : FileNode}
    (h : t.node? (t.spot (Path.join root c)) = some m) :
    t.follow (t.startOf (Path.join root c)) (names (Path.join root c)) = .ok (t.spot (Path.join root c)) ∨
    t.follow (t.startOf (Path.join root c)) (names (Path.join root c)) = .error .nameTooLong := by
  obtain ⟨up,ns,hnames,hns⟩ := exists_names_join root hc
  have hf : (names (Path.join root c)).filter (· ≠ ("." : Bytes)) = names (Path.join root c) := by
    rw [List.filter_eq_self, hnames]
    intro d hd
    rcases List.mem_append.mp hd with hd | hd
    · rw [List.eq_of_mem_replicate hd]
      decide
    · simpa using (hns d hd).ne_dot
  have hspot : t.spot (Path.join root c) = (List.replicate up (".." : Bytes)).foldl Location.step
      (t.startOf (Path.join root c)) ++ (ns ++ [c]) := by
    rw [hs.spot_eq, ← filter_names, hf, hnames, List.foldl_append]
    exact Location.foldl_step_names (fun d hd => (hns d hd).ne_up) _
  rw [hspot] at h ⊢
  rw [hnames, hs.follow_up up (hs.startOf _)]
  exact hs.follow_names hns h

/-- What stands at the location that a path spells is found there, unless the path cannot be
followed. -/
theorem Sound.find_join (hs : t.Sound) {root c : Bytes} (hc : Path.IsName c) {m : FileNode}
    (h : t.node? (t.spot (Path.join root c)) = some m) :
    t.find (Path.join root c) = .ok (t.spot (Path.join root c),m) ∨
      t.find (Path.join root c) = .error .invalidArgument ∨
      t.find (Path.join root c) = .error .nameTooLong := by
  by_cases hzero : (Path.join root c).contains 0 = true
  · exact .inr (.inl (find_of_contains_zero hzero))
  have hempty : (Path.join root c).isEmpty = false :=
    List.isEmpty_eq_false_iff.mpr (join_ne_nil root hc)
  by_cases hlong : (Path.join root c).length ≤ maxPath
  · rcases hs.follow_join hc h with hf | hf
    · have hgood : Followable (Path.join root c) := ⟨by simpa using hzero,hempty,hlong⟩
      exact .inl (find_eq_ok_iff.mpr ⟨locate_eq_ok_iff.mpr ⟨hgood,hf⟩,h⟩)
    · refine .inr (.inr (find_of_locate_error ?_))
      rw [locate, if_neg hzero, if_neg (by simp [hempty]), if_neg (Nat.not_lt.mpr hlong)]
      exact hf
  · refine .inr (.inr (find_of_locate_error ?_))
    rw [locate, if_neg hzero, if_neg (by simp [hempty]), if_pos (Nat.lt_of_not_le hlong)]

/-- Where a path is said to lead nowhere, there is nothing at the location it spells, nor below. -/
theorem Sound.not_isPrefix_of_absent (hs : t.Sound) {root c : Bytes} (hc : Path.IsName c) {e : Errno}
    (h : t.find (Path.join root c) = .error e) (he : e = .notFound ∨ e = .notDirectory)
    {k : Location} {n : FileNode} (hk : t.node? k = some n) : ¬ t.spot (Path.join root c) <+: k := by
  intro hp
  have hthere : ∃ m, t.node? (t.spot (Path.join root c)) = some m := by
    by_cases hlen : (t.spot (Path.join root c)).length < k.length
    · have ht := hs.node?_take hk hlen
      rw [← List.prefix_iff_eq_take.mp hp] at ht
      exact ⟨_,ht⟩
    · rw [hp.eq_of_length_le (by omega)]
      exact ⟨n,hk⟩
  obtain ⟨m,hm⟩ := hthere
  rcases hs.find_join hc hm with hf | hf | hf
  · rw [hf] at h
    cases h
  · rw [hf] at h
    cases h
    simp at he
  · rw [hf] at h
    cases h
    simp at he

end Leading

end FileTree

end WaylandZig
