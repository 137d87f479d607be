import WaylandZig.FileTree.Access
import WaylandZig.Proofs.Fallible
import WaylandZig.Proofs.Path

/-! # What changes in a file tree

Each operation is described by what it does to the nodes of the tree. A node that is put in is found
at its location and changes no other, a temporary node leaves nothing behind, and the directories that
are made are added behind the nodes that were there. A path of names leads to the location that it
spells just when everything above that location is a directory.
-/
/-- Entries of one key that are left out hide no entry of another. -/
theorem List.lookup_filter_ne {α β : Type} [BEq α] [LawfulBEq α] [DecidableEq α] {key other : α}
    (h : other ≠ key) (entries : List (α × β)) :
    (entries.filter fun e => e.1 ≠ key).lookup other = entries.lookup other := by
  induction entries with
  | nil => rfl
  | cons e rest ih =>
    obtain ⟨k,b⟩ := e
    by_cases hk : k = key
    · have hne : (other == k) = false := by simpa [hk] using h
      rw [List.filter_cons_of_neg (by simpa using hk), ih, List.lookup_cons, hne]
    · rw [List.filter_cons_of_pos (by simpa using hk), List.lookup_cons, List.lookup_cons, ih]

namespace WaylandZig.FileTree

theorem absolute_congr {t t' : FileTree} (h : t'.current = t.current) (p : Bytes) :
    t'.absolute p = t.absolute p := by
  rw [absolute, absolute, currentPath, currentPath, h]

section Nodes

variable {t : FileTree} {k l : Location} {m n : FileNode} {nodes : List (Location × FileNode)}

theorem lookup_putIn_self (l : Location) (n : FileNode) (nodes : List (Location × FileNode)) :
    (putIn l n nodes).lookup l = some n := by
  induction nodes with
  | nil => simp [putIn]
  | cons entry nodes ih =>
    obtain ⟨k,m⟩ := entry
    rw [putIn]
    by_cases hk : k = l
    · simp [hk]
    · rw [if_neg hk, List.lookup_cons, beq_eq_false_iff_ne.mpr (Ne.symm hk)]
      exact ih

theorem lookup_putIn_of_ne (h : k ≠ l) (n : FileNode) (nodes : List (Location × FileNode)) :
    (putIn l n nodes).lookup k = nodes.lookup k := by
  induction nodes with
  | nil => simp [putIn, h]
  | cons entry nodes ih =>
    obtain ⟨j,m⟩ := entry
    rw [putIn]
    by_cases hj : j = l
    · rw [if_pos hj, List.lookup_cons, List.lookup_cons, hj, beq_eq_false_iff_ne.mpr h]
    · rw [if_neg hj, List.lookup_cons, List.lookup_cons, ih]

/-- What is put where nothing was stands behind all that was there. -/
theorem putIn_eq_append (h : nodes.lookup l = none) (n : FileNode) :
    putIn l n nodes = nodes ++ [(l,n)] := by
  induction nodes with
  | nil => rfl
  | cons entry nodes ih =>
    obtain ⟨k,m⟩ := entry
    rw [List.lookup_cons] at h
    by_cases hk : l = k
    · simp [hk] at h
    · rw [beq_eq_false_iff_ne.mpr hk] at h
      rw [putIn, if_neg (Ne.symm hk), ih h, List.cons_append]

theorem putIn_eq_self (h : nodes.lookup l = some n) : putIn l n nodes = nodes := by
  induction nodes with
  | nil => cases h
  | cons entry nodes ih =>
    obtain ⟨k,m⟩ := entry
    rw [List.lookup_cons] at h
    by_cases hk : l = k
    · subst hk
      simp only [beq_self_eq_true, Option.some.injEq] at h
      rw [putIn, if_pos rfl, h]
    · rw [beq_eq_false_iff_ne.mpr hk] at h
      rw [putIn, if_neg (Ne.symm hk), ih h]

theorem filter_putIn {p : Location × FileNode → Bool} (h : ∀ m, p (l,m) = false) (n : FileNode) :
    (putIn l n nodes).filter p = nodes.filter p := by
  induction nodes with
  | nil => simp [putIn, h]
  | cons entry nodes ih =>
    obtain ⟨k,m⟩ := entry
    rw [putIn]
    by_cases hk : k = l
    · subst hk
      simp [h]
    · rw [if_neg hk, List.filter_cons, List.filter_cons, ih]

theorem filter_ne_eq_self (h : nodes.lookup l = none) : nodes.filter (fun e => e.1 ≠ l) = nodes := by
  rw [List.filter_eq_self]
  intro e he
  have hne := List.lookup_eq_none_iff.mp h e he
  refine decide_eq_true ?_
  rintro rfl
  simp at hne

/-- A node that was put in and is taken out again has no effect on what was put meanwhile. -/
theorem filter_putIn_putIn (hl : nodes.lookup l = none) (hk : k ≠ l) (m n : FileNode) :
    (putIn k n (putIn l m nodes)).filter (fun e => e.1 ≠ l) = putIn k n nodes := by
  rw [putIn_eq_append hl]
  have hend : [(l,m)].filter (fun e : Location × FileNode => e.1 ≠ l) = [] := by simp
  by_cases hn : nodes.lookup k = none
  · have hadd : (nodes ++ [(l,m)]).lookup k = none := by
      rw [List.lookup_append, hn, Option.none_or, List.lookup_cons, beq_eq_false_iff_ne.mpr hk]
      rfl
    rw [putIn_eq_append hadd, putIn_eq_append hn, List.filter_append, List.filter_append, hend,
      filter_ne_eq_self hl]
    simp [hk]
  · have hin (rest : List (Location × FileNode)) :
        putIn k n (nodes ++ rest) = putIn k n nodes ++ rest := by
      clear hl
      induction nodes with
      | nil => exact absurd rfl hn
      | cons entry nodes ih =>
        obtain ⟨j,x⟩ := entry
        by_cases hj : j = k
        · simp [putIn, hj]
        · rw [List.lookup_cons, beq_eq_false_iff_ne.mpr (Ne.symm hj)] at hn
          rw [List.cons_append, putIn, putIn, if_neg hj, if_neg hj, ih hn, List.cons_append]
    have hfree : (putIn k n nodes).lookup l = none := by
      rw [lookup_putIn_of_ne (Ne.symm hk), hl]
    rw [hin, List.filter_append, hend, List.append_nil, filter_ne_eq_self hfree]

theorem node?_of_ne_nil (h : l ≠ []) : t.node? l = t.nodes.lookup l := by
  rw [node?, if_neg (by simpa using h)]

theorem node?_nil (t : FileTree) : t.node? [] = some .directory := rfl

theorem node?_put_self (h : l ≠ []) (n : FileNode) : (t.put l n).node? l = some n := by
  rw [node?_of_ne_nil h]
  exact lookup_putIn_self l n t.nodes

theorem node?_put_of_ne (h : k ≠ l) (n : FileNode) : (t.put l n).node? k = t.node? k := by
  by_cases hk : k = []
  · rw [hk, node?_nil, node?_nil]
  · rw [node?_of_ne_nil hk, node?_of_ne_nil hk]
    exact lookup_putIn_of_ne h n t.nodes

theorem ne_nil_of_node?_eq_none (h : t.node? l = none) : l ≠ [] := by
  rintro rfl
  cases h

theorem lookup_of_node?_eq_none (h : t.node? l = none) : t.nodes.lookup l = none := by
  rw [← node?_of_ne_nil (ne_nil_of_node?_eq_none h), h]

theorem put_eq_self (hl : l ≠ []) (h : t.node? l = some n) : t.put l n = t := by
  rw [node?_of_ne_nil hl] at h
  rw [put, putIn_eq_self h]

theorem node?_erase_of_ne (h : k ≠ l) : (t.erase l).node? k = t.node? k := by
  by_cases hk : k = []
  · rw [hk, node?_nil, node?_nil]
  · rw [node?_of_ne_nil hk, node?_of_ne_nil hk]
    exact List.lookup_filter_ne h t.nodes

theorem put_erase (hl : t.node? l = none) (m : FileNode) : (t.put l m).erase l = t := by
  have hfree := lookup_of_node?_eq_none hl
  simp only [put, erase, putIn_eq_append hfree, List.filter_append, filter_ne_eq_self hfree]
  simp

theorem put_put_erase (hl : t.node? l = none) (hk : k ≠ l) (m n : FileNode) :
    ((t.put l m).put k n).erase l = t.put k n := by
  simp only [put, erase, filter_putIn_putIn (lookup_of_node?_eq_none hl) hk]

end Nodes

section Following

variable {t t' : FileTree} {l k : Location} {cs : List Bytes}

theorem enter_eq_ok_iff : t.enter l = .ok () ↔ t.node? l = some .directory := by
  unfold enter
  cases t.node? l with
  | none => simp
  | some n => cases n <;> simp

theorem enter_congr (h : t.node? l = t'.node? l) : t.enter l = t'.enter l := by
  rw [enter, enter, h]

/-- The step that a name makes, which is neither `.` nor `..`. -/
theorem follow_name {c : Bytes} (hc : Path.IsName c) :
    t.follow l (c :: cs) = t.enter l >>= fun _ =>
      if c.length > maxName then .error .nameTooLong else t.follow (l ++ [c]) cs := by
  rw [follow]
  cases t.enter l with
  | error e => rfl
  | ok u => simp only [if_neg hc.ne_dot, if_neg hc.ne_up, bind, Except.bind]

theorem follow_names_eq_ok_iff (h : ∀ c ∈ cs, Path.IsName c) :
    t.follow l cs = .ok k ↔ k = l ++ cs ∧
      (∀ n < cs.length, t.node? (l ++ cs.take n) = some .directory) ∧ ∀ c ∈ cs, c.length ≤ maxName := by
  induction cs generalizing l with
  | nil =>
    simp only [follow, Except.ok.injEq, List.append_nil, List.length_nil, Nat.not_lt_zero,
      false_implies, implies_true, List.not_mem_nil, and_true]
    exact eq_comm
  | cons c cs ih =>
    have ih := @ih (l ++ [c]) fun c hc => h c (List.mem_cons_of_mem _ hc)
    rw [follow_name (h c List.mem_cons_self)]
    constructor
    · intro hf
      obtain ⟨⟨⟩,he,hf⟩ := Except.bind_eq_ok_iff.mp hf
      split at hf
      · cases hf
      rename_i hlen
      obtain ⟨hk,hd,hn⟩ := ih.mp hf
      refine ⟨by simpa using hk,?_,?_⟩
      · intro n hlt
        cases n with
        | zero =>
          rw [List.take_zero, List.append_nil]
          exact enter_eq_ok_iff.mp he
        | succ n => simpa using hd n (by simpa using hlt)
      · intro d hm
        rcases List.mem_cons.mp hm with rfl | hm
        · exact Nat.le_of_not_lt hlen
        · exact hn d hm
    · rintro ⟨hk,hd,hn⟩
      have h0 := hd 0 (by simp)
      rw [List.take_zero, List.append_nil] at h0
      refine Except.bind_eq_ok_iff.mpr ⟨(),enter_eq_ok_iff.mpr h0,?_⟩
      rw [if_neg (Nat.not_lt.mpr (hn c List.mem_cons_self))]
      refine ih.mpr ⟨by simpa using hk,?_,fun d hm => hn d (List.mem_cons_of_mem _ hm)⟩
      intro n hlt
      simpa using hd (n + 1) (by simpa using hlt)

/-- Names are followed alike in trees that agree on everything above the last. -/
theorem follow_names_congr (h : ∀ c ∈ cs, Path.IsName c)
    (hn : ∀ n < cs.length, t.node? (l ++ cs.take n) = t'.node? (l ++ cs.take n)) :
    t.follow l cs = t'.follow l cs := by
  induction cs generalizing l with
  | nil => rfl
  | cons c cs ih =>
    have h0 : t.node? l = t'.node? l := by simpa using hn 0 (by simp)
    have ih := @ih (l ++ [c]) (fun c hc => h c (List.mem_cons_of_mem _ hc)) fun n hlt => by
      simpa using hn (n + 1) (by simpa using hlt)
    rw [follow_name (h c List.mem_cons_self), follow_name (h c List.mem_cons_self), enter_congr h0, ih]

theorem splitOn_joinWith {cs : List Bytes} (h : ∀ c ∈ cs, Ascii.slash ∉ c) (hne : cs ≠ []) :
    (Bytes.joinWith "/" cs).splitOn Ascii.slash = cs := by
  induction cs with
  | nil => exact absurd rfl hne
  | cons c cs ih =>
    cases cs with
    | nil => exact Bytes.splitOn_eq_singleton (h c List.mem_cons_self)
    | cons d cs =>
      have hj : Bytes.joinWith "/" (c :: d :: cs) =
          c ++ Ascii.slash :: Bytes.joinWith "/" (d :: cs) := List.append_assoc c _ _
      rw [hj, Bytes.splitOn_append (h c List.mem_cons_self),
        ih (fun c hc => h c (List.mem_cons_of_mem _ hc)) (List.cons_ne_nil d cs)]

theorem endsWith_slash_append {front last : Bytes} (hn : last ≠ []) (hs : Ascii.slash ∉ last) :
    (front ++ last).endsWith "/" = false := by
  rw [Bytes.endsWith, ← Bool.not_eq_true, List.isSuffixOf_iff_suffix]
  rintro ⟨init,he⟩
  obtain ⟨rest,b,rfl⟩ := (List.eq_nil_or_concat last).resolve_left hn
  rw [List.concat_eq_append, ← List.append_assoc] at he
  have hb : Ascii.slash = b := List.singleton_inj.mp (List.append_inj' he rfl).2
  exact hs (by simp [hb])

/-- The names on a path that was put together, whether it starts at the root or not. -/
theorem names_joinWith {lead : Bytes} (hlead : lead = [] ∨ lead = "/") {cs : List Bytes}
    (h : ∀ c ∈ cs, c ≠ [] ∧ Ascii.slash ∉ c) (hne : cs ≠ []) :
    names (lead ++ Bytes.joinWith "/" cs) = cs := by
  have hs := splitOn_joinWith (fun c hc => (h c hc).2) hne
  have hf : cs.filter (· ≠ []) = cs := by
    rw [List.filter_eq_self]
    intro c hc
    simpa using (h c hc).1
  have hnamed : ((lead ++ Bytes.joinWith "/" cs).splitOn Ascii.slash).filter (· ≠ []) = cs := by
    rcases hlead with rfl | rfl
    · rw [List.nil_append, hs, hf]
    · have hslash : (Bytes.ofString "/" ++ Bytes.joinWith "/" cs).splitOn Ascii.slash = [] :: cs := by
        calc
          _ = Bytes.splitOn Ascii.slash ([] ++ Ascii.slash :: Bytes.joinWith "/" cs) := rfl
          _ = [] :: cs := by rw [Bytes.splitOn_append_sep, hs]; rfl
      rw [hslash, List.filter_cons_of_neg (by simp), hf]
  have hend : (lead ++ Bytes.joinWith "/" cs).endsWith "/" = false := by
    obtain ⟨init,last,rfl⟩ := (List.eq_nil_or_concat cs).resolve_left hne
    rw [List.concat_eq_append] at h ⊢
    obtain ⟨hn,hl⟩ := h last (by simp)
    by_cases hi : init = []
    · subst hi
      exact endsWith_slash_append hn hl
    · rw [Bytes.joinWith_concat _ _ hi, ← List.append_assoc]
      exact endsWith_slash_append hn hl
  rw [names, hnamed, hend]
  rfl

/-- The names on the path of a location are the location. -/
theorem names_path {l : Location} (hl : ∀ c ∈ l, Path.IsName c) (hne : l ≠ []) : names l.path = l :=
  names_joinWith (.inr rfl) (fun c hc => ⟨(hl c hc).ne_nil,(hl c hc).no_slash⟩) hne

/-- A path that leads to a location is one that is not too long and spells it. -/
theorem locate_path {l : Location} (hl : ∀ c ∈ l, Path.IsName c) (hne : l ≠ []) :
    t.locate l.path = if l.path.contains 0 then .error .invalidArgument
      else if l.path.length > maxPath then .error .nameTooLong else t.follow [] l := by
  have he : l.path.isEmpty = false := rfl
  have ha : Path.isAbsolute l.path = true := Path.isAbsolute_slash _
  simp only [locate, he, ha, names_path hl hne, Bool.false_eq_true, if_false, if_true]

theorem locate_path_congr {l : Location} (hl : ∀ c ∈ l, Path.IsName c) (hne : l ≠ [])
    (h : ∀ n < l.length, t.node? (l.take n) = t'.node? (l.take n)) : t.locate l.path = t'.locate l.path := by
  rw [locate_path hl hne, locate_path hl hne, follow_names_congr hl (by simpa using h)]

/-- A path that leads somewhere still does so when nothing above it was taken away. -/
theorem locate_path_mono {l : Location} (hl : ∀ c ∈ l, Path.IsName c) (hne : l ≠ [])
    (hd : ∀ k, t.node? k = some .directory → t'.node? k = some .directory)
    (h : t.locate l.path = .ok k) : t'.locate l.path = .ok k := by
  rw [locate_path hl hne] at h ⊢
  split at h
  · cases h
  rename_i hz
  split at h
  · cases h
  rename_i hlen
  obtain ⟨hk,hdirs,hnames⟩ := (follow_names_eq_ok_iff hl).mp h
  rw [if_neg hz, if_neg hlen]
  exact (follow_names_eq_ok_iff hl).mpr ⟨hk,fun n hn => hd _ (hdirs n hn),hnames⟩

theorem eq_of_locate_path {l : Location} (hl : ∀ c ∈ l, Path.IsName c) (hne : l ≠ [])
    (h : t.locate l.path = .ok k) : k = l := by
  rw [locate_path hl hne] at h
  split at h
  · cases h
  split at h
  · cases h
  simpa using ((follow_names_eq_ok_iff hl).mp h).1

end Following

section Directories

variable {t made : FileTree} {l : Location} {names : List Bytes}

/-- The tree with directories added behind its nodes, at locations where nothing was. -/
structure Adds (t : FileTree) (new : List Location) (made : FileTree) : Prop where
  eq : made = { t with nodes := t.nodes ++ new.map fun k => (k,.directory) }
  fresh : ∀ k ∈ new, t.node? k = none

theorem Adds.node?_of_some {new : List Location} (h : Adds t new made) {k : Location} {n : FileNode}
    (hk : t.node? k = some n) : made.node? k = some n := by
  by_cases hnil : k = []
  · subst hnil
    exact hk
  · rw [node?_of_ne_nil hnil] at hk ⊢
    rw [h.eq, List.lookup_append, hk, Option.some_or]

theorem Adds.node?_of_none {new : List Location} (h : Adds t new made) {k : Location}
    (hk : t.node? k = none) : made.node? k = if k ∈ new then some .directory else none := by
  have hnil := ne_nil_of_node?_eq_none hk
  have hl : (new.map fun k => (k,FileNode.directory)).lookup k =
      if k ∈ new then some .directory else none := by
    clear h
    induction new with
    | nil => rfl
    | cons j new ih =>
      rw [List.map_cons, List.lookup_cons, ih]
      by_cases hj : k = j
      · simp [hj]
      · simp [hj, beq_eq_false_iff_ne.mpr hj]
  rw [node?_of_ne_nil hnil] at hk ⊢
  rw [h.eq, List.lookup_append, hk, Option.none_or, hl]

/-- The files are those that were there. -/
theorem Adds.node?_file_iff {new : List Location} (h : Adds t new made) {k : Location} {mode : Nat}
    {text : Bytes} : made.node? k = some (.file mode text) ↔ t.node? k = some (.file mode text) := by
  cases hk : t.node? k with
  | none =>
    rw [h.node?_of_none hk]
    split <;> simp
  | some n => rw [h.node?_of_some hk]

theorem Adds.of_put {new : List Location} (hl : t.node? l = none)
    (h : Adds (t.put l .directory) new made) : Adds t (l :: new) made := by
  refine ⟨?_,?_⟩
  · rw [h.eq]
    simp [put, putIn_eq_append (lookup_of_node?_eq_none hl)]
  · intro k hk
    rcases List.mem_cons.mp hk with rfl | hk
    · exact hl
    · have hf := h.fresh k hk
      by_cases hkl : k = l
      · rw [hkl, hl]
      · rwa [node?_put_of_ne hkl] at hf

/-- Making directories adds those of the path that are missing. -/
theorem makeDirectories_eq_ok (h : t.makeDirectories l names = (.ok (),made)) :
    ∃ new, Adds t new made ∧ (∀ k ∈ new, ∃ n, k = l ++ names.take n) ∧
      ∀ n, 0 < n → n ≤ names.length → made.node? (l ++ names.take n) = some .directory := by
  induction names generalizing t l with
  | nil =>
    cases h
    refine ⟨[],⟨by simp,nofun⟩,nofun,?_⟩
    intro n hpos hle
    exact absurd hpos (by simpa using hle)
  | cons name rest ih =>
    have htake (n : Nat) : l ++ (name :: rest).take (n + 1) = l ++ [name] ++ rest.take n := by simp
    -- Whatever was there, the rest is made in a tree that has this directory.
    have hrest : ∀ s : FileTree, s.makeDirectories (l ++ [name]) rest = (.ok (),made) →
        s.node? (l ++ [name]) = some .directory → ∃ new, Adds s new made ∧
          (∀ k ∈ new, ∃ n, k = l ++ (name :: rest).take n) ∧
          ∀ n, 0 < n → n ≤ (name :: rest).length →
            made.node? (l ++ (name :: rest).take n) = some .directory := by
      intro s hs hd
      obtain ⟨new,ha,hn,hm⟩ := ih hs
      refine ⟨new,ha,?_,?_⟩
      · intro k hk
        obtain ⟨n,rfl⟩ := hn k hk
        exact ⟨n + 1,(htake n).symm⟩
      · intro n hpos hle
        obtain ⟨n,rfl⟩ : ∃ m, n = m + 1 := ⟨n - 1,by omega⟩
        rw [htake]
        cases n with
        | zero => simpa using ha.node?_of_some hd
        | succ n => exact hm (n + 1) (by omega) (by simpa using hle)
    simp only [makeDirectories] at h
    cases hnode : t.node? (l ++ [name]) with
    | some node =>
      rw [hnode] at h
      cases node with
      | directory => exact hrest t h hnode
      | file mode content => simp at h
    | none =>
      rw [hnode] at h
      simp only at h
      split at h
      · simp at h
      split at h
      · simp at h
      have hne := ne_nil_of_node?_eq_none hnode
      obtain ⟨new,ha,hn,hm⟩ := hrest _ h (node?_put_self hne _)
      refine ⟨(l ++ [name]) :: new,ha.of_put hnode,?_,hm⟩
      intro k hk
      rcases List.mem_cons.mp hk with rfl | hk
      · exact ⟨1,by simp⟩
      · exact hn k hk

/-- Directories of the path that were made before a failure are all that it leaves. -/
theorem exists_adds_makeDirectories (t : FileTree) (l : Location) (names : List Bytes) :
    ∃ new, Adds t new (t.makeDirectories l names).2 ∧ ∀ k ∈ new, ∃ n, k = l ++ names.take n := by
  have hsame (s : FileTree) : Adds s [] s := ⟨by simp,nofun⟩
  induction names generalizing t l with
  | nil => exact ⟨[],hsame t,nofun⟩
  | cons name rest ih =>
    have hstep {k : Location} (h : ∃ n, k = l ++ [name] ++ rest.take n) :
        ∃ n, k = l ++ (name :: rest).take n := by
      obtain ⟨n,rfl⟩ := h
      exact ⟨n + 1,by simp⟩
    simp only [makeDirectories]
    cases hnode : t.node? (l ++ [name]) with
    | some node =>
      cases node with
      | directory =>
        obtain ⟨new,ha,hn⟩ := ih t (l ++ [name])
        exact ⟨new,ha,fun k hk => hstep (hn k hk)⟩
      | file mode content => exact ⟨[],hsame t,nofun⟩
    | none =>
      simp only
      split
      · exact ⟨[],hsame t,nofun⟩
      split
      · exact ⟨[],hsame t,nofun⟩
      obtain ⟨new,ha,hn⟩ := ih (t.put (l ++ [name]) .directory) (l ++ [name])
      refine ⟨(l ++ [name]) :: new,ha.of_put hnode,?_⟩
      intro k hk
      rcases List.mem_cons.mp hk with rfl | hk
      · exact ⟨1,by simp⟩
      · exact hstep (hn k hk)

/-- Where all directories of a path are there, none is made. -/
theorem makeDirectories_eq_self
    (h : ∀ n, 0 < n → n ≤ names.length → t.node? (l ++ names.take n) = some .directory) :
    t.makeDirectories l names = (.ok (),t) := by
  induction names generalizing l with
  | nil => rfl
  | cons name rest ih =>
    have hd : t.node? (l ++ [name]) = some .directory := by simpa using h 1 (by omega) (by simp)
    simp only [makeDirectories, hd]
    refine ih ?_
    intro n hpos hle
    simpa using h (n + 1) (by omega) (by simpa using hle)

end Directories

end WaylandZig.FileTree
