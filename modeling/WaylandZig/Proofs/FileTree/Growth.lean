import WaylandZig.Proofs.FileTree

/-! # Trees that grow

A tree grows when files of certain names are written into it and the directories that they need are
made. Everything else stays as it is: what a path led to is still there, and a path that led nowhere
leads at most to something that was made.
-/
namespace WaylandZig.FileTree

/-- Whatever is in the tree stands in a directory, and so does whoever looks at it. -/
structure WellFormed (t : FileTree) : Prop where
  parents : ∀ e ∈ t.nodes, t.node? e.1.dropLast = some .directory
  current : t.node? t.current = some .directory

/-- The second tree is the first after files whose names are in `own` were written, and directories
were made where nothing was. -/
structure Grown (own : Bytes → Prop) (t t' : FileTree) : Prop where
  current : t'.current = t.current
  directory : ∀ k, t.node? k = some .directory → t'.node? k = some .directory
  file : ∀ k mode content, t.node? k = some (.file mode content) →
    ∃ mode' content', t'.node? k = some (.file mode' content')
  same : ∀ k n, (∀ c ∈ k.getLast?, ¬ own c) → t.node? k = some n → t'.node? k = some n
  new : ∀ k mode content, t.node? k = none → t'.node? k = some (.file mode content) →
    ∃ c ∈ k.getLast?, own c
  entries : ∀ p : Location × FileNode → Bool, (∀ k, p (k,.directory) = false) →
    (∀ k n c, own c → p (k ++ [c],n) = false) → t'.nodes.filter p = t.nodes.filter p

section WellFormed

variable {t : FileTree} (hw : t.WellFormed)

include hw

theorem WellFormed.dropLast {k : Location} {n : FileNode} (h : t.node? k = some n) :
    t.node? k.dropLast = some .directory := by
  by_cases hk : k = []
  · subst hk
    rfl
  · rw [node?_of_ne_nil hk] at h
    obtain ⟨e,he,hek⟩ : ∃ e ∈ t.nodes, e.1 = k := by
      by_contra hno
      have hnone : t.nodes.lookup k = none := by
        rw [List.lookup_eq_none_iff]
        intro e he
        rw [bne_iff_ne]
        exact fun hke => hno ⟨e,he,hke.symm⟩
      rw [hnone] at h
      cases h
    rw [← hek]
    exact hw.parents e he

/-- Everything above a node is a directory. -/
theorem WellFormed.node?_take {k : Location} {n : FileNode} (h : t.node? k = some n) {i : Nat}
    (hi : i < k.length) : t.node? (k.take i) = some .directory := by
  obtain ⟨d,hd⟩ : ∃ d, k.length = i + 1 + d := ⟨k.length - (i + 1),by omega⟩
  induction d generalizing k n with
  | zero =>
    have hk := hw.dropLast h
    rwa [List.dropLast_eq_take, hd] at hk
  | succ d ih =>
    have hl : k.dropLast.length = i + 1 + d := by
      rw [List.length_dropLast]
      omega
    have ht := ih (hw.dropLast h) (by omega) hl
    rwa [List.dropLast_eq_take, List.take_take, Nat.min_eq_left (by omega)] at ht

/-- So does everything above an entry of the tree. -/
theorem WellFormed.node?_of_isPrefix {e : Location × FileNode} (he : e ∈ t.nodes) {l : Location}
    (hp : l <+: e.1) (hl : l.length < e.1.length) : t.node? l = some .directory := by
  have hd := hw.parents e he
  have hle : l <+: e.1.dropLast := by
    rw [List.dropLast_eq_take]
    exact List.prefix_take_iff.mpr ⟨hp,by omega⟩
  by_cases hlen : l.length < e.1.dropLast.length
  · have ht := hw.node?_take hd hlen
    rwa [← List.prefix_iff_eq_take.mp hle] at ht
  · rwa [hle.eq_of_length_le (by omega)]

end WellFormed

theorem Grown.refl (own : Bytes → Prop) (t : FileTree) : Grown own t t where
  current := rfl
  directory _ h := h
  file _ mode content h := ⟨mode,content,h⟩
  same _ _ _ h := h
  new _ _ _ hn hs := by
    rw [hn] at hs
    cases hs
  entries _ _ _ := rfl

theorem Grown.trans {own : Bytes → Prop} {t t' t'' : FileTree} (h : Grown own t t')
    (h' : Grown own t' t'') : Grown own t t'' where
  current := h'.current.trans h.current
  directory k hk := h'.directory k (h.directory k hk)
  file k mode content hk := by
    obtain ⟨mode',content',hk'⟩ := h.file k mode content hk
    exact h'.file k mode' content' hk'
  same k n ho hk := h'.same k n ho (h.same k n ho hk)
  new k mode content hn hs := by
    cases hk : t'.node? k with
    | none => exact h'.new k mode content hk hs
    | some n =>
      cases n with
      | directory =>
        rw [h'.directory k hk] at hs
        cases hs
      | file mode' content' => exact h.new k mode' content' hn hk
  entries p hd ho := (h'.entries p hd ho).trans (h.entries p hd ho)

section Following

variable {own : Bytes → Prop} {t t' : FileTree}

/-- The steps that a path asks for, one at a time. -/
theorem follow_cons_eq_ok {l k : Location} {c : Bytes} {cs : List Bytes}
    (h : t.follow l (c :: cs) = .ok k) : t.node? l = some .directory ∧
      (∀ t' : FileTree, t'.node? l = some .directory → ∃ l', t.follow l' cs = .ok k ∧
        t'.follow l (c :: cs) = t'.follow l' cs) := by
  rw [follow] at h
  cases he : t.enter l with
  | error e =>
    rw [he] at h
    cases h
  | ok u =>
    rw [he] at h
    refine ⟨enter_eq_ok_iff.mp he,?_⟩
    intro t' hd
    simp only at h
    rw [follow, enter_eq_ok_iff.mpr hd]
    simp only
    split at h
    · rename_i hc
      exact ⟨l,h,by rw [if_pos hc]⟩
    split at h
    · rename_i hd hu
      exact ⟨l.dropLast,h,by rw [if_neg hd, if_pos hu]⟩
    split at h
    · cases h
    · rename_i hd hu hl
      exact ⟨l ++ [c],h,by rw [if_neg hd, if_neg hu, if_neg hl]⟩

theorem Grown.follow (hg : Grown own t t') {cs : List Bytes} {l k : Location}
    (h : t.follow l cs = .ok k) : t'.follow l cs = .ok k := by
  induction cs generalizing l with
  | nil => exact h
  | cons c cs ih =>
    obtain ⟨hd,hs⟩ := follow_cons_eq_ok h
    obtain ⟨l',hl,he⟩ := hs t' (hg.directory l hd)
    rw [he]
    exact ih hl

/-- The name that a path ends with is the last of the location it leads to. -/
theorem getLast?_of_follow {cs : List Bytes} {c : Bytes} (hd : c ≠ ".") (hu : c ≠ "..")
    {l k : Location} (h : t.follow l (cs ++ [c]) = .ok k) : k.getLast? = some c := by
  induction cs generalizing l with
  | nil =>
    rw [List.nil_append, FileTree.follow] at h
    split at h
    · cases h
    rw [if_neg hd, if_neg hu] at h
    split at h
    · cases h
    · cases h
      simp
  | cons first cs ih =>
    obtain ⟨hdir,hs⟩ := follow_cons_eq_ok h
    obtain ⟨l',hl,-⟩ := hs t hdir
    exact ih hl

theorem follow_error {cs : List Bytes} {l : Location} {e : Errno} (h : t.follow l cs = .error e) :
    e = .notFound ∨ e = .notDirectory ∨ e = .nameTooLong := by
  fun_induction t.follow l cs with
  | case1 => cases h
  | case2 l name rest e' he =>
    cases h
    unfold enter at he
    split at he
    · cases he
    · cases he
      exact .inr (.inl rfl)
    · cases he
      exact .inl rfl
  | case3 _ _ _ ih => exact ih h
  | case4 _ _ _ _ ih => exact ih h
  | case5 =>
    cases h
    exact .inr (.inr rfl)
  | case6 _ _ _ _ _ _ _ ih => exact ih h

/-- A path of steps up and then names leads in the first tree where it leads in the second, if there
was something. -/
theorem Grown.follow_back (hw : t.WellFormed) {k : Nat} {ns : List Bytes}
    (hns : ∀ n ∈ ns, Path.IsName n) {start l : Location} (hs : t.node? start = some .directory)
    {m : FileNode} (hl : t.node? l = some m)
    (h : t'.follow start (List.replicate k (".." : Bytes) ++ ns) = .ok l) :
    t.follow start (List.replicate k (".." : Bytes) ++ ns) = .ok l := by
  induction k generalizing start with
  | zero =>
    obtain ⟨rfl,-,hlen⟩ := (follow_names_eq_ok_iff hns).mp h
    refine (follow_names_eq_ok_iff hns).mpr ⟨rfl,?_,hlen⟩
    intro n hn
    have ht := hw.node?_take hl (i := start.length + n) (by simpa using hn)
    rwa [List.take_length_add_append] at ht
  | succ k ih =>
    have hup (s : FileTree) (hd : s.node? start = some .directory) (cs : List Bytes) :
        s.follow start (("..": Bytes) :: cs) = s.follow start.dropLast cs := by
      rw [FileTree.follow, enter_eq_ok_iff.mpr hd]
      rfl
    rw [List.replicate_succ, List.cons_append] at h ⊢
    obtain ⟨hd,-⟩ := follow_cons_eq_ok h
    rw [hup t' hd] at h
    rw [hup t hs]
    exact ih (hw.dropLast hs) h

end Following

section Finding

variable {own : Bytes → Prop} {t t' : FileTree} {p : Bytes} {l : Location} {n : FileNode}

theorem find_eq_ok_iff : t.find p = .ok (l,n) ↔ t.locate p = .ok l ∧ t.node? l = some n := by
  unfold find
  rw [Except.bind_eq_ok_iff]
  constructor
  · rintro ⟨k,hk,h⟩
    split at h
    · rename_i m hm
      cases h
      exact ⟨hk,hm⟩
    · cases h
  · rintro ⟨hl,hn⟩
    exact ⟨l,hl,by rw [hn]; rfl⟩

/-- A path can be followed at all. -/
def Followable (p : Bytes) : Prop := p.contains 0 = false ∧ p.isEmpty = false ∧ p.length ≤ maxPath

/-- Where a path starts. -/
def startOf (t : FileTree) (p : Bytes) : Location := if Path.isAbsolute p then [] else t.current

theorem locate_eq_ok_iff : t.locate p = .ok l ↔
    Followable p ∧ t.follow (t.startOf p) (names p) = .ok l := by
  unfold locate Followable startOf
  cases p.contains 0 with
  | true => simp
  | false =>
    cases p.isEmpty with
    | true => simp
    | false =>
      by_cases hlen : p.length > maxPath
      · simp [hlen, Nat.not_le.mpr hlen]
      · simp [hlen, Nat.le_of_not_lt hlen]

theorem locate_error {e : Errno} (h : t.locate p = .error e) :
    (e = .invalidArgument ∧ p.contains 0 = true) ∨ e = .notFound ∨ e = .notDirectory ∨
      e = .nameTooLong := by
  unfold locate at h
  split at h
  · rename_i hz
    cases h
    exact .inl ⟨rfl,hz⟩
  split at h
  · cases h
    exact .inr (.inl rfl)
  split at h
  · cases h
    exact .inr (.inr (.inr rfl))
  · exact .inr (follow_error h)

theorem find_of_locate_error {e : Errno} (h : t.locate p = .error e) : t.find p = .error e := by
  rw [find, h]
  rfl

theorem find_error {e : Errno} (h : t.find p = .error e) :
    (e = .invalidArgument ∧ p.contains 0 = true) ∨ e = .notFound ∨ e = .notDirectory ∨
      e = .nameTooLong := by
  cases hl : t.locate p with
  | error e' =>
    rw [find_of_locate_error hl] at h
    cases h
    exact locate_error hl
  | ok k =>
    cases hn : t.node? k with
    | some m =>
      rw [find_eq_ok_iff.mpr ⟨hl,hn⟩] at h
      cases h
    | none =>
      have he : t.find p = .error .notFound := by
        simp only [find, hl, bind, Except.bind, hn]
        rfl
      rw [he] at h
      cases h
      exact .inr (.inl rfl)

theorem find_of_contains_zero (h : p.contains 0 = true) : t.find p = .error .invalidArgument := by
  rw [find, locate, if_pos h]
  rfl

theorem Grown.startOf_eq (hg : Grown own t t') (p : Bytes) : t'.startOf p = t.startOf p := by
  rw [startOf, startOf, hg.current]

/-- A path leads where it led, to what was there or to a file that was written in its place. -/
theorem Grown.find (hg : Grown own t t') (h : t.find p = .ok (l,n)) :
    ∃ n', t'.find p = .ok (l,n') ∧ n'.isDirectory = n.isDirectory ∧
      ((∀ c ∈ l.getLast?, ¬ own c) → n' = n) := by
  obtain ⟨hl,hn⟩ := find_eq_ok_iff.mp h
  obtain ⟨hp,hf⟩ := locate_eq_ok_iff.mp hl
  have hl' : t'.locate p = .ok l := by
    rw [locate_eq_ok_iff, hg.startOf_eq]
    exact ⟨hp,hg.follow hf⟩
  cases n with
  | directory =>
    exact ⟨.directory,find_eq_ok_iff.mpr ⟨hl',hg.directory l hn⟩,rfl,fun _ => rfl⟩
  | file mode content =>
    obtain ⟨mode',content',hn'⟩ := hg.file l mode content hn
    refine ⟨.file mode' content',find_eq_ok_iff.mpr ⟨hl',hn'⟩,rfl,?_⟩
    intro ho
    have hs := hg.same l _ ho hn
    rw [hn'] at hs
    exact Option.some.inj hs

theorem names_render {cs : List Bytes} (rooted : Bool) (h : ∀ c ∈ cs, c ≠ [] ∧ Ascii.slash ∉ c)
    (hne : cs ≠ []) : names (Path.render rooted cs) = cs := by
  have he : cs.isEmpty = false := by simpa using hne
  cases rooted with
  | true => exact names_joinWith (.inr rfl) h hne
  | false =>
    have hn := names_joinWith (.inl rfl) h hne
    rw [List.nil_append] at hn
    rw [Path.render, if_neg (by simp), if_neg (by simp [he]), hn]

/-- The names on a path that was joined with a name: steps up, then names, and that name last. -/
theorem exists_names_join (root : Bytes) {c : Bytes} (hc : Path.IsName c) :
    ∃ k ns, names (Path.join root c) = List.replicate k (".." : Bytes) ++ (ns ++ [c]) ∧
      ∀ n ∈ ns ++ [c], Path.IsName n := by
  obtain ⟨rooted,k,ns,he,hns⟩ := Path.exists_join_eq root hc
  have hall := Path.isName_append hns hc
  refine ⟨k,ns,?_,hall⟩
  rw [he]
  refine names_render rooted ?_ (by simp)
  intro n hn
  rcases List.mem_append.mp hn with hn | hn
  · obtain rfl := List.eq_of_mem_replicate hn
    decide
  · exact ⟨(hall n hn).ne_nil,(hall n hn).no_slash⟩

theorem getLast?_of_find_join {root c : Bytes} (hc : Path.IsName c)
    (h : t.find (Path.join root c) = .ok (l,n)) : l.getLast? = some c := by
  obtain ⟨k,ns,hnames,-⟩ := exists_names_join root hc
  obtain ⟨hl,-⟩ := find_eq_ok_iff.mp h
  obtain ⟨-,hf⟩ := locate_eq_ok_iff.mp hl
  rw [hnames, ← List.append_assoc] at hf
  exact getLast?_of_follow hc.ne_dot hc.ne_up hf

/-- A path that led nowhere leads nowhere, or meets a name that is too long, or leads to something
that was made. -/
theorem Grown.find_absent (hw : t.WellFormed) (hg : Grown own t t') {root c : Bytes}
    (hc : Path.IsName c) {e : Errno} (h : t.find (Path.join root c) = .error e)
    (he : e = .notFound ∨ e = .notDirectory) :
    (∃ e', t'.find (Path.join root c) = .error e' ∧
      (e' = .notFound ∨ e' = .notDirectory ∨ e' = .nameTooLong)) ∨
    ∃ l n, t'.find (Path.join root c) = .ok (l,n) ∧ t.node? l = none := by
  cases hf : t'.find (Path.join root c) with
  | error e' =>
    refine .inl ⟨e',rfl,?_⟩
    rcases find_error hf with ⟨-,hz⟩ | hf
    · rw [find_of_contains_zero hz] at h
      cases h
      rcases he with he | he <;> cases he
    · exact hf
  | ok found =>
    obtain ⟨l,n⟩ := found
    refine .inr ⟨l,n,rfl,?_⟩
    obtain ⟨hl,-⟩ := find_eq_ok_iff.mp hf
    obtain ⟨hp,hfollow⟩ := locate_eq_ok_iff.mp hl
    obtain ⟨k,ns,hnames,hns⟩ := exists_names_join root hc
    cases hn : t.node? l with
    | none => rfl
    | some m =>
      -- What was there would have been found, since everything above it is a directory.
      have hstart : t.node? (t.startOf (Path.join root c)) = some .directory := by
        unfold startOf
        split
        · rfl
        · exact hw.current
      rw [hg.startOf_eq, hnames] at hfollow
      have hback := Grown.follow_back hw hns hstart hn hfollow
      rw [← hnames] at hback
      rw [find_eq_ok_iff.mpr ⟨locate_eq_ok_iff.mpr ⟨hp,hback⟩,hn⟩] at h
      cases h

end Finding

end WaylandZig.FileTree
