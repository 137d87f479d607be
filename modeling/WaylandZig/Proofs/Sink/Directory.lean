import Mathlib.Data.List.Nodup
import Mathlib.Data.List.Perm.Subperm
import WaylandZig.Proofs.FileTree.Growth
import WaylandZig.Proofs.Text.Numeral
import WaylandZig.Sink.Directory

/-! # Writing into a directory

A unit is written under a temporary name, which nothing else in the directory has, and then given its
own. Of the temporary file nothing is left, so a unit that was written is the tree with the missing
directories made and the unit put in its place.
-/
namespace WaylandZig.DirectorySink

section Temporary

theorem nat?_temporary (n : Nat) : Numeral.nat? 10 (Numeral.padded 10 10 n) = some n :=
  Numeral.nat?_padded (by decide) (by decide) 10 n

theorem temporaryName_injective {m n : Nat} (h : temporaryName m = temporaryName n) : m = n := by
  unfold temporaryName at h
  have hp := List.append_cancel_left (List.append_cancel_right h)
  have hm := nat?_temporary m
  rw [hp, nat?_temporary] at hm
  exact (Option.some.inj hm).symm

theorem isName_temporaryName (n : Nat) : Path.IsName (temporaryName n) := by
  have hd := Numeral.isWord_of_nat? (nat?_temporary n)
  have hl : 10 ≤ (temporaryName n).length := by
    have h6 : (Bytes.ofString ".way2-").length = 6 := by decide
    have h4 : (Bytes.ofString ".tmp").length = 4 := by decide
    simp only [temporaryName, List.length_append, h6, h4]
    omega
  have hne (c : Bytes) (hc : c.length < 10) : temporaryName n ≠ c := by
    rintro rfl
    omega
  refine ⟨hne _ (by decide),hne _ (by decide),hne _ (by decide),?_⟩
  intro hs
  simp only [temporaryName, List.mem_append] at hs
  rcases hs with (hs | hs) | hs
  · revert hs
    decide
  · have hw := hd _ hs
    revert hw
    decide
  · revert hs
    decide

/-- A list of keys leaves one of the temporary names free that a search through it looks at. -/
theorem exists_free (t : FileTree) (directory : Location) :
    ∃ n < t.nodes.length + 1, t.node? (directory ++ [temporaryName n]) = none := by
  by_contra hall
  simp only [not_exists, not_and] at hall
  have hsub : (List.range (t.nodes.length + 1)).map (fun n => directory ++ [temporaryName n]) ⊆
      t.nodes.map Prod.fst := by
    intro l hl
    obtain ⟨n,hn,rfl⟩ := List.mem_map.mp hl
    have hf := hall n (List.mem_range.mp hn)
    rw [FileTree.node?_of_ne_nil (by simp), List.lookup_eq_none_iff] at hf
    simp only [not_forall] at hf
    obtain ⟨e,he,hne⟩ := hf
    have heq : directory ++ [temporaryName n] = e.1 := by simpa using hne
    exact List.mem_map.mpr ⟨e,he,heq.symm⟩
  have hinj : Function.Injective fun n => directory ++ [temporaryName n] := by
    intro m n h
    exact temporaryName_injective (List.singleton_inj.mp (List.append_cancel_left h))
  have hnodup : ((List.range (t.nodes.length + 1)).map fun n => directory ++ [temporaryName n]).Nodup :=
    List.nodup_range.map hinj
  have hle := (hnodup.subperm hsub).length_le
  simp only [List.length_map, List.length_range] at hle
  omega

/-- The temporary name is the first that is free. -/
theorem freshName_spec (t : FileTree) (directory : Location) :
    ∃ n, freshName t directory = temporaryName n ∧
      t.node? (directory ++ [temporaryName n]) = none ∧
      ∀ m < n, t.node? (directory ++ [temporaryName m]) ≠ none := by
  obtain ⟨k,hk,hfree⟩ := exists_free t directory
  cases hf : (List.range (t.nodes.length + 1)).find? fun n =>
      (t.node? (directory ++ [temporaryName n])).isNone with
  | none =>
    have hno := List.find?_eq_none.mp hf k (List.mem_range.mpr hk)
    simp [hfree] at hno
  | some n =>
    obtain ⟨hn,-,hb⟩ := List.find?_range_eq_some.mp hf
    refine ⟨n,by rw [freshName, hf]; rfl,by simpa using hn,?_⟩
    intro m hm hnone
    have hno := hb m hm
    simp [hnone] at hno

theorem node?_freshName (t : FileTree) (directory : Location) :
    t.node? (directory ++ [freshName t directory]) = none := by
  obtain ⟨n,hn,hfree,-⟩ := freshName_spec t directory
  rw [hn, hfree]

theorem isName_freshName (t : FileTree) (directory : Location) :
    Path.IsName (freshName t directory) := by
  obtain ⟨n,hn,-⟩ := freshName_spec t directory
  rw [hn]
  exact isName_temporaryName n

/-- Trees in which the same temporary names are taken get the same fresh name. -/
theorem freshName_congr {t t' : FileTree} {directory : Location}
    (h : ∀ n, t.node? (directory ++ [temporaryName n]) = none ↔
      t'.node? (directory ++ [temporaryName n]) = none) :
    freshName t directory = freshName t' directory := by
  obtain ⟨m,hm,hmfree,hmin⟩ := freshName_spec t directory
  obtain ⟨n,hn,hnfree,hnin⟩ := freshName_spec t' directory
  rcases Nat.lt_trichotomy m n with hlt | rfl | hlt
  · exact absurd ((h m).mp hmfree) (hnin m hlt)
  · rw [hm, hn]
  · exact absurd ((h n).mpr hnfree) (hmin n hlt)

end Temporary

/-- A file of that name can be put into the directory. -/
structure Placeable (t : FileTree) (directory : Location) (name : Bytes) : Prop where
  temporary : t.locate (Location.path (directory ++ [freshName t directory])) =
    .ok (directory ++ [freshName t directory])
  target : t.locate (Location.path (directory ++ [name])) = .ok (directory ++ [name])
  free : t.node? (directory ++ [name]) ≠ some .directory

section Writing

variable {t t' : FileTree} {out : Bytes} {directory : Location} {name content : Bytes}

/-- The temporary file stands beside the target, so it is not on the way to it. -/
theorem locate_put_temporary (hd : ∀ c ∈ directory, Path.IsName c) (hn : Path.IsName name)
    (other : Bytes) (n : FileNode) :
    (t.put (directory ++ [other]) n).locate (Location.path (directory ++ [name])) =
      t.locate (Location.path (directory ++ [name])) := by
  refine FileTree.locate_path_congr (Path.isName_append hd hn) (by simp) ?_
  intro k hk
  refine FileTree.node?_put_of_ne ?_ n
  intro he
  have hl := congrArg List.length he
  simp only [List.length_take, List.length_append, List.length_singleton] at hl hk
  omega

/-- Giving the temporary file its name leaves the tree with the file in its place. -/
theorem place_eq_ok_iff (hd : ∀ c ∈ directory, Path.IsName c) (hn : Path.IsName name)
    (ht : ∀ n, name ≠ temporaryName n) {node : FileNode} {path : Bytes} :
    (replacing out).place (t.put (directory ++ [freshName t directory]) node)
        (directory ++ [freshName t directory]) (directory ++ [name]) path = (.ok (),t') ↔
      t.locate (Location.path (directory ++ [name])) = .ok (directory ++ [name]) ∧
        t.node? (directory ++ [name]) ≠ some .directory ∧ t' = t.put (directory ++ [name]) node := by
  have hfree := node?_freshName t directory
  have hne : directory ++ [name] ≠ directory ++ [freshName t directory] := by
    obtain ⟨n,hf,-⟩ := freshName_spec t directory
    rw [hf]
    exact fun h => ht n (List.singleton_inj.mp (List.append_cancel_left h))
  have hself := FileTree.node?_put_self (FileTree.ne_nil_of_node?_eq_none hfree) node (t := t)
  have hput := FileTree.put_put_erase hfree hne node node
  have hover : (replacing out).overwrite = true := rfl
  rw [place, if_pos hover, FileTree.rename]
  simp only [locate_put_temporary hd hn, FileTree.node?_put_of_ne hne, hself]
  cases hl : t.locate (Location.path (directory ++ [name])) with
  | error e => simp
  | ok l =>
    obtain rfl := FileTree.eq_of_locate_path (Path.isName_append hd hn) (by simp) hl
    cases hnode : t.node? (directory ++ [name]) with
    | none => simp [hput, eq_comm]
    | some n =>
      cases n with
      | directory => simp
      | file mode text => simp [hput, eq_comm]

/-- A path of names leads on from the root by these names. -/
theorem resolve_names {s : DirectorySink} {path target : Bytes} (hr : t.absolute s.root = directory.path)
    (hd : ∀ c ∈ directory, Path.IsName c) (hp : ∀ c ∈ Path.components path, Path.IsName c)
    (h : s.resolve t path = .ok target) :
    target = Location.path (directory ++ Path.components path) := by
  simp only [resolve, hr, Location.join_path_names hd hp] at h
  split at h
  · exact (Except.ok.inj h).symm
  · cases h

variable (hr : t.absolute out = directory.path) (hd : ∀ c ∈ directory, Path.IsName c)
  (hn : Path.IsName name)

include hr hd hn

theorem resolve_eq_ok {target : Bytes} (h : (replacing out).resolve t name = .ok target) :
    target = Location.path (directory ++ [name]) := by
  have hc := Path.components_name hn.ne_nil hn.ne_dot hn.no_slash
  have hj := resolve_names (s := replacing out) hr hd (by simpa [hc] using hn) h
  rwa [hc] at hj

/-- A unit is written just when its directory can be made and a file placed in it, and then it stands
in that directory and nothing else has changed. -/
theorem write_eq_ok_iff (hc : UnitPath.check name = .ok ()) (ht : ∀ n, name ≠ temporaryName n) :
    (replacing out).write false name content t = (.ok (),t') ↔
      (∃ target, (replacing out).resolve t name = .ok target) ∧
      ∃ made, t.makeDirectories [] directory = (.ok (),made) ∧ Placeable made directory name ∧
        t' = made.put (directory ++ [name]) (.file defaultMode content) := by
  have htaken : Sink.admit false name = .ok () := by
    simp [hc, Sink.admit]
  rw [write, writeThrough]
  simp only [htaken, Bool.false_eq_true, if_false]
  cases hres : (replacing out).resolve t name with
  | error fault => simp
  | ok target =>
    obtain rfl := resolve_eq_ok hr hd hn hres
    have hdir : Location.ofPath (Path.dir (Location.path (directory ++ [name]))) = directory := by
      rw [Location.dir_path hd hn, Location.ofPath_path hd]
    have htarget : Location.ofPath (Location.path (directory ++ [name])) = directory ++ [name] :=
      Location.ofPath_path (Path.isName_append hd hn)
    simp only [hdir, htarget]
    rcases hmake : t.makeDirectories [] directory with ⟨e | ⟨⟩,made⟩
    · simp
    cases htmp : made.locate (Location.path (directory ++ [freshName made directory])) with
    | error e =>
      simp only [writeTemporary, htmp]
      constructor
      · intro h
        simp at h
      · rintro ⟨-,made',he,hp,-⟩
        cases he
        have hp := hp.temporary
        rw [htmp] at hp
        cases hp
    | ok l =>
      have hfresh := Path.isName_append hd (isName_freshName made directory)
      obtain rfl := FileTree.eq_of_locate_path hfresh (by simp) htmp
      simp only [writeTemporary, htmp]
      rw [place_eq_ok_iff hd hn ht]
      constructor
      · rintro ⟨hl,hfree,rfl⟩
        exact ⟨⟨_,rfl⟩,made,rfl,⟨htmp,hl,hfree⟩,rfl⟩
      · rintro ⟨-,made',he,⟨-,hl,hfree⟩,rfl⟩
        cases he
        exact ⟨hl,hfree,rfl⟩

end Writing

/-- The file stands in its place, and can be written there again. -/
structure Settled (out : Bytes) (t : FileTree) (directory : Location) (name content : Bytes) : Prop where
  resolves : ∃ target, (replacing out).resolve t name = .ok target
  directories : ∀ n ≤ directory.length, t.node? (directory.take n) = some .directory
  placeable : Placeable t directory name
  stored : t.node? (directory ++ [name]) = some (.file defaultMode content)

section Settling

variable {out : Bytes} {directory : Location} {name content : Bytes}

theorem resolve_congr {t t' : FileTree} (h : t'.current = t.current) (name : Bytes) :
    (replacing out).resolve t' name = (replacing out).resolve t name := by
  unfold resolve
  rw [FileTree.absolute_congr h]

/-- What writing a file does to the tree, with the directories that it made. -/
structure Wrote (directory : Location) (name content : Bytes) (t t' : FileTree) : Prop where
  step : ∃ made new, FileTree.Adds t new made ∧ (∀ k ∈ new, ∃ n, k = directory.take n) ∧
    (∀ n ≤ directory.length, made.node? (directory.take n) = some .directory) ∧
    Placeable made directory name ∧ t' = made.put (directory ++ [name]) (.file defaultMode content)

theorem wrote_of_write {t t' : FileTree} (hr : t.absolute out = directory.path)
    (hd : ∀ c ∈ directory, Path.IsName c) (hn : Path.IsName name) (hc : UnitPath.check name = .ok ())
    (ht : ∀ n, name ≠ temporaryName n)
    (h : (replacing out).write false name content t = (.ok (),t')) :
    (∃ target, (replacing out).resolve t name = .ok target) ∧ Wrote directory name content t t' := by
  obtain ⟨hres,made,hmake,hp,rfl⟩ := (write_eq_ok_iff hr hd hn hc ht).mp h
  obtain ⟨new,ha,hnew,hdirs⟩ := FileTree.makeDirectories_eq_ok hmake
  refine ⟨hres,made,new,ha,by simpa using hnew,?_,hp,rfl⟩
  intro n hle
  cases n with
  | zero => rfl
  | succ n => simpa using hdirs (n + 1) (by omega) hle

end Settling

namespace Wrote

variable {t t' : FileTree} {out : Bytes} {directory : Location} {name content : Bytes}

theorem current_eq (h : Wrote directory name content t t') : t'.current = t.current := by
  obtain ⟨made,new,ha,-,-,-,rfl⟩ := h.step
  rw [FileTree.put, ha.eq]

/-- Whatever was there is still there, but for a file that was replaced. -/
theorem node?_of_some (h : Wrote directory name content t t') {k : Location} {n : FileNode}
    (hk : t.node? k = some n) (hne : k ≠ directory ++ [name]) : t'.node? k = some n := by
  obtain ⟨made,new,ha,-,-,-,rfl⟩ := h.step
  rw [FileTree.node?_put_of_ne hne]
  exact ha.node?_of_some hk

theorem node?_directory (h : Wrote directory name content t t') {k : Location}
    (hk : t.node? k = some .directory) : t'.node? k = some .directory := by
  refine h.node?_of_some hk ?_
  rintro rfl
  obtain ⟨made,new,ha,-,-,hp,-⟩ := h.step
  exact hp.free (ha.node?_of_some hk)

/-- Writing brings no node into a directory but the file, the directories on the way to it apart. -/
theorem node?_of_none (h : Wrote directory name content t t') {other : Bytes}
    (hk : t.node? (directory ++ [other]) = none) (hne : other ≠ name) :
    t'.node? (directory ++ [other]) = none := by
  obtain ⟨made,new,ha,hnew,-,-,rfl⟩ := h.step
  rw [FileTree.node?_put_of_ne (by simpa using hne), ha.node?_of_none hk, if_neg]
  intro hm
  obtain ⟨n,hn⟩ := hnew _ hm
  have hl := congrArg List.length hn
  simp only [List.length_append, List.length_singleton, List.length_take] at hl
  omega

/-- Writing a file grows the tree. -/
theorem grown (h : Wrote directory name content t t') {own : Bytes → Prop} (ho : own name) :
    FileTree.Grown own t t' := by
  have hcur := h.current_eq
  have hdir := fun k => h.node?_directory (k := k)
  have hsome := fun k n => h.node?_of_some (k := k) (n := n)
  obtain ⟨made,new,ha,-,-,-,rfl⟩ := h.step
  have hlast : (directory ++ [name]).getLast? = some name := by simp
  have hself := FileTree.node?_put_self (t := made) (l := directory ++ [name]) (by simp)
    (.file defaultMode content)
  refine ⟨hcur,hdir,?_,?_,?_,?_⟩
  · intro k mode text hk
    by_cases hne : k = directory ++ [name]
    · subst hne
      exact ⟨_,_,hself⟩
    · exact ⟨mode,text,hsome k _ hk hne⟩
  · intro k n hnot hk
    refine hsome k n hk ?_
    rintro rfl
    exact hnot name hlast ho
  · intro k mode text hnone hk
    by_cases hne : k = directory ++ [name]
    · subst hne
      exact ⟨name,hlast,ho⟩
    · rw [FileTree.node?_put_of_ne hne, ha.node?_of_none hnone] at hk
      split at hk <;> cases hk
  · intro p hpd hpo
    have hnew : (new.map fun k => (k,FileNode.directory)).filter p = [] := by
      rw [List.filter_eq_nil_iff]
      intro e he
      obtain ⟨k,-,rfl⟩ := List.mem_map.mp he
      simp [hpd]
    rw [FileTree.put, FileTree.filter_putIn fun n => hpo directory n name ho, ha.eq, List.filter_append,
      hnew, List.append_nil]

theorem freshName_eq (h : Wrote directory name content t t') (ht : ∀ n, name ≠ temporaryName n) :
    freshName t' directory = freshName t directory := by
  refine freshName_congr fun n => ⟨?_,fun hk => h.node?_of_none hk (Ne.symm (ht n))⟩
  intro hk
  cases hnode : t.node? (directory ++ [temporaryName n]) with
  | none => rfl
  | some node =>
    have hk' := h.node?_of_some hnode (by simpa using Ne.symm (ht n))
    rw [hk] at hk'
    cases hk'

theorem settled (h : Wrote directory name content t t') (hd : ∀ c ∈ directory, Path.IsName c)
    (hn : Path.IsName name) (ht : ∀ n, name ≠ temporaryName n)
    (hres : ∃ target, (replacing out).resolve t name = .ok target) :
    Settled out t' directory name content := by
  have hcur := h.current_eq
  obtain ⟨made,new,ha,-,hdirs,hp,rfl⟩ := h.step
  have hplaced : Wrote directory name content made
      (made.put (directory ++ [name]) (.file defaultMode content)) :=
    ⟨made,[],⟨by simp,nofun⟩,nofun,hdirs,hp,rfl⟩
  have hfresh := hplaced.freshName_eq ht
  have hstored := FileTree.node?_put_self (t := made) (l := directory ++ [name]) (by simp)
    (.file defaultMode content)
  refine ⟨?_,?_,⟨?_,?_,?_⟩,hstored⟩
  · rw [resolve_congr hcur]
    exact hres
  · intro n hle
    exact hplaced.node?_directory (hdirs n hle)
  · rw [hfresh, locate_put_temporary hd (isName_freshName made directory)]
    exact hp.temporary
  · rw [locate_put_temporary hd hn]
    exact hp.target
  · rw [hstored]
    simp

/-- Writing another file leaves one that was settled as it is. -/
theorem settled_other (h : Wrote directory name content t t') (hd : ∀ c ∈ directory, Path.IsName c)
    (ht : ∀ n, name ≠ temporaryName n) {other text : Bytes} (ho : Path.IsName other)
    (hne : other ≠ name) (hs : Settled out t directory other text) :
    Settled out t' directory other text := by
  have hnode := h.node?_of_some hs.stored (by simpa using hne)
  have hdir : ∀ k, t.node? k = some .directory → t'.node? k = some .directory :=
    fun k => h.node?_directory
  have htmp := isName_freshName t directory
  refine ⟨?_,fun n hle => hdir _ (hs.directories n hle),⟨?_,?_,?_⟩,hnode⟩
  · rw [resolve_congr h.current_eq]
    exact hs.resolves
  · rw [h.freshName_eq ht]
    exact FileTree.locate_path_mono (Path.isName_append hd htmp) (by simp) hdir hs.placeable.temporary
  · exact FileTree.locate_path_mono (Path.isName_append hd ho) (by simp) hdir hs.placeable.target
  · rw [hnode]
    simp

end Wrote

namespace Settled

variable {t : FileTree} {out : Bytes} {directory : Location} {name content : Bytes}

/-- The file is found under its path. -/
theorem find_eq (h : Settled out t directory name content) :
    t.find (Location.path (directory ++ [name])) =
      .ok (directory ++ [name],.file defaultMode content) :=
  FileTree.find_eq_ok_iff.mpr ⟨h.placeable.target,h.stored⟩

/-- Writing the same file again changes nothing. -/
theorem write_eq (h : Settled out t directory name content) (hr : t.absolute out = directory.path)
    (hd : ∀ c ∈ directory, Path.IsName c) (hn : Path.IsName name) (hc : UnitPath.check name = .ok ())
    (ht : ∀ n, name ≠ temporaryName n) : (replacing out).write false name content t = (.ok (),t) := by
  refine (write_eq_ok_iff hr hd hn hc ht).mpr ⟨h.resolves,t,?_,h.placeable,?_⟩
  · refine FileTree.makeDirectories_eq_self ?_
    intro n _ hle
    exact h.directories n hle
  · exact (FileTree.put_eq_self (by simp) h.stored).symm

end Settled

end WaylandZig.DirectorySink
