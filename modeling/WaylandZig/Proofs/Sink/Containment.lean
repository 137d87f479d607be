import WaylandZig.Proofs.Sink.Directory
import WaylandZig.Proofs.Sink.UnitPath

/-! # Where a sink writes

A path that a sink takes is made of names, so it leads from the root of the sink to a location below
it, and the temporary file stands beside that location. The path `.` is the exception: it has no names
and leads to the root itself, and the temporary file then stands beside the root.

What a write does to files is listed change by change, the temporary file included. Applied to the
tree with the directories made, the changes give the tree that the write leaves.
-/
namespace WaylandZig

/-- Strictly below a location. -/
def Location.Below (root l : Location) : Prop := root <+: l ∧ root ≠ l

instance (root l : Location) : Decidable (Location.Below root l) :=
  inferInstanceAs (Decidable (_ ∧ _))

theorem Location.below_append {root rest : Location} (h : rest ≠ []) : Below root (root ++ rest) := by
  refine ⟨List.prefix_append root rest,?_⟩
  intro he
  exact h (List.self_eq_append_right.mp he)

/-- What a path of names leads to is below where it starts, and so is what stands beside that. -/
theorem Location.below_of_names {root names l : Location} (hr : ∀ c ∈ root, Path.IsName c)
    (hn : ∀ c ∈ names, Path.IsName c) (hne : names ≠ []) {other : Bytes}
    (hl : l = ofPath (Path.dir (path (root ++ names))) ++ [other] ∨
      l = ofPath (path (root ++ names))) : Below root l := by
  obtain ⟨front,last,rfl⟩ : ∃ front last, names = front ++ [last] :=
    ⟨_,_,(List.dropLast_concat_getLast hne).symm⟩
  have hfront : ∀ c ∈ root ++ front, Path.IsName c := by
    intro c hc
    rcases List.mem_append.mp hc with hc | hc
    · exact hr c hc
    · exact hn c (List.mem_append_left _ hc)
  have hlast : Path.IsName last := hn last (by simp)
  rw [← List.append_assoc, dir_path hfront hlast, ofPath_path hfront,
    ofPath_path (Path.isName_append hfront hlast), List.append_assoc, List.append_assoc] at hl
  rcases hl with rfl | rfl
  · exact below_append (by simp)
  · exact below_append (by simp)

/-- A location is not below itself, nor is what stands beside it. -/
theorem Location.not_below_of_beside {root l : Location} (hr : ∀ c ∈ root, Path.IsName c)
    (hne : root ≠ []) {other : Bytes}
    (hl : l = ofPath (Path.dir root.path) ++ [other] ∨ l = ofPath root.path) : ¬Below root l := by
  obtain ⟨parent,name,rfl⟩ : ∃ parent name, root = parent ++ [name] :=
    ⟨_,_,(List.dropLast_concat_getLast hne).symm⟩
  have hparent : ∀ c ∈ parent, Path.IsName c := fun c hc => hr c (List.mem_append_left _ hc)
  rw [dir_path hparent (hr name (by simp)), ofPath_path hparent, ofPath_path hr] at hl
  rintro ⟨hpre,hdiff⟩
  rcases hl with rfl | rfl
  · exact hdiff (hpre.eq_of_length (by simp))
  · exact hdiff rfl

theorem Location.path_eq_root_iff {l : Location} (hl : ∀ c ∈ l, Path.IsName c) :
    l.path = "/" ↔ l = [] := by
  constructor
  · intro h
    have ho := ofPath_path hl
    rw [h] at ho
    exact ho.symm
  · rintro rfl
    rfl

/-- A change to the files of a tree that has taken place. -/
inductive FileChange where
  | create (l : Location) (n : FileNode)
  | rename (l target : Location)
  | link (l target : Location)
  | remove (l : Location)
  deriving DecidableEq, Repr

namespace FileChange

/-- The files that a change creates, replaces or removes. -/
def files : FileChange → List Location
  | .create l _ => [l]
  | .rename l target => [l,target]
  | .link _ target => [target]
  | .remove l => [l]

def apply (t : FileTree) : FileChange → FileTree
  | .create l n => t.put l n
  | .rename l target => (t.rename l target).2
  | .link l target => (t.link l target).2
  | .remove l => t.erase l

end FileChange

namespace FileTree

variable {t : FileTree} {l target k : Location}

/-- A file gets its new name, or nothing happens. -/
theorem rename_cases (t : FileTree) (l target : Location) :
    (∃ e, t.rename l target = (.error e,t)) ∨
      ∃ n, t.node? l = some n ∧ t.node? target ≠ some .directory ∧
        t.rename l target = (.ok (),(t.put target n).erase l) := by
  unfold rename
  split
  · exact .inl ⟨_,rfl⟩
  · exact .inl ⟨_,rfl⟩
  · rename_i n _ hn hd
    exact .inr ⟨n,hn,hd,rfl⟩
  · exact .inl ⟨_,rfl⟩

/-- A file gets its second name, or nothing happens. -/
theorem link_cases (t : FileTree) (l target : Location) :
    (∃ e, t.link l target = (.error e,t)) ∨
      ∃ n, t.node? l = some n ∧ t.node? target = none ∧ t.link l target = (.ok (),t.put target n) := by
  unfold link
  split
  · exact .inl ⟨_,rfl⟩
  · exact .inl ⟨_,rfl⟩
  · rename_i n _ ht hn
    exact .inr ⟨n,hn,ht,rfl⟩
  · exact .inl ⟨_,rfl⟩

theorem rename_error {e : FileError} (h : (t.rename l target).1 = .error e) :
    (t.rename l target).2 = t := by
  rcases t.rename_cases l target with ⟨e,he⟩ | ⟨n,-,-,hok⟩
  · rw [he]
  · rw [hok] at h
    cases h

theorem link_error {e : FileError} (h : (t.link l target).1 = .error e) : (t.link l target).2 = t := by
  rcases t.link_cases l target with ⟨e,he⟩ | ⟨n,-,-,hok⟩
  · rw [he]
  · rw [hok] at h
    cases h

theorem node?_rename (hl : k ≠ l) (ht : k ≠ target) : (t.rename l target).2.node? k = t.node? k := by
  rcases t.rename_cases l target with ⟨e,he⟩ | ⟨n,-,-,hok⟩
  · rw [he]
  · rw [hok]
    exact (node?_erase_of_ne hl).trans (node?_put_of_ne ht n)

theorem node?_link (ht : k ≠ target) : (t.link l target).2.node? k = t.node? k := by
  rcases t.link_cases l target with ⟨e,he⟩ | ⟨n,-,-,hok⟩
  · rw [he]
  · rw [hok]
    exact node?_put_of_ne ht n

/-- A directory is never replaced. -/
theorem rename_directory (hd : t.node? target = some .directory) :
    ∃ e, (t.rename l target).1 = .error e := by
  rcases t.rename_cases l target with ⟨e,he⟩ | ⟨n,-,hfree,-⟩
  · exact ⟨e,by rw [he]⟩
  · exact absurd hd hfree

theorem link_directory (hd : t.node? target = some .directory) :
    ∃ e, (t.link l target).1 = .error e := by
  rcases t.link_cases l target with ⟨e,he⟩ | ⟨n,-,hfree,-⟩
  · exact ⟨e,by rw [he]⟩
  · rw [hfree] at hd
    cases hd

end FileTree

namespace FileChange

/-- A change leaves everything but its files as it is. -/
theorem node?_apply {change : FileChange} {k : Location} (h : k ∉ change.files) (t : FileTree) :
    (change.apply t).node? k = t.node? k := by
  cases change with
  | create l n => exact FileTree.node?_put_of_ne (by simpa [files] using h) n
  | rename l target =>
    simp only [files, List.mem_cons, List.not_mem_nil, or_false, not_or] at h
    exact FileTree.node?_rename h.1 h.2
  | link l target => exact FileTree.node?_link (by simpa [files] using h)
  | remove l => exact FileTree.node?_erase_of_ne (by simpa [files] using h)

theorem node?_foldl_apply {changes : List FileChange} {k : Location}
    (h : ∀ change ∈ changes, k ∉ change.files) (t : FileTree) :
    (changes.foldl apply t).node? k = t.node? k := by
  induction changes generalizing t with
  | nil => rfl
  | cons change rest ih =>
    have hr := ih (fun other ho => h other (List.mem_cons_of_mem _ ho)) (change.apply t)
    rw [List.foldl_cons, hr, node?_apply (h change List.mem_cons_self)]

end FileChange

namespace DirectorySink

/-- The changes that give the temporary file its name and remove what is left of it. -/
def placeChanges (s : DirectorySink) (t : FileTree) (temporary target : Location) : List FileChange :=
  if s.overwrite then
    match (t.rename temporary target).1 with
    | .ok () => [.rename temporary target]
    | .error _ => [.remove temporary]
  else
    match (t.link temporary target).1 with
    | .ok () => [.link temporary target,.remove temporary]
    | .error _ => [.remove temporary]

/-- What a write does to files, change by change. -/
def fileChanges (s : DirectorySink) (canceled : Bool) (path content : Bytes) (t : FileTree) :
    List FileChange :=
  match Sink.admit canceled path, s.resolve t path with
  | .ok (), .ok target =>
    let directory := Location.ofPath (Path.dir target)
    match t.makeDirectories [] directory with
    | (.ok (),made) =>
      let temporary := directory ++ [freshName made directory]
      match s.writeTemporary made temporary content with
      | .ok written => .create temporary (.file s.fileMode content) ::
          s.placeChanges written temporary (Location.ofPath target)
      | .error _ => []
    | (.error _,_) => []
  | _, _ => []

variable {s : DirectorySink} {canceled : Bool} {path content : Bytes} {t : FileTree}

theorem foldl_placeChanges (t : FileTree) (temporary target : Location) (path : Bytes) :
    (s.placeChanges t temporary target).foldl FileChange.apply t =
      (s.place t temporary target path).2 := by
  unfold placeChanges place
  split
  · rcases hr : t.rename temporary target with ⟨e | ⟨⟩,after⟩
    · have hsame : after = t := by
        have h := FileTree.rename_error (congrArg Prod.fst hr)
        rwa [hr] at h
      rw [hsame]
      rfl
    · simp only [List.foldl_cons, List.foldl_nil, FileChange.apply, hr]
  · rcases hl : t.link temporary target with ⟨e | ⟨⟩,after⟩
    · have hsame : after = t := by
        have h := FileTree.link_error (congrArg Prod.fst hl)
        rwa [hl] at h
      rw [hsame]
      rfl
    · simp only [List.foldl_cons, List.foldl_nil, FileChange.apply, hl]

theorem writeTemporary_eq_ok {l : Location} {written : FileTree}
    (h : s.writeTemporary t l content = .ok written) :
    written = t.put l (.file s.fileMode content) := by
  unfold writeTemporary at h
  split at h
  · cases h
  · exact (Except.ok.inj h).symm

/-- A write changes no file before it has made the directories, and leaves the tree that its changes
give. -/
theorem write_eq_foldl (s : DirectorySink) (canceled : Bool) (path content : Bytes) (t : FileTree) :
    ∃ new made, FileTree.Adds t new made ∧ (s.write canceled path content t).2 =
      (s.fileChanges canceled path content t).foldl FileChange.apply made := by
  have hnone : FileTree.Adds t [] t := ⟨by simp,nofun⟩
  unfold write writeThrough fileChanges
  cases hadmit : Sink.admit canceled path with
  | error fault => exact ⟨[],t,hnone,rfl⟩
  | ok taken =>
    obtain ⟨-,rfl⟩ := Sink.admit_eq_ok_iff.mp hadmit
    cases s.resolve t path with
    | error fault => exact ⟨[],t,hnone,rfl⟩
    | ok target =>
      obtain ⟨new,hadds,-⟩ :=
        FileTree.exists_adds_makeDirectories t [] (Location.ofPath (Path.dir target))
      simp only
      rcases hmake : t.makeDirectories [] (Location.ofPath (Path.dir target)) with ⟨e | ⟨⟩,made⟩
      · rw [hmake] at hadds
        exact ⟨new,made,hadds,rfl⟩
      rw [hmake] at hadds
      refine ⟨new,made,hadds,?_⟩
      cases hw : s.writeTemporary made (Location.ofPath (Path.dir target) ++
          [freshName made (Location.ofPath (Path.dir target))]) content with
      | error e => simp only [hw, List.foldl_nil]
      | ok written =>
        have hput := writeTemporary_eq_ok hw
        simp only [hw, Bool.false_eq_true, if_false]
        rw [List.foldl_cons, FileChange.apply, ← hput, foldl_placeChanges]

/-- The files that a write touches are its temporary file and its target, and the target only where
no directory stands. -/
theorem mem_files_placeChanges {temporary target l : Location} {change : FileChange}
    (hc : change ∈ s.placeChanges t temporary target) (hl : l ∈ change.files) :
    l = temporary ∨ (l = target ∧ t.node? target ≠ some .directory) := by
  unfold placeChanges at hc
  split at hc
  · split at hc
    · rename_i hr
      obtain rfl := List.mem_singleton.mp hc
      simp only [FileChange.files, List.mem_cons, List.not_mem_nil, or_false] at hl
      refine hl.imp_right fun he => ⟨he,?_⟩
      intro hd
      obtain ⟨e,he⟩ := FileTree.rename_directory (l := temporary) hd
      rw [hr] at he
      cases he
    · obtain rfl := List.mem_singleton.mp hc
      exact .inl (List.mem_singleton.mp hl)
  · split at hc
    · rename_i hr
      simp only [List.mem_cons, List.not_mem_nil, or_false] at hc
      rcases hc with rfl | rfl
      · refine .inr ⟨List.mem_singleton.mp hl,?_⟩
        intro hd
        obtain ⟨e,he⟩ := FileTree.link_directory (l := temporary) hd
        rw [hr] at he
        cases he
      · exact .inl (List.mem_singleton.mp hl)
    · obtain rfl := List.mem_singleton.mp hc
      exact .inl (List.mem_singleton.mp hl)

theorem mem_files_fileChanges {l : Location} {change : FileChange}
    (hc : change ∈ s.fileChanges canceled path content t) (hl : l ∈ change.files) :
    ∃ target name, s.resolve t path = .ok target ∧
      (l = Location.ofPath (Path.dir target) ++ [name] ∨
        (l = Location.ofPath target ∧ Location.ofPath target ≠ [])) := by
  unfold fileChanges at hc
  split at hc
  · rename_i target _ hres
    simp only at hc
    split at hc
    · rename_i made _
      refine ⟨target,freshName made (Location.ofPath (Path.dir target)),hres,?_⟩
      split at hc
      · rename_i written hw
        rcases List.mem_cons.mp hc with rfl | hc
        · exact .inl (List.mem_singleton.mp hl)
        · refine (mem_files_placeChanges hc hl).imp_right ?_
          rintro ⟨he,hd⟩
          refine ⟨he,?_⟩
          intro hnil
          rw [hnil] at hd
          exact hd rfl
      · cases hc
    · cases hc
  · cases hc

/-- The files that a write touches are below the root, unless the path is the one without names and
the root has a name that the temporary file can stand beside. -/
theorem below_root_iff (h : UnitPath.check path = .ok ()) {change : FileChange} {l : Location}
    (hc : change ∈ s.fileChanges canceled path content t) (hl : l ∈ change.files) :
    Location.Below (Location.ofPath (t.absolute s.root)) l ↔
      path ≠ "." ∨ t.absolute s.root = "/" := by
  obtain ⟨hnames,hdot⟩ := UnitPath.isName_of_check h
  obtain ⟨root,hr,habs⟩ := t.exists_absolute_eq_path s.root
  obtain ⟨target,other,hres,hplace⟩ := mem_files_fileChanges hc hl
  obtain rfl := resolve_names habs hr hnames hres
  rw [habs, Location.ofPath_path hr, Location.path_eq_root_iff hr]
  by_cases hp : path = "."
  · have hnil := hdot.mpr hp
    rw [hnil, List.append_nil] at hplace
    by_cases hroot : root = []
    · subst hroot
      refine iff_of_true ?_ (.inr rfl)
      rcases hplace with rfl | ⟨-,hne⟩
      · exact Location.below_append (by simp)
      · exact absurd rfl hne
    · refine iff_of_false ?_ (by simp [hp, hroot])
      exact Location.not_below_of_beside hr hroot (hplace.imp_right And.left)
  · have hne : Path.components path ≠ [] := fun hnil => hp (hdot.mp hnil)
    refine iff_of_true ?_ (.inl hp)
    exact Location.below_of_names hr hnames hne (hplace.imp_right And.left)

/-- A write changes files only by the changes that are listed for it, and those stay strictly below
the root exactly when the path has a name or the root is that of the tree. -/
theorem write_below_root_iff (s : DirectorySink) (canceled : Bool) (path content : Bytes)
    (t : FileTree) (h : UnitPath.check path = .ok ()) :
    (∃ new made, FileTree.Adds t new made ∧ (s.write canceled path content t).2 =
      (s.fileChanges canceled path content t).foldl FileChange.apply made) ∧
    (∀ k, (∀ change ∈ s.fileChanges canceled path content t, k ∉ change.files) → ∀ mode text,
      (s.write canceled path content t).2.node? k = some (.file mode text) ↔
        t.node? k = some (.file mode text)) ∧
    ∀ change ∈ s.fileChanges canceled path content t, ∀ l ∈ change.files,
      Location.Below (Location.ofPath (t.absolute s.root)) l ↔
        path ≠ "." ∨ t.absolute s.root = "/" := by
  obtain ⟨new,made,hadds,hwrite⟩ := write_eq_foldl s canceled path content t
  refine ⟨⟨new,made,hadds,hwrite⟩,?_,fun change hc l hl => below_root_iff h hc hl⟩
  intro k hk mode text
  rw [hwrite, FileChange.node?_foldl_apply hk]
  exact hadds.node?_file_iff

theorem nestedUnit_below_root :
    UnitPath.check "a/b.zig" = .ok () ∧
    (replacing "out").fileChanges false "a/b.zig" "x" {} ≠ [] ∧
    ∀ change ∈ (replacing "out").fileChanges false "a/b.zig" "x" {}, ∀ l ∈ change.files,
      Location.Below (Location.ofPath (({} : FileTree).absolute "out")) l := by
  have hc : UnitPath.check "a/b.zig" = .ok () := by decide +kernel
  refine ⟨hc,by decide +kernel,?_⟩
  intro change hm l hl
  exact ((write_below_root_iff (replacing "out") false "a/b.zig" "x" {} hc).2.2 change hm l hl).mpr
    (.inl (by decide))

/-- Under the path without names the root itself becomes a file, through one beside it. -/
theorem rootUnit_not_below_root :
    UnitPath.check "." = .ok () ∧
    (replacing "out").write false "." "x" {} =
      (.ok (),({} : FileTree).put ["out"] (.file defaultMode "x")) ∧
    ¬∀ change ∈ (replacing "out").fileChanges false "." "x" {}, ∀ l ∈ change.files,
      Location.Below (Location.ofPath (({} : FileTree).absolute "out")) l := by
  decide +kernel

end DirectorySink

end WaylandZig
