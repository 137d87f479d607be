import WaylandZig.Proofs.Sink.Containment

/-! # Writing all of a unit or nothing

A write either places the whole unit or leaves the tree as it was, but for directories that it made on
the way to the destination. Whatever ends it, the temporary file goes: it was in nobody's way, since
its name was taken by nothing, and it is not the destination, since no unit has such a name.
-/
namespace WaylandZig

namespace FileTree

theorem Adds.node?_cases {t made : FileTree} {new : List Location} (h : Adds t new made) (k : Location) :
    made.node? k = t.node? k ∨ t.node? k = none ∧ made.node? k = some .directory ∧ k ∈ new := by
  cases hk : t.node? k with
  | some n => exact .inl (h.node?_of_some hk)
  | none =>
    rw [h.node?_of_none hk]
    by_cases hnew : k ∈ new
    · rw [if_pos hnew]
      exact .inr ⟨rfl,rfl,hnew⟩
    · rw [if_neg hnew]
      exact .inl rfl

theorem Adds.node?_of_made_none {t made : FileTree} {new : List Location} (h : Adds t new made)
    {k : Location} (hk : made.node? k = none) : t.node? k = none := by
  rcases h.node?_cases k with he | ⟨hn,-,-⟩
  · rw [← he, hk]
  · exact hn

end FileTree

namespace DirectorySink

def isTemporaryName (c : Bytes) : Bool :=
  Bytes.startsWith c ".way2-" && Bytes.endsWith (c.drop (Bytes.ofString ".way2-").length) ".tmp"

/-- A naming of temporary files that takes no name that is there. -/
structure FreshNames (name : FileTree → Location → Bytes) : Prop where
  temporary : ∀ made l, isTemporaryName (name made l) = true
  free : ∀ (made : FileTree) l, made.node? (l ++ [name made l]) = none

theorem isTemporaryName_temporaryName (n : Nat) : isTemporaryName (temporaryName n) = true := by
  have hd : (temporaryName n).drop (Bytes.ofString ".way2-").length =
      Numeral.padded 10 10 n ++ ".tmp" := by
    rw [temporaryName, List.append_assoc, List.drop_left]
  rw [isTemporaryName, hd, Bytes.startsWith, Bytes.endsWith, Bool.and_eq_true,
    List.isPrefixOf_iff_prefix, List.isSuffixOf_iff_suffix, temporaryName, List.append_assoc]
  exact ⟨List.prefix_append _ _,List.suffix_append _ _⟩

theorem freshNames_freshName : FreshNames freshName where
  temporary made l := by
    obtain ⟨n,hn,-⟩ := freshName_spec made l
    rw [hn]
    exact isTemporaryName_temporaryName n
  free := node?_freshName

def destination (s : DirectorySink) (t : FileTree) (path : Bytes) : Location :=
  Location.ofPath (Path.join (t.absolute s.root) path)

/-- Where the temporary file of a unit stands while it is written. -/
def temporaryOf (s : DirectorySink) (t : FileTree) (path : Bytes) (name : FileTree → Location → Bytes) :
    Location :=
  let directory := (s.destination t path).dropLast
  directory ++ [name (t.makeDirectories [] directory).2 directory]

/-- All of a unit was written, or none of it, and nothing else has happened but that directories were
made on the way to it. -/
structure Atomic (s : DirectorySink) (c : Course) (name : FileTree → Location → Bytes)
    (path content : Bytes) (t : FileTree) (result : Except SinkFault Unit × FileTree) : Prop where
  cleared : result.2.node? (s.temporaryOf t path name) = none
  framed : ∀ k ≠ s.destination t path, result.2.node? k = t.node? k ∨
    t.node? k = none ∧ result.2.node? k = some .directory ∧ k <+: s.destination t path
  outcome : result.1 = .ok () ∧ result.2.node? (s.destination t path) =
      some (.file (if s.mode = 0 then 0o644 else s.mode % 0o1000) content) ∨
    (∃ fault, result.1 = .error fault) ∧
      result.2.node? (s.destination t path) = t.node? (s.destination t path)
  exclusive : s.overwrite = false → result.1 = .ok () → t.node? (s.destination t path) = none
  untouched : c.canceledAtEntry = true → result = (.error .canceled,t)

section Placing

variable {s : DirectorySink} {content path : Bytes} {made : FileTree} {temporary target : Location}

/-- The two ends of a write, once its directories are made. -/
inductive Ends (s : DirectorySink) (content : Bytes) (made : FileTree) (target : Location) :
    Except SinkFault Unit × FileTree → Prop
  | placed (hd : made.node? target ≠ some .directory)
      (hx : s.overwrite = false → made.node? target = none) :
      Ends s content made target (.ok (),made.put target (.file s.fileMode content))
  | failed (fault : SinkFault) : Ends s content made target (.error fault,made)

theorem place_ends (hfree : made.node? temporary = none) (hne : target ≠ temporary) :
    Ends s content made target
      (s.place (made.put temporary (.file s.fileMode content)) temporary target path) := by
  have hself := FileTree.node?_put_self (FileTree.ne_nil_of_node?_eq_none hfree)
    (.file s.fileMode content) (t := made)
  have hother := FileTree.node?_put_of_ne hne (.file s.fileMode content) (t := made)
  have hgone := FileTree.put_erase hfree (.file s.fileMode content)
  have hmoved := FileTree.put_put_erase hfree hne (.file s.fileMode content) (.file s.fileMode content)
  unfold place
  by_cases hover : s.overwrite = true
  · rw [if_pos hover]
    rcases (made.put temporary (.file s.fileMode content)).rename_cases temporary target with
      ⟨e,he⟩ | ⟨n,hn,hd,hok⟩
    · simp only [he, hgone]
      exact .failed _
    · rw [hself] at hn
      cases hn
      rw [hother] at hd
      simp only [hok, hmoved]
      exact .placed hd (by simp [hover])
  · rw [if_neg hover]
    rcases (made.put temporary (.file s.fileMode content)).link_cases temporary target with
      ⟨e,he⟩ | ⟨n,hn,hd,hok⟩
    · simp only [he, hgone]
      exact .failed _
    · rw [hself] at hn
      cases hn
      rw [hother] at hd
      simp only [hok, hmoved]
      refine .placed ?_ fun _ => hd
      rw [hd]
      exact nofun

end Placing

section Course

variable {s : DirectorySink} {c : Course} {name : FileTree → Location → Bytes} {path content : Bytes}
  {t : FileTree}

theorem resolve_eq_ok_join {target : Bytes} (h : s.resolve t path = .ok target) :
    target = Path.join (t.absolute s.root) path := by
  unfold resolve at h
  simp only at h
  split at h
  · exact (Except.ok.inj h).symm
  · cases h

theorem destination_eq (hp : UnitPath.check path = .ok ()) :
    ∃ root : Location, (∀ n ∈ root ++ Path.components path, Path.IsName n) ∧
      t.absolute s.root = root.path ∧
      Path.join (t.absolute s.root) path = Location.path (root ++ Path.components path) ∧
      s.destination t path = root ++ Path.components path := by
  obtain ⟨root,hr,habs⟩ := t.exists_absolute_eq_path s.root
  obtain ⟨hnames,-⟩ := UnitPath.isName_of_check hp
  have hall : ∀ n ∈ root ++ Path.components path, Path.IsName n := by
    intro n hn
    rcases List.mem_append.mp hn with hn | hn
    · exact hr n hn
    · exact hnames n hn
  have hj : Path.join (t.absolute s.root) path = Location.path (root ++ Path.components path) := by
    rw [habs, Location.join_path_names hr hnames]
  exact ⟨root,hall,habs,hj,by rw [destination, hj, Location.ofPath_path hall]⟩

theorem destination_ne_temporary (hf : FreshNames name) (hp : UnitPath.check path = .ok ())
    (hbase : isTemporaryName (Path.base path) = false)
    (hroot : path = "." → ∀ made l, name made l ≠ Path.base (t.absolute s.root)) (made : FileTree)
    (l : Location) : s.destination t path ≠ (s.destination t path).dropLast ++ [name made l] := by
  obtain ⟨root,hall,habs,-,hdest⟩ := destination_eq (s := s) (t := t) hp
  obtain ⟨hrender,-⟩ := UnitPath.render_components hp
  obtain ⟨-,hdot⟩ := UnitPath.isName_of_check hp
  rw [hdest]
  intro he
  by_cases hpath : path = "."
  · -- The destination is the root of the sink, and has its name.
    rw [hdot.mpr hpath, List.append_nil] at he hall
    have hin : name made l ∈ root := by
      rw [he]
      simp
    refine hroot hpath made l ?_
    rw [habs, he, Location.base_path (hall _ hin)]
  · have hne : Path.components path ≠ [] := fun hnil => hpath (hdot.mp hnil)
    obtain ⟨front,last,hsplit⟩ : ∃ front last, Path.components path = front ++ [last] :=
      ⟨_,_,(List.dropLast_concat_getLast hne).symm⟩
    have hlast : last = name made l := by
      rw [hsplit, ← List.append_assoc] at he
      exact List.singleton_inj.mp (List.append_inj' he rfl).2
    have hb : Path.base path = last := by
      have hn : Path.IsName last := hall last (by simp [hsplit])
      have hj : Path.render false (front ++ [last]) = Bytes.joinWith "/" (front ++ [last]) := by
        rw [Path.render, if_neg (by simp), if_neg (by simp)]
      rw [← hrender, hsplit, hj, Path.base_joinWith front hn]
    rw [hb, hlast, hf.temporary made l] at hbase
    cases hbase

theorem writeThrough_ends (c : Course) (content : Bytes) (hf : FreshNames name)
    (hp : UnitPath.check path = .ok ())
    (hne : ∀ made l, s.destination t path ≠ (s.destination t path).dropLast ++ [name made l]) :
    ∃ new made, FileTree.Adds t new made ∧ (∀ k ∈ new, k <+: (s.destination t path).dropLast) ∧
      Ends s content made (s.destination t path) (s.writeThrough c name path content t) := by
  -- Until its directories are made, a write that fails leaves the tree as it is.
  have hstay (fault : SinkFault) : ∃ new made, FileTree.Adds t new made ∧
      (∀ k ∈ new, k <+: (s.destination t path).dropLast) ∧
      Ends s content made (s.destination t path) (.error fault,t) :=
    ⟨[],t,⟨by simp,nofun⟩,nofun,.failed fault⟩
  unfold writeThrough
  cases Sink.admit c.canceledAtEntry path with
  | error fault => exact hstay fault
  | ok taken =>
    cases hres : s.resolve t path with
    | error fault => exact hstay fault
    | ok target =>
      obtain ⟨root,hall,-,hj,hdest⟩ := destination_eq (s := s) (t := t) hp
      obtain rfl := resolve_eq_ok_join hres
      have hdir : Location.ofPath (Path.dir (Path.join (t.absolute s.root) path)) =
          (s.destination t path).dropLast := by
        rw [hj, Location.ofPath_dir_path hall, hdest]
      have hloc : Location.ofPath (Path.join (t.absolute s.root) path) = s.destination t path := rfl
      obtain ⟨new,hadds,hnew⟩ :=
        FileTree.exists_adds_makeDirectories t [] (s.destination t path).dropLast
      have hway : ∀ k ∈ new, k <+: (s.destination t path).dropLast := by
        intro k hk
        obtain ⟨n,rfl⟩ := hnew k hk
        exact List.take_prefix n _
      simp only [hdir, hloc]
      rcases hmake : t.makeDirectories [] (s.destination t path).dropLast with ⟨e | ⟨⟩,made⟩
      · rw [hmake] at hadds
        exact ⟨new,made,hadds,hway,.failed _⟩
      rw [hmake] at hadds
      refine ⟨new,made,hadds,hway,?_⟩
      have hfree := hf.free made (s.destination t path).dropLast
      cases hw : s.writeTemporary made ((s.destination t path).dropLast ++
          [name made (s.destination t path).dropLast]) content with
      | error e =>
        simp only [hw]
        exact .failed _
      | ok written =>
        -- From here on the temporary file is there, and every way out takes it away.
        obtain rfl := writeTemporary_eq_ok hw
        have hgone := FileTree.put_erase hfree (.file s.fileMode content)
        simp only [hw]
        cases c.unfinished with
        | some fault =>
          simp only [hgone]
          exact .failed _
        | none =>
          cases c.canceledBeforePlacing with
          | true =>
            simp only [if_true, hgone]
            exact .failed _
          | false => exact place_ends hfree (hne _ _)

theorem writeThrough_canceled (hp : UnitPath.check path = .ok ()) (hc : c.canceledAtEntry = true) :
    s.writeThrough c name path content t = (.error .canceled,t) := by
  have hadmit : Sink.admit c.canceledAtEntry path = .error .canceled := by
    unfold Sink.admit
    rw [hp, hc]
    rfl
  simp only [writeThrough, hadmit]

theorem Ends.atomic {new : List Location} {made : FileTree} {result : Except SinkFault Unit × FileTree}
    (hf : FreshNames name) (hne : s.destination t path ≠ s.temporaryOf t path name)
    (hadds : FileTree.Adds t new made) (hway : ∀ k ∈ new, k <+: (s.destination t path).dropLast)
    (h : Ends s content made (s.destination t path) result)
    (hc : c.canceledAtEntry = true → result = (.error .canceled,t)) :
    Atomic s c name path content t result := by
  have hmade (k : Location) : made.node? k = t.node? k ∨
      t.node? k = none ∧ made.node? k = some .directory ∧ k <+: (s.destination t path).dropLast :=
    (hadds.node?_cases k).imp_right fun hk => ⟨hk.1,hk.2.1,hway k hk.2.2⟩
  have hframed (k : Location) : made.node? k = t.node? k ∨
      t.node? k = none ∧ made.node? k = some .directory ∧ k <+: s.destination t path :=
    (hmade k).imp_right fun hk => ⟨hk.1,hk.2.1,hk.2.2.trans (List.dropLast_prefix _)⟩
  -- Neither the temporary file nor the destination is on the way to the destination.
  have hcleared : made.node? (s.temporaryOf t path name) = none := by
    obtain ⟨added,hother,-⟩ :=
      FileTree.exists_adds_makeDirectories t [] (s.destination t path).dropLast
    rcases hmade (s.temporaryOf t path name) with he | ⟨-,-,hp⟩
    · rw [he]
      exact hother.node?_of_made_none (hf.free _ _)
    · have hlen := hp.length_le
      simp only [temporaryOf, List.length_append, List.length_singleton] at hlen
      omega
  have hsame : made.node? (s.destination t path) = t.node? (s.destination t path) := by
    rcases hmade (s.destination t path) with he | ⟨hnone,-,hp⟩
    · exact he
    · have hlen := hp.length_le
      have hpos := List.length_pos_iff.mpr (FileTree.ne_nil_of_node?_eq_none hnone)
      rw [List.length_dropLast] at hlen
      omega
  cases h with
  | failed fault => exact ⟨hcleared,fun k _ => hframed k,.inr ⟨⟨fault,rfl⟩,hsame⟩,nofun,hc⟩
  | placed hd hx =>
    have hnil : s.destination t path ≠ [] := by
      intro hnil
      rw [hnil] at hd
      exact hd rfl
    refine ⟨?_,?_,.inl ⟨rfl,FileTree.node?_put_self hnil _⟩,?_,hc⟩
    · rw [FileTree.node?_put_of_ne (Ne.symm hne)]
      exact hcleared
    · intro k hk
      rw [FileTree.node?_put_of_ne hk]
      exact hframed k
    · intro hover _
      rw [← hsame]
      exact hx hover

/-- A write under a fresh temporary name is all or nothing, wherever it ends. Under the path without
names the unit has the name of the root, and a fresh name is then not that of the root either. -/
theorem writeThrough_atomic (s : DirectorySink) (c : Course) (content : Bytes) (t : FileTree)
    (hf : FreshNames name) (hp : UnitPath.check path = .ok ())
    (hbase : isTemporaryName (Path.base path) = false)
    (hroot : path = "." → ∀ made l, name made l ≠ Path.base (t.absolute s.root)) :
    Atomic s c name path content t (s.writeThrough c name path content t) := by
  have hne := destination_ne_temporary (s := s) (t := t) hf hp hbase hroot
  obtain ⟨new,made,hadds,hway,hends⟩ := writeThrough_ends c content hf hp hne
  exact hends.atomic hf (hne _ _) hadds hway (writeThrough_canceled hp)

end Course

/-- A directory with a unit, and with what another write has left behind. -/
def leftoverTree : FileTree :=
  { nodes := [(["out"],.directory),(["out","b.zig"],.file 0o600 "old"),
      (["out",".way2-0000000000.tmp"],.file 0o600 [])] }

theorem leftoverTree_atomic :
    ((replacing "out").writeThrough {} freshName "b.zig" "new" leftoverTree).1 = .ok () ∧
    Atomic (replacing "out") {} freshName "b.zig" "new" leftoverTree
      ((replacing "out").writeThrough {} freshName "b.zig" "new" leftoverTree) := by
  have hc : UnitPath.check "b.zig" = .ok () := by decide +kernel
  have hpath : ¬ ("b.zig" : Bytes) = "." := by decide
  refine ⟨by decide +kernel,?_⟩
  exact writeThrough_atomic (replacing "out") {} "new" leftoverTree freshNames_freshName hc (by decide)
    fun h => absurd h hpath

end DirectorySink

end WaylandZig
