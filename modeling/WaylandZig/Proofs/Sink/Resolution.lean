import WaylandZig.Proofs.Sink.Containment

/-! # Where the paths that are taken lead

From the root of a sink a path that is taken leads on by its names, so the target is the root with a
slash and the path behind it. Only at the root of the tree, whose own path ends with a slash, there is
no second one, and the check that the target stays inside fails.
-/
namespace WaylandZig

namespace Location

variable {root names : Location}

/-- Names lead on from any location but the root of the tree behind a slash of their own. -/
theorem path_append (hr : root ≠ []) (hn : names ≠ []) :
    path (root ++ names) = root.path ++ "/" ++ Bytes.joinWith "/" names := by
  rw [path, path, Bytes.joinWith_append _ hr hn]
  simp only [List.append_assoc]

/-- No location is spelled with two slashes in front. -/
theorem not_startsWith_slashes (hn : ∀ c ∈ names, Path.IsName c) :
    (path names).startsWith ("/" ++ "/") = false := by
  have ha := Path.isAbsolute_joinWith hn
  rw [Path.isAbsolute] at ha
  exact ha

end Location

namespace DirectorySink

variable {s : DirectorySink} {t : FileTree} {path : Bytes} {root : Location}

/-- The target of a path that is taken stays inside the root, unless that is the root of the tree. -/
theorem resolve_eq (hr : t.absolute s.root = root.path) (hroot : ∀ c ∈ root, Path.IsName c)
    (h : UnitPath.check path = .ok ()) (hp : path ≠ ".") :
    s.resolve t path = if root = [] then .error (.outsideRoot path)
      else .ok (Location.path (root ++ Path.components path)) := by
  obtain ⟨hne,-⟩ := UnitPath.joinWith_components h hp
  have hnames := (UnitPath.isName_of_check h).1
  simp only [resolve, hr, Location.join_path_names hroot hnames]
  by_cases hnil : root = []
  · subst hnil
    rw [if_pos rfl, if_neg]
    rintro (he | hs)
    · exact hne ((Location.path_eq_root_iff hnames).mp he)
    · have hf := Location.not_startsWith_slashes hnames
      exact Bool.false_ne_true (hf.symm.trans hs)
  · rw [if_neg hnil, if_pos]
    refine .inr ?_
    rw [Location.path_append hnil hne, Bytes.startsWith, List.isPrefixOf_iff_prefix]
    exact List.prefix_append _ _

/-- A path with names leads from the absolute root of a sink on by these names, and its target is that
root with a slash and the path behind it, exactly if the root is not that of the tree. -/
theorem resolve_appends_names (s : DirectorySink) (t : FileTree) (path : Bytes)
    (h : UnitPath.check path = .ok ()) (hp : path ≠ ".") :
    ∃ root : Location, (∀ c ∈ root, Path.IsName c) ∧ t.absolute s.root = root.path ∧
      (t.absolute s.root = "/" → s.resolve t path = .error (.outsideRoot path)) ∧
      (t.absolute s.root ≠ "/" →
        s.resolve t path = .ok (Location.path (root ++ Path.components path)) ∧
        Location.path (root ++ Path.components path) = t.absolute s.root ++ "/" ++ path) := by
  obtain ⟨root,hroot,hr⟩ := t.exists_absolute_eq_path s.root
  obtain ⟨hne,hj⟩ := UnitPath.joinWith_components h hp
  have hres := resolve_eq hr hroot h hp
  refine ⟨root,hroot,hr,?_,?_⟩
  · rw [hr, Location.path_eq_root_iff hroot]
    rintro rfl
    exact hres
  · rw [hr, ne_eq, Location.path_eq_root_iff hroot]
    intro hnil
    rw [hres, if_neg hnil, Location.path_append hnil hne, hj]
    exact ⟨rfl,rfl⟩

theorem parentRoot_appends_names :
    UnitPath.check "a/b.zig" = .ok () ∧ ("a/b.zig" : Bytes) ≠ "." ∧
    (replacing "../out/").resolve { current := ["home","user"] } "a/b.zig" =
      .ok "/home/out/a/b.zig" := by
  have hc : UnitPath.check "a/b.zig" = .ok () := by decide +kernel
  have hp : ("a/b.zig" : Bytes) ≠ "." := by decide +kernel
  obtain ⟨root,-,-,-,hres⟩ :=
    resolve_appends_names (replacing "../out/") { current := ["home","user"] } "a/b.zig" hc hp
  have habs : ({ current := ["home","user"] } : FileTree).absolute (replacing "../out/").root ≠ "/" := by
    decide +kernel
  obtain ⟨hok,hpath⟩ := hres habs
  refine ⟨hc,hp,?_⟩
  rw [hok, hpath]
  decide +kernel

/-- Below the root of the tree a unit is refused, although it does not leave the root. -/
theorem treeRoot_refuses_unit :
    UnitPath.check "x" = .ok () ∧ ("x" : Bytes) ≠ "." ∧
    (replacing "/").resolve {} "x" = .error (.outsideRoot "x") ∧
    Location.Below (Location.ofPath (({} : FileTree).absolute "/")) ["x"] := by
  decide +kernel

end DirectorySink

end WaylandZig
