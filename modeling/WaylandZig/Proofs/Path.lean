import WaylandZig.FileTree.Basic
import WaylandZig.Proofs.Text.Lines

/-! # Paths and the names on them

A cleaned path is made of names, behind as many steps up as it could not take back. An absolute path
has no step up left, so it spells a location, and joining it with a name spells the location of an
entry with that name.
-/
namespace WaylandZig

namespace Bytes

variable {sep : UInt8}

theorem splitOn_append_sep (front rest : Bytes) :
    splitOn sep (front ++ sep :: rest) = splitOn sep front ++ splitOn sep rest := by
  induction front with
  | nil => simp [splitOn]
  | cons b front ih =>
    by_cases hb : b = sep
    · simp only [List.cons_append, splitOn, if_pos hb, ih]
    · obtain ⟨part,parts,hp⟩ := List.exists_cons_of_ne_nil (splitOn_ne_nil sep front)
      simp only [List.cons_append, splitOn, if_neg hb, ih, hp]

theorem beforeLast?_eq_none {text : Bytes} (h : sep ∉ text) : beforeLast? sep text = none := by
  induction text with
  | nil => rfl
  | cons b rest ih =>
    simp only [List.mem_cons, not_or] at h
    simp only [beforeLast?, ih h.2, if_neg (Ne.symm h.1)]

theorem beforeLast?_append {rest : Bytes} (h : sep ∉ rest) (front : Bytes) :
    beforeLast? sep (front ++ sep :: rest) = some front := by
  induction front with
  | nil => simp only [List.nil_append, beforeLast?, beforeLast?_eq_none h, if_true]
  | cons b front ih => simp only [List.cons_append, beforeLast?, ih]

theorem joinWith_append (glue : Bytes) {front back : List Bytes} (hf : front ≠ []) (hb : back ≠ []) :
    joinWith glue (front ++ back) = joinWith glue front ++ glue ++ joinWith glue back := by
  induction front with
  | nil => exact absurd rfl hf
  | cons part front ih =>
    cases front with
    | nil =>
      obtain ⟨first,rest,rfl⟩ := List.exists_cons_of_ne_nil hb
      rfl
    | cons second front =>
      have hr := ih (List.cons_ne_nil second front)
      simp only [List.cons_append, joinWith, List.append_assoc] at hr ⊢
      rw [hr]

theorem joinWith_concat (glue part : Bytes) {parts : List Bytes} (h : parts ≠ []) :
    joinWith glue (parts ++ [part]) = joinWith glue parts ++ glue ++ part :=
  joinWith_append glue h (List.cons_ne_nil part [])

end Bytes

namespace Path

/-- A component that stands for an entry of a directory. -/
structure IsName (c : Bytes) : Prop where
  ne_nil : c ≠ []
  ne_dot : c ≠ "."
  ne_up : c ≠ ".."
  no_slash : Ascii.slash ∉ c

instance (c : Bytes) : Decidable (IsName c) :=
  decidable_of_iff (c ≠ [] ∧ c ≠ "." ∧ c ≠ ".." ∧ Ascii.slash ∉ c)
    ⟨fun h => ⟨h.1,h.2.1,h.2.2.1,h.2.2.2⟩,fun h => ⟨h.ne_nil,h.ne_dot,h.ne_up,h.no_slash⟩⟩

theorem isName_append {ns : List Bytes} {c : Bytes} (hns : ∀ n ∈ ns, IsName n) (hc : IsName c) :
    ∀ n ∈ ns ++ [c], IsName n := by
  intro n hn
  rcases List.mem_append.mp hn with hn | hn
  · exact hns n hn
  · obtain rfl := List.mem_singleton.mp hn
    exact hc

theorem isAbsolute_cons (b : UInt8) (rest : Bytes) : isAbsolute (b :: rest) = (Ascii.slash == b) := by
  change (Ascii.slash == b && List.isPrefixOf [] rest) = (Ascii.slash == b)
  rw [List.isPrefixOf_nil_left, Bool.and_true]

theorem isAbsolute_slash (p : Bytes) : isAbsolute ("/" ++ p) = true :=
  isAbsolute_cons Ascii.slash p

theorem isAbsolute_eq_false {p : Bytes} (h : Ascii.slash ∉ p) : isAbsolute p = false := by
  cases p with
  | nil => rfl
  | cons b rest =>
    simp only [List.mem_cons, not_or] at h
    rw [isAbsolute_cons]
    simpa using h.1

theorem isAbsolute_append {a : Bytes} (ha : a ≠ []) (p : Bytes) :
    isAbsolute (a ++ p) = isAbsolute a := by
  obtain ⟨b,rest,rfl⟩ := List.exists_cons_of_ne_nil ha
  rw [List.cons_append, isAbsolute_cons, isAbsolute_cons]

theorem isAbsolute_render (rooted : Bool) {cs : List Bytes}
    (h : ∀ c ∈ cs, c ≠ [] ∧ c ≠ "." ∧ Ascii.slash ∉ c) : isAbsolute (render rooted cs) = rooted := by
  cases rooted with
  | true => exact isAbsolute_slash _
  | false =>
    cases cs with
    | nil => rfl
    | cons c cs =>
      obtain ⟨hn,-,hs⟩ := h c List.mem_cons_self
      rw [render, if_neg (by simp), if_neg (by simp), ← isAbsolute_eq_false hs]
      cases cs with
      | nil => rfl
      | cons d cs =>
        have hj : Bytes.joinWith "/" (c :: d :: cs) = c ++ ("/" ++ Bytes.joinWith "/" (d :: cs)) :=
          List.append_assoc c _ _
        rw [hj, isAbsolute_append hn]

theorem mem_components {p c : Bytes} (h : c ∈ components p) :
    c ≠ [] ∧ c ≠ "." ∧ Ascii.slash ∉ c := by
  obtain ⟨hm,hc⟩ := List.mem_filter.mp h
  simp only [Bool.and_eq_true, decide_eq_true_eq] at hc
  exact ⟨hc.1,hc.2,Bytes.notMem_of_mem_splitOn hm⟩

theorem components_append (a b : Bytes) :
    components (a ++ "/" ++ b) = components a ++ components b := by
  have hs : a ++ "/" ++ b = a ++ Ascii.slash :: b := by
    rw [List.append_assoc]
    rfl
  rw [hs, components, Bytes.splitOn_append_sep, List.filter_append]
  rfl

theorem components_name {c : Bytes} (hn : c ≠ []) (hd : c ≠ ".") (hs : Ascii.slash ∉ c) :
    components c = [c] := by
  rw [components, Bytes.splitOn_eq_singleton hs]
  simp [hn, hd]

theorem components_joinWith {cs : List Bytes}
    (h : ∀ c ∈ cs, c ≠ [] ∧ c ≠ "." ∧ Ascii.slash ∉ c) : components (Bytes.joinWith "/" cs) = cs := by
  induction cs with
  | nil => rfl
  | cons c cs ih =>
    obtain ⟨hn,hd,hs⟩ := h c List.mem_cons_self
    have hr := ih fun c hc => h c (List.mem_cons_of_mem _ hc)
    cases cs with
    | nil => exact components_name hn hd hs
    | cons d cs =>
      have hj : Bytes.joinWith "/" (c :: d :: cs) = c ++ "/" ++ Bytes.joinWith "/" (d :: cs) := rfl
      rw [hj, components_append, components_name hn hd hs, hr]
      rfl

theorem push_name {rooted : Bool} {c : Bytes} (h : c ≠ "..") (done : List Bytes) :
    push rooted done c = c :: done := by
  unfold push
  rw [if_neg h]

theorem push_up_cons {rooted : Bool} {n : Bytes} (h : n ≠ "..") (done : List Bytes) :
    push rooted (n :: done) ".." = done := by
  unfold push
  rw [if_pos rfl]
  exact if_neg h

theorem foldl_push_names {rooted : Bool} {cs : List Bytes} (h : ∀ c ∈ cs, c ≠ "..") (done : List Bytes) :
    cs.foldl (push rooted) done = cs.reverse ++ done := by
  induction cs generalizing done with
  | nil => rfl
  | cons c cs ih =>
    rw [List.foldl_cons, push_name (h c List.mem_cons_self),
      ih fun c hc => h c (List.mem_cons_of_mem _ hc)]
    simp

theorem reduce_names {rooted : Bool} {cs : List Bytes} (h : ∀ c ∈ cs, c ≠ "..") :
    reduce rooted cs = cs := by
  rw [reduce, foldl_push_names h, List.append_nil, List.reverse_reverse]

/-- What was reduced so far is names behind steps up, in reverse; at the root there are no steps up. -/
structure Reduced (rooted : Bool) (ns : List Bytes) (k : Nat) (done : List Bytes) : Prop where
  eq : done = ns ++ List.replicate k (".." : Bytes)
  names : ∀ n ∈ ns, n ≠ ".."
  rooted : rooted = true → k = 0

theorem Reduced.push {rooted : Bool} {ns : List Bytes} {k : Nat} {done : List Bytes}
    (h : Reduced rooted ns k done) (c : Bytes) :
    ∃ ns' k', Reduced rooted ns' k' (Path.push rooted done c) ∧
      ∀ n ∈ ns', n ∈ ns ∨ n = c := by
  obtain ⟨rfl,hn,hk⟩ := h
  by_cases hc : c = ".."
  · subst hc
    cases ns with
    | cons n ns =>
      refine ⟨ns,k,⟨push_up_cons (hn n List.mem_cons_self) _,?_,hk⟩,?_⟩
      · exact fun m hm => hn m (List.mem_cons_of_mem _ hm)
      · exact fun m hm => .inl (List.mem_cons_of_mem _ hm)
    | nil =>
      -- Nothing is left to take back, so that at the root the step is lost and elsewhere it stays.
      cases rooted with
      | true =>
        obtain rfl := hk rfl
        exact ⟨[],0,⟨rfl,nofun,fun _ => rfl⟩,nofun⟩
      | false =>
        refine ⟨[],k + 1,⟨?_,nofun,nofun⟩,nofun⟩
        cases k with
        | zero => rfl
        | succ k => rfl
  · rw [push_name hc]
    refine ⟨c :: ns,k,⟨rfl,?_,hk⟩,?_⟩
    · intro n hm
      rcases List.mem_cons.mp hm with rfl | hm
      · exact hc
      · exact hn n hm
    · intro n hm
      rcases List.mem_cons.mp hm with rfl | hm
      · exact .inr rfl
      · exact .inl hm

theorem Reduced.foldl {rooted : Bool} {ns : List Bytes} {k : Nat} {done : List Bytes}
    (h : Reduced rooted ns k done) (cs : List Bytes) :
    ∃ ns' k', Reduced rooted ns' k' (cs.foldl (Path.push rooted) done) ∧
      ∀ n ∈ ns', n ∈ ns ∨ n ∈ cs := by
  induction cs generalizing ns k done with
  | nil => exact ⟨ns,k,h,fun _ hn => .inl hn⟩
  | cons c cs ih =>
    obtain ⟨ns₁,k₁,h₁,hm₁⟩ := h.push c
    obtain ⟨ns₂,k₂,h₂,hm₂⟩ := ih h₁
    refine ⟨ns₂,k₂,h₂,?_⟩
    intro n hn
    rcases hm₂ n hn with hn | hn
    · rcases hm₁ n hn with hn | rfl
      · exact .inl hn
      · exact .inr List.mem_cons_self
    · exact .inr (List.mem_cons_of_mem _ hn)

/-- Reduced components are steps up, of which there are none at the root, and then names. -/
theorem exists_reduce_eq (rooted : Bool) {cs : List Bytes}
    (hcs : ∀ c ∈ cs, c ≠ [] ∧ c ≠ "." ∧ Ascii.slash ∉ c) :
    ∃ k ns, reduce rooted cs = List.replicate k (".." : Bytes) ++ ns ∧ (∀ n ∈ ns, IsName n) ∧
      (rooted = true → k = 0) := by
  have h : Reduced rooted [] 0 [] := ⟨rfl,nofun,fun _ => rfl⟩
  obtain ⟨ns,k,⟨he,hup,hk⟩,hm⟩ := h.foldl cs
  refine ⟨k,ns.reverse,?_,?_,hk⟩
  · rw [reduce, he, List.reverse_append, List.reverse_replicate]
  · intro n hn
    have hn := List.mem_reverse.mp hn
    obtain ⟨hnil,hdot,hs⟩ := hcs n ((hm n hn).resolve_left List.not_mem_nil)
    exact ⟨hnil,hdot,hup n hn,hs⟩

theorem reduce_concat (rooted : Bool) (cs : List Bytes) {c : Bytes} (hc : c ≠ "..") :
    reduce rooted (cs ++ [c]) = reduce rooted cs ++ [c] := by
  rw [reduce, reduce, List.foldl_append, List.foldl_cons, List.foldl_nil, push_name hc,
    List.reverse_cons]

/-- An absolute path that is cleaned spells a location. -/
theorem exists_clean_eq_path {p : Bytes} (h : isAbsolute p = true) :
    ∃ l : Location, (∀ c ∈ l, IsName c) ∧ clean p = l.path := by
  obtain ⟨k,ns,he,hn,hk⟩ := exists_reduce_eq true fun c hc => mem_components (p := p) hc
  obtain rfl := hk rfl
  refine ⟨ns,hn,?_⟩
  rw [clean, h, he]
  rfl

theorem clean_eq_path {p : Bytes} (h : isAbsolute p = true) {l : Location} (hl : ∀ c ∈ l, IsName c)
    (hc : components p = l) : clean p = l.path := by
  rw [clean, h, hc, reduce_names fun c hm => (hl c hm).ne_up]
  rfl

/-- Joining with a name gives steps up, then names, and the given one last. -/
theorem exists_join_eq (root : Bytes) {c : Bytes} (hc : IsName c) :
    ∃ rooted k ns, join root c = render rooted (List.replicate k (".." : Bytes) ++ (ns ++ [c])) ∧
      ∀ n ∈ ns, IsName n := by
  have hp (p : Bytes) (cs : List Bytes) (hcs : ∀ c ∈ cs, c ≠ [] ∧ c ≠ "." ∧ Ascii.slash ∉ c)
      (he : components p = cs ++ [c]) : ∃ rooted k ns,
        clean p = render rooted (List.replicate k (".." : Bytes) ++ (ns ++ [c])) ∧
          ∀ n ∈ ns, IsName n := by
    obtain ⟨k,ns,hr,hn,-⟩ := exists_reduce_eq (isAbsolute p) hcs
    refine ⟨isAbsolute p,k,ns,?_,hn⟩
    rw [clean, he, reduce_concat _ _ hc.ne_up, hr, List.append_assoc]
  have hlast := components_name hc.ne_nil hc.ne_dot hc.no_slash
  unfold join
  by_cases hr : root.isEmpty = true
  · rw [if_pos hr, if_neg (by simpa using hc.ne_nil)]
    exact hp c [] (by simp) hlast
  · rw [if_neg hr]
    refine hp _ (components root) (fun c hc => mem_components hc) ?_
    rw [components_append, hlast]

/-- The extension is that of the last component. -/
theorem extension_append (a b : Bytes) : extension (a ++ "/" ++ b) = extension b := by
  have hs : a ++ "/" ++ b = a ++ Ascii.slash :: b := by
    rw [List.append_assoc]
    rfl
  have hl : ((a ++ "/" ++ b).splitOn Ascii.slash).getLast? = (b.splitOn Ascii.slash).getLast? := by
    obtain ⟨part,parts,hp⟩ := List.exists_cons_of_ne_nil (Bytes.splitOn_ne_nil Ascii.slash b)
    rw [hs, Bytes.splitOn_append_sep, hp, List.getLast?_append, List.getLast?_cons, Option.some_or]
  simp only [extension, hl]

theorem extension_joinWith (cs : List Bytes) (c : Bytes) :
    extension (Bytes.joinWith "/" (cs ++ [c])) = extension c := by
  by_cases hcs : cs = []
  · rw [hcs]
    rfl
  · rw [Bytes.joinWith_concat _ _ hcs, extension_append]

theorem extension_join (root : Bytes) {c : Bytes} (hc : IsName c) :
    extension (join root c) = extension c := by
  obtain ⟨rooted,k,ns,he,-⟩ := exists_join_eq root hc
  rw [he, ← List.append_assoc]
  cases rooted with
  | true =>
    have hr := extension_append [] (Bytes.joinWith "/" (List.replicate k (".." : Bytes) ++ ns ++ [c]))
    rw [extension_joinWith] at hr
    exact hr
  | false =>
    rw [render, if_neg (by simp), if_neg (by simp), extension_joinWith]

theorem base_name {c : Bytes} (hc : IsName c) : base c = c := by
  have hne : c.isEmpty = false := by simpa using hc.ne_nil
  have hkeep : [c].filter (· ≠ []) = [c] := List.filter_cons_of_pos (by simpa using hc.ne_nil)
  rw [base, hne, Bytes.splitOn_eq_singleton hc.no_slash, hkeep]
  rfl

/-- The last component of a path that ends with a name. -/
theorem base_append_name (front : Bytes) {c : Bytes} (hc : IsName c) : base (front ++ "/" ++ c) = c := by
  have hs : front ++ "/" ++ c = front ++ Ascii.slash :: c := by
    rw [List.append_assoc]
    rfl
  have hne : (front ++ Ascii.slash :: c).isEmpty = false := by simp
  have hkeep : [c].filter (· ≠ []) = [c] := List.filter_cons_of_pos (by simpa using hc.ne_nil)
  rw [hs, base, hne, Bytes.splitOn_append_sep, Bytes.splitOn_eq_singleton hc.no_slash,
    List.filter_append, hkeep, List.getLast?_append]
  rfl

theorem exists_joinWith_eq (lead : Bytes) (cs : List Bytes) (c : Bytes) :
    ∃ front, lead ++ "/" ++ Bytes.joinWith "/" (cs ++ [c]) = front ++ "/" ++ c := by
  by_cases hcs : cs = []
  · subst hcs
    exact ⟨lead,rfl⟩
  · refine ⟨lead ++ "/" ++ Bytes.joinWith "/" cs,?_⟩
    rw [Bytes.joinWith_concat _ _ hcs]
    simp only [List.append_assoc]

theorem base_joinWith (cs : List Bytes) {c : Bytes} (hc : IsName c) :
    base (Bytes.joinWith "/" (cs ++ [c])) = c := by
  by_cases hcs : cs = []
  · subst hcs
    exact base_name hc
  · rw [Bytes.joinWith_concat _ _ hcs, base_append_name _ hc]

end Path

namespace Location

variable {l : Location} (hl : ∀ c ∈ l, Path.IsName c)

include hl

theorem ofPath_path : ofPath l.path = l := by
  have hj : Path.components (Bytes.joinWith "/" l) = l :=
    Path.components_joinWith fun c hc => ⟨(hl c hc).ne_nil,(hl c hc).ne_dot,(hl c hc).no_slash⟩
  calc
    ofPath l.path = Path.components (([] : Bytes) ++ "/" ++ Bytes.joinWith "/" l) := rfl
    _ = Path.components [] ++ Path.components (Bytes.joinWith "/" l) := Path.components_append _ _
    _ = l := hj

/-- Joining with a path of names leads on from a location by these names. -/
theorem join_path_names {p : Bytes} (hp : ∀ c ∈ Path.components p, Path.IsName c) :
    Path.join l.path p = path (l ++ Path.components p) := by
  have hc : Path.components (l.path ++ "/" ++ p) = l ++ Path.components p := by
    have hl : Path.components l.path = l := ofPath_path hl
    rw [Path.components_append, hl]
  have ha : Path.isAbsolute (l.path ++ "/" ++ p) = true := by
    rw [path, List.append_assoc, List.append_assoc]
    exact Path.isAbsolute_slash _
  refine Path.clean_eq_path ha ?_ hc
  intro c hm
  rcases List.mem_append.mp hm with hm | hm
  · exact hl c hm
  · exact hp c hm

theorem join_path {name : Bytes} (hn : Path.IsName name) : Path.join l.path name = path (l ++ [name]) := by
  have hc := Path.components_name hn.ne_nil hn.ne_dot hn.no_slash
  have hj := join_path_names hl (p := name) (by simpa [hc] using hn)
  rwa [hc] at hj

theorem dir_path {name : Bytes} (hn : Path.IsName name) : Path.dir (path (l ++ [name])) = l.path := by
  -- The slash in front of the name is the first of the path, or it follows the path of the directory.
  have hf : ∃ front, path (l ++ [name]) = front ++ Ascii.slash :: name ∧
      Path.components (front ++ "/") = l ∧ Path.isAbsolute (front ++ "/") = true := by
    by_cases hnil : l = []
    · subst hnil
      exact ⟨[],rfl,rfl,rfl⟩
    · refine ⟨l.path,?_,?_,?_⟩
      · rw [path, path, Bytes.joinWith_concat _ _ hnil]
        simp only [List.append_assoc]
        rfl
      · have hc := Path.components_append l.path []
        rw [List.append_nil] at hc
        rw [hc]
        exact (List.append_nil _).trans (ofPath_path hl)
      · rw [path, List.append_assoc]
        exact Path.isAbsolute_slash _
  obtain ⟨front,he,hc,ha⟩ := hf
  rw [Path.dir, he, Bytes.beforeLast?_append hn.no_slash]
  exact Path.clean_eq_path ha hl hc

omit hl in
theorem base_path {name : Bytes} (hn : Path.IsName name) : Path.base (path (l ++ [name])) = name := by
  obtain ⟨front,hfront⟩ := Path.exists_joinWith_eq [] l name
  have hp : path (l ++ [name]) = front ++ "/" ++ name := hfront
  rw [hp, Path.base_append_name _ hn]

theorem ofPath_dir_path : ofPath (Path.dir l.path) = l.dropLast := by
  by_cases hnil : l = []
  · subst hnil
    rfl
  · have hfront : ∀ c ∈ l.dropLast, Path.IsName c := fun c hc => hl c (List.dropLast_subset l hc)
    have hd := dir_path hfront (hl _ (List.getLast_mem hnil))
    rw [List.dropLast_concat_getLast hnil] at hd
    rw [hd, ofPath_path hfront]

end Location

/-- An absolute path spells a location. -/
theorem FileTree.exists_absolute_eq_path (t : FileTree) (p : Bytes) :
    ∃ l : Location, (∀ c ∈ l, Path.IsName c) ∧ t.absolute p = l.path := by
  unfold FileTree.absolute Path.absolute
  by_cases hp : Path.isAbsolute p = true
  · rw [if_pos hp]
    exact Path.exists_clean_eq_path hp
  · have hj : Path.join t.currentPath p = Path.clean (t.currentPath ++ "/" ++ p) := if_neg nofun
    rw [if_neg hp, hj]
    refine Path.exists_clean_eq_path ?_
    rw [currentPath, Location.path, List.append_assoc, List.append_assoc]
    exact Path.isAbsolute_slash _

end WaylandZig
