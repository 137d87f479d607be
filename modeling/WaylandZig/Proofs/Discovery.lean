import WaylandZig.Discovery
import WaylandZig.Loading
import WaylandZig.Proofs.FileTree.Growth
import WaylandZig.Proofs.Pairing
import WaylandZig.Proofs.Text.Order

/-! # Searching a tree that has grown

What is found under a root are files with an `.xml` extension. A tree that has grown by other files
and by directories has the same documents under every root, and the same is read from them, except
that a directory that is new may let the search run into a name or a path that is too long.
-/
namespace WaylandZig

namespace Discovery

/-- The subtrees of a root that are searched. -/
def subtrees : List Bytes := ["stable","unstable","staging"]

theorem isName_core : Path.IsName coreName := ⟨by decide,by decide,by decide,by decide⟩

theorem isName_subtree {c : Bytes} (h : c ∈ subtrees) : Path.IsName c := by
  simp only [subtrees, List.mem_cons, List.not_mem_nil, or_false] at h
  rcases h with rfl | rfl | rfl <;> exact ⟨by decide,by decide,by decide,by decide⟩

/-- File names that a search neither looks for nor takes for documents. -/
structure Unsearched (own : Bytes → Prop) : Prop where
  document : ∀ c, own c → isXml c = false
  subtree : ∀ c ∈ subtrees, ¬ own c

theorem Unsearched.core {own : Bytes → Prop} (ho : Unsearched own) : ¬ own coreName := by
  intro hc
  have hx := ho.document coreName hc
  revert hx
  decide

/-- A walk of the directory meets a name or a path that is too long: on the way to it, or at some
directory below it. -/
def OverlongBelow (t : FileTree) (directory : Bytes) : Prop :=
  match t.find directory with
  | .error e => e = .nameTooLong
  | .ok (l,_) => ∃ e ∈ t.nodes, l <+: e.1 ∧ l.length < e.1.length ∧ e.2.isDirectory = true ∧
      FileTree.maxPath < (spelled directory l e.1).length

instance (t : FileTree) (directory : Bytes) : Decidable (OverlongBelow t directory) :=
  match h : t.find directory with
  | .error e => decidable_of_iff (e = .nameTooLong) (by rw [OverlongBelow, h])
  | .ok (l,_) => decidable_of_iff (∃ e ∈ t.nodes, l <+: e.1 ∧ l.length < e.1.length ∧
      e.2.isDirectory = true ∧ FileTree.maxPath < (spelled directory l e.1).length)
      (by rw [OverlongBelow, h])

/-- The search of a root meets a name or a path that is too long. -/
def Overlong (t : FileTree) (root : Bytes) : Prop :=
  t.find (Path.join root coreName) = .error .nameTooLong ∨
    ∃ c ∈ subtrees, OverlongBelow t (Path.join root c)

instance (t : FileTree) (root : Bytes) : Decidable (Overlong t root) :=
  inferInstanceAs (Decidable (_ ∨ _))

theorem overlong?_isSome_iff {t : FileTree} {directory : Bytes} {l : Location} {n : FileNode}
    (h : t.find directory = .ok (l,n)) :
    (overlong? t directory l).isSome = true ↔ OverlongBelow t directory := by
  simp only [OverlongBelow, h, overlong?, FileTree.below, List.find?_isSome, List.mem_map,
    List.mem_filter, List.mem_mergeSort, Bool.and_eq_true, List.isPrefixOf_iff_prefix,
    decide_eq_true_eq]
  constructor
  · rintro ⟨p,⟨e,⟨⟨hm,hp,hl⟩,hd⟩,rfl⟩,hlong⟩
    exact ⟨e,hm,hp,hl,hd,hlong⟩
  · rintro ⟨e,hm,hp,hl,hd,hlong⟩
    exact ⟨_,⟨e,⟨⟨hm,hp,hl⟩,hd⟩,rfl⟩,hlong⟩

section Growth

variable {own : Bytes → Prop} {t t' : FileTree}

/-- The second search gives what the first gave, unless it meets something too long. -/
def Agrees {α : Type} (overlong : Prop) (first second : Except FileError α) : Prop :=
  (¬ overlong ∧ second = first) ∨ (overlong ∧ ∃ e, second = .error e ∧ e.errno = .nameTooLong)

theorem Agrees.bind {α β : Type} {p q : Prop} {x x' : Except FileError α} {a : α} (hx : x = .ok a)
    (h : Agrees p x x') {f f' : α → Except FileError β} (hf : Agrees q (f a) (f' a)) :
    Agrees (p ∨ q) (x >>= f) (x' >>= f') := by
  rcases h with ⟨hp,rfl⟩ | ⟨hp,e,rfl,he⟩
  · subst hx
    rcases hf with ⟨hq,heq⟩ | ⟨hq,he⟩
    · exact .inl ⟨not_or.mpr ⟨hp,hq⟩,heq⟩
    · exact .inr ⟨.inr hq,he⟩
  · exact .inr ⟨.inl hp,e,rfl,he⟩

/-- A path that led nowhere is absent again, or too long, or a directory that was made. -/
theorem find_made (hw : t.WellFormed) (hg : FileTree.Grown own t t') {root c : Bytes}
    (hc : Path.IsName c) (ho : ¬ own c) {e : Errno} (h : t.find (Path.join root c) = .error e)
    (he : e = .notFound ∨ e = .notDirectory) :
    (∃ e', t'.find (Path.join root c) = .error e' ∧ (e' = .notFound ∨ e' = .notDirectory)) ∨
    t'.find (Path.join root c) = .error .nameTooLong ∨
    ∃ l, t'.find (Path.join root c) = .ok (l,.directory) ∧ t.node? l = none := by
  obtain ⟨e',he',hcases⟩ | ⟨l,n,hl,hnone⟩ := hg.find_absent hw hc h he
  · rcases hcases with rfl | rfl | rfl
    · exact .inl ⟨_,he',.inl rfl⟩
    · exact .inl ⟨_,he',.inr rfl⟩
    · exact .inr (.inl he')
  · cases n with
    | directory => exact .inr (.inr ⟨l,hl,hnone⟩)
    | file mode content =>
      have hlast := FileTree.getLast?_of_find_join hc hl
      obtain ⟨-,hn⟩ := FileTree.find_eq_ok_iff.mp hl
      obtain ⟨d,hd,hown⟩ := hg.new l mode content hnone hn
      rw [hlast] at hd
      cases hd
      exact absurd hown ho

theorem core?_of_find {root : Bytes} {l : Location} {n : FileNode}
    (h : t.find (Path.join root coreName) = .ok (l,n)) :
    core? t root = .ok (if n.isDirectory then none else some (Path.join root coreName)) := by
  simp only [core?, FileTree.stat, FileTree.failed, h]
  rfl

theorem core?_of_error {root : Bytes} {e : Errno} (h : t.find (Path.join root coreName) = .error e) :
    core? t root = if e = .notFound ∨ e = .notDirectory then .ok none
      else .error ⟨"stat",[Path.join root coreName],e⟩ := by
  simp only [core?, FileTree.stat, FileTree.failed, h, Except.map, Except.mapError, isAbsent]
  cases e <;> rfl

theorem core?_grown (hw : t.WellFormed) (hg : FileTree.Grown own t t') (ho : ¬ own coreName)
    {root : Bytes} {found : Option Bytes} (h : core? t root = .ok found) :
    Agrees (t'.find (Path.join root coreName) = .error .nameTooLong) (core? t root) (core? t' root) := by
  cases hf : t.find (Path.join root coreName) with
  | ok node =>
    obtain ⟨l,n⟩ := node
    obtain ⟨n',hf',hd,-⟩ := hg.find hf
    refine .inl ⟨?_,?_⟩
    · rw [hf']
      exact nofun
    · rw [core?_of_find hf, core?_of_find hf', hd]
  | error e =>
    rw [core?_of_error hf] at h ⊢
    split at h
    case isFalse => cases h
    rename_i he
    rw [if_pos he]
    obtain ⟨e',hf',he'⟩ | hf' | ⟨l,hf',-⟩ := find_made hw hg isName_core ho hf he
    · refine .inl ⟨?_,?_⟩
      · rw [hf']
        rcases he' with rfl | rfl <;> exact nofun
      · rw [core?_of_error hf', if_pos he']
    · exact .inr ⟨hf',_,core?_of_error hf',rfl⟩
    · refine .inl ⟨?_,core?_of_find hf'⟩
      rw [hf']
      exact nofun

/-- The documents below a location, as a walk of the directory spells them. -/
def documentsBelow (t : FileTree) (directory : Bytes) (l : Location) : List Bytes :=
  (((t.below l).filter fun (_,n) => !n.isDirectory).map fun (k,_) => spelled directory l k).filter isXml

/-- An entry of the tree that is a document below a location. -/
def isDocument (directory : Bytes) (l : Location) (e : Location × FileNode) : Bool :=
  (l.isPrefixOf e.1 && e.1.length > l.length) && (!e.2.isDirectory && isXml (spelled directory l e.1))

/-- Up to their order, the documents are the entries of the tree that are documents. -/
theorem documentsBelow_perm (t : FileTree) (directory : Bytes) (l : Location) :
    (documentsBelow t directory l).Perm
      ((t.nodes.filter (isDocument directory l)).map fun e => spelled directory l e.1) := by
  have hp := List.mergeSort_perm (t.nodes.filter fun e => l.isPrefixOf e.1 && e.1.length > l.length)
    fun a b => Location.le a.1 b.1
  have he : (t.nodes.filter (isDocument directory l)).map (fun e => spelled directory l e.1) =
      ((((t.nodes.filter fun e => l.isPrefixOf e.1 && e.1.length > l.length).filter
        fun e => !e.2.isDirectory).map fun e => spelled directory l e.1).filter isXml) := by
    rw [List.filter_map, List.filter_filter, List.filter_filter]
    congr 2
    funext e
    simp only [isDocument, Function.comp_apply]
    cases l.isPrefixOf e.1 <;> cases decide (e.1.length > l.length) <;> cases e.2.isDirectory <;>
      cases isXml (spelled directory l e.1) <;> rfl
  rw [he]
  exact ((hp.filter _).map _).filter _

theorem sort_documentsBelow_eq {directory : Bytes} {l : Location}
    (h : t'.nodes.filter (isDocument directory l) = t.nodes.filter (isDocument directory l)) :
    Bytes.sort (documentsBelow t' directory l) = Bytes.sort (documentsBelow t directory l) := by
  refine Bytes.sort_eq_of_perm ((documentsBelow_perm t' directory l).trans ?_)
  rw [h]
  exact (documentsBelow_perm t directory l).symm

theorem isDocument_own (ho : Unsearched own) (directory : Bytes) (l k : Location) (n : FileNode)
    {c : Bytes} (hc : own c) : isDocument directory l (k ++ [c],n) = false := by
  by_cases hlen : (k ++ [c]).length > l.length
  · rw [List.length_append, List.length_singleton] at hlen
    have hx : isXml (spelled directory l (k ++ [c])) = false := by
      rw [spelled, List.drop_append_of_le_length (by omega), isXml, Path.extension_append,
        Path.extension_joinWith]
      exact ho.document c hc
    simp [isDocument, hx]
  · have hshort : decide ((k ++ [c]).length > l.length) = false := decide_eq_false hlen
    rw [isDocument, hshort, Bool.and_false, Bool.false_and]

theorem filter_isDocument_grown (hg : FileTree.Grown own t t') (ho : Unsearched own)
    (directory : Bytes) (l : Location) :
    t'.nodes.filter (isDocument directory l) = t.nodes.filter (isDocument directory l) :=
  hg.entries _ (fun k => by simp [isDocument, FileNode.isDirectory])
    fun k n _ hc => isDocument_own ho directory l k n hc

theorem xmlBelow_of_find {directory : Bytes} {l : Location} {n : FileNode}
    (h : t.find directory = .ok (l,n)) : xmlBelow t directory =
      match overlong? t directory l with
      | some p => .error ⟨"open",[p],.nameTooLong⟩
      | none => .ok (Bytes.sort (documentsBelow t directory l)) := by
  simp only [xmlBelow, FileTree.failed, h]
  rfl

theorem xmlBelow_of_error {directory : Bytes} {e : Errno} (h : t.find directory = .error e) :
    xmlBelow t directory = if e = .notFound ∨ e = .notDirectory then .ok []
      else .error ⟨"lstat",[directory],e⟩ := by
  simp only [xmlBelow, FileTree.failed, h, Except.mapError, isAbsent]
  cases e <;> rfl

/-- A walk of a directory that is there gives its documents, unless it meets something too long. -/
theorem xmlBelow_agrees {directory : Bytes} {l : Location} {n : FileNode}
    (h : t'.find directory = .ok (l,n)) {found : List Bytes}
    (hfound : Bytes.sort (documentsBelow t' directory l) = found) :
    Agrees (OverlongBelow t' directory) (.ok found) (xmlBelow t' directory) := by
  have hlong := overlong?_isSome_iff h
  rw [xmlBelow_of_find h]
  cases ho : overlong? t' directory l with
  | some p => exact .inr ⟨hlong.mp (by rw [ho]; rfl),_,rfl,rfl⟩
  | none =>
    refine .inl ⟨?_,by rw [← hfound]⟩
    rw [← hlong, ho]
    exact nofun

theorem xmlBelow_grown (hw : t.WellFormed) (hg : FileTree.Grown own t t') (ho : Unsearched own)
    {root c : Bytes} (hc : c ∈ subtrees) {found : List Bytes}
    (h : xmlBelow t (Path.join root c) = .ok found) :
    Agrees (OverlongBelow t' (Path.join root c)) (xmlBelow t (Path.join root c))
      (xmlBelow t' (Path.join root c)) := by
  have hdocuments := filter_isDocument_grown hg ho (Path.join root c)
  rw [h]
  cases hf : t.find (Path.join root c) with
  | ok node =>
    obtain ⟨l,n⟩ := node
    obtain ⟨n',hf',-⟩ := hg.find hf
    refine xmlBelow_agrees hf' ?_
    rw [sort_documentsBelow_eq (hdocuments l)]
    rw [xmlBelow_of_find hf] at h
    split at h
    · cases h
    · exact Except.ok.inj h
  | error e =>
    rw [xmlBelow_of_error hf] at h
    split at h
    case isFalse => cases h
    rename_i he
    cases h
    obtain ⟨e',hf',he'⟩ | hf' | ⟨l,hf',hnone⟩ :=
      find_made hw hg (isName_subtree hc) (ho.subtree c hc) hf he
    · refine .inl ⟨?_,by rw [xmlBelow_of_error hf', if_pos he']⟩
      rw [OverlongBelow, hf']
      rcases he' with rfl | rfl <;> exact nofun
    · exact .inr ⟨by rw [OverlongBelow, hf'],_,xmlBelow_of_error hf',rfl⟩
    · -- The directory was made, so nothing in the first tree stands below it.
      refine xmlBelow_agrees hf' ?_
      have hnil : t.nodes.filter (isDocument (Path.join root c) l) = [] := by
        rw [List.filter_eq_nil_iff]
        intro entry hentry hd
        simp only [isDocument, Bool.and_eq_true, List.isPrefixOf_iff_prefix, decide_eq_true_eq] at hd
        rw [hw.node?_of_isPrefix hentry hd.1.1 hd.1.2] at hnone
        cases hnone
      have hp := documentsBelow_perm t' (Path.join root c) l
      rw [hdocuments l, hnil, List.map_nil, List.perm_nil] at hp
      rw [hp, Bytes.sort, List.mergeSort_nil]

theorem inRoot_grown (hw : t.WellFormed) (hg : FileTree.Grown own t t') (ho : Unsearched own)
    {root : Bytes} {found : List FoundDocument} (h : inRoot t root = .ok found) :
    Agrees (Overlong t' root) (inRoot t root) (inRoot t' root) := by
  unfold inRoot at h
  obtain ⟨core,hcore,h⟩ := Except.bind_eq_ok_iff.mp h
  obtain ⟨stable,hstable,h⟩ := Except.bind_eq_ok_iff.mp h
  obtain ⟨unstable,hunstable,h⟩ := Except.bind_eq_ok_iff.mp h
  obtain ⟨staging,hstaging,-⟩ := Except.bind_eq_ok_iff.mp h
  have hover : Overlong t' root ↔ t'.find (Path.join root coreName) = .error .nameTooLong ∨
      OverlongBelow t' (Path.join root "stable") ∨ OverlongBelow t' (Path.join root "unstable") ∨
        OverlongBelow t' (Path.join root "staging") ∨ False := by
    simp [Overlong, subtrees]
  rw [hover]
  refine (core?_grown hw hg ho.core hcore).bind hcore ?_
  refine (xmlBelow_grown hw hg ho (by simp [subtrees]) hstable).bind hstable ?_
  refine (xmlBelow_grown hw hg ho (by simp [subtrees]) hunstable).bind hunstable ?_
  refine (xmlBelow_grown hw hg ho (by simp [subtrees]) hstaging).bind hstaging ?_
  exact .inl ⟨not_false,rfl⟩

theorem firstOfEach_congr (h : t'.current = t.current) (seen : List Bytes) (found : List FoundDocument) :
    firstOfEach t' seen found = firstOfEach t seen found := by
  induction found generalizing seen with
  | nil => rfl
  | cons d rest ih => simp only [firstOfEach, FileTree.absolute_congr h, ih]

theorem mapM_inRoot_grown (hw : t.WellFormed) (hg : FileTree.Grown own t t') (ho : Unsearched own)
    {roots : List Bytes} {found : List (List FoundDocument)} (h : roots.mapM (inRoot t) = .ok found) :
    Agrees (∃ root ∈ roots, Overlong t' root) (roots.mapM (inRoot t)) (roots.mapM (inRoot t')) := by
  induction roots generalizing found with
  | nil => exact .inl ⟨by simp,rfl⟩
  | cons root roots ih =>
    rw [List.mapM_cons] at h
    obtain ⟨first,hfirst,h⟩ := Except.bind_eq_ok_iff.mp h
    obtain ⟨rest,hrest,-⟩ := Except.bind_eq_ok_iff.mp h
    have hover : (∃ r ∈ root :: roots, Overlong t' r) ↔
        Overlong t' root ∨ (∃ r ∈ roots, Overlong t' r) ∨ False := by
      simp
    rw [hover, List.mapM_cons, List.mapM_cons]
    refine (inRoot_grown hw hg ho hfirst).bind hfirst ?_
    refine (ih hrest).bind hrest ?_
    exact .inl ⟨not_false,rfl⟩

/-- A search of the tree that has grown finds the same documents, unless it meets something too long. -/
theorem find_grown (hw : t.WellFormed) (hg : FileTree.Grown own t t') (ho : Unsearched own)
    {roots : List Bytes} {found : List FoundDocument} (h : find t roots = .ok found) :
    Agrees (∃ root ∈ roots, Overlong t' root) (find t roots) (find t' roots) := by
  unfold find at h ⊢
  obtain ⟨parts,hparts,-⟩ := Except.bind_eq_ok_iff.mp h
  have hover : (∃ root ∈ roots, Overlong t' root) ↔ (∃ root ∈ roots, Overlong t' root) ∨ False := by
    simp
  rw [hover]
  refine (mapM_inRoot_grown hw hg ho hparts).bind hparts (.inl ⟨not_false,?_⟩)
  simp only [firstOfEach_congr hg.current]

end Growth

section Found

variable {t : FileTree}

theorem isXml_of_xmlBelow {directory : Bytes} {found : List Bytes} (h : xmlBelow t directory = .ok found) :
    ∀ p ∈ found, isXml p = true := by
  intro p hp
  cases hf : t.find directory with
  | error e =>
    rw [xmlBelow_of_error hf] at h
    split at h
    · cases h
      cases hp
    · cases h
  | ok node =>
    obtain ⟨l,n⟩ := node
    rw [xmlBelow_of_find hf] at h
    split at h
    · cases h
    · cases h
      rw [Bytes.sort, List.mem_mergeSort] at hp
      exact (List.mem_filter.mp hp).2

theorem isXml_of_core? {root p : Bytes} (h : core? t root = .ok (some p)) : isXml p = true := by
  have hp : p = Path.join root coreName := by
    cases hf : t.find (Path.join root coreName) with
    | error e =>
      rw [core?_of_error hf] at h
      split at h
      · cases h
      · cases h
    | ok node =>
      obtain ⟨l,n⟩ := node
      rw [core?_of_find hf] at h
      split at h
      · cases h
      · cases h
        rfl
  rw [hp, isXml, Path.extension_join root isName_core]
  decide

theorem isXml_of_inRoot {root : Bytes} {found : List FoundDocument} (h : inRoot t root = .ok found) :
    ∀ d ∈ found, isXml d.path = true := by
  unfold inRoot at h
  obtain ⟨core,hcore,h⟩ := Except.bind_eq_ok_iff.mp h
  obtain ⟨stable,hstable,h⟩ := Except.bind_eq_ok_iff.mp h
  obtain ⟨unstable,hunstable,h⟩ := Except.bind_eq_ok_iff.mp h
  obtain ⟨staging,hstaging,h⟩ := Except.bind_eq_ok_iff.mp h
  have hmap (category : Category) (paths : List Bytes) (hp : ∀ p ∈ paths, isXml p = true) :
      ∀ d ∈ paths.map (fun p => (⟨p,root,category⟩ : FoundDocument)), isXml d.path = true := by
    intro d hd
    obtain ⟨p,hpath,rfl⟩ := List.mem_map.mp hd
    exact hp p hpath
  have hc : ∀ p ∈ core.toList, isXml p = true := by
    intro p hp
    rw [Option.mem_toList.mp hp] at hcore
    exact isXml_of_core? hcore
  cases h
  simp only [List.mem_append]
  rintro d (((hd | hd) | hd) | hd)
  · exact hmap .core _ hc d hd
  · exact hmap .stable _ (isXml_of_xmlBelow hstable) d hd
  · refine hmap .unstable _ ?_ d hd
    exact fun p hp => isXml_of_xmlBelow hunstable p (List.mem_filter.mp hp).1
  · exact hmap .staging _ (isXml_of_xmlBelow hstaging) d hd

theorem firstOfEach_sublist (seen : List Bytes) (found : List FoundDocument) :
    (firstOfEach t seen found).Sublist found := by
  induction found generalizing seen with
  | nil => exact List.nil_sublist []
  | cons d rest ih =>
    rw [firstOfEach]
    split
    · exact (ih _).cons d
    · exact (ih _).cons_cons d

/-- Whatever a search finds has the extension of a document. -/
theorem isXml_of_find {roots : List Bytes} {found : List FoundDocument} (h : find t roots = .ok found) :
    ∀ d ∈ found, isXml d.path = true := by
  obtain ⟨parts,hparts,h⟩ := Except.bind_eq_ok_iff.mp h
  cases h
  intro d hd
  obtain ⟨part,hpart,hd⟩ := List.mem_flatten.mp ((firstOfEach_sublist _ _).subset hd)
  obtain ⟨root,-,hroot⟩ := (Except.mapM_eq_ok_iff.mp hparts).exists_of_mem_right hpart
  exact isXml_of_inRoot hroot d hd

/-- The last name on the path of a document is that of a document. -/
theorem exists_names_of_isXml {p : Bytes} (h : isXml p = true) :
    ∃ (cs : List Bytes) (c : Bytes), FileTree.names p = cs ++ [c] ∧ c ≠ "." ∧ c ≠ ".." ∧ isXml c = true := by
  obtain ⟨cs,c,hsplit⟩ : ∃ cs c, p.splitOn Ascii.slash = cs ++ [c] :=
    (List.eq_nil_or_concat' _).resolve_left (Bytes.splitOn_ne_nil _ _)
  have hc : isXml c = true := by
    have hslash : Ascii.slash ∉ c := Bytes.notMem_of_mem_splitOn (by rw [hsplit]; simp)
    have he : Path.extension c = Path.extension p := by
      simp only [Path.extension, hsplit, Bytes.splitOn_eq_singleton hslash, List.getLast?_append,
        List.getLast?_singleton, Option.some_or]
    rwa [isXml, he]
  have hne (d : Bytes) (hd : isXml d = false) : c ≠ d := by
    rintro rfl
    rw [hc] at hd
    cases hd
  have hend : ¬ p.endsWith "/" = true := by
    intro hs
    obtain ⟨front,rfl⟩ := List.isSuffixOf_iff_suffix.mp hs
    have hlast : Bytes.splitOn Ascii.slash (front ++ "/") = Bytes.splitOn Ascii.slash front ++ [[]] :=
      Bytes.splitOn_append_sep front []
    rw [hlast] at hsplit
    exact hne [] (by decide) (List.append_singleton_inj.mp hsplit).2.symm
  refine ⟨cs.filter (· ≠ []),c,?_,hne _ (by decide),hne _ (by decide),hc⟩
  rw [FileTree.names, if_neg hend, hsplit, List.filter_append]
  simp [hne [] (by decide)]

end Found

end Discovery

namespace Loading

section Growth

open Discovery

variable {own : Bytes → Prop} {t t' : FileTree} {policy : MismatchPolicy} {skip : List Bytes}

/-- A document that was there is still there. -/
theorem find_document (hg : FileTree.Grown own t t') (ho : Unsearched own) {p : Bytes}
    (hp : isXml p = true) {l : Location} {n : FileNode} (h : t.find p = .ok (l,n)) :
    t'.find p = .ok (l,n) := by
  obtain ⟨cs,c,hnames,hd,hu,hc⟩ := exists_names_of_isXml hp
  obtain ⟨hl,-⟩ := FileTree.find_eq_ok_iff.mp h
  obtain ⟨-,hf⟩ := FileTree.locate_eq_ok_iff.mp hl
  rw [hnames] at hf
  have hlast := FileTree.getLast?_of_follow hd hu hf
  obtain ⟨n',hf',-,hsame⟩ := hg.find h
  have hn : n' = n := by
    refine hsame ?_
    intro d hd hown
    rw [hlast] at hd
    cases hd
    rw [ho.document c hown] at hc
    cases hc
  rwa [hn] at hf'

theorem loadFile_grown (hg : FileTree.Grown own t t') (ho : Unsearched own) {p : Bytes}
    (hp : isXml p = true) {one : Loaded} (h : loadFile t policy skip p = .ok one) :
    loadFile t' policy skip p = .ok one := by
  have hread : readDocument t' p = readDocument t p := by
    cases hf : t.find p with
    | error e =>
      have hr : readDocument t p = .error (.unopened (FileError.text ⟨"open",[p],e⟩)) := by
        simp only [readDocument, FileTree.openForReading, FileTree.findReadable, hf]
        rfl
      simp [loadFile, hr, Schema.ReadFault.isNotProtocol] at h
    | ok node =>
      have hf' := find_document hg ho hp hf
      simp only [readDocument, FileTree.openForReading, FileTree.findReadable, hf, hf']
  rw [loadFile, hread]
  exact h

theorem loadFiles_grown (hg : FileTree.Grown own t t') (ho : Unsearched own) {canceled : Bool}
    {paths : List Bytes} (hp : ∀ p ∈ paths, isXml p = true) {parts : List Loaded}
    (h : (loadFiles t canceled policy skip paths).1 = .ok parts) :
    loadFiles t' canceled policy skip paths = loadFiles t canceled policy skip paths := by
  induction paths generalizing parts with
  | nil => rfl
  | cons p rest ih =>
    simp only [loadFiles] at h ⊢
    cases hcancel : canceled with
    | true => rfl
    | false =>
      rw [hcancel] at h ih
      cases hone : loadFile t policy skip p with
      | error fault => simp [hone] at h
      | ok one =>
        simp only [hone, Bool.false_eq_true, if_false] at h
        obtain ⟨more,hmore,-⟩ := Except.map_eq_ok_iff.mp h
        rw [loadFile_grown hg ho (hp p List.mem_cons_self) hone,
          ih (fun q hq => hp q (List.mem_cons_of_mem _ hq)) hmore]

/-- What was loaded is loaded again from the tree that has grown. -/
theorem load_grown (hg : FileTree.Grown own t t') (ho : Unsearched own) {canceled : Bool}
    {paths : List Bytes} (hp : ∀ p ∈ paths, isXml p = true) {s : Schema.DocumentSet}
    (h : (load t canceled policy skip paths).1 = .ok s) :
    load t' canceled policy skip paths = load t canceled policy skip paths := by
  obtain ⟨parts,hparts,-⟩ := Except.map_eq_ok_iff.mp h
  rw [load, load, loadFiles_grown hg ho hp hparts]

end Growth

end Loading

end WaylandZig
