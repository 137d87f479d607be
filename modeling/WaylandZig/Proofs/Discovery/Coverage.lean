import Mathlib.Data.List.Basic
import WaylandZig.Proofs.Discovery
import WaylandZig.Proofs.FileTree.Spot
import WaylandZig.Proofs.Search

/-! # What a search finds

A root yields the files that stand where a root keeps its documents, said of locations and without a
word about the search. A search reports what its roots yield: each location once, for the first root
that yields it, and in the order of the roots, the categories and the paths. A root that is searched
last adds what no root before it yields, which carries all of this from one root to many.
-/
namespace WaylandZig

namespace Discovery

/-- A file with the extension of a document, at any depth below a directory. -/
structure DocumentBelow (t : FileTree) (directory : Bytes) (k : Location) : Prop where
  file : ∃ mode content, t.node? k = some (.file mode content)
  below : t.spot directory <+: k
  ne : t.spot directory ≠ k
  document : isXml k.path = true

def report (t : FileTree) (root directory : Bytes) (c : Category) (k : Location) : FoundDocument :=
  ⟨spelled directory (t.spot directory) k,root,c⟩

/-- The documents that a root yields, each with the location it stands at. -/
inductive Yields (t : FileTree) (root : Bytes) : FoundDocument → Location → Prop
  | core {k : Location} {mode : Nat} {content : Bytes} (hk : t.spot (Path.join root coreName) = k)
      (h : t.node? k = some (.file mode content)) : Yields t root ⟨Path.join root coreName,root,.core⟩ k
  | stable {k : Location} (h : DocumentBelow t (Path.join root "stable") k) :
      Yields t root (report t root (Path.join root "stable") .stable k) k
  | unstable {k : Location} (h : DocumentBelow t (Path.join root "unstable") k)
      (hs : ∀ j, DocumentBelow t (Path.join root "stable") j → stem j.path ≠ stem k.path) :
      Yields t root (report t root (Path.join root "unstable") .unstable k) k
  | staging {k : Location} (h : DocumentBelow t (Path.join root "staging") k) :
      Yields t root (report t root (Path.join root "staging") .staging k) k

section Spelling

variable {t : FileTree} {directory : Bytes} {l k : Location}

/-- A document is known by its last name, however the path to it is spelled. -/
theorem spelled_last (hk : ∀ c ∈ k, Path.IsName c) (hp : l <+: k) (hne : l ≠ k) :
    isXml (spelled directory l k) = isXml k.path ∧ stem (spelled directory l k) = stem k.path := by
  obtain ⟨rest,rfl⟩ := hp
  have hrest : rest ≠ [] := by
    rintro rfl
    exact hne (List.append_nil l).symm
  obtain ⟨cs,c,rfl⟩ := (List.eq_nil_or_concat' rest).resolve_left hrest
  have hc : Path.IsName c := hk c (by simp)
  obtain ⟨front,hfront⟩ := Path.exists_joinWith_eq directory cs c
  obtain ⟨lead,hlead⟩ := Path.exists_joinWith_eq [] (l ++ cs) c
  have hspelled : spelled directory l (l ++ (cs ++ [c])) = front ++ "/" ++ c := by
    rw [spelled, List.drop_left, hfront]
  have hpath : Location.path (l ++ (cs ++ [c])) = lead ++ "/" ++ c := by
    rw [← hlead, ← List.append_assoc]
    rfl
  simp only [hspelled, hpath, isXml, stem, Path.extension_append, Path.base_append_name _ hc, and_self]

theorem absolute_spelled (hs : t.Sound) (hd : directory ≠ []) (hk : ∀ c ∈ k, Path.IsName c)
    (hp : t.spot directory <+: k) : t.absolute (spelled directory (t.spot directory) k) = k.path := by
  obtain ⟨rest,rfl⟩ := hp
  have hrest (c : Bytes) (hc : c ∈ rest) : Path.IsName c := hk c (List.mem_append_right _ hc)
  have hcomp : Path.components (Bytes.joinWith "/" rest) = rest :=
    Path.components_joinWith fun c hc => ⟨(hrest c hc).ne_nil,(hrest c hc).ne_dot,(hrest c hc).no_slash⟩
  rw [← t.path_spot, spelled, List.drop_left, hs.spot_append hd, hcomp,
    Location.foldl_step_names fun c hc => (hrest c hc).ne_up]

end Spelling

section Root

variable {t : FileTree} {root : Bytes}

theorem mem_core?_iff (hs : t.Sound) {found : Option Bytes} (h : core? t root = .ok found) (p : Bytes) :
    p ∈ found.toList ↔ p = Path.join root coreName ∧
      ∃ mode content, t.node? (t.spot (Path.join root coreName)) = some (.file mode content) := by
  cases hf : t.find (Path.join root coreName) with
  | error e =>
    rw [core?_of_error hf] at h
    split at h
    case isFalse => cases h
    rename_i he
    cases h
    refine ⟨nofun,?_⟩
    rintro ⟨-,mode,content,hn⟩
    exact absurd (List.prefix_refl _) (hs.not_isPrefix_of_absent isName_core hf he hn)
  | ok node =>
    obtain ⟨l,n⟩ := node
    have hl := hs.eq_spot hf
    obtain ⟨-,hn⟩ := FileTree.find_eq_ok_iff.mp hf
    rw [core?_of_find hf] at h
    cases h
    rw [← hl, hn]
    cases n with
    | directory => simp [FileNode.isDirectory]
    | file mode content => simp [FileNode.isDirectory]

theorem isDocument_iff (hs : t.Sound) {directory : Bytes} {k : Location} {n : FileNode}
    (hk : (k,n) ∈ t.nodes) :
    isDocument directory (t.spot directory) (k,n) = true ↔ DocumentBelow t directory k := by
  simp only [isDocument, Bool.and_eq_true, List.isPrefixOf_iff_prefix, decide_eq_true_eq]
  constructor
  · rintro ⟨⟨hp,hlen⟩,hfile,hx⟩
    have hne : t.spot directory ≠ k := by
      rintro rfl
      exact absurd hlen (Nat.lt_irrefl _)
    have hnil : k ≠ [] := by
      rintro rfl
      exact absurd hlen (Nat.not_lt_zero _)
    have hn := (hs.node?_eq_some_iff hnil).mpr hk
    cases n with
    | directory => cases hfile
    | file mode content =>
      rw [(spelled_last (hs.named _ hk) hp hne).1] at hx
      exact ⟨⟨mode,content,hn⟩,hp,hne,hx⟩
  · rintro ⟨⟨mode,content,hn⟩,hp,hne,hx⟩
    have hlen : (t.spot directory).length < k.length := by
      refine Nat.lt_of_le_of_ne hp.length_le ?_
      exact fun hlen => hne (hp.eq_of_length hlen)
    have hnil : k ≠ [] := by
      rintro rfl
      exact absurd hlen (Nat.not_lt_zero _)
    have hsame := (hs.node?_eq_some_iff hnil).mpr hk
    rw [hsame] at hn
    cases hn
    refine ⟨⟨hp,hlen⟩,rfl,?_⟩
    rw [(spelled_last (hs.named _ hk) hp hne).1]
    exact hx

theorem mem_xmlBelow_iff (hs : t.Sound) {c : Bytes} (hc : c ∈ subtrees) {paths : List Bytes}
    (h : xmlBelow t (Path.join root c) = .ok paths) (p : Bytes) :
    p ∈ paths ↔ ∃ k, DocumentBelow t (Path.join root c) k ∧
      spelled (Path.join root c) (t.spot (Path.join root c)) k = p := by
  cases hf : t.find (Path.join root c) with
  | error e =>
    -- What is absent has nothing below it, so that the walk has missed nothing.
    rw [xmlBelow_of_error hf] at h
    split at h
    case isFalse => cases h
    rename_i he
    cases h
    refine ⟨nofun,?_⟩
    rintro ⟨k,⟨⟨mode,content,hn⟩,hp,-,-⟩,-⟩
    exact absurd hp (hs.not_isPrefix_of_absent (isName_subtree hc) hf he hn)
  | ok node =>
    obtain ⟨l,n⟩ := node
    have hl := hs.eq_spot hf
    subst hl
    rw [xmlBelow_of_find hf] at h
    split at h
    · cases h
    cases h
    rw [Bytes.sort, List.mem_mergeSort, (documentsBelow_perm t _ _).mem_iff, List.mem_map]
    constructor
    · rintro ⟨⟨k,m⟩,he,hp⟩
      obtain ⟨hm,hd⟩ := List.mem_filter.mp he
      exact ⟨k,(isDocument_iff hs hm).mp hd,hp⟩
    · rintro ⟨k,hd,hp⟩
      obtain ⟨mode,content,hn⟩ := hd.file
      have hnil : k ≠ [] := by
        rintro rfl
        cases hn
      have hm := (hs.node?_eq_some_iff hnil).mp hn
      exact ⟨(k,_),List.mem_filter.mpr ⟨hm,(isDocument_iff hs hm).mpr hd⟩,hp⟩

theorem pairwise_xmlBelow {directory : Bytes} {paths : List Bytes}
    (h : xmlBelow t directory = .ok paths) : paths.Pairwise fun p q => Bytes.le p q = true := by
  cases hf : t.find directory with
  | error e =>
    rw [xmlBelow_of_error hf] at h
    split at h
    · cases h
      exact .nil
    · cases h
  | ok node =>
    obtain ⟨l,n⟩ := node
    rw [xmlBelow_of_find hf] at h
    split at h
    · cases h
    · cases h
      exact List.pairwise_mergeSort Bytes.le_trans Bytes.le_total _

theorem DocumentBelow.stem_spelled (hs : t.Sound) {directory : Bytes} {k : Location}
    (h : DocumentBelow t directory k) :
    stem (spelled directory (t.spot directory) k) = stem k.path := by
  obtain ⟨mode,content,hn⟩ := h.file
  exact (spelled_last (hs.isName hn) h.below h.ne).2

theorem mem_map_stem_iff (hs : t.Sound) {c : Bytes} (hc : c ∈ subtrees) {paths : List Bytes}
    (h : xmlBelow t (Path.join root c) = .ok paths) (name : Bytes) :
    name ∈ paths.map stem ↔ ∃ j, DocumentBelow t (Path.join root c) j ∧ stem j.path = name := by
  rw [List.mem_map]
  constructor
  · rintro ⟨p,hp,rfl⟩
    obtain ⟨j,hj,rfl⟩ := (mem_xmlBelow_iff hs hc h p).mp hp
    exact ⟨j,hj,(hj.stem_spelled hs).symm⟩
  · rintro ⟨j,hj,rfl⟩
    exact ⟨_,(mem_xmlBelow_iff hs hc h _).mpr ⟨j,hj,rfl⟩,hj.stem_spelled hs⟩

def reported (root : Bytes) (c : Category) (paths : List Bytes) : List FoundDocument :=
  paths.map fun p => ⟨p,root,c⟩

theorem inRoot_eq_ok {found : List FoundDocument} (h : inRoot t root = .ok found) :
    ∃ core stable unstable staging, core? t root = .ok core ∧
      xmlBelow t (Path.join root "stable") = .ok stable ∧
      xmlBelow t (Path.join root "unstable") = .ok unstable ∧
      xmlBelow t (Path.join root "staging") = .ok staging ∧
      found = reported root .core core.toList ++ reported root .stable stable ++
        reported root .unstable (unstable.filter fun p => !(stable.map stem).contains (stem p)) ++
        reported root .staging staging := by
  obtain ⟨core,hcore,h⟩ := Except.bind_eq_ok_iff.mp h
  obtain ⟨stable,hstable,h⟩ := Except.bind_eq_ok_iff.mp h
  obtain ⟨unstable,hunstable,h⟩ := Except.bind_eq_ok_iff.mp h
  obtain ⟨staging,hstaging,h⟩ := Except.bind_eq_ok_iff.mp h
  cases h
  exact ⟨core,stable,unstable,staging,hcore,hstable,hunstable,hstaging,rfl⟩

theorem mem_inRoot_iff (hs : t.Sound) {found : List FoundDocument} (h : inRoot t root = .ok found)
    (d : FoundDocument) : d ∈ found ↔ ∃ k, Yields t root d k := by
  obtain ⟨core,stable,unstable,staging,hcore,hstable,hunstable,hstaging,rfl⟩ := inRoot_eq_ok h
  have hc := mem_core?_iff hs hcore
  have hst := mem_xmlBelow_iff hs (c := "stable") (by simp [subtrees]) hstable
  have hun := mem_xmlBelow_iff hs (c := "unstable") (by simp [subtrees]) hunstable
  have hsg := mem_xmlBelow_iff hs (c := "staging") (by simp [subtrees]) hstaging
  have hpromoted := mem_map_stem_iff hs (c := "stable") (by simp [subtrees]) hstable
  simp only [List.mem_append, reported, List.mem_map]
  constructor
  · rintro (((⟨p,hp,rfl⟩ | ⟨p,hp,rfl⟩) | ⟨p,hp,rfl⟩) | ⟨p,hp,rfl⟩)
    · obtain ⟨rfl,mode,content,hn⟩ := (hc p).mp hp
      exact ⟨_,.core rfl hn⟩
    · obtain ⟨k,hk,rfl⟩ := (hst p).mp hp
      exact ⟨k,.stable hk⟩
    · obtain ⟨hp,hkept⟩ := List.mem_filter.mp hp
      obtain ⟨k,hk,rfl⟩ := (hun p).mp hp
      refine ⟨k,.unstable hk ?_⟩
      intro j hj he
      have hin := (hpromoted (stem k.path)).mpr ⟨j,hj,he⟩
      rw [hk.stem_spelled hs] at hkept
      simp [hin] at hkept
    · obtain ⟨k,hk,rfl⟩ := (hsg p).mp hp
      exact ⟨k,.staging hk⟩
  · rintro ⟨k,hk⟩
    cases hk with
    | core hk hn =>
      subst hk
      exact .inl (.inl (.inl ⟨_,(hc _).mpr ⟨rfl,_,_,hn⟩,rfl⟩))
    | stable hk => exact .inl (.inl (.inr ⟨_,(hst _).mpr ⟨k,hk,rfl⟩,rfl⟩))
    | unstable hk hkept =>
      refine .inl (.inr ⟨_,List.mem_filter.mpr ⟨(hun _).mpr ⟨k,hk,rfl⟩,?_⟩,rfl⟩)
      rw [hk.stem_spelled hs]
      have hout : stem k.path ∉ stable.map stem := by
        rw [hpromoted]
        rintro ⟨j,hj,he⟩
        exact hkept j hj he
      simpa using hout
    | staging hk => exact .inr ⟨_,(hsg _).mpr ⟨k,hk,rfl⟩,rfl⟩

end Root

section Order

/-- The order of the documents of one root: by category, then by path. -/
def Ordered (d e : FoundDocument) : Prop :=
  Category.all.idxOf d.category < Category.all.idxOf e.category ∨
    d.category = e.category ∧ Bytes.le d.path e.path = true

/-- The order of a report: by the position of the root first. -/
def Precedes (roots : List Bytes) (d e : FoundDocument) : Prop :=
  roots.idxOf d.root < roots.idxOf e.root ∨ d.root = e.root ∧ Ordered d e

variable {t : FileTree} {root : Bytes}

theorem pairwise_inRoot {found : List FoundDocument} (h : inRoot t root = .ok found) :
    found.Pairwise Ordered := by
  obtain ⟨core,stable,unstable,staging,-,hstable,hunstable,hstaging,rfl⟩ := inRoot_eq_ok h
  have hone (c : Category) {paths : List Bytes} (hp : paths.Pairwise fun p q => Bytes.le p q = true) :
      (reported root c paths).Pairwise Ordered := by
    rw [reported, List.pairwise_map]
    exact hp.imp fun hle => .inr ⟨rfl,hle⟩
  have hbefore {a b : Category} {ps qs : List Bytes}
      (hab : Category.all.idxOf a < Category.all.idxOf b) :
      ∀ d ∈ reported root a ps, ∀ e ∈ reported root b qs, Ordered d e := by
    intro d hd e he
    obtain ⟨p,-,rfl⟩ := List.mem_map.mp hd
    obtain ⟨q,-,rfl⟩ := List.mem_map.mp he
    exact .inl hab
  have hcore : core.toList.Pairwise fun p q => Bytes.le p q = true := by
    cases core with
    | none => exact .nil
    | some p => exact List.pairwise_singleton _ p
  have hkept := (pairwise_xmlBelow hunstable).filter fun p => !(stable.map stem).contains (stem p)
  have hfirst := List.pairwise_append.mpr ⟨hone .core hcore,hone .stable (pairwise_xmlBelow hstable),
    hbefore (by decide)⟩
  have hsecond := List.pairwise_append.mpr ⟨hfirst,hone .unstable hkept,
    List.forall_mem_append.mpr ⟨hbefore (by decide),hbefore (by decide)⟩⟩
  exact List.pairwise_append.mpr ⟨hsecond,hone .staging (pairwise_xmlBelow hstaging),
    List.forall_mem_append.mpr ⟨List.forall_mem_append.mpr ⟨hbefore (by decide),hbefore (by decide)⟩,
      hbefore (by decide)⟩⟩

end Order

section Yielding

variable {t : FileTree} {root : Bytes} {d e : FoundDocument} {k : Location}

theorem Yields.root_eq (h : Yields t root d k) : d.root = root := by
  cases h <;> rfl

theorem Yields.absolute (hs : t.Sound) (h : Yields t root d k) : t.absolute d.path = k.path := by
  have hbelow {c : Bytes} (hc : c ∈ subtrees) (hk : DocumentBelow t (Path.join root c) k) :
      t.absolute (spelled (Path.join root c) (t.spot (Path.join root c)) k) = k.path := by
    obtain ⟨mode,content,hn⟩ := hk.file
    exact absolute_spelled hs (FileTree.join_ne_nil root (isName_subtree hc)) (hs.isName hn) hk.below
  cases h with
  | core hk hn => rw [← t.path_spot, hk]
  | stable hk => exact hbelow (by simp [subtrees]) hk
  | unstable hk _ => exact hbelow (by simp [subtrees]) hk
  | staging hk => exact hbelow (by simp [subtrees]) hk

def entryOf : Category → Bytes
  | .core => coreName
  | c => c.name

theorem Yields.isPrefix (hs : t.Sound) (h : Yields t root d k) :
    t.spot root ++ [entryOf d.category] <+: k := by
  have hbelow {c : Bytes} (hc : c ∈ subtrees) (hk : DocumentBelow t (Path.join root c) k) :
      t.spot root ++ [c] <+: k := by
    rw [← hs.spot_join root (isName_subtree hc)]
    exact hk.below
  cases h with
  | core hk hn =>
    rw [← hk, hs.spot_join root isName_core]
    exact List.prefix_refl _
  | stable hk => exact hbelow (c := "stable") (by simp [subtrees]) hk
  | unstable hk _ => exact hbelow (c := "unstable") (by simp [subtrees]) hk
  | staging hk => exact hbelow (c := "staging") (by simp [subtrees]) hk

def documentAt (t : FileTree) (root : Bytes) : Category → Location → FoundDocument
  | .core, _ => ⟨Path.join root coreName,root,.core⟩
  | c, k => report t root (Path.join root c.name) c k

theorem Yields.eq_documentAt (h : Yields t root d k) : d = documentAt t root d.category k := by
  cases h <;> rfl

/-- A root yields a location in one category only. -/
theorem Yields.unique (hs : t.Sound) (h : Yields t root d k) (h' : Yields t root e k) : d = e := by
  -- The entry of the root that the location is under tells the categories apart.
  have hp := List.prefix_of_prefix_length_le (h.isPrefix hs) (h'.isPrefix hs) (by simp)
  have he := List.append_cancel_left (hp.eq_of_length (by simp))
  have hc : d.category = e.category := by
    have hinj : ∀ a b : Category, entryOf a = entryOf b → a = b := by
      intro a b
      cases a <;> cases b <;> decide
    exact hinj _ _ (List.singleton_inj.mp he)
  rw [h.eq_documentAt, h'.eq_documentAt, hc]

end Yielding

section Distinct

variable {t : FileTree}

/-- The absolute paths of documents. -/
def keys (t : FileTree) (docs : List FoundDocument) : List Bytes := docs.map fun d => t.absolute d.path

theorem firstOfEach_cons (seen : List Bytes) (d : FoundDocument) (rest : List FoundDocument) :
    firstOfEach t seen (d :: rest) = if t.absolute d.path ∈ seen then firstOfEach t seen rest
      else d :: firstOfEach t ([t.absolute d.path] ++ seen) rest := by
  simp only [firstOfEach, List.contains_iff_mem, List.singleton_append]

/-- Paths that were met before are left out, and nothing else is. -/
theorem firstOfEach_append_seen (seen more : List Bytes) (found : List FoundDocument) :
    firstOfEach t (seen ++ more) found =
      (firstOfEach t more found).filter fun d => t.absolute d.path ∉ seen := by
  induction found generalizing seen more with
  | nil => rfl
  | cons d rest ih =>
    rw [firstOfEach_cons, firstOfEach_cons]
    by_cases hm : t.absolute d.path ∈ more
    · rw [if_pos (List.mem_append_right _ hm), if_pos hm, ih]
    have hhide := ih [t.absolute d.path] more
    rw [if_neg hm]
    by_cases hseen : t.absolute d.path ∈ seen
    · -- The document is left out on both sides, and what it hides is hidden already.
      rw [if_pos (List.mem_append_left _ hseen), ih seen more,
        List.filter_cons_of_neg (by simpa using hseen), hhide, List.filter_filter]
      refine List.filter_congr fun e _ => ?_
      by_cases he : t.absolute e.path = t.absolute d.path
      · simp [he, hseen]
      · simp [he]
    · have hout : t.absolute d.path ∉ seen ++ more := by simp [hseen, hm]
      rw [if_neg hout, List.filter_cons_of_pos (by simpa using hseen), ← List.append_assoc,
        ih _ more, hhide, List.filter_filter]
      congr 1
      refine List.filter_congr fun e _ => ?_
      by_cases he : t.absolute e.path = t.absolute d.path
      · simp [he]
      · simp [he]

theorem firstOfEach_append (seen : List Bytes) (first second : List FoundDocument) :
    firstOfEach t seen (first ++ second) = firstOfEach t seen first ++
      (firstOfEach t seen second).filter fun d => t.absolute d.path ∉ keys t (firstOfEach t seen first) := by
  induction first generalizing seen with
  | nil => simp [firstOfEach, keys]
  | cons d rest ih =>
    rw [List.cons_append, firstOfEach_cons, firstOfEach_cons]
    by_cases hd : t.absolute d.path ∈ seen
    · rw [if_pos hd, if_pos hd, ih]
    · rw [if_neg hd, if_neg hd, ih, firstOfEach_append_seen [t.absolute d.path] seen second,
        List.filter_filter, List.cons_append]
      congr 2
      refine List.filter_congr fun e _ => ?_
      by_cases he : t.absolute e.path = t.absolute d.path
      · simp [keys, he]
      · simp [keys, he]

theorem mem_keys_firstOfEach_iff {p : Bytes} (seen : List Bytes) (found : List FoundDocument) :
    p ∈ keys t (firstOfEach t seen found) ↔ p ∈ keys t found ∧ p ∉ seen := by
  induction found generalizing seen with
  | nil => simp [firstOfEach, keys]
  | cons d rest ih =>
    have hcons (docs : List FoundDocument) : p ∈ keys t (d :: docs) ↔
        p = t.absolute d.path ∨ p ∈ keys t docs := by simp [keys]
    rw [firstOfEach_cons, hcons]
    by_cases hd : t.absolute d.path ∈ seen
    · rw [if_pos hd, ih]
      constructor
      · rintro ⟨hp,hs⟩
        exact ⟨.inr hp,hs⟩
      · rintro ⟨rfl | hp,hs⟩
        · exact absurd hd hs
        · exact ⟨hp,hs⟩
    · rw [if_neg hd, hcons, ih]
      by_cases hp : p = t.absolute d.path
      · subst hp
        simp [hd]
      · simp [hp]

theorem nodup_keys_firstOfEach (seen : List Bytes) (found : List FoundDocument) :
    (keys t (firstOfEach t seen found)).Nodup := by
  induction found generalizing seen with
  | nil => exact List.nodup_nil
  | cons d rest ih =>
    rw [firstOfEach_cons]
    split
    · exact ih seen
    · refine List.nodup_cons.mpr ⟨?_,ih _⟩
      intro hd
      have hout := ((mem_keys_firstOfEach_iff _ _).mp hd).2
      simp at hout

theorem mem_keys_append_iff {p : Bytes} (first second : List FoundDocument) :
    p ∈ keys t (first ++ second.filter fun d => t.absolute d.path ∉ keys t first) ↔
      p ∈ keys t first ∨ p ∈ keys t second := by
  by_cases hp : p ∈ keys t first
  · simp only [keys, List.map_append, List.mem_append]
    exact iff_of_true (.inl hp) (.inl hp)
  · simp only [keys, List.map_append, List.mem_append, List.mem_map, List.mem_filter]
    refine or_congr Iff.rfl (exists_congr fun d => ⟨fun h => ⟨h.1.1,h.2⟩,?_⟩)
    rintro ⟨hd,rfl⟩
    exact ⟨⟨hd,by simpa [keys] using hp⟩,rfl⟩

theorem nodup_keys_append {first second : List FoundDocument} (hf : (keys t first).Nodup)
    (hs : (keys t second).Nodup) :
    (keys t (first ++ second.filter fun d => t.absolute d.path ∉ keys t first)).Nodup := by
  rw [keys, List.map_append, List.nodup_append]
  refine ⟨hf,hs.sublist (List.filter_sublist.map _),?_⟩
  rintro p hp q hq rfl
  obtain ⟨d,hd,rfl⟩ := List.mem_map.mp hq
  exact (decide_eq_true_eq.mp (List.mem_filter.mp hd).2) hp

end Distinct

section Find

variable {t : FileTree} {roots : List Bytes} {docs : List FoundDocument}

theorem find_singleton {root : Bytes} (h : find t [root] = .ok docs) :
    ∃ found, inRoot t root = .ok found ∧ docs = firstOfEach t [] found := by
  obtain ⟨parts,hparts,h⟩ := Except.bind_eq_ok_iff.mp h
  cases h
  cases Except.mapM_eq_ok_iff.mp hparts with
  | cons hroot hrest =>
    cases hrest
    exact ⟨_,hroot,by simp⟩

theorem exists_find_append {a b : List Bytes} (h : find t (a ++ b) = .ok docs) :
    ∃ first second, find t a = .ok first ∧ find t b = .ok second ∧
      docs = first ++ second.filter fun d => t.absolute d.path ∉ keys t first := by
  obtain ⟨parts,hparts,h⟩ := Except.bind_eq_ok_iff.mp h
  cases h
  rw [List.mapM_append] at hparts
  obtain ⟨as,ha,hparts⟩ := Except.bind_eq_ok_iff.mp hparts
  obtain ⟨bs,hb,hparts⟩ := Except.bind_eq_ok_iff.mp hparts
  cases hparts
  refine ⟨firstOfEach t [] as.flatten,firstOfEach t [] bs.flatten,?_,?_,?_⟩
  · rw [find, ha]
    rfl
  · rw [find, hb]
    rfl
  · rw [List.flatten_append, firstOfEach_append]

/-- What a search reports of its roots. -/
structure Finds (t : FileTree) (roots : List Bytes) (docs : List FoundDocument) : Prop where
  distinct : (keys t docs).Nodup
  occurs : ∀ p, p ∈ keys t docs ↔ ∃ root ∈ roots, ∃ d k, Yields t root d k ∧ k.path = p
  first : ∀ d ∈ docs, ∃ k, t.absolute d.path = k.path ∧ Yields t d.root d k ∧
    FirstAt (fun root => ∃ e, Yields t root e k) roots (roots.idxOf d.root) d.root ∧
    ∀ e, Yields t d.root e k → e = d
  ordered : docs.Pairwise (Precedes roots)

theorem Finds.root_mem (h : Finds t roots docs) {d : FoundDocument} (hd : d ∈ docs) :
    d.root ∈ roots := by
  obtain ⟨k,-,-,hfirst,-⟩ := h.first d hd
  exact hfirst.mem

theorem finds_singleton (hs : t.Sound) {root : Bytes} (h : find t [root] = .ok docs) :
    Finds t [root] docs := by
  obtain ⟨found,hfound,rfl⟩ := find_singleton h
  have hmem := mem_inRoot_iff hs hfound
  have hsub := firstOfEach_sublist (t := t) [] found
  have hroot (d : FoundDocument) (hd : d ∈ firstOfEach t [] found) : d.root = root := by
    obtain ⟨k,hk⟩ := (hmem d).mp (hsub.subset hd)
    exact hk.root_eq
  refine ⟨nodup_keys_firstOfEach [] found,?_,?_,?_⟩
  · intro p
    rw [mem_keys_firstOfEach_iff, keys, List.mem_map]
    constructor
    · rintro ⟨⟨d,hd,rfl⟩,-⟩
      obtain ⟨k,hk⟩ := (hmem d).mp hd
      exact ⟨root,List.mem_singleton_self root,d,k,hk,(hk.absolute hs).symm⟩
    · rintro ⟨r,hr,d,k,hk,rfl⟩
      obtain rfl := List.mem_singleton.mp hr
      exact ⟨⟨d,(hmem d).mpr ⟨k,hk⟩,hk.absolute hs⟩,List.not_mem_nil⟩
  · intro d hd
    obtain ⟨k,hk⟩ := (hmem d).mp (hsub.subset hd)
    obtain rfl := hk.root_eq
    refine ⟨k,hk.absolute hs,hk,?_,fun e he => he.unique hs hk⟩
    rw [List.idxOf_cons_self]
    exact ⟨rfl,⟨d,hk⟩,nofun⟩
  · refine ((pairwise_inRoot hfound).sublist hsub).imp_of_mem ?_
    intro d e hd he hde
    exact .inr ⟨(hroot d hd).trans (hroot e he).symm,hde⟩

/-- What is found in roots that are searched later is reported after what was found before, without
that. -/
theorem Finds.append {a b : List Bytes} {first second : List FoundDocument} (ha : Finds t a first)
    (hb : Finds t b second) :
    Finds t (a ++ b) (first ++ second.filter fun d => t.absolute d.path ∉ keys t first) := by
  -- A document that is new is at a location that no root before yields.
  have hnew {d : FoundDocument} {k : Location} (hd : t.absolute d.path ∉ keys t first)
      (hk : t.absolute d.path = k.path) : ∀ r ∈ a, ¬ ∃ e, Yields t r e k := by
    rintro r hr ⟨e,he⟩
    rw [hk, ha.occurs] at hd
    exact hd ⟨r,hr,e,k,he,rfl⟩
  have hout {d : FoundDocument}
      (hd : d ∈ second.filter fun d => t.absolute d.path ∉ keys t first) : d.root ∉ a := by
    obtain ⟨hd,hkey⟩ := List.mem_filter.mp hd
    obtain ⟨k,hk,hy,-⟩ := hb.first d hd
    exact fun hr => hnew (by simpa using hkey) hk _ hr ⟨d,hy⟩
  refine ⟨nodup_keys_append ha.distinct hb.distinct,?_,?_,?_⟩
  · intro p
    rw [mem_keys_append_iff, ha.occurs, hb.occurs]
    simp only [List.mem_append, or_and_right, exists_or]
  · intro d hd
    rcases List.mem_append.mp hd with hd | hd
    · obtain ⟨k,hk,hy,hfirst,hone⟩ := ha.first d hd
      refine ⟨k,hk,hy,?_,hone⟩
      rw [List.idxOf_append_of_mem (ha.root_mem hd)]
      exact hfirst.append b
    · obtain ⟨hin,hkey⟩ := List.mem_filter.mp hd
      obtain ⟨k,hk,hy,hfirst,hone⟩ := hb.first d hin
      refine ⟨k,hk,hy,?_,hone⟩
      rw [List.idxOf_append_of_notMem (hout hd)]
      exact hfirst.append_of_none (hnew (by simpa using hkey) hk)
  · refine List.pairwise_append.mpr ⟨?_,?_,?_⟩
    · refine ha.ordered.imp_of_mem ?_
      intro d e hd he hde
      rw [Precedes, List.idxOf_append_of_mem (ha.root_mem hd), List.idxOf_append_of_mem (ha.root_mem he)]
      exact hde
    · refine (hb.ordered.filter _).imp_of_mem ?_
      intro d e hd he hde
      rw [Precedes, List.idxOf_append_of_notMem (hout hd), List.idxOf_append_of_notMem (hout he)]
      exact hde.imp_left fun hlt => Nat.add_lt_add_left hlt _
    · intro d hd e he
      refine .inl ?_
      rw [List.idxOf_append_of_mem (ha.root_mem hd), List.idxOf_append_of_notMem (hout he)]
      have hlt := List.idxOf_lt_length_iff.mpr (ha.root_mem hd)
      omega

theorem finds_of_find (hs : t.Sound) (h : find t roots = .ok docs) : Finds t roots docs := by
  induction roots generalizing docs with
  | nil =>
    cases h
    exact ⟨List.nodup_nil,by simp [keys, firstOfEach],nofun,.nil⟩
  | cons root roots ih =>
    -- The first root is a search of its own, to which the others add what it has not found.
    obtain ⟨first,second,hfirst,hsecond,rfl⟩ := exists_find_append (a := [root]) h
    exact (finds_singleton hs hfirst).append (ih hsecond)

/-- A search that succeeds has found what its roots yield, each file once and in order; and a search
of two lists of roots is that of the first, and what that of the second adds. -/
theorem find_once_in_order (hs : t.Sound) (h : find t roots = .ok docs) :
    Finds t roots docs ∧ ∀ a b, roots = a ++ b →
      ∃ first second, find t a = .ok first ∧ find t b = .ok second ∧
        docs = first ++ second.filter fun d => t.absolute d.path ∉ keys t first := by
  refine ⟨finds_of_find hs h,?_⟩
  rintro a b rfl
  exact exists_find_append h

end Find

/-- A root with a document that was promoted and a file in the place of a subtree. -/
def promotedTree : FileTree :=
  { nodes := [(["p"],.directory),(["p","wayland.xml"],.file 0o644 []),
      (["p","stable"],.directory),(["p","stable","shell-v2.XML"],.file 0o644 []),
      (["p","unstable"],.directory),(["p","unstable","shell-unstable-v6.xml"],.file 0o644 []),
      (["p","staging"],.file 0o644 [])]
    current := ["p"] }

theorem promotedTree_once_in_order :
    ∃ docs, find promotedTree [".","none","../p/stable/..","/p"] = .ok docs ∧
      docs.map FoundDocument.path = ["wayland.xml","stable/shell-v2.XML"] ∧
      Finds promotedTree [".","none","../p/stable/..","/p"] docs := by
  have hs : promotedTree.Sound := by decide +kernel
  have hfind : find promotedTree [".","none","../p/stable/..","/p"] =
      .ok [⟨"wayland.xml",".",.core⟩,⟨"stable/shell-v2.XML",".",.stable⟩] := by
    decide +kernel
  exact ⟨_,hfind,rfl,(find_once_in_order hs hfind).1⟩

end Discovery

end WaylandZig
