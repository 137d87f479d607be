import WaylandZig.Proofs.Zig.References

/-! # The tables of the index

The tables of the index are read back from its text: the rows of a table are the indented lines behind
its head, and the key of a row is the word that it begins with. All tables have the same keys, one for
each interface of the set in order, and the path in a row leads through an import of the index to the
struct of that interface in the unit of its document.
-/
namespace WaylandZig.Zig

open Schema

/-- The indented lines behind the line `head`. -/
def tableRows (head text : Bytes) : List Bytes :=
  (((text.splitOn Ascii.newline).dropWhile (· != head)).drop 1).takeWhile (Bytes.startsWith · " ")

/-- The word that a row begins with, past its indent and a dot. -/
def rowKey (row : Bytes) : Bytes :=
  (row.dropWhile fun b => b == Ascii.space || b == Ascii.dot).takeWhile Ascii.isWord

def tableKeys (head text : Bytes) : List Bytes := (tableRows head text).map rowKey

section Reading

theorem rowKey_eq {lead member rest : Bytes} {b : UInt8}
    (hl : ∀ a ∈ lead, a = Ascii.space ∨ a = Ascii.dot) (hm : isWordName member = true)
    (hb : Ascii.isWord b = false) : rowKey (lead ++ (member ++ b :: rest)) = member := by
  have hlead : ∀ a ∈ lead, (a == Ascii.space || a == Ascii.dot) = true := by
    intro a ha
    simpa using hl a ha
  have hd : (member ++ b :: rest).dropWhile (fun a => a == Ascii.space || a == Ascii.dot) =
      member ++ b :: rest := by
    cases member with
    | nil => cases hm
    | cons first word =>
      have hf : Ascii.isWord first = true := isWord_of_isWordName hm List.mem_cons_self
      have hn : ¬ (first == Ascii.space || first == Ascii.dot) = true := by
        intro h
        rcases Bool.or_eq_true_iff.mp h with h | h
        · rw [beq_iff_eq.mp h] at hf
          revert hf
          decide
        · rw [beq_iff_eq.mp h] at hf
          revert hf
          decide
      rw [List.cons_append, List.dropWhile_cons, if_neg hn]
  rw [rowKey, List.dropWhile_append_of_pos hlead, hd,
    List.takeWhile_append_of_pos fun a ha => isWord_of_isWordName hm ha,
    List.takeWhile_cons_of_neg (by simp [hb]), List.append_nil]

/-- The rows of the first table with that head. -/
theorem tableRows_lines {head close : Bytes} {before rows after : List Bytes}
    (hn : ∀ line ∈ before ++ head :: (rows ++ close :: after), Ascii.newline ∉ line)
    (hb : head ∉ before) (hr : ∀ row ∈ rows, Bytes.startsWith row " " = true)
    (hc : Bytes.startsWith close " " = false) :
    tableRows head ((before ++ head :: (rows ++ close :: after)).flatMap (· ++ [Ascii.newline])) =
      rows := by
  have hbefore : ∀ line ∈ before, (line != head) = true := by
    intro line hl
    rw [bne_iff_ne]
    rintro rfl
    exact hb hl
  rw [tableRows, Bytes.splitOn_lines hn, List.append_assoc, List.dropWhile_append_of_pos hbefore,
    List.cons_append, List.dropWhile_cons_of_neg (by simp), List.drop_one, List.tail_cons,
    List.append_assoc, List.takeWhile_append_of_pos hr, List.cons_append,
    List.takeWhile_cons_of_neg (by simp [hc]), List.append_nil]

/-- The row begins with the word `member`, or with a dot and that word. -/
def KeyedBy (member row : Bytes) : Prop :=
  ∃ lead b rest, row = lead ++ (member ++ b :: rest) ∧ (∀ a ∈ lead, a = Ascii.dot) ∧
    Ascii.isWord b = false

theorem rowKey_spaces {member row : Bytes} (h : KeyedBy member row) (hm : isWordName member = true)
    (n : Nat) : rowKey (Bytes.spaces n ++ row) = member := by
  obtain ⟨lead,b,rest,rfl,hl,hb⟩ := h
  rw [← List.append_assoc]
  refine rowKey_eq ?_ hm hb
  intro a ha
  rcases List.mem_append.mp ha with ha | ha
  · exact .inl (List.eq_of_mem_replicate ha)
  · exact .inr (hl a ha)

end Reading

section Lines

variable {indent : Nat} {i : IndexDecl} {head invalid tail : Bytes} {row : IndexEntry → Bytes}

theorem head?_spaces (hi : 0 < indent) (text : Bytes) :
    (Bytes.spaces indent ++ text).head? = some Ascii.space := by
  obtain ⟨n,rfl⟩ := Nat.exists_eq_add_of_lt hi
  rfl

theorem startsWith_space_iff {line : Bytes} :
    Bytes.startsWith line " " = true ↔ line.head? = some Ascii.space := by
  cases line with
  | nil =>
    constructor
    · intro h
      cases h
    · intro h
      cases h
  | cons b rest =>
    have hs : Bytes.startsWith (b :: rest) " " = (Ascii.space == b) := by
      change (Ascii.space == b && List.isPrefixOf [] rest) = (Ascii.space == b)
      simp
    rw [hs, beq_iff_eq, List.head?_cons, Option.some.injEq]
    exact eq_comm

theorem lines_tableTree : (i.tableTree head invalid row tail).lines indent 0 =
    head :: ((Bytes.spaces indent ++ invalid) :: i.entries.map (fun e => Bytes.spaces indent ++ row e)
      ++ ["\x7d" ++ tail]) := by
  have hp (depth : Nat) (text : Bytes) : (SourceTree.line text).lines indent depth =
      [Bytes.spaces (depth * indent) ++ text] := rfl
  have hr : (i.entries.map fun e => SourceTree.line (row e)).flatMap (SourceTree.lines indent 1) =
      i.entries.map fun e => Bytes.spaces indent ++ row e := by
    simp only [List.flatMap_map, hp, Nat.one_mul, ← List.map_eq_flatMap]
  have h0 : SourceTree.pad indent 0 = [] := by simp [SourceTree.pad, Bytes.spaces]
  rw [IndexDecl.tableTree, SourceTree.lines, SourceTree.allLines_eq_flatMap, List.flatMap_cons,
    Nat.zero_add, hp, hr, Nat.one_mul, h0]
  rfl

/-- A line that starts with a letter is in a table only if it is the head. -/
theorem notMem_lines_tableTree (hi : 0 < indent) {line : Bytes} (hf : line.head? = some 0x70)
    (hne : line ≠ head) : line ∉ (i.tableTree head invalid row tail).lines indent 0 := by
  have hspaces (text : Bytes) : line ≠ Bytes.spaces indent ++ text := by
    rintro rfl
    rw [head?_spaces hi] at hf
    cases hf
  intro hm
  simp only [lines_tableTree, List.mem_cons, List.mem_append, List.mem_map, List.not_mem_nil,
    or_false] at hm
  rcases hm with hm | (hm | ⟨e,-,hm⟩) | rfl
  · exact hne hm
  · exact hspaces _ hm
  · exact hspaces _ hm.symm
  · cases hf

theorem notMem_lines_blank {line : Bytes} (hf : line.head? = some 0x70) :
    line ∉ SourceTree.blank.lines indent 0 := by
  intro hm
  obtain rfl := List.mem_singleton.mp hm
  cases hf

theorem notMem_lines_importTrees {line : Bytes} (hf : line.head? = some 0x70)
    (hl : line.getLast? = some Ascii.openBrace) :
    ∀ t ∈ i.importTrees, line ∉ t.lines indent 0 := by
  have hsemi (text : Bytes) : line ∉ (SourceTree.line (text ++ ";")).lines indent 0 := by
    intro hm
    obtain rfl := List.mem_singleton.mp hm
    rw [← List.append_assoc, show (";" : Bytes) = [Ascii.semicolon] from rfl, List.getLast?_concat] at hl
    cases hl
  intro t ht
  simp only [IndexDecl.importTrees, List.append_assoc, List.mem_append, List.mem_cons,
    List.not_mem_nil, or_false] at ht
  rcases ht with rfl | ht | rfl | rfl
  · exact hsemi "const std = @import(\"std\")"
  · split at ht
    · cases ht
    rcases List.mem_cons.mp ht with rfl | ht
    · exact notMem_lines_blank hf
    · obtain ⟨u,-,rfl⟩ := List.mem_map.mp ht
      exact hsemi _
  · exact notMem_lines_blank hf
  · rw [← List.append_assoc]
    exact hsemi _

/-- The rows of a table of the index, read from the text of the trees around it. -/
theorem tableRows_tableTree {before after : List SourceTree} (hi : 0 < indent)
    (hn : ∀ t ∈ before ++ i.tableTree head invalid row tail :: after,
      ∀ line ∈ t.lines indent 0, Ascii.newline ∉ line)
    (hb : ∀ t ∈ before, head ∉ t.lines indent 0) :
    tableRows head (SourceTree.text indent (before ++ i.tableTree head invalid row tail :: after)) =
      (Bytes.spaces indent ++ invalid) :: i.entries.map (fun e => Bytes.spaces indent ++ row e) := by
  have hl : SourceTree.allLines indent 0 (before ++ i.tableTree head invalid row tail :: after) =
      SourceTree.allLines indent 0 before ++ head :: (((Bytes.spaces indent ++ invalid) ::
        i.entries.map (fun e => Bytes.spaces indent ++ row e)) ++ ("\x7d" ++ tail) ::
        SourceTree.allLines indent 0 after) := by
    simp only [SourceTree.allLines_eq_flatMap, List.flatMap_append, List.flatMap_cons,
      lines_tableTree, List.cons_append, List.append_assoc, List.nil_append]
  rw [SourceTree.text, hl]
  refine tableRows_lines ?_ ?_ ?_ ?_
  · rw [← hl, SourceTree.allLines_eq_flatMap]
    intro line hm
    obtain ⟨t,ht,hm⟩ := List.mem_flatMap.mp hm
    exact hn t ht line hm
  · rw [SourceTree.allLines_eq_flatMap]
    intro hm
    obtain ⟨t,ht,hm⟩ := List.mem_flatMap.mp hm
    exact hb t ht hm
  · intro line hm
    rw [startsWith_space_iff]
    rcases List.mem_cons.mp hm with rfl | hm
    · exact head?_spaces hi _
    · obtain ⟨e,-,rfl⟩ := List.mem_map.mp hm
      exact head?_spaces hi _
  · rfl

/-- The keys of a table are the invalid member and the members of the entries. -/
theorem map_rowKey (hi : KeyedBy invalidMember invalid) (hr : ∀ e, KeyedBy e.member (row e))
    (hm : ∀ e ∈ i.entries, isWordName e.member = true) :
    ((Bytes.spaces indent ++ invalid) :: i.entries.map (fun e => Bytes.spaces indent ++ row e)).map
      rowKey = invalidMember :: i.entries.map IndexEntry.member := by
  rw [List.map_cons, rowKey_spaces hi (by decide), List.map_map]
  congr 1
  refine List.map_congr_left ?_
  intro e he
  exact rowKey_spaces (hr e) (hm e he) indent

end Lines

def interfaceHead : Bytes := "pub const Interface = enum \x7b"

def mapHead : Bytes := "pub const map = std.EnumArray(Interface, type).init(.\x7b"

def eventsHead : Bytes := "pub const Events = union(Interface) \x7b"

def requestsHead : Bytes := "pub const Requests = union(Interface) \x7b"

/-- The keys of every table: no interface, and then each interface. -/
def memberList (entries : List IndexEntry) : List Bytes :=
  invalidMember :: entries.map IndexEntry.member

/-- The tables that an index text holds for its entries. All have the same keys, and the rows behind
the invalid one lead from each member to its path. -/
structure HasTables (indent : Nat) (eventsOnly : Bool) (text : Bytes) (entries : List IndexEntry) :
    Prop where
  interfaceKeys : tableKeys interfaceHead text = memberList entries
  mapKeys : tableKeys mapHead text = memberList entries
  eventsKeys : tableKeys eventsHead text = memberList entries
  requestsKeys : eventsOnly = false → tableKeys requestsHead text = memberList entries
  mapRows : (tableRows mapHead text).tail = entries.map fun e =>
    Bytes.spaces indent ++ ("." ++ e.member ++ " = " ++ e.path ++ ".event,")
  eventsRows : (tableRows eventsHead text).tail = entries.map fun e =>
    Bytes.spaces indent ++ (e.member ++ ": " ++ handlerType (e.path ++ ".event") ++ ",")
  requestsRows : eventsOnly = false → (tableRows requestsHead text).tail = entries.map fun e =>
    Bytes.spaces indent ++ (e.member ++ ": " ++ e.path ++ ".rq,")

section Rows

theorem keyedBy_comma (member : Bytes) : KeyedBy member (member ++ ",") :=
  ⟨[],Ascii.comma,[],rfl,by simp,by decide⟩

theorem keyedBy_colon (member type tail : Bytes) : KeyedBy member (member ++ ": " ++ type ++ tail) := by
  refine ⟨[],Ascii.colon,Ascii.space :: (type ++ tail),?_,by simp,by decide⟩
  simp only [List.append_assoc, List.nil_append]
  rfl

theorem keyedBy_dot (member value tail : Bytes) :
    KeyedBy member ("." ++ member ++ " = " ++ value ++ tail) := by
  refine ⟨[Ascii.dot],Ascii.space,Ascii.equals :: Ascii.space :: (value ++ tail),?_,by simp,by decide⟩
  simp only [List.append_assoc]
  rfl

end Rows

/-- How a table of the index is written. -/
structure IndexTable where
  head : Bytes
  invalid : Bytes
  row : IndexEntry → Bytes
  tail : Bytes

namespace IndexTable

def tree (t : IndexTable) (i : IndexDecl) : SourceTree := i.tableTree t.head t.invalid t.row t.tail

/-- The head differs from every line that is no head, and each row begins with its member. -/
structure Readable (t : IndexTable) : Prop where
  first : t.head.head? = some 0x70
  last : t.head.getLast? = some Ascii.openBrace
  invalid : KeyedBy invalidMember t.invalid
  row : ∀ e, KeyedBy e.member (t.row e)

def interfaces : IndexTable := ⟨interfaceHead,invalidMember ++ ",",fun e => e.member ++ ",",";"⟩

def map : IndexTable :=
  ⟨mapHead,"." ++ invalidMember ++ " = enum \x7b\x7d,",
    fun e => "." ++ e.member ++ " = " ++ e.path ++ ".event,",");"⟩

def events : IndexTable :=
  ⟨eventsHead,invalidMember ++ ": " ++ handlerType "enum \x7b\x7d" ++ ",",
    fun e => e.member ++ ": " ++ handlerType (e.path ++ ".event") ++ ",",";"⟩

def requests : IndexTable :=
  ⟨requestsHead,invalidMember ++ ": void,",fun e => e.member ++ ": " ++ e.path ++ ".rq,",";"⟩

theorem interfaces_readable : interfaces.Readable :=
  ⟨by decide,by decide,keyedBy_comma _,fun _ => keyedBy_comma _⟩

theorem map_readable : map.Readable :=
  ⟨by decide,by decide,⟨[Ascii.dot],Ascii.space,_,rfl,by simp,by decide⟩,
    fun _ => keyedBy_dot _ _ _⟩

theorem events_readable : events.Readable :=
  ⟨by decide,by decide,keyedBy_colon _ _ _,fun _ => keyedBy_colon _ _ _⟩

theorem requests_readable : requests.Readable :=
  ⟨by decide,by decide,⟨[],Ascii.colon,_,rfl,by simp,by decide⟩,fun _ => keyedBy_colon _ _ _⟩

end IndexTable

namespace IndexDecl

variable {i : IndexDecl} {indent : Nat}

def tables (i : IndexDecl) : List IndexTable :=
  [.interfaces,.map,.events] ++ if i.eventsOnly then [] else [.requests]

theorem trees_eq_tables (i : IndexDecl) :
    i.trees = i.importTrees ++ i.tables.flatMap fun t => [.blank,t.tree i] := by
  rw [trees, eventTrees, tables, List.append_assoc, List.flatMap_append]
  cases i.eventsOnly with
  | false => rfl
  | true => rfl

/-- A table is read back from the text of the index, its head being no line in front of it. -/
theorem read_table (hi : 0 < indent)
    (hn : ∀ t ∈ i.trees, ∀ line ∈ t.lines indent 0, Ascii.newline ∉ line)
    (hm : ∀ e ∈ i.entries, isWordName e.member = true) {t : IndexTable} (ht : t.Readable)
    {before after : List IndexTable} (he : i.tables = before ++ t :: after)
    (hb : t.head ∉ before.map IndexTable.head) :
    tableKeys t.head (SourceTree.text indent i.trees) = memberList i.entries ∧
    (tableRows t.head (SourceTree.text indent i.trees)).tail =
      i.entries.map fun e => Bytes.spaces indent ++ t.row e := by
  let written (tables : List IndexTable) := tables.flatMap fun t => [SourceTree.blank,t.tree i]
  have hs : i.trees = (i.importTrees ++ written before ++ [.blank]) ++ t.tree i :: written after := by
    rw [trees_eq_tables, he]
    simp [written]
  have hbefore : ∀ tree ∈ i.importTrees ++ written before ++ [.blank],
      t.head ∉ tree.lines indent 0 := by
    -- Imports end with a semicolon, rows are indented, and no other table has this head.
    intro tree htree
    simp only [List.mem_append, List.mem_singleton] at htree
    rcases htree with (htree | htree) | rfl
    · exact notMem_lines_importTrees ht.first ht.last tree htree
    · obtain ⟨other,ho,htree⟩ := List.mem_flatMap.mp htree
      simp only [List.mem_cons, List.not_mem_nil, or_false] at htree
      rcases htree with rfl | rfl
      · exact notMem_lines_blank ht.first
      · refine notMem_lines_tableTree hi ht.first ?_
        intro heq
        exact hb (List.mem_map.mpr ⟨other,ho,heq.symm⟩)
    · exact notMem_lines_blank ht.first
  rw [hs] at hn
  have hr : tableRows t.head (SourceTree.text indent
      ((i.importTrees ++ written before ++ [.blank]) ++ t.tree i :: written after)) =
      (Bytes.spaces indent ++ t.invalid) :: i.entries.map (fun e => Bytes.spaces indent ++ t.row e) :=
    tableRows_tableTree hi hn hbefore
  rw [tableKeys, hs, hr]
  exact ⟨map_rowKey ht.invalid ht.row hm,rfl⟩

/-- The text of an index has its tables. -/
theorem hasTables (hi : 0 < indent)
    (hn : ∀ t ∈ i.trees, ∀ line ∈ t.lines indent 0, Ascii.newline ∉ line)
    (hm : ∀ e ∈ i.entries, isWordName e.member = true) :
    HasTables indent i.eventsOnly (SourceTree.text indent i.trees) i.entries := by
  let requests : List IndexTable := if i.eventsOnly then [] else [.requests]
  have hinterfaces : i.tables = [] ++ .interfaces :: ([.map,.events] ++ requests) := rfl
  have hmap : i.tables = [.interfaces] ++ .map :: ([.events] ++ requests) := rfl
  have hevents : i.tables = [.interfaces,.map] ++ .events :: requests := rfl
  have hrequests (ho : i.eventsOnly = false) :
      i.tables = [.interfaces,.map,.events] ++ .requests :: [] := by
    rw [tables, ho]
    rfl
  obtain ⟨hik,-⟩ := read_table hi hn hm IndexTable.interfaces_readable hinterfaces (by decide)
  obtain ⟨hmk,hmr⟩ := read_table hi hn hm IndexTable.map_readable hmap (by decide)
  obtain ⟨hek,her⟩ := read_table hi hn hm IndexTable.events_readable hevents (by decide)
  have hrq (ho : i.eventsOnly = false) :=
    read_table hi hn hm IndexTable.requests_readable (hrequests ho) (by decide)
  exact ⟨hik,hmk,hek,fun ho => (hrq ho).1,hmr,her,fun ho => (hrq ho).2⟩

end IndexDecl

/-- The interfaces of a set, document by document. -/
def setSites (s : DocumentSet) : List Site := s.documents.zipIdx.flatMap fun (d,k) => sites k d

theorem length_setSites (s : DocumentSet) : (setSites s).length = s.interfaceCount := by
  have hz : (s.documents.zipIdx.map fun p => p.1.interfaces.length) =
      s.documents.map fun d => d.interfaces.length := by
    have hf := congrArg (List.map fun d : Document => d.interfaces.length)
      (List.zipIdx_map_fst 0 s.documents)
    simpa only [List.map_map, Function.comp_def] using hf
  simp only [setSites, List.length_flatMap, sites, List.length_map, List.length_zipIdx,
    List.sum_eq_foldr, DocumentSet.interfaceCount, hz]

/-- An entry of the index text for an interface. Its member is the identifier of the interface. Its
path goes through an import of the unit of the document to the struct that this unit declares for the
interface, which holds the tags of the events and the union of the requests. -/
def IndexedAs (units : List SourceUnit) (indent : Nat) (text : Bytes) (here : Site) (e : IndexEntry) :
    Prop :=
  here.naming.identifier here.interface.name = .ok e.member ∧
  ∃ name decl body tags requests,
    ("pub const " ++ name ++ " = " ++ importOf here.document.name ++ ";") ∈
      text.splitOn Ascii.newline ∧
    here.EmittedAs units indent decl ∧ e.path = name ++ "." ++ decl.name ∧
    decl.tree = .block ("pub const " ++ decl.name ++ " = struct \x7b") ";" body ∧
    SourceTree.block "pub const event = enum \x7b" ";" tags ∈ body ∧
    SourceTree.block "pub const rq = union(request) \x7b" ";" requests ∈ body

theorem EmitsIndex.isWordName_member {s : DocumentSet} {settings : Settings}
    {parts : List (IndexImport × List IndexEntry)} {i : IndexDecl} (h : EmitsIndex s settings parts i)
    {e : IndexEntry} (he : e ∈ i.entries) : isWordName e.member = true := by
  rw [h.entries] at he
  obtain ⟨part,hp,he⟩ := List.mem_flatMap.mp he
  obtain ⟨d,-,hpart⟩ := h.documents.exists_of_mem_right hp
  obtain ⟨interface,-,hm,-⟩ := hpart.entries.exists_of_mem_right he
  exact Naming.isWordName_of_identifier hm

theorem importLine_mem_lines {i : IndexDecl} {u : IndexImport} (hu : u ∈ i.imports) (indent : Nat) :
    IndexDecl.importLine u ∈ SourceTree.allLines indent 0 i.trees := by
  have hne : i.imports.isEmpty = false := by
    cases hi : i.imports with
    | nil =>
      rw [hi] at hu
      cases hu
    | cons v rest => rfl
  have ht : SourceTree.line (IndexDecl.importLine u) ∈ i.trees := by
    simp only [IndexDecl.trees, IndexDecl.eventTrees, IndexDecl.importTrees, hne, List.mem_append]
    refine .inl (.inl (.inl (.inr ?_)))
    exact List.mem_cons_of_mem _ (List.mem_map.mpr ⟨u,hu,rfl⟩)
  rw [SourceTree.allLines_eq_flatMap]
  refine List.mem_flatMap.mpr ⟨_,ht,?_⟩
  simp [SourceTree.lines, SourceTree.pad, Bytes.spaces]

theorem InterfaceDecl.holds_tags_and_requests (decl : InterfaceDecl) : ∃ body tags requests,
    decl.tree = .block ("pub const " ++ decl.name ++ " = struct \x7b") ";" body ∧
    SourceTree.block "pub const event = enum \x7b" ";" tags ∈ body ∧
    SourceTree.block "pub const rq = union(request) \x7b" ";" requests ∈ body := by
  refine ⟨_,decl.events.map fun m => .line (m.name ++ ","),
    decl.requests.map fun m => m.tree (m.name ++ ": struct \x7b") ",",rfl,?_,?_⟩
  · exact List.mem_append_left _ (.tail _ (.tail _ (.head _)))
  · exact List.mem_append_left _ (.tail _ (.tail _ (.tail _ (.tail _ (.head _)))))

/-- The entries of the index stand for the interfaces of the set in order. -/
theorem entries_indexed {s : DocumentSet} {settings : Settings} {types : TypeMap}
    {documents shared : List SourceUnit} {parts : List (IndexImport × List IndexEntry)} {i : IndexDecl}
    (hd : EmitsDocuments s settings types documents) (h : EmitsIndex s settings parts i)
    (hn : ∀ line ∈ SourceTree.allLines settings.indentSize.toNat 0 i.trees, Ascii.newline ∉ line) :
    List.Forall₂ (IndexedAs (documents ++ shared) settings.indentSize.toNat
      (SourceTree.text settings.indentSize.toNat i.trees)) (setSites s) i.entries := by
  have hparts : List.Forall₂ (fun p part => EmitsPart p.1 part) s.documents.zipIdx parts := by
    have hz := h.documents
    rwa [← List.zipIdx_map_fst 0 s.documents, List.forall₂_map_left_iff] at hz
  rw [h.entries]
  refine List.rel_flatMap hparts.with_mem ?_
  rintro ⟨d,k⟩ part ⟨hz,hp,hpart⟩
  have hdoc : s.documents[k]? = some d := List.mem_zipIdx_iff_getElem?.mp hz
  have hsites : List.Forall₂ (fun here i => here.document = d ∧ here.interface = i) (sites k d)
      d.interfaces := (sites_interfaces k d).flip
  refine hsites.with_mem.comp ?_ hpart.entries
  rintro here interface e ⟨hmem,-,rfl,rfl⟩ ⟨hm,name,hname,hpath⟩
  obtain ⟨decl,hemit,hat⟩ := exists_emittedAs hd (inSet_of_mem_sites hdoc hmem) shared
  obtain rfl : name = decl.name := Except.ok.inj (hname.symm.trans hemit.name)
  obtain ⟨body,tags,requests,hbody⟩ := decl.holds_tags_and_requests
  refine ⟨hm,part.1.name,decl,body,tags,requests,?_,hat,hpath,hbody⟩
  have hi : part.1 ∈ i.imports := by
    rw [h.imports]
    exact List.mem_map_of_mem hp
  have hl := importLine_mem_lines hi settings.indentSize.toNat
  rw [IndexDecl.importLine, hpart.unit] at hl
  rw [SourceTree.text, Bytes.splitOn_lines hn]
  exact List.mem_append_left _ hl

/-- The declaration of the requests at the end of an index. -/
def requestsDeclaration (indent : Nat) (entries : List IndexEntry) : Bytes :=
  SourceTree.text indent [.blank,.block requestsHead ";"
    (.line (invalidMember ++ ": void,") ::
      entries.map fun e => .line (e.member ++ ": " ++ e.path ++ ".rq,"))]

/-- The full index only has the declaration of the requests more than one for events alone. -/
theorem indexUnit_full {s : DocumentSet} {settings : Settings}
    {parts : List (IndexImport × List IndexEntry)} {i : IndexDecl}
    (h : EmitsIndex s settings parts i) (ho : i.eventsOnly = true) :
    indexUnit s { settings with eventsOnlyIndex := false } =
      .ok (SourceTree.text settings.indentSize.toNat i.trees ++
        requestsDeclaration settings.indentSize.toNat i.entries) := by
  refine indexUnit_eq_ok_iff.mpr ⟨parts,{ i with eventsOnly := false },?_,?_⟩
  · exact ⟨h.documents,h.imports,h.typesUnit,h.entries,rfl⟩
  · have hf : IndexDecl.trees { i with eventsOnly := false } =
        i.trees ++ [.blank,i.requestsTree] := by
      simp only [IndexDecl.trees, ho, if_true, List.append_nil]
      rfl
    rw [hf, SourceTree.text_append]
    rfl

theorem indentSize_withDefaults_pos (settings : Settings) :
    0 < settings.withDefaults.indentSize.toNat := by
  simp only [Settings.withDefaults]
  split
  · decide
  · omega

/-- The tables of the index have one list of keys, with a member for each interface of the set in
order, and their paths lead to the structs of the interfaces in the units. An index for events alone
is the full index without the declaration of the requests at its end. -/
theorem generate_index_agrees {σ : Type} {s : DocumentSet} {settings : Settings} {sink : Sink σ}
    {state : σ} {units : List SourceUnit}
    (hw : isWordName settings.withDefaults.typesUnit = true)
    (h : (generate s settings Formatter.unchanged sink state).1 = .ok units) :
    ∃ text entries,
      units.getLast? = some ⟨unitPath settings.withDefaults.indexUnit,text⟩ ∧
      HasTables settings.withDefaults.indentSize.toNat settings.eventsOnlyIndex text entries ∧
      List.Forall₂ (IndexedAs units settings.withDefaults.indentSize.toNat text) (setSites s) entries ∧
      (memberList entries).length = s.interfaceCount + 1 ∧
      (settings.eventsOnlyIndex = true →
        compile s { settings with eventsOnlyIndex := false } = .ok (units.dropLast ++
          [⟨unitPath settings.withDefaults.indexUnit,
            text ++ requestsDeclaration settings.withDefaults.indentSize.toNat entries⟩])) := by
  have hc := compiled_of_generate h
  obtain ⟨types,documents,index,htypes,hd,hi,hunits⟩ := hc.emitted
  obtain ⟨parts,i,hindex,rfl⟩ := indexUnit_eq_ok_iff.mp hi
  have hn : ∀ t ∈ i.trees, ∀ line ∈ t.lines settings.withDefaults.indentSize.toNat 0,
      Ascii.newline ∉ line := by
    intro t ht line hl
    exact ((hc.index_importsIn hw hindex t ht).lines _ 0 line hl).oneLine
  have hlines : ∀ line ∈ SourceTree.allLines settings.withDefaults.indentSize.toNat 0 i.trees,
      Ascii.newline ∉ line := by
    intro line hl
    rw [SourceTree.allLines_eq_flatMap] at hl
    obtain ⟨t,ht,hl⟩ := List.mem_flatMap.mp hl
    exact hn t ht line hl
  have htables := i.hasTables (indentSize_withDefaults_pos settings) hn
    fun _ he => hindex.isWordName_member he
  rw [hindex.eventsOnly] at htables
  have hentries : List.Forall₂ (IndexedAs units settings.withDefaults.indentSize.toNat
      (SourceTree.text settings.withDefaults.indentSize.toNat i.trees)) (setSites s) i.entries := by
    rw [hunits]
    exact entries_indexed hd hindex hlines
  have hlast : units.dropLast =
      documents ++ [⟨unitPath settings.withDefaults.typesUnit,typesUnit⟩] := by
    rw [hunits]
    simp
  refine ⟨_,i.entries,?_,htables,hentries,?_,?_⟩
  · rw [hunits]
    simp
  · rw [memberList, List.length_cons, List.length_map, ← hentries.length_eq, length_setSites]
  · intro ho
    have hfull := indexUnit_full hindex (hindex.eventsOnly.trans ho)
    refine compile_eq_ok_iff.mpr ⟨hc.unitNames,hc.valid,types,documents,_,htypes,hd,hfull,?_⟩
    rw [hlast, List.append_assoc]
    rfl

/-- Documents and interfaces whose names are reserved words, with and without a name space. -/
def reservedNameSet : DocumentSet :=
  { documents := [
      { name := "wl", nameSpace := "wl", interfaces := [{ name := "wl_a" },{ name := "wl_type" }] },
      { name := "test", interfaces := [{ name := "var" }] }] }

theorem reservedNameSet_index_agrees : ∃ units text entries,
    (generate reservedNameSet { eventsOnlyIndex := true } Formatter.unchanged
      (fun _ _ => (.ok (),·)) ()).1 = .ok units ∧
    units.getLast? = some ⟨unitPath "proto",text⟩ ∧
    HasTables 4 true text entries ∧
    List.Forall₂ (IndexedAs units 4 text) (setSites reservedNameSet) entries ∧
    (memberList entries).length = 4 ∧
    compile reservedNameSet {} = .ok (units.dropLast ++
      [⟨unitPath "proto",text ++ requestsDeclaration 4 entries⟩]) := by
  have hg : (generate reservedNameSet { eventsOnlyIndex := true } Formatter.unchanged
      (fun _ _ => (.ok (),·)) ()).1.isOk = true := by decide +kernel
  obtain ⟨units,hg⟩ := Except.exists_of_isOk hg
  obtain ⟨text,entries,ht,htables,hentries,hl,hfull⟩ := generate_index_agrees (by decide) hg
  exact ⟨units,text,entries,hg,ht,htables,hentries,hl,hfull rfl⟩

end WaylandZig.Zig
