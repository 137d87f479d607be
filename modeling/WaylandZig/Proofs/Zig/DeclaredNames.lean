import WaylandZig.Proofs.Zig.UnitImports

/-! # The names that a unit declares

A declaration is a line of source that begins with `const` or `pub const`, and the word behind that is
the name it declares. The names are read off the tree of a unit: at its top stand the imports and the
structs of the interfaces, in a struct the four types of the messages and the enums, and among the
payloads of events their structs. The payloads of requests are arms of a union and declare nothing.
-/
namespace WaylandZig.Zig

open Schema

/-- The name that a line of source declares. -/
def declaredName? (line : Bytes) : Option Bytes :=
  match line.splitOn Ascii.space with
  | first :: second :: rest =>
    if first = "pub" ∧ second = "const" then rest.head?
    else if first = "const" then some second
    else none
  | _ => none

namespace SourceTree

def declares? : SourceTree → Option Bytes
  | .blank => none
  | .line text => declaredName? text
  | .block head _ _ => declaredName? head

/-- The names declared in a scope, in order. -/
def declaredNames (scope : List SourceTree) : List Bytes := scope.filterMap declares?

def body : SourceTree → List SourceTree
  | .block _ _ body => body
  | _ => []

end SourceTree

/-- The types of its messages that every interface declares. -/
def messageTypes : List Bytes := ["request","event","rq","ev"]

section Lines

variable {name rest : Bytes}

theorem space_notMem_of_isWord (h : ∀ b ∈ name, Ascii.isWord b = true) : Ascii.space ∉ name := by
  intro hm
  have hw := h _ hm
  revert hw
  decide

theorem declaredName?_const (h : ∀ b ∈ name, Ascii.isWord b = true)
    (hr : rest.head? = some Ascii.space) : declaredName? ("const " ++ name ++ rest) = some name := by
  obtain ⟨tail,rfl⟩ := List.head?_eq_some_iff.mp hr
  have hs : Bytes.ofString "const " = "const" ++ [Ascii.space] := by decide
  have he : Bytes.ofString "const " ++ name ++ Ascii.space :: tail =
      Bytes.ofString "const" ++ Ascii.space :: (name ++ Ascii.space :: tail) := by
    rw [hs]
    simp only [List.append_assoc, List.cons_append, List.nil_append]
  rw [declaredName?, he, Bytes.splitOn_append (by decide),
    Bytes.splitOn_append (space_notMem_of_isWord h)]
  rfl

theorem declaredName?_pub (h : ∀ b ∈ name, Ascii.isWord b = true)
    (hr : rest.head? = some Ascii.space) :
    declaredName? ("pub const " ++ name ++ rest) = some name := by
  obtain ⟨tail,rfl⟩ := List.head?_eq_some_iff.mp hr
  have hs : Bytes.ofString "pub const " =
      "pub" ++ Ascii.space :: ("const" ++ [Ascii.space]) := by decide
  have he : Bytes.ofString "pub const " ++ name ++ Ascii.space :: tail = Bytes.ofString "pub" ++
      Ascii.space :: ("const" ++ Ascii.space :: (name ++ Ascii.space :: tail)) := by
    rw [hs]
    simp only [List.append_assoc, List.cons_append, List.nil_append]
  rw [declaredName?, he, Bytes.splitOn_append (by decide), Bytes.splitOn_append (by decide),
    Bytes.splitOn_append (space_notMem_of_isWord h)]
  rfl

/-- A line whose first word is another declares nothing. -/
theorem declaredName?_eq_none {first : Bytes} {parts : List Bytes}
    (h : rest.splitOn Ascii.space = first :: parts) (hp : first ≠ "pub") (hc : first ≠ "const") :
    declaredName? rest = none := by
  rw [declaredName?, h]
  cases parts with
  | nil => rfl
  | cons second parts =>
    have hf : ¬ (first = "pub" ∧ second = "const") := fun hf => hp hf.1
    simp only [if_neg hf, if_neg hc]

theorem declaredName?_colon (h : ∀ b ∈ name, Ascii.isWord b = true)
    (hr : rest.take 2 = [Ascii.colon,Ascii.space]) : declaredName? (name ++ rest) = none := by
  have he : name ++ rest = (name ++ [Ascii.colon]) ++ Ascii.space :: rest.drop 2 := by
    have ht := (List.take_append_drop 2 rest).symm
    rw [hr] at ht
    rw [ht]
    simp
  have hn : Ascii.space ∉ name ++ [Ascii.colon] := by
    rw [List.mem_append, not_or]
    exact ⟨space_notMem_of_isWord h,by decide⟩
  have hc (word : Bytes) (hw : Ascii.colon ∉ word) : name ++ [Ascii.colon] ≠ word := by
    rintro rfl
    exact hw (by simp)
  rw [he]
  exact declaredName?_eq_none (Bytes.splitOn_append hn _) (hc _ (by decide)) (hc _ (by decide))

theorem declaredName?_comment (h : rest = [] ∨ rest.startsWith "//" = true) :
    declaredName? rest = none := by
  rcases h with rfl | h
  · decide
  · obtain ⟨text,rfl⟩ := List.isPrefixOf_iff_prefix.mp h
    have hs : Ascii.slash ≠ Ascii.space := by decide
    obtain ⟨part,parts,-,hp⟩ := Bytes.splitOn_cons_of_ne hs (Ascii.slash :: text)
    have hne (word : Bytes) (hw : word.head? ≠ some Ascii.slash) : Ascii.slash :: part ≠ word := by
      rintro rfl
      exact hw rfl
    exact declaredName?_eq_none hp (hne _ (by decide)) (hne _ (by decide))

end Lines

section Trees

theorem head?_struct : (Bytes.ofString " = struct \x7b").head? = some Ascii.space := by
  decide

theorem MessageDecl.declares?_event {m : MessageDecl} (h : isWordName m.name = true) :
    (m.tree ("pub const " ++ m.name ++ " = struct \x7b") ";").declares? = some m.name :=
  declaredName?_pub (fun _ => isWord_of_isWordName h) head?_struct

theorem MessageDecl.declares?_request {m : MessageDecl} (h : isWordName m.name = true) :
    (m.tree (m.name ++ ": struct \x7b") ",").declares? = none := by
  refine declaredName?_colon (fun _ => isWord_of_isWordName h) ?_
  decide

theorem EnumDecl.declares?_tree {e : EnumDecl} (h : isWordName e.name = true) :
    e.tree.declares? = some e.name := by
  cases e with
  | plain name members =>
    refine declaredName?_pub (fun _ => isWord_of_isWordName h) ?_
    decide
  | bitfield name fields =>
    refine declaredName?_pub (fun _ => isWord_of_isWordName h) ?_
    decide

theorem InterfaceDecl.declares?_tree {i : InterfaceDecl} (h : isWordName i.name = true) :
    i.tree.declares? = some i.name :=
  declaredName?_pub (fun _ => isWord_of_isWordName h) head?_struct

end Trees

namespace SourceTree

theorem declaredNames_append (first second : List SourceTree) :
    declaredNames (first ++ second) = declaredNames first ++ declaredNames second :=
  List.filterMap_append

theorem declaredNames_eq_nil {scope : List SourceTree} (h : ∀ t ∈ scope, t.declares? = none) :
    declaredNames scope = [] :=
  List.filterMap_eq_nil_iff.mpr h

/-- Trees that declare one name each declare these names in order. -/
theorem declaredNames_map {α : Type} {tree : α → SourceTree} {name : α → Bytes} {items : List α}
    (h : ∀ a ∈ items, (tree a).declares? = some (name a)) :
    declaredNames (items.map tree) = items.map name := by
  induction items with
  | nil => rfl
  | cons a items ih =>
    obtain ⟨ha,hr⟩ := List.forall_mem_cons.mp h
    rw [List.map_cons, declaredNames, List.filterMap_cons_some ha]
    exact congrArg (name a :: ·) (ih hr)

/-- Blank lines in front of the trees make no difference. -/
theorem declaredNames_flatMap_blank {α : Type} {tree : α → SourceTree} {name : α → Bytes}
    {items : List α} (h : ∀ a ∈ items, (tree a).declares? = some (name a)) :
    declaredNames (items.flatMap fun a => [.blank,tree a]) = items.map name := by
  induction items with
  | nil => rfl
  | cons a items ih =>
    obtain ⟨ha,hr⟩ := List.forall_mem_cons.mp h
    have hb : declaredNames [.blank,tree a] = [name a] := by
      rw [declaredNames, List.filterMap_cons_none rfl, List.filterMap_cons_some ha]
      rfl
    rw [List.flatMap_cons, declaredNames_append, ih hr, hb]
    rfl

end SourceTree

open SourceTree

section Scopes

theorem declaredNames_events {messages : List MessageDecl}
    (h : ∀ m ∈ messages, isWordName m.name = true) :
    declaredNames (eventsTree messages).body = messages.map MessageDecl.name :=
  declaredNames_map fun m hm => MessageDecl.declares?_event (h m hm)

theorem declaredNames_requests {messages : List MessageDecl}
    (h : ∀ m ∈ messages, isWordName m.name = true) :
    declaredNames (requestsTree messages).body = [] := by
  refine declaredNames_eq_nil fun t ht => ?_
  obtain ⟨m,hm,rfl⟩ := List.mem_map.mp ht
  exact MessageDecl.declares?_request (h m hm)

theorem declaredNames_interface {i : InterfaceDecl} (h : ∀ e ∈ i.enums, isWordName e.name = true) :
    declaredNames i.tree.body = messageTypes ++ i.enums.map EnumDecl.name := by
  have he := declaredNames_flatMap_blank fun e hm => EnumDecl.declares?_tree (h e hm)
  have hm : declaredNames [tagsTree "pub const request = enum \x7b" i.requests,.blank,
      tagsTree "pub const event = enum \x7b" i.events,.blank,requestsTree i.requests,.blank,
      eventsTree i.events] = messageTypes := by
    have hr : declaredName? "pub const request = enum \x7b" = some (.ofString "request") := by
      decide
    have hv : declaredName? "pub const event = enum \x7b" = some (.ofString "event") := by
      decide
    have hq : declaredName? "pub const rq = union(request) \x7b" = some (.ofString "rq") := by
      decide
    have hp : declaredName? "pub const ev = struct \x7b" = some (.ofString "ev") := by
      decide
    simp only [declaredNames, List.filterMap_cons, List.filterMap_nil, tagsTree, requestsTree,
      eventsTree, declares?, hr, hv, hq, hp, messageTypes]
  rw [InterfaceDecl.tree, SourceTree.body, declaredNames_append, hm, he]

/-- A document unit declares the import of the types unit and its interfaces. -/
theorem declaredNames_unit {u : UnitDecl} (hn : ∀ line ∈ u.notice, declaredName? line = none)
    (h : ∀ i ∈ u.interfaces, isWordName i.name = true) :
    declaredNames u.trees = ("types" : Bytes) :: u.interfaces.map InterfaceDecl.name := by
  have hi := declaredNames_flatMap_blank fun i hm => InterfaceDecl.declares?_tree (h i hm)
  have hnotice : declaredNames (if u.notice.isEmpty then [] else u.notice.map .line ++ [.blank]) =
      [] := by
    refine declaredNames_eq_nil fun t ht => ?_
    split at ht
    · cases ht
    rcases List.mem_append.mp ht with ht | ht
    · obtain ⟨line,hl,rfl⟩ := List.mem_map.mp ht
      exact hn line hl
    · obtain rfl := List.mem_singleton.mp ht
      rfl
  have htypes : declaredName? ("const types = " ++ importOf u.typesUnit ++ ";") =
      some (.ofString "types") := by
    have hs : Bytes.ofString "const types = " = "const " ++ "types" ++ " = " := by decide
    rw [hs, List.append_assoc, List.append_assoc]
    exact declaredName?_const (fun _ => isWord_of_isWordName (by decide)) rfl
  rw [UnitDecl.trees, UnitDecl.preamble, declaredNames_append, declaredNames_append, hnotice, hi]
  simp only [declaredNames, List.filterMap_cons, List.filterMap_nil, declares?, htypes,
    List.nil_append, List.singleton_append]

theorem IndexDecl.declares?_importLine {u : IndexImport} (h : isWordName u.name = true) :
    (SourceTree.line (importLine u)).declares? = some u.name := by
  rw [importLine, List.append_assoc, List.append_assoc]
  exact declaredName?_pub (fun _ => isWord_of_isWordName h) rfl

theorem declaredNames_importTrees {i : IndexDecl} (h : ∀ u ∈ i.imports, isWordName u.name = true) :
    declaredNames i.importTrees =
      ("std" : Bytes) :: (i.imports.map IndexImport.name ++ [("types" : Bytes)]) := by
  have hstd : declaredName? "const std = @import(\"std\");" = some (.ofString "std") := by
    decide
  have htypes : declaredName? ("pub const types = " ++ importOf i.typesUnit ++ ";") =
      some (.ofString "types") := by
    have hs : Bytes.ofString "pub const types = " = "pub const " ++ "types" ++ " = " := by
      decide
    rw [hs, List.append_assoc, List.append_assoc]
    exact declaredName?_pub (fun _ => isWord_of_isWordName (by decide)) rfl
  have himports : declaredNames (if i.imports.isEmpty then []
      else .blank :: i.imports.map fun u => .line (IndexDecl.importLine u)) =
      i.imports.map IndexImport.name := by
    have hm := declaredNames_map fun u hu => IndexDecl.declares?_importLine (h u hu)
    split
    · rename_i he
      rw [List.isEmpty_iff.mp he]
      rfl
    · exact hm
  simp only [IndexDecl.importTrees, declaredNames_append, himports]
  simp only [declaredNames, List.filterMap_cons, List.filterMap_nil, declares?, hstd, htypes,
    List.cons_append, List.nil_append]

theorem declaredNames_eventTables (i : IndexDecl) :
    declaredNames [.blank,i.interfaceTree,.blank,i.mapTree,.blank,i.eventsTree] =
      indexNames.dropLast := by
  have hinterface : declaredName? "pub const Interface = enum \x7b" =
      some (.ofString "Interface") := by decide
  have hmap : declaredName? "pub const map = std.EnumArray(Interface, type).init(.\x7b" =
      some (.ofString "map") := by decide
  have hevents : declaredName? "pub const Events = union(Interface) \x7b" =
      some (.ofString "Events") := by decide
  simp only [declaredNames, List.filterMap_cons, List.filterMap_nil, IndexDecl.interfaceTree,
    IndexDecl.mapTree, IndexDecl.eventsTree, IndexDecl.tableTree, declares?, hinterface, hmap,
    hevents]
  rfl

/-- The index declares its imports and its tables, of which one for events alone lacks the last. -/
theorem declaredNames_index {i : IndexDecl} (h : ∀ u ∈ i.imports, isWordName u.name = true) :
    declaredNames i.trees = ("std" : Bytes) :: (i.imports.map IndexImport.name ++
      ("types" : Bytes) :: if i.eventsOnly then indexNames.dropLast else indexNames) := by
  have hrequests : declaredName? "pub const Requests = union(Interface) \x7b" =
      some (.ofString "Requests") := by decide
  rw [IndexDecl.trees, IndexDecl.eventTrees, declaredNames_append, declaredNames_append,
    declaredNames_importTrees h, declaredNames_eventTables]
  cases i.eventsOnly with
  | false =>
    have hr : declaredNames [.blank,i.requestsTree] = [("Requests" : Bytes)] := by
      simp only [declaredNames, List.filterMap_cons, List.filterMap_nil, IndexDecl.requestsTree,
        IndexDecl.tableTree, declares?, hrequests]
    simp [hr, indexNames]
  | true => simp [declaredNames]

end Scopes

end WaylandZig.Zig
