import WaylandZig.Zig.SharedUnits

/-! # Source text as a tree

A unit is a tree of lines and braced blocks. A line at depth `n` stands behind `n` indents, a
separator is an empty line, and a block without a body is closed on its head line. The writer, which
takes a head line back when nothing follows it, writes exactly the lines of the tree.
-/
namespace WaylandZig.Zig

inductive SourceTree where
  | blank
  | line (text : Bytes)
  | block (head tail : Bytes) (body : List SourceTree)

namespace SourceTree

def pad (indent depth : Nat) : Bytes := Bytes.spaces (depth * indent)

mutual

def lines (indent depth : Nat) : SourceTree → List Bytes
  | .blank => [[]]
  | .line text => [pad indent depth ++ text]
  | .block head tail body =>
    if body.isEmpty then [pad indent depth ++ (head ++ "\x7d" ++ tail)]
    else (pad indent depth ++ head) :: allLines indent (depth + 1) body ++
      [pad indent depth ++ ("\x7d" ++ tail)]

def allLines (indent depth : Nat) : List SourceTree → List Bytes
  | [] => []
  | t :: rest => lines indent depth t ++ allLines indent depth rest

end

/-- The text of trees that stand at the top of a unit. -/
def text (indent : Nat) (trees : List SourceTree) : Bytes :=
  (allLines indent 0 trees).flatMap (· ++ [Ascii.newline])

theorem allLines_eq_flatMap (indent depth : Nat) (trees : List SourceTree) :
    allLines indent depth trees = trees.flatMap (lines indent depth) := by
  induction trees with
  | nil => rfl
  | cons t rest ih => rw [allLines, ih, List.flatMap_cons]

theorem text_append (indent : Nat) (first second : List SourceTree) :
    text indent (first ++ second) = text indent first ++ text indent second := by
  simp only [text, allLines_eq_flatMap, List.flatMap_append]

theorem lines_ne_nil (indent depth : Nat) (t : SourceTree) : lines indent depth t ≠ [] := by
  cases t with
  | blank => simp [lines]
  | line text => simp [lines]
  | block head tail body =>
    rw [lines]
    split <;> simp

theorem allLines_eq_nil_iff {indent depth : Nat} {trees : List SourceTree} :
    allLines indent depth trees = [] ↔ trees = [] := by
  cases trees with
  | nil => simp [allLines]
  | cons t rest => simp [allLines, lines_ne_nil]

end SourceTree

namespace Writer

/-- Writes the lines of trees at the depth of the writer. -/
def put (w : Writer) (trees : List SourceTree) : Writer :=
  { w with written := (SourceTree.allLines w.indent w.depth trees).reverse ++ w.written }

theorem put_put (w : Writer) (first second : List SourceTree) :
    (w.put first).put second = w.put (first ++ second) := by
  simp [put, SourceTree.allLines_eq_flatMap]

theorem length_put_iff (w : Writer) (trees : List SourceTree) :
    (w.put trees).written.length = w.written.length ↔ trees = [] := by
  have hlines : SourceTree.allLines w.indent w.depth trees = [] ↔ trees = [] :=
    SourceTree.allLines_eq_nil_iff
  rw [← hlines, ← List.length_eq_zero_iff]
  simp only [put, List.length_append, List.length_reverse]
  omega

theorem close_open_eq_put (w : Writer) (head tail : Bytes) (body : List SourceTree) (hb : body ≠ []) :
    ((w.open_ head).put body).close ("\x7d" ++ tail) = w.put [.block head tail body] := by
  have he : body.isEmpty = false := by simpa using hb
  simp [open_, close, line, push, put, SourceTree.allLines, SourceTree.lines, SourceTree.pad, he]

/-- A block that writes its body as trees is the block of these trees, also when the head line was
taken back. -/
theorem block_eq_put (w : Writer) (head tail : Bytes) (write : Writer → Writer)
    (body : List SourceTree) (hw : write (w.open_ head) = (w.open_ head).put body) :
    w.block head tail write = w.put [.block head tail body] := by
  unfold block
  simp only [hw]
  cases body with
  | nil =>
    simp [open_, line, push, truncate, put, SourceTree.allLines, SourceTree.lines, SourceTree.pad]
  | cons t rest =>
    have hl := mt (length_put_iff (w.open_ head) (t :: rest)).mp (List.cons_ne_nil t rest)
    rw [if_neg hl]
    exact close_open_eq_put w head tail _ (List.cons_ne_nil t rest)

theorem text_put (indent : Nat) (trees : List SourceTree) :
    (put { indent := indent } trees).text = SourceTree.text indent trees := by
  simp [text, put, SourceTree.text]

/-- What is done to a writer by its operations, and the trees that it follows: a block of the writer
stands for a block of the tree, with what its body does for what the block holds. -/
inductive Renders : (Writer → Writer) → List SourceTree → Prop
  | nothing : Renders id []
  | line (text : Bytes) : Renders (fun w => w.line text) [.line text]
  | blank : Renders (fun w => w.blank) [.blank]
  | andThen {first second : Writer → Writer} {trees others : List SourceTree}
      (hf : Renders first trees) (hs : Renders second others) :
      Renders (fun w => second (first w)) (trees ++ others)
  | block {body : Writer → Writer} {trees : List SourceTree} (head tail : Bytes)
      (hb : Renders body trees) :
      Renders (fun w => w.block head tail body) [.block head tail trees]
  | enclosed {body : Writer → Writer} {trees : List SourceTree} (head tail : Bytes)
      (hb : Renders body trees) (hne : trees ≠ []) :
      Renders (fun w => (body (w.open_ head)).close ("\x7d" ++ tail)) [.block head tail trees]

namespace Renders

variable {write : Writer → Writer} {trees : List SourceTree}

/-- What follows a tree writes its lines, and leaves the depth and the lines before as they were. -/
theorem eq_put (h : Renders write trees) (w : Writer) : write w = w.put trees := by
  induction h generalizing w with
  | nothing => rfl
  | line text => rfl
  | blank => rfl
  | andThen _ _ ihf ihs => simp only [ihf, ihs, put_put]
  | block head tail _ ih => exact w.block_eq_put head tail _ _ (ih _)
  | enclosed head tail _ hne ih =>
    simp only [ih]
    exact close_open_eq_put w head tail _ hne

theorem length_eq_iff (h : Renders write trees) (w : Writer) :
    (write w).written.length = w.written.length ↔ trees = [] := by
  rw [h.eq_put]
  exact length_put_iff w trees

/-- Of an empty block nothing but its own head line is taken back. -/
theorem truncate_eq (h : Renders write []) (w : Writer) (head : Bytes) :
    (write (w.open_ head)).truncate w.written.length = { w with depth := w.depth + 1 } := by
  have hw : (w.open_ head).put [] = w.open_ head := rfl
  have hl : (w.open_ head).written = (Bytes.spaces (w.depth * w.indent) ++ head) :: w.written := rfl
  have hn : (w.open_ head).written.length - w.written.length = 1 := by
    rw [hl, List.length_cons]
    omega
  rw [h.eq_put, hw, truncate, hn, hl]
  rfl

theorem foldl {α : Type} {write : Writer → α → Writer} {trees : α → List SourceTree}
    (h : ∀ a, Renders (fun w => write w a) (trees a)) (items : List α) :
    Renders (fun w => items.foldl write w) (items.flatMap trees) := by
  induction items with
  | nil => exact .nothing
  | cons a rest ih => exact (h a).andThen ih

theorem lines (texts : List Bytes) : Renders (fun w => w.lines texts) (texts.map .line) := by
  have hl := foldl (fun text => Renders.line text) texts
  rwa [← List.map_eq_flatMap] at hl

end Renders

end Writer

def MessageDecl.tree (head tail : Bytes) (m : MessageDecl) : SourceTree :=
  .block head tail (m.fields.map fun f => .line f.text)

/-- The enum of the tags of messages. -/
def tagsTree (head : Bytes) (messages : List MessageDecl) : SourceTree :=
  .block head ";" (messages.map fun m => .line (m.name ++ ","))

def requestsTree (messages : List MessageDecl) : SourceTree :=
  .block "pub const rq = union(request) \x7b" ";"
    (messages.map fun m => m.tree (m.name ++ ": struct \x7b") ",")

def eventsTree (messages : List MessageDecl) : SourceTree :=
  .block "pub const ev = struct \x7b" ";"
    (messages.map fun m => m.tree ("pub const " ++ m.name ++ " = struct \x7b") ";")

def EnumDecl.tree : EnumDecl → SourceTree
  | .plain name members =>
    .block ("pub const " ++ name ++ " = enum(u32) \x7b") ";" (members.map fun m => .line m.text)
  | .bitfield name fields =>
    .block ("pub const " ++ name ++ " = packed struct(u32) \x7b") ";"
      ((fields.map fun f => .line f.text) ++
        [.blank,.block "comptime \x7b" [] [.line (widthCheck name)]])

def InterfaceDecl.tree (i : InterfaceDecl) : SourceTree :=
  .block ("pub const " ++ i.name ++ " = struct \x7b") ";"
    ([tagsTree "pub const request = enum \x7b" i.requests,.blank,
      tagsTree "pub const event = enum \x7b" i.events,.blank,
      requestsTree i.requests,.blank,
      eventsTree i.events] ++ i.enums.flatMap fun e => [.blank,e.tree])

/-- The notice and the import in front of the interfaces. -/
def UnitDecl.preamble (u : UnitDecl) : List SourceTree :=
  (if u.notice.isEmpty then [] else u.notice.map .line ++ [.blank]) ++
    [.line ("const types = " ++ importOf u.typesUnit ++ ";")]

def UnitDecl.trees (u : UnitDecl) : List SourceTree :=
  u.preamble ++ u.interfaces.flatMap fun i => [.blank,i.tree]

theorem UnitDecl.mem_trees {u : UnitDecl} {t : SourceTree} (h : t ∈ u.trees) :
    t = .blank ∨ (∃ line ∈ u.notice, t = .line line) ∨
      t = .line ("const types = " ++ importOf u.typesUnit ++ ";") ∨ ∃ i ∈ u.interfaces, t = i.tree := by
  simp only [UnitDecl.trees, UnitDecl.preamble, List.append_assoc, List.mem_append] at h
  rcases h with h | h | h
  · split at h
    · cases h
    rcases List.mem_append.mp h with h | h
    · obtain ⟨line,hl,rfl⟩ := List.mem_map.mp h
      exact .inr (.inl ⟨line,hl,rfl⟩)
    · exact .inl (List.mem_singleton.mp h)
  · exact .inr (.inr (.inl (List.mem_singleton.mp h)))
  · obtain ⟨i,hi,h⟩ := List.mem_flatMap.mp h
    simp only [List.mem_cons, List.not_mem_nil, or_false] at h
    rcases h with rfl | rfl
    · exact .inl rfl
    · exact .inr (.inr (.inr ⟨i,hi,rfl⟩))

section Written

open Writer (Renders)

theorem writeTags_renders (head : Bytes) (messages : List MessageDecl) :
    Renders (writeTags head messages) [tagsTree head messages] := by
  have hl := Renders.lines (messages.map fun m => m.name ++ ",")
  rw [List.map_map] at hl
  exact hl.block head ";"

theorem MessageDecl.write_renders (m : MessageDecl) (head tail : Bytes) :
    Renders (m.write head tail) [m.tree head tail] := by
  have hl := Renders.lines (m.fields.map Field.text)
  rw [List.map_map] at hl
  exact hl.block head tail

theorem writeRequests_renders (messages : List MessageDecl) :
    Renders (writeRequests messages) [requestsTree messages] := by
  have hm := Renders.foldl (fun m : MessageDecl => m.write_renders (m.name ++ ": struct \x7b") ",")
    messages
  rw [← List.map_eq_flatMap] at hm
  exact hm.block _ ";"

theorem writeEvents_renders (messages : List MessageDecl) :
    Renders (writeEvents messages) [eventsTree messages] := by
  have hm := Renders.foldl (fun m : MessageDecl =>
    m.write_renders ("pub const " ++ m.name ++ " = struct \x7b") ";") messages
  rw [← List.map_eq_flatMap] at hm
  exact hm.block _ ";"

theorem EnumDecl.write_renders (e : EnumDecl) : Renders (fun w => EnumDecl.write w e) [e.tree] := by
  cases e with
  | plain name members =>
    have hl := Renders.lines (members.map EnumMember.text)
    rw [List.map_map] at hl
    exact hl.block ("pub const " ++ name ++ " = enum(u32) \x7b") ";"
  | bitfield name fields =>
    have hl := Renders.lines (fields.map BitField.text)
    rw [List.map_map] at hl
    have hc := (Renders.line (widthCheck name)).enclosed "comptime \x7b" [] (List.cons_ne_nil _ _)
    have hb := hl.andThen (Renders.blank.andThen hc)
    exact hb.enclosed ("pub const " ++ name ++ " = packed struct(u32) \x7b") ";" (by simp)

theorem InterfaceDecl.write_renders (i : InterfaceDecl) :
    Renders (fun w => InterfaceDecl.write w i) [i.tree] := by
  have hq := (writeTags_renders "pub const request = enum \x7b" i.requests).andThen .blank
  have he := (writeTags_renders "pub const event = enum \x7b" i.events).andThen .blank
  have hr := (writeRequests_renders i.requests).andThen .blank
  have hs := Renders.foldl (fun e : EnumDecl => Renders.blank.andThen e.write_renders) i.enums
  have hb := (((hq.andThen he).andThen hr).andThen (writeEvents_renders i.events)).andThen hs
  exact hb.enclosed ("pub const " ++ i.name ++ " = struct \x7b") ";" (by simp)

theorem UnitDecl.write_renders (u : UnitDecl) : Renders (fun w => UnitDecl.write w u) u.trees := by
  have ht := Renders.line ("const types = " ++ importOf u.typesUnit ++ ";")
  have his := Renders.foldl (fun i : InterfaceDecl => Renders.blank.andThen i.write_renders)
    u.interfaces
  have hn : Renders (fun w => if u.notice.isEmpty then w else (w.lines u.notice).blank)
      (if u.notice.isEmpty then [] else u.notice.map .line ++ [.blank]) := by
    by_cases he : u.notice.isEmpty = true
    · simp only [if_pos he]
      exact .nothing
    · simp only [if_neg he]
      exact (Renders.lines u.notice).andThen .blank
  exact (hn.andThen ht).andThen his

end Written

theorem UnitDecl.text_eq (u : UnitDecl) (indent : Nat) :
    u.text indent = SourceTree.text indent u.trees := by
  rw [UnitDecl.text, u.write_renders.eq_put, Writer.text_put]

namespace IndexDecl

open Writer (Renders)

def importTrees (i : IndexDecl) : List SourceTree :=
  [.line "const std = @import(\"std\");"] ++
    (if i.imports.isEmpty then [] else .blank :: i.imports.map fun u => .line (importLine u)) ++
    [.blank,.line ("pub const types = " ++ importOf i.typesUnit ++ ";")]

/-- A table with a row for the invalid member and one for each entry. -/
def tableTree (i : IndexDecl) (head invalid : Bytes) (row : IndexEntry → Bytes) (tail : Bytes) :
    SourceTree :=
  .block head tail (.line invalid :: i.entries.map fun e => .line (row e))

def interfaceTree (i : IndexDecl) : SourceTree :=
  i.tableTree "pub const Interface = enum \x7b" (invalidMember ++ ",") (fun e => e.member ++ ",") ";"

def mapTree (i : IndexDecl) : SourceTree :=
  i.tableTree "pub const map = std.EnumArray(Interface, type).init(.\x7b"
    ("." ++ invalidMember ++ " = enum \x7b\x7d,")
    (fun e => "." ++ e.member ++ " = " ++ e.path ++ ".event,") ");"

def eventsTree (i : IndexDecl) : SourceTree :=
  i.tableTree "pub const Events = union(Interface) \x7b"
    (invalidMember ++ ": " ++ handlerType "enum \x7b\x7d" ++ ",")
    (fun e => e.member ++ ": " ++ handlerType (e.path ++ ".event") ++ ",") ";"

def requestsTree (i : IndexDecl) : SourceTree :=
  i.tableTree "pub const Requests = union(Interface) \x7b" (invalidMember ++ ": void,")
    (fun e => e.member ++ ": " ++ e.path ++ ".rq,") ";"

/-- All of the index but the table of requests. -/
def eventTrees (i : IndexDecl) : List SourceTree :=
  i.importTrees ++ [.blank,i.interfaceTree,.blank,i.mapTree,.blank,i.eventsTree]

def trees (i : IndexDecl) : List SourceTree :=
  i.eventTrees ++ if i.eventsOnly then [] else [.blank,i.requestsTree]

theorem mem_importTrees {i : IndexDecl} {t : SourceTree} (h : t ∈ i.importTrees) :
    t = .blank ∨ t = .line "const std = @import(\"std\");" ∨
      (∃ u ∈ i.imports, t = .line (importLine u)) ∨
      t = .line ("pub const types = " ++ importOf i.typesUnit ++ ";") := by
  simp only [importTrees, List.append_assoc, List.mem_append, List.mem_cons, List.not_mem_nil,
    or_false] at h
  rcases h with rfl | h | rfl | rfl
  · exact .inr (.inl rfl)
  · split at h
    · cases h
    rcases List.mem_cons.mp h with rfl | h
    · exact .inl rfl
    · obtain ⟨u,hu,rfl⟩ := List.mem_map.mp h
      exact .inr (.inr (.inl ⟨u,hu,rfl⟩))
  · exact .inl rfl
  · exact .inr (.inr (.inr rfl))

theorem mem_trees {i : IndexDecl} {t : SourceTree} (h : t ∈ i.trees) :
    t = .blank ∨ t ∈ i.importTrees ∨
      t ∈ [i.interfaceTree,i.mapTree,i.eventsTree,i.requestsTree] := by
  simp only [trees, eventTrees, List.append_assoc, List.mem_append] at h
  rcases h with h | h | h
  · exact .inr (.inl h)
  · simp only [List.mem_cons, List.not_mem_nil, or_false] at h
    rcases h with rfl | rfl | rfl | rfl | rfl | rfl <;> simp
  · split at h
    · cases h
    simp only [List.mem_cons, List.not_mem_nil, or_false] at h
    rcases h with rfl | rfl <;> simp

theorem writeImports_renders (i : IndexDecl) : Renders i.writeImports i.importTrees := by
  have hi : Renders (fun w => if i.imports.isEmpty then w else w.blank.lines (i.imports.map importLine))
      (if i.imports.isEmpty then [] else .blank :: i.imports.map fun u => .line (importLine u)) := by
    by_cases he : i.imports.isEmpty = true
    · simp only [if_pos he]
      exact .nothing
    · have hl := Renders.lines (i.imports.map importLine)
      rw [List.map_map] at hl
      simp only [if_neg he]
      exact Renders.blank.andThen hl
  have hs := (Renders.line "const std = @import(\"std\");").andThen hi
  exact hs.andThen (Renders.blank.andThen (.line ("pub const types = " ++ importOf i.typesUnit ++ ";")))

theorem writeTable_renders (i : IndexDecl) (head invalid : Bytes) (row : IndexEntry → Bytes)
    (tail : Bytes) : Renders (i.writeTable head invalid row ("\x7d" ++ tail))
      [.blank,i.tableTree head invalid row tail] := by
  have hl := Renders.lines (i.entries.map row)
  rw [List.map_map] at hl
  exact Renders.blank.andThen (((Renders.line invalid).andThen hl).enclosed head tail (by simp))

theorem write_renders (i : IndexDecl) : Renders i.write i.trees := by
  have hi : Renders _ [.blank,i.interfaceTree] := i.writeTable_renders _ _ _ ";"
  have hm : Renders _ [.blank,i.mapTree] := i.writeTable_renders _ _ _ ");"
  have hv : Renders _ [.blank,i.eventsTree] := i.writeTable_renders _ _ _ ";"
  have hq : Renders _ [.blank,i.requestsTree] := i.writeTable_renders _ _ _ ";"
  have he := ((i.writeImports_renders.andThen hi).andThen hm).andThen hv
  have hevents : i.eventTrees = i.importTrees ++ [.blank,i.interfaceTree] ++ [.blank,i.mapTree] ++
      [.blank,i.eventsTree] := by
    simp only [eventTrees, List.append_assoc, List.cons_append, List.nil_append]
  by_cases ho : i.eventsOnly = true
  · have hw : i.write = _ := funext fun w => if_pos ho
    rw [trees, if_pos ho, List.append_nil, hevents, hw]
    exact he
  · have hw : i.write = _ := funext fun w => if_neg ho
    rw [trees, if_neg ho, hevents, hw]
    exact he.andThen hq

theorem text_eq (i : IndexDecl) (indent : Nat) :
    i.text indent = SourceTree.text indent i.trees := by
  rw [IndexDecl.text, i.write_renders.eq_put, Writer.text_put]

end IndexDecl

end WaylandZig.Zig
