import WaylandZig.Proofs.Zig.IndexTables

/-! # The text of a unit by interface

A unit is written in parts. In the unit of a document each interface has one part, its struct with
the empty line in front. In the index each interface has a row of every table. What is left belongs to
no interface. Leaving interfaces out of a declaration leaves out their parts and changes no other.
-/
namespace WaylandZig.Zig

/-- A piece of source text, and the name of the interface that it is written for if there is one. -/
structure TextPart where
  owner? : Option Bytes
  text : Bytes
  deriving DecidableEq, Repr

namespace TextPart

def joined (parts : List TextPart) : Bytes := parts.flatMap TextPart.text

/-- The parts that belong to none of these interfaces. -/
def remaining (skip : List Bytes) (parts : List TextPart) : List TextPart :=
  parts.filter fun p => !p.owner?.any skip.contains

def common (text : Bytes) : TextPart := ⟨none,text⟩

/-- One part for each item, which belongs to the owner at its position. -/
def owned {α : Type} (owners : List Bytes) (items : List α) (text : α → Bytes) : List TextPart :=
  (owners.zip items).map fun p => ⟨some p.1,text p.2⟩

/-- The second items are the first without those of the owners in `skip`. -/
def Leaves {α : Type} (skip owners : List Bytes) (items : List α) (owners' : List Bytes)
    (items' : List α) : Prop :=
  (owners.zip items).filter (fun p => !skip.contains p.1) = owners'.zip items'

/-- Items that each owner determines are left in place when owners are left out. -/
theorem Leaves.of_forall₂ {α : Type} {skip owners : List Bytes} {items items' : List α}
    {R S : Bytes → α → Prop} (hr : List.Forall₂ R owners items)
    (hs : List.Forall₂ S (owners.filter fun owner => !skip.contains owner) items')
    (h : ∀ owner a b, R owner a → S owner b → a = b) :
    Leaves skip owners items (owners.filter fun owner => !skip.contains owner) items' := by
  induction hr generalizing items' with
  | nil =>
    cases hs
    rfl
  | @cons owner a owners items ha _ ih =>
    rw [List.filter_cons] at hs
    rw [Leaves, List.filter_cons, List.zip_cons_cons, List.filter_cons]
    by_cases hk : (!skip.contains owner) = true
    · rw [if_pos hk] at hs
      obtain ⟨b,rest,hb,hrest,rfl⟩ := List.forall₂_cons_left_iff.mp hs
      rw [if_pos hk, if_pos hk, List.zip_cons_cons, ih hrest, h owner a b ha hb]
    · rw [if_neg hk] at hs
      rw [if_neg hk, if_neg hk, ih hs]

theorem joined_append (first second : List TextPart) :
    joined (first ++ second) = joined first ++ joined second :=
  List.flatMap_append

theorem joined_common (text : Bytes) : joined [common text] = text := by
  simp [joined, common]

theorem joined_owned {α : Type} {owners : List Bytes} {items : List α}
    (h : owners.length = items.length) (text : α → Bytes) :
    joined (owned owners items text) = items.flatMap text := by
  have hz : (owners.zip items).map Prod.snd = items := List.map_snd_zip (Nat.le_of_eq h.symm)
  calc
    joined (owned owners items text) = (owners.zip items).flatMap fun p => text p.2 := by
      rw [joined, owned, List.flatMap_map]
    _ = ((owners.zip items).map Prod.snd).flatMap text := by rw [List.flatMap_map]
    _ = items.flatMap text := by rw [hz]

variable {skip : List Bytes}

theorem remaining_append (first second : List TextPart) :
    remaining skip (first ++ second) = remaining skip first ++ remaining skip second :=
  List.filter_append ..

theorem remaining_common (text : Bytes) : remaining skip [common text] = [common text] := rfl

theorem remaining_owned {α : Type} {owners owners' : List Bytes} {items items' : List α}
    (h : Leaves skip owners items owners' items') (text : α → Bytes) :
    remaining skip (owned owners items text) = owned owners' items' text := by
  rw [remaining, owned, owned, ← h, List.filter_map]
  rfl

/-- What remains of parts that are written for each of several things. -/
theorem remaining_flatMap {α : Type} (items : List α) (parts : α → List TextPart) :
    remaining skip (items.flatMap parts) = items.flatMap fun a => remaining skip (parts a) :=
  List.filter_flatMap

end TextPart

open TextPart

theorem SourceTree.text_flatMap {α : Type} (indent : Nat) (items : List α)
    (trees : α → List SourceTree) :
    text indent (items.flatMap trees) = items.flatMap fun a => text indent (trees a) := by
  simp only [text, allLines_eq_flatMap, List.flatMap_assoc]

def UnitDecl.parts (u : UnitDecl) (indent : Nat) (owners : List Bytes) : List TextPart :=
  common (SourceTree.text indent u.preamble) ::
    owned owners u.interfaces fun i => SourceTree.text indent [.blank,i.tree]

theorem UnitDecl.joined_parts {u : UnitDecl} {owners : List Bytes}
    (h : owners.length = u.interfaces.length) (indent : Nat) :
    joined (u.parts indent owners) = SourceTree.text indent u.trees := by
  rw [UnitDecl.parts, ← List.singleton_append, joined_append, joined_common, joined_owned h,
    UnitDecl.trees, SourceTree.text_append, SourceTree.text_flatMap]

theorem UnitDecl.remaining_parts {skip : List Bytes} {u u' : UnitDecl} {owners owners' : List Bytes}
    (hp : u'.preamble = u.preamble) (h : Leaves skip owners u.interfaces owners' u'.interfaces)
    (indent : Nat) : remaining skip (u.parts indent owners) = u'.parts indent owners' := by
  rw [UnitDecl.parts, UnitDecl.parts, ← List.singleton_append, remaining_append, remaining_common,
    remaining_owned h, hp]
  rfl

def endLine (line : Bytes) : Bytes := line ++ [Ascii.newline]

/-- The rows of a table belong to the interfaces, and its head and the invalid member to none. -/
def IndexTable.parts (t : IndexTable) (i : IndexDecl) (indent : Nat) (owners : List Bytes) :
    List TextPart :=
  [common (endLine [] ++ endLine t.head ++ endLine (Bytes.spaces indent ++ t.invalid))] ++
    owned owners i.entries (fun e => endLine (Bytes.spaces indent ++ t.row e)) ++
    [common (endLine ("\x7d" ++ t.tail))]

theorem IndexTable.joined_parts (t : IndexTable) {i : IndexDecl} {owners : List Bytes}
    (h : owners.length = i.entries.length) (indent : Nat) :
    joined (t.parts i indent owners) = SourceTree.text indent [.blank,t.tree i] := by
  have hl : SourceTree.allLines indent 0 [.blank,t.tree i] =
      [] :: (i.tableTree t.head t.invalid t.row t.tail).lines indent 0 := by
    simp [SourceTree.allLines, SourceTree.lines, IndexTable.tree]
  have hr : (i.entries.map fun e => Bytes.spaces indent ++ t.row e).flatMap (· ++ [Ascii.newline]) =
      i.entries.flatMap fun e => endLine (Bytes.spaces indent ++ t.row e) := List.flatMap_map ..
  rw [SourceTree.text, hl, lines_tableTree, IndexTable.parts, joined_append, joined_append,
    joined_common, joined_common, joined_owned h, ← hr]
  simp [endLine]

theorem IndexTable.remaining_parts (t : IndexTable) {skip : List Bytes} {i i' : IndexDecl}
    {owners owners' : List Bytes} (h : Leaves skip owners i.entries owners' i'.entries) (indent : Nat) :
    remaining skip (t.parts i indent owners) = t.parts i' indent owners' := by
  rw [IndexTable.parts, IndexTable.parts, remaining_append, remaining_append, remaining_common,
    remaining_common, remaining_owned h]

def IndexDecl.parts (i : IndexDecl) (indent : Nat) (owners : List Bytes) : List TextPart :=
  common (SourceTree.text indent i.importTrees) ::
    i.tables.flatMap fun t => t.parts i indent owners

theorem IndexDecl.joined_parts {i : IndexDecl} {owners : List Bytes}
    (h : owners.length = i.entries.length) (indent : Nat) :
    joined (i.parts indent owners) = SourceTree.text indent i.trees := by
  have hp : joined (i.tables.flatMap fun t => t.parts i indent owners) =
      i.tables.flatMap fun t => SourceTree.text indent [.blank,t.tree i] := by
    simp only [joined, List.flatMap_assoc]
    exact List.flatMap_congr fun t _ => t.joined_parts h indent
  rw [IndexDecl.parts, ← List.singleton_append, joined_append, joined_common, hp,
    IndexDecl.trees_eq_tables, SourceTree.text_append, SourceTree.text_flatMap]

theorem IndexDecl.remaining_parts {skip : List Bytes} {i i' : IndexDecl} {owners owners' : List Bytes}
    (hi : i'.importTrees = i.importTrees) (ho : i'.eventsOnly = i.eventsOnly)
    (h : Leaves skip owners i.entries owners' i'.entries) (indent : Nat) :
    remaining skip (i.parts indent owners) = i'.parts indent owners' := by
  have ht : i'.tables = i.tables := by rw [IndexDecl.tables, IndexDecl.tables, ho]
  rw [IndexDecl.parts, IndexDecl.parts, ← List.singleton_append, remaining_append, remaining_common,
    remaining_flatMap, hi, ht]
  simp only [IndexTable.remaining_parts _ h, List.singleton_append]

end WaylandZig.Zig
