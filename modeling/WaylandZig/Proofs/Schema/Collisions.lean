import Mathlib.Data.List.Nodup
import WaylandZig.Proofs.Pairing
import WaylandZig.Proofs.Search
import WaylandZig.Schema.DocumentSet

/-! # Collisions of a set

Every collision is reported once, where it is met: a document with a reserved name, a document whose
name an earlier one has, and an interface whose name was declared before, in an earlier document or in
its own. The names met so far are carried from document to document, and a name is entered only where
it was not yet met, so that it keeps the document that had it first. A set in which no collision is
found declares every interface name once, whichever document it stands in, and its documents have
different names, none of which is reserved.
-/
namespace WaylandZig.Schema

/-- The interfaces of a document, each with the document. -/
def Document.occurrences (d : Document) : List (Document × Interface) :=
  d.interfaces.map fun i => (d,i)

namespace DocumentSet

/-- The names of the interfaces of all documents, in load order. -/
def interfaceNames (s : DocumentSet) : List Bytes := s.documents.flatMap Document.interfaceNames

/-- What is found about a document by its own name. -/
def reservedFindings (reserved : List Bytes) (d : Document) : List Diagnostic :=
  if d.name ∈ reserved then [reservedName d] else []

/-- What is found about a document behind others: the source of the first that had its name. -/
def documentFindings (before : List Document) (d : Document) : List Diagnostic :=
  ((before.find? fun e => e.name == d.name).map fun e => repeatedDocument d e.source).toList

/-- What is found about an interface behind others: the document of the first that had its name. -/
def interfaceFindings (before : List (Document × Interface)) (o : Document × Interface) :
    List Diagnostic :=
  ((before.find? fun p => p.2.name == o.2.name).map fun p => repeatedInterface o.1 o.2 p.1.name).toList

/-- What is found about a document and about each of its interfaces, behind other documents. -/
def findings (reserved : List Bytes) (before : List Document) (d : Document) : List Diagnostic :=
  reservedFindings reserved d ++ documentFindings before d ++
    eachAfter (fun above => interfaceFindings (before.flatMap Document.occurrences ++ above))
      d.occurrences

/-- A table holds the value of the first item with each key. -/
def Records {α : Type} (key value : α → Bytes) (table : List (Bytes × Bytes)) (items : List α) : Prop :=
  ∀ k, table.lookup k = (items.find? fun a => key a == k).map value

section Records

variable {α : Type} {key value : α → Bytes} {table : List (Bytes × Bytes)} {items : List α} {a : α}

theorem Records.enter (h : Records key value table items) (hn : table.lookup (key a) = none) :
    Records key value ((key a,value a) :: table) (items ++ [a]) := by
  intro k
  rw [List.find?_append]
  by_cases hk : key a = k
  · subst hk
    rw [h, Option.map_eq_none_iff] at hn
    simp [hn]
  · have hka : (key a == k) = false := by simpa using hk
    have hak : (k == key a) = false := by simpa using Ne.symm hk
    simp [hka, hak, List.lookup_cons, h k]

theorem Records.skip (h : Records key value table items) {v : Bytes}
    (hs : table.lookup (key a) = some v) : Records key value table (items ++ [a]) := by
  intro k
  rw [h, List.find?_append]
  by_cases hk : key a = k
  · subst hk
    rw [h] at hs
    obtain ⟨b,hb,-⟩ := Option.map_eq_some_iff.mp hs
    rw [hb, Option.some_or]
  · have hka : (key a == k) = false := by simpa using hk
    simp [hka]

end Records

/-- The interfaces of a document are passed over with the names that were met before it. -/
theorem interfaceCollisions_eq (d : Document) (interfaces : List Interface)
    {owners : List (Bytes × Bytes)} {before : List (Document × Interface)}
    (h : Records (fun o => o.2.name) (fun o => o.1.name) owners before) :
    (interfaceCollisions d interfaces owners).1 =
        eachAfter (fun above => interfaceFindings (before ++ above)) (interfaces.map fun i => (d,i)) ∧
      Records (fun o => o.2.name) (fun o => o.1.name) (interfaceCollisions d interfaces owners).2
        (before ++ interfaces.map fun i => (d,i)) := by
  induction interfaces generalizing owners before with
  | nil => exact ⟨rfl,by simpa [interfaceCollisions] using h⟩
  | cons i rest ih =>
    have hfound : interfaceFindings before (d,i) =
        ((owners.lookup i.name).map (repeatedInterface d i)).toList := by
      rw [h i.name, Option.map_map]
      rfl
    rw [List.map_cons, eachAfter_behind_cons, hfound,
      List.append_cons before (d,i) (rest.map fun i => (d,i))]
    cases ho : owners.lookup i.name with
    | some owner =>
      obtain ⟨hc,hr⟩ := ih (h.skip (a := (d,i)) ho)
      simp only [interfaceCollisions, ho]
      exact ⟨congrArg _ hc,hr⟩
    | none =>
      simp only [interfaceCollisions, ho]
      exact ih (h.enter (a := (d,i)) ho)

theorem collisionsFrom_eq {reserved : List Bytes} {documents before : List Document} {seen : Seen}
    (hs : Records Document.name Document.source seen.sources before)
    (ho : Records (fun o => o.2.name) (fun o => o.1.name) seen.owners
      (before.flatMap Document.occurrences)) :
    collisionsFrom reserved documents seen =
      eachAfter (fun between => findings reserved (before ++ between)) documents := by
  induction documents generalizing seen before with
  | nil => rfl
  | cons d rest ih =>
    obtain ⟨hc,hr⟩ := interfaceCollisions_eq d d.interfaces ho
    have hsources : Records Document.name Document.source
        (if ((seen.sources.lookup d.name).map (repeatedDocument d)).toList.isEmpty then
          (d.name,d.source) :: seen.sources else seen.sources) (before ++ [d]) := by
      cases hl : seen.sources.lookup d.name with
      | none => exact hs.enter hl
      | some source => exact hs.skip hl
    have hrest (sources : List (Bytes × Bytes))
        (hs : Records Document.name Document.source sources (before ++ [d])) :
        collisionsFrom reserved rest ⟨sources,(interfaceCollisions d d.interfaces seen.owners).2⟩ =
          eachAfter (fun between => findings reserved (before ++ [d] ++ between)) rest :=
      ih hs (by simpa [Document.occurrences] using hr)
    have hfound : documentFindings before d =
        ((seen.sources.lookup d.name).map (repeatedDocument d)).toList := by
      rw [hs d.name, Option.map_map]
      rfl
    rw [eachAfter_behind_cons, findings, hfound, Document.occurrences, ← hc, ← hrest _ hsources,
      collisionsFrom]
    simp [reservedFindings]

/-- The collisions are what is found about each document behind those before it. -/
theorem collisions_eq (s : DocumentSet) (reserved : List Bytes) :
    s.collisions reserved = eachAfter (findings reserved) s.documents := by
  have hs : Records Document.name Document.source ({} : Seen).sources [] := fun _ => rfl
  have ho : Records (fun o : Document × Interface => o.2.name) (fun o => o.1.name)
    ({} : Seen).owners [] := fun _ => rfl
  exact collisionsFrom_eq hs ho

theorem map_name_occurrences (documents : List Document) :
    (documents.flatMap Document.occurrences).map (fun o => o.2.name) =
      documents.flatMap Document.interfaceNames := by
  rw [List.map_flatMap]
  simp only [Document.occurrences, List.map_map]
  rfl

/-- No collision is found exactly when all names are distinct and no document name is reserved. -/
theorem collisions_eq_nil_iff {s : DocumentSet} {reserved : List Bytes} :
    s.collisions reserved = [] ↔
      s.names.Nodup ∧ (∀ name ∈ s.names, name ∉ reserved) ∧ s.interfaceNames.Nodup := by
  have hreserved : eachAfter (fun _ => reservedFindings reserved) s.documents = [] ↔
      ∀ name ∈ s.names, name ∉ reserved := by
    simp [eachAfter_const, reservedFindings, names]
  have hinterfaces : eachAfter (fun before d => eachAfter
      (fun above => interfaceFindings (before.flatMap Document.occurrences ++ above)) d.occurrences)
      s.documents = [] ↔ s.interfaceNames.Nodup := by
    rw [← eachAfter_flatMap, interfaceNames, ← map_name_occurrences]
    exact eachAfter_find?_eq_nil_iff
  have hnames : eachAfter documentFindings s.documents = [] ↔ s.names.Nodup :=
    eachAfter_find?_eq_nil_iff
  rw [collisions_eq]
  unfold findings
  rw [eachAfter_both_eq_nil_iff, eachAfter_both_eq_nil_iff, hreserved, hinterfaces, hnames, and_assoc,
    and_left_comm]

/-- No document name occurs twice in a set without collisions. -/
theorem nodup_names {s : DocumentSet} {reserved : List Bytes} (h : s.collisions reserved = []) :
    s.names.Nodup :=
  (collisions_eq_nil_iff.mp h).1

theorem notMem_reserved {s : DocumentSet} {reserved : List Bytes} (h : s.collisions reserved = [])
    {name : Bytes} (hn : name ∈ s.names) : name ∉ reserved :=
  (collisions_eq_nil_iff.mp h).2.1 name hn

/-- No interface name occurs twice in a set without collisions. -/
theorem nodup_interfaceNames {s : DocumentSet} {reserved : List Bytes}
    (h : s.collisions reserved = []) : s.interfaceNames.Nodup :=
  (collisions_eq_nil_iff.mp h).2.2

/-- Where no interface name occurs twice, the name tells which document declares it. -/
theorem index_eq_of_mem_interfaceNames {s : DocumentSet} (h : s.interfaceNames.Nodup) {j k : Nat}
    {d e : Document} (hj : s.documents[j]? = some d) (hk : s.documents[k]? = some e) {name : Bytes}
    (hd : name ∈ d.interfaceNames) (he : name ∈ e.interfaceNames) : j = k := by
  have hp := (List.nodup_flatMap.mp h).2
  obtain ⟨hlj,rfl⟩ := List.getElem?_eq_some_iff.mp hj
  obtain ⟨hlk,rfl⟩ := List.getElem?_eq_some_iff.mp hk
  rw [List.pairwise_iff_getElem] at hp
  rcases Nat.lt_trichotomy j k with hlt | heq | hlt
  · exact absurd he (hp j k hlj hlk hlt hd)
  · exact heq
  · exact absurd hd (hp k j hlk hlj hlt he)

end DocumentSet

end WaylandZig.Schema
