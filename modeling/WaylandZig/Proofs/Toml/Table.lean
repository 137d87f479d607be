import Mathlib.Data.List.Nodup
import WaylandZig.Toml.Document

/-! # Tables with distinct keys

Changes to a table at any depth keep the keys of every table in it distinct. A change below a key
leaves the keys of the table itself as they were, so that a top-level key comes only from a change at
the top.
-/
namespace WaylandZig.Toml

def Table.keys (t : Table) : List Bytes := t.map Prod.fst

/-- No table in a value has two entries of one key. -/
inductive Value.Distinct : Value → Prop
  | text (s : Bytes) : Distinct (.text s)
  | integer (n : Int) : Distinct (.integer n)
  | boolean (b : Bool) : Distinct (.boolean b)
  | other : Distinct .other
  | array {items : List Value} (h : ∀ v ∈ items, Distinct v) : Distinct (.array items)
  | table {entries : Table} (hk : entries.keys.Nodup) (hv : ∀ e ∈ entries, Distinct e.2) :
      Distinct (.table entries)
  | tables {items : List Table} (h : ∀ t ∈ items, Distinct (.table t)) : Distinct (.tables items)

/-- No table in a table, itself included, has two entries of one key. -/
def Table.Distinct (t : Table) : Prop := Value.Distinct (.table t)

namespace Table

variable {f : Table → Table} {key : Key} {name k : Bytes} {v : Value} {e : Bytes × Value} {t t' : Table}

@[simp] theorem keys_nil : keys [] = [] := rfl

@[simp] theorem keys_cons (e : Bytes × Value) (t : Table) : keys (e :: t) = e.1 :: keys t := rfl

theorem Distinct.keys_nodup (h : t.Distinct) : t.keys.Nodup := by
  cases h with
  | table hk _ => exact hk

theorem Distinct.value (h : t.Distinct) (he : e ∈ t) : e.2.Distinct := by
  cases h with
  | table _ hv => exact hv e he

theorem distinct_nil : Distinct [] := .table List.nodup_nil nofun

theorem mem_of_lookup (h : t.lookup name = some v) : (name,v) ∈ t := by
  obtain ⟨before,after,rfl,-⟩ := List.lookup_eq_some_iff.mp h
  exact List.mem_append_right _ List.mem_cons_self

theorem mem_keys_of_lookup (h : t.lookup name = some v) : name ∈ t.keys :=
  List.mem_map_of_mem (mem_of_lookup h)

theorem Distinct.lookup_eq_some_iff (h : t.Distinct) :
    t.lookup name = some v ↔ (name,v) ∈ t := by
  refine ⟨mem_of_lookup,fun hm => ?_⟩
  obtain ⟨before,after,rfl⟩ := List.append_of_mem hm
  refine List.lookup_eq_some_iff.mpr ⟨before,after,rfl,fun e he => ?_⟩
  have hk := h.keys_nodup
  rw [keys, List.map_append, List.nodup_append] at hk
  rw [bne_iff_ne]
  exact (hk.2.2 e.1 (List.mem_map_of_mem he) name List.mem_cons_self).symm

theorem lookup_eq_none_iff : t.lookup name = none ↔ name ∉ t.keys := by
  simp only [List.lookup_eq_none_iff, bne_iff_ne, keys, List.mem_map, not_exists, not_and, ne_comm]

theorem mem_put (h : e ∈ put name v t) : e = (name,v) ∨ e ∈ t := by
  induction t with
  | nil => exact .inl (List.mem_singleton.mp h)
  | cons first t ih =>
    obtain ⟨k,old⟩ := first
    simp only [put] at h
    split at h
    · rcases List.mem_cons.mp h with h | h
      · exact .inl h
      · exact .inr (List.mem_cons_of_mem _ h)
    · rcases List.mem_cons.mp h with rfl | h
      · exact .inr List.mem_cons_self
      · exact (ih h).imp_right (List.mem_cons_of_mem _)

theorem mem_keys_put (h : k ∈ keys (put name v t)) : k = name ∨ k ∈ t.keys := by
  obtain ⟨e,he,rfl⟩ := List.mem_map.mp h
  rcases mem_put he with rfl | he
  · exact .inl rfl
  · exact .inr (List.mem_map_of_mem he)

theorem nodup_keys_put (h : t.keys.Nodup) : (put name v t).keys.Nodup := by
  induction t with
  | nil => exact List.nodup_singleton name
  | cons first t ih =>
    obtain ⟨k,old⟩ := first
    obtain ⟨hk,ht⟩ := List.nodup_cons.mp h
    simp only [put]
    split
    · rename_i he
      rw [keys_cons, ← he]
      exact h
    · rename_i hne
      refine List.nodup_cons.mpr ⟨fun hm => ?_,ih ht⟩
      exact (mem_keys_put hm).elim hne hk

theorem Distinct.put (h : t.Distinct) (hv : v.Distinct) : (put name v t).Distinct := by
  refine .table (nodup_keys_put h.keys_nodup) fun e he => ?_
  rcases mem_put he with rfl | he
  · exact hv
  · exact h.value he

theorem Distinct.lookup (h : t.Distinct) (hl : t.lookup name = some v) : v.Distinct :=
  h.value (mem_of_lookup hl)

theorem Distinct.below (h : t.Distinct) (hl : t.lookup name = some (.table t')) : t'.Distinct :=
  h.lookup hl

theorem Distinct.item (h : t.Distinct) {items : List Table}
    (hl : t.lookup name = some (.tables items)) : ∀ item ∈ items, item.Distinct := by
  cases h.lookup hl with
  | tables hi => exact hi

/-- The table at a key of a table with distinct keys has distinct keys. -/
theorem Distinct.at? (h : t.Distinct) (ha : at? key t = some t') : t'.Distinct := by
  induction key generalizing t with
  | nil =>
    cases ha
    exact h
  | cons name rest ih =>
    rw [Table.at?] at ha
    split at ha
    · rename_i inner hl
      exact ih (h.below hl) ha
    · rename_i items hl
      obtain ⟨last,hlast,ha⟩ := Option.bind_eq_some_iff.mp ha
      exact ih (h.item hl last (List.mem_of_getLast? hlast)) ha
    · cases ha

/-- A change that keeps keys distinct does so at any key. -/
theorem Distinct.change (hf : ∀ t, Distinct t → (f t).Distinct) (h : t.Distinct)
    (hc : change f key t = some t') : t'.Distinct := by
  induction key generalizing t t' with
  | nil =>
    cases hc
    exact hf t h
  | cons name rest ih =>
    rw [Table.change] at hc
    split at hc
    · rename_i inner hl
      obtain ⟨inner',hi,rfl⟩ := Option.map_eq_some_iff.mp hc
      exact h.put (ih (h.below hl) hi)
    · rename_i items hl
      obtain ⟨last',hi,rfl⟩ := Option.map_eq_some_iff.mp hc
      obtain ⟨last,hlast,hi⟩ := Option.bind_eq_some_iff.mp hi
      refine h.put (.tables fun item hm => ?_)
      rcases List.mem_append.mp hm with hm | hm
      · exact h.item hl item (List.dropLast_subset _ hm)
      · rw [List.mem_singleton.mp hm]
        exact ih (h.item hl last (List.mem_of_getLast? hlast)) hi
    · cases hc

/-- A change below a key makes no key. -/
theorem mem_keys_change {rest : Key} (hc : change f (name :: rest) t = some t') (hk : k ∈ t'.keys) :
    k ∈ t.keys := by
  rw [Table.change] at hc
  split at hc
  · rename_i inner hl
    obtain ⟨_,-,rfl⟩ := Option.map_eq_some_iff.mp hc
    rcases mem_keys_put hk with rfl | hk
    · exact mem_keys_of_lookup hl
    · exact hk
  · rename_i items hl
    obtain ⟨_,-,rfl⟩ := Option.map_eq_some_iff.mp hc
    rcases mem_keys_put hk with rfl | hk
    · exact mem_keys_of_lookup hl
    · exact hk
  · cases hc

theorem Distinct.putBelow (hv : v.Distinct) (h : t.Distinct) (hp : putBelow v key t = some t') :
    t'.Distinct := by
  fun_induction Table.putBelow v key t generalizing t' with
  | case1 =>
    cases hp
    exact h
  | case2 t name =>
    cases hp
    exact h.put hv
  | case3 t name rest hne hl ih =>
    obtain ⟨inner,hi,rfl⟩ := Option.map_eq_some_iff.mp hp
    exact h.put (ih distinct_nil hi)
  | case4 t name rest hne inner hl ih =>
    obtain ⟨inner',hi,rfl⟩ := Option.map_eq_some_iff.mp hp
    exact h.put (ih (h.below hl) hi)
  | case5 => cases hp

end Table

end WaylandZig.Toml
