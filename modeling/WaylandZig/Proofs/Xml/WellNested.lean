import WaylandZig.Proofs.Xml.Tree

/-! # Well-nested streams

A stream that was read without a fault is well nested: its events are those of a forest. The reader
only keeps the names of the open elements, so the forest is found afterwards, by following the depth
from opening to closing.
-/
namespace WaylandZig.Xml

/-- The events close `depth` open elements and everything that they open themselves. -/
def Balanced : Nat → List Event → Prop
  | depth, [] => depth = 0
  | depth, .opened _ _ :: events => Balanced (depth + 1) events
  | 0, .closed :: _ => False
  | depth + 1, .closed :: events => Balanced depth events
  | depth, .text _ :: events => Balanced depth events

/-- In front of the next closing, or of the end, stand the events of a forest. -/
theorem Balanced.exists_forest {depth : Nat} {events : List Event} (h : Balanced depth events) :
    ∃ forest rest, events = Node.forestEvents forest ++ rest ∧
      (depth = 0 ∧ rest = [] ∨
        ∃ n after, depth = n + 1 ∧ rest = .closed :: after ∧ Balanced n after) := by
  -- Behind an element that was opened here the scan goes on in a list that is no tail.
  induction hn : events.length using Nat.strongRecOn generalizing depth events with
  | _ n ih =>
    subst hn
    match events with
    | [] => exact ⟨[],[],rfl,.inl ⟨by simpa [Balanced] using h,rfl⟩⟩
    | .text data :: events =>
      rw [Balanced] at h
      obtain ⟨forest,rest,rfl,hr⟩ := ih events.length (by simp) h rfl
      exact ⟨.text data :: forest,rest,by simp [Node.forestEvents, Node.events],hr⟩
    | .closed :: events =>
      cases depth with
      | zero => cases h
      | succ depth => exact ⟨[],.closed :: events,rfl,.inr ⟨depth,events,rfl,rfl,h⟩⟩
    | .opened name attributes :: events =>
      rw [Balanced] at h
      obtain ⟨children,_,rfl,⟨hd,-⟩ | ⟨m,between,hd,rfl,hb⟩⟩ := ih events.length (by simp) h rfl
      · cases hd
      · obtain rfl : depth = m := Nat.succ.inj hd
        obtain ⟨forest,rest,rfl,hr⟩ := ih between.length (by simp; omega) hb rfl
        exact ⟨.element name attributes children :: forest,rest,
          by simp [Node.forestEvents, Node.events],hr⟩

/-- The events of a stream that ends well are those of a forest. -/
def Stream.WellNested (s : Stream) : Prop :=
  s.fault? = none ∧ ∃ forest, s.events = Node.forestEvents forest

namespace Stream

theorem misfit?_eq_none {opened : List Name} {closed : Name} (h : misfit? opened closed = none) :
    ∃ name rest, opened = name :: rest := by
  cases opened with
  | nil => cases h
  | cons name rest => exact ⟨name,rest,rfl⟩

theorem balanced_readFrom {rounds : Nat} {opened : List Name} {c : Cursor}
    (h : (readFrom rounds opened c).fault? = none) :
    Balanced opened.length (readFrom rounds opened c).events := by
  induction rounds generalizing opened c with
  | zero => cases h
  | succ rounds ih =>
    unfold readFrom at h ⊢
    split at h
    · rename_i he
      rw [if_pos he]
      cases opened with
      | nil => rfl
      | cons name rest => cases h
    · rename_i he
      rw [if_neg he]
      split at h
      · cases h
      · have hb := ih h
        exact hb
      · exact ih h
      · split at h
        · cases h
        · rename_i hm
          obtain ⟨name,rest,rfl⟩ := misfit?_eq_none hm
          have hb := ih h
          exact hb
      · exact ih h
      · exact ih h

theorem wellNested_read {document : Bytes} (h : (read document).fault? = none) :
    (read document).WellNested := by
  obtain ⟨forest,rest,he,⟨-,rfl⟩ | ⟨n,after,hn,-⟩⟩ := (balanced_readFrom h).exists_forest
  · exact ⟨h,forest,by rw [read, he, List.append_nil]⟩
  · cases hn

end Stream

end WaylandZig.Xml
