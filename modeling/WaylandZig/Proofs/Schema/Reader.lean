import WaylandZig.Proofs.Schema.Tree

/-! # Reading a document in one pass

Reading the events of a document one by one gives the same document and the same fault as recursion
over its element tree. A document that was read has a tree, since the reading only ends well behind
the closing of the root.
-/
namespace WaylandZig.Schema

open Xml (Node)

namespace Reader

variable (fault? : Option Xml.Fault)

theorem run_cons {r : Reader} (hp : r.place ≠ .finished) (e : Xml.Event) (events : List Xml.Event) :
    run fault? (e :: events) r = r.step e >>= run fault? events := by
  rw [run, if_neg hp]
  cases r.step e with
  | error fault => rfl
  | ok r => rfl

theorem closed_pass (r : Reader) : r.pass.closed = r := by
  simp [closed, pass]

/-- An element is opened, its children are read, and it is closed. -/
theorem run_element (r : Reader) (hp : r.place ≠ .finished) (name : Xml.Name)
    (attributes : List Xml.Attribute) (children : List Node) (rest : List Xml.Event) :
    run fault? ((Node.element name attributes children).events ++ rest) r =
      r.opened name.localPart attributes >>=
        run fault? (Node.forestEvents children ++ .closed :: rest) := by
  rw [Node.element_events_append, run_cons fault? hp, step]

mutual

/-- Inside an element that is passed over, nothing counts. -/
theorem run_ignored (n : Node) {r : Reader} (hp : r.place ≠ .finished) (hi : 0 < r.ignored)
    (rest : List Xml.Event) : run fault? (n.events ++ rest) r = run fault? rest r := by
  cases n with
  | text data =>
    have ht : r.text data = r := by
      unfold text
      split
      · rw [if_neg (by omega)]
      · rfl
    rw [Node.events, List.singleton_append, run_cons fault? hp, step, ht]
    rfl
  | element name attributes children =>
    rw [run_element fault? r hp, opened, if_pos hi]
    change run fault? (Node.forestEvents children ++ .closed :: rest) r.pass = _
    rw [run_ignoredAll children (r := r.pass) hp (Nat.succ_pos _),
      run_cons fault? (r := r.pass) hp, step, closed_pass]
    rfl

theorem run_ignoredAll (forest : List Node) {r : Reader} (hp : r.place ≠ .finished)
    (hi : 0 < r.ignored) (rest : List Xml.Event) :
    run fault? (Node.forestEvents forest ++ rest) r = run fault? rest r := by
  cases forest with
  | nil => rfl
  | cons n forest =>
    rw [Node.forestEvents, List.append_assoc, run_ignored n hp hi, run_ignoredAll forest hp hi]

end

/-- The children of an element that is complete with its attributes are passed over. -/
theorem run_passed (r : Reader) (hp : r.place ≠ .finished) (children : List Node)
    (rest : List Xml.Event) :
    run fault? (Node.forestEvents children ++ .closed :: rest) r.pass = run fault? rest r := by
  rw [run_ignoredAll fault? children (r := r.pass) hp (Nat.succ_pos _),
    run_cons fault? (r := r.pass) hp, step, closed_pass]
  rfl

/-- Text counts in a copyright notice alone. -/
theorem run_text (r : Reader) (hp : r.place ≠ .finished) (hc : ∀ text, r.place ≠ .copyright text)
    (data : Bytes) (rest : List Xml.Event) :
    run fault? ((Node.text data).events ++ rest) r = run fault? rest r := by
  have ht : r.text data = r := by
    unfold text
    split
    · rename_i text he
      exact absurd he (hc text)
    · rfl
  rw [Node.events, List.singleton_append, run_cons fault? hp, step, ht]
  rfl

theorem convert_eq {α : Type} (r : Reader) (element : Bytes) (attributes : List Xml.Attribute)
    (read : Attributes → Except AttributeFault α) :
    r.convert element attributes read = convertIn r.scopes element attributes read := by
  rw [convert, convertIn]
  cases read (Attributes.ofElement attributes) with
  | error fault => rfl
  | ok a => rfl

section Places

variable (d : Document) (i : Interface)

/-- One node inside a message. -/
theorem run_messageNode (m : Message) (n : Node) (rest : List Xml.Event) :
    run fault? (n.events ++ rest) ⟨d,.message i m,0⟩ =
      m.addNode [.interface i.name,.message m.kind m.name] n >>= fun m =>
        run fault? rest ⟨d,.message i m,0⟩ := by
  cases n with
  | text data => exact run_text fault? _ (by simp) (by simp) data rest
  | element name attributes children =>
    rw [run_element fault? _ (by simp), Message.addNode, opened]
    by_cases ha : name.localPart = "arg"
    · simp only [ha, if_true, Nat.lt_irrefl, if_false, convert_eq, bind_assoc, pure_bind]
      congr 1
      funext a
      exact run_passed fault? ⟨d,.message i { m with args := m.args ++ [a] },0⟩ (by simp) children rest
    · simp only [ha, if_false, Nat.lt_irrefl]
      exact run_passed fault? ⟨d,.message i m,0⟩ (by simp) children rest

/-- The children of a message, up to its end. -/
theorem run_message (m : Message) (forest : List Node) (rest : List Xml.Event) :
    run fault? (Node.forestEvents forest ++ .closed :: rest) ⟨d,.message i m,0⟩ =
      forest.foldlM (Message.addNode [.interface i.name,.message m.kind m.name]) m >>= fun m =>
        run fault? rest ⟨d,.interface (addMessage i m),0⟩ := by
  induction forest generalizing m with
  | nil =>
    rw [Node.forestEvents, List.nil_append, run_cons fault? (by simp)]
    rfl
  | cons n forest ih =>
    rw [Node.forestEvents, List.append_assoc, run_messageNode, List.foldlM_cons, bind_assoc]
    cases ha : m.addNode [.interface i.name,.message m.kind m.name] n with
    | error fault => rfl
    | ok m' =>
      obtain ⟨hk,hn⟩ := Message.addNode_keeps ha
      have hm := ih m'
      rw [hk, hn] at hm
      exact hm

theorem run_enumNode (e : Enum) (n : Node) (rest : List Xml.Event) :
    run fault? (n.events ++ rest) ⟨d,.enum i e,0⟩ =
      e.addNode [.interface i.name,.enum e.name] n >>= fun e =>
        run fault? rest ⟨d,.enum i e,0⟩ := by
  cases n with
  | text data => exact run_text fault? _ (by simp) (by simp) data rest
  | element name attributes children =>
    rw [run_element fault? _ (by simp), Enum.addNode, opened]
    by_cases ha : name.localPart = "entry"
    · simp only [ha, if_true, Nat.lt_irrefl, if_false, convert_eq, bind_assoc, pure_bind]
      congr 1
      funext p
      rw [readEntry, Enum.readEntry]
      cases EntryValue.read? p.2 with
      | none => rfl
      | some v =>
        exact run_passed fault? ⟨d,.enum i _,0⟩ (by simp) children rest
    · simp only [ha, if_false, Nat.lt_irrefl]
      exact run_passed fault? ⟨d,.enum i e,0⟩ (by simp) children rest

/-- The children of an enum, up to its end. -/
theorem run_enum (e : Enum) (forest : List Node) (rest : List Xml.Event) :
    run fault? (Node.forestEvents forest ++ .closed :: rest) ⟨d,.enum i e,0⟩ =
      forest.foldlM (Enum.addNode [.interface i.name,.enum e.name]) e >>= fun e =>
        run fault? rest ⟨d,.interface { i with enums := i.enums ++ [e] },0⟩ := by
  induction forest generalizing e with
  | nil =>
    rw [Node.forestEvents, List.nil_append, run_cons fault? (by simp)]
    rfl
  | cons n forest ih =>
    rw [Node.forestEvents, List.append_assoc, run_enumNode, List.foldlM_cons, bind_assoc]
    cases ha : e.addNode [.interface i.name,.enum e.name] n with
    | error fault => rfl
    | ok e' =>
      have he := ih e'
      rw [Enum.addNode_keeps ha] at he
      exact he

theorem run_interfaceNode (n : Node) (rest : List Xml.Event) :
    run fault? (n.events ++ rest) ⟨d,.interface i,0⟩ =
      i.addNode n >>= fun i => run fault? rest ⟨d,.interface i,0⟩ := by
  cases n with
  | text data => exact run_text fault? _ (by simp) (by simp) data rest
  | element name attributes children =>
    rw [run_element fault? _ (by simp), Interface.addNode, opened]
    by_cases hr : name.localPart = "request"
    · simp only [if_pos hr, Nat.lt_irrefl, if_false, convert_eq, bind_assoc, pure_bind,
        Message.ofElement]
      congr 1
      funext m
      exact run_message fault? d i m children rest
    by_cases he : name.localPart = "event"
    · simp only [if_neg hr, if_pos he, Nat.lt_irrefl, if_false, convert_eq, bind_assoc, pure_bind,
        Message.ofElement]
      congr 1
      funext m
      exact run_message fault? d i m children rest
    by_cases hm : name.localPart = "enum"
    · simp only [if_neg hr, if_neg he, if_pos hm, Nat.lt_irrefl, if_false, convert_eq, bind_assoc,
        pure_bind, Enum.ofElement]
      congr 1
      funext e
      exact run_enum fault? d i e children rest
    · simp only [hr, he, hm, if_false, Nat.lt_irrefl]
      exact run_passed fault? ⟨d,.interface i,0⟩ (by simp) children rest

/-- The children of an interface, up to its end. -/
theorem run_interface (forest : List Node) (rest : List Xml.Event) :
    run fault? (Node.forestEvents forest ++ .closed :: rest) ⟨d,.interface i,0⟩ =
      forest.foldlM Interface.addNode i >>= fun i =>
        run fault? rest ⟨{ d with interfaces := d.interfaces ++ [i] },.protocol,0⟩ := by
  induction forest generalizing i with
  | nil =>
    rw [Node.forestEvents, List.nil_append, run_cons fault? (by simp)]
    rfl
  | cons n forest ih =>
    rw [Node.forestEvents, List.append_assoc, run_interfaceNode, List.foldlM_cons, bind_assoc]
    congr 1
    funext i
    exact ih i

/-- The text of a copyright notice is what stands directly inside it. -/
theorem run_copyright (text : Bytes) (forest : List Node) (rest : List Xml.Event) :
    run fault? (Node.forestEvents forest ++ .closed :: rest) ⟨d,.copyright text,0⟩ =
      run fault? rest ⟨{ d with copyright :=
        if d.copyright.isEmpty then text ++ directText forest else d.copyright },.protocol,0⟩ := by
  induction forest generalizing text with
  | nil =>
    rw [Node.forestEvents, List.nil_append, run_cons fault? (by simp), directText, List.append_nil]
    rfl
  | cons n forest ih =>
    rw [Node.forestEvents, List.append_assoc]
    cases n with
    | text data =>
      rw [Node.events, List.singleton_append, run_cons fault? (by simp), directText,
        ← List.append_assoc]
      exact ih (text ++ data)
    | element name attributes children =>
      rw [run_element fault? _ (by simp), directText]
      exact (run_passed fault? ⟨d,.copyright text,0⟩ (by simp) children _).trans (ih text)

theorem run_protocolNode (n : Node) (rest : List Xml.Event) :
    run fault? (n.events ++ rest) ⟨d,.protocol,0⟩ =
      d.addNode n >>= fun d => run fault? rest ⟨d,.protocol,0⟩ := by
  cases n with
  | text data => exact run_text fault? _ (by simp) (by simp) data rest
  | element name attributes children =>
    rw [run_element fault? _ (by simp), Document.addNode, opened]
    by_cases hc : name.localPart = "copyright"
    · simp only [if_pos hc, Nat.lt_irrefl, if_false]
      exact run_copyright fault? d [] children rest
    by_cases hi : name.localPart = "interface"
    · simp only [if_neg hc, if_pos hi, Nat.lt_irrefl, if_false, convert_eq, bind_assoc, pure_bind,
        Interface.ofElement]
      congr 1
      funext i
      exact run_interface fault? d i children rest
    · simp only [hc, hi, if_false, Nat.lt_irrefl]
      exact run_passed fault? ⟨d,.protocol,0⟩ (by simp) children rest

/-- The children of the root, up to its end. What follows has no influence. -/
theorem run_protocol (forest : List Node) (rest : List Xml.Event) :
    run fault? (Node.forestEvents forest ++ .closed :: rest) ⟨d,.protocol,0⟩ =
      forest.foldlM Document.addNode d := by
  induction forest generalizing d with
  | nil =>
    rw [Node.forestEvents, List.nil_append, run_cons fault? (by simp)]
    cases rest with
    | nil => rfl
    | cons e rest => rfl
  | cons n forest ih =>
    rw [Node.forestEvents, List.append_assoc, run_protocolNode, List.foldlM_cons]
    congr 1
    funext d
    exact ih d

end Places

end Reader

/-- The number of recognised elements that are open at a place. -/
def Place.depth : Place → Nat
  | .finished => 0
  | .protocol => 1
  | .copyright _ => 2
  | .interface _ => 2
  | .message _ _ => 3
  | .enum _ _ => 3

namespace Reader

/-- The number of elements that are open. -/
def depth (r : Reader) : Nat := r.place.depth + r.ignored

/-- Nothing is left open once the root is closed. -/
def Settled (r : Reader) : Prop := r.place = .finished → r.ignored = 0

theorem depth_pos {r : Reader} (hp : r.place ≠ .finished) : ∃ n, r.depth = n + 1 := by
  rcases r with ⟨d,place,ignored⟩
  cases place with
  | finished => exact absurd rfl hp
  | protocol => exact ⟨ignored,Nat.add_comm ..⟩
  | copyright text => exact ⟨1 + ignored,by simp only [depth, Place.depth]; omega⟩
  | interface i => exact ⟨1 + ignored,by simp only [depth, Place.depth]; omega⟩
  | message i m => exact ⟨2 + ignored,by simp only [depth, Place.depth]; omega⟩
  | enum i e => exact ⟨2 + ignored,by simp only [depth, Place.depth]; omega⟩

theorem opened_depth {r next : Reader} (hp : r.place ≠ .finished) {element : Bytes}
    {attributes : List Xml.Attribute} (h : r.opened element attributes = .ok next) :
    next.Settled ∧ next.depth = r.depth + 1 := by
  rcases r with ⟨d,place,ignored⟩
  unfold opened at h
  split at h
  · cases h
    exact ⟨fun hf => absurd hf hp,rfl⟩
  rename_i hi
  obtain rfl : ignored = 0 := by simpa using hi
  cases place with
  | finished => exact absurd rfl hp
  | protocol =>
    dsimp only at h
    split at h
    · cases h
      exact ⟨nofun,rfl⟩
    split at h
    · obtain ⟨i,-,h⟩ := Except.bind_eq_ok_iff.mp h
      cases h
      exact ⟨nofun,rfl⟩
    · cases h
      exact ⟨nofun,rfl⟩
  | copyright text =>
    cases h
    exact ⟨nofun,rfl⟩
  | interface i =>
    dsimp only at h
    split at h
    · obtain ⟨m,-,h⟩ := Except.bind_eq_ok_iff.mp h
      cases h
      exact ⟨nofun,rfl⟩
    split at h
    · obtain ⟨m,-,h⟩ := Except.bind_eq_ok_iff.mp h
      cases h
      exact ⟨nofun,rfl⟩
    split at h
    · obtain ⟨e,-,h⟩ := Except.bind_eq_ok_iff.mp h
      cases h
      exact ⟨nofun,rfl⟩
    · cases h
      exact ⟨nofun,rfl⟩
  | message i m =>
    dsimp only at h
    split at h
    · obtain ⟨a,-,h⟩ := Except.bind_eq_ok_iff.mp h
      cases h
      exact ⟨nofun,rfl⟩
    · cases h
      exact ⟨nofun,rfl⟩
  | enum i e =>
    dsimp only at h
    split at h
    · obtain ⟨p,-,h⟩ := Except.bind_eq_ok_iff.mp h
      obtain ⟨e',-,h⟩ := Except.bind_eq_ok_iff.mp h
      cases h
      exact ⟨nofun,rfl⟩
    · cases h
      exact ⟨nofun,rfl⟩

theorem closed_depth {r : Reader} (hp : r.place ≠ .finished) :
    r.closed.Settled ∧ r.closed.depth + 1 = r.depth := by
  rcases r with ⟨d,place,ignored⟩
  cases ignored with
  | succ n => exact ⟨fun hf => absurd hf hp,rfl⟩
  | zero =>
    cases place with
    | finished => exact absurd rfl hp
    | protocol => exact ⟨fun _ => rfl,rfl⟩
    | copyright text => exact ⟨fun _ => rfl,rfl⟩
    | interface i => exact ⟨fun _ => rfl,rfl⟩
    | message i m => exact ⟨fun _ => rfl,rfl⟩
    | enum i e => exact ⟨fun _ => rfl,rfl⟩

theorem text_depth {r : Reader} (hp : r.place ≠ .finished) (data : Bytes) :
    (r.text data).Settled ∧ (r.text data).depth = r.depth := by
  unfold text
  split
  · rename_i text he
    split
    · exact ⟨nofun,by simp [depth, enter, he, Place.depth]⟩
    · exact ⟨fun hf => absurd hf hp,rfl⟩
  · exact ⟨fun hf => absurd hf hp,rfl⟩

/-- A reading that succeeds has met the closing of every element that was open. -/
theorem afterClosing_of_run {fault? : Option Xml.Fault} {events : List Xml.Event} {r : Reader}
    {d : Document} (hs : r.Settled) (h : run fault? events r = .ok d) :
    ∃ rest, Xml.afterClosing r.depth events = some rest := by
  induction events generalizing r with
  | nil =>
    by_cases hp : r.place = .finished
    · exact ⟨[],by simp [depth, hp, hs hp, Place.depth, Xml.afterClosing]⟩
    · rw [run, if_neg hp] at h
      cases h
  | cons e events ih =>
    by_cases hp : r.place = .finished
    · exact ⟨e :: events,by simp [depth, hp, hs hp, Place.depth, Xml.afterClosing]⟩
    rw [run_cons fault? hp] at h
    obtain ⟨next,he,hn⟩ := Except.bind_eq_ok_iff.mp h
    obtain ⟨n,hr⟩ := depth_pos hp
    cases e with
    | opened name attributes =>
      obtain ⟨hs,hd⟩ := opened_depth hp he
      obtain ⟨rest,ha⟩ := ih hs hn
      rw [hd, hr] at ha
      exact ⟨rest,by rw [hr, Xml.afterClosing, ha]⟩
    | closed =>
      cases he
      obtain ⟨hs,hd⟩ := closed_depth hp
      obtain ⟨rest,ha⟩ := ih hs hn
      exact ⟨rest,by rw [← hd]; exact ha⟩
    | text data =>
      cases he
      obtain ⟨hs,hd⟩ := text_depth hp data
      obtain ⟨rest,ha⟩ := ih hs hn
      rw [hd, hr] at ha
      exact ⟨rest,by rw [hr, Xml.afterClosing, ha]⟩

end Reader

/-- Reading the events of a root element is reading its tree. -/
theorem Document.ofRoot_eq (fault? : Option Xml.Fault) (attributes : List Xml.Attribute)
    (children : List Node) (rest : List Xml.Event) :
    ofRoot fault? attributes (Node.forestEvents children ++ .closed :: rest) =
      ofElement attributes children := by
  rw [ofRoot, ofElement, convertIn]
  cases (Attributes.ofElement attributes).protocolName with
  | error fault => rfl
  | ok name => exact Reader.run_protocol fault? _ children rest

/-- The events of a root element that was read hold its closing. -/
theorem Document.ofRoot_forest {fault? : Option Xml.Fault} {attributes : List Xml.Attribute}
    {events : List Xml.Event} {d : Document} (h : ofRoot fault? attributes events = .ok d) :
    ∃ children after, events = Node.forestEvents children ++ .closed :: after := by
  unfold ofRoot at h
  split at h
  · cases h
  · obtain ⟨rest,hr⟩ := Reader.afterClosing_of_run (by simp [Reader.Settled]) h
    have hr : Xml.afterClosing (0 + 1) events = some rest := hr
    obtain ⟨children,after,he,-⟩ := Xml.afterClosing_forest hr
    exact ⟨children,after,he⟩

/-- A document that was read has a root element, and is what the tree of that element gives. -/
theorem Document.ofEvents_root {fault? : Option Xml.Fault} {events : List Xml.Event} {d : Document}
    (h : ofEvents fault? events = .ok d) : ∃ root, Xml.IsRoot events root ∧
      root.isNamed "protocol" ∧ ofElement root.attributes root.children = .ok d := by
  induction events with
  | nil =>
    unfold ofEvents at h
    split at h <;> cases h
  | cons e events ih =>
    cases e with
    | opened name attributes =>
      rw [ofEvents] at h
      split at h
      · rename_i hn
        obtain ⟨children,after,rfl⟩ := ofRoot_forest h
        rw [ofRoot_eq] at h
        refine ⟨.element name attributes children,⟨name,attributes,children,[],after,rfl,?_,by simp⟩,
          by simpa [Node.isNamed] using hn,h⟩
        rw [List.nil_append, Node.element_events_append]
      · cases h
    | closed =>
      obtain ⟨root,⟨name,attributes,children,before,after,hr,he,hb⟩,hn,hd⟩ := ih h
      exact ⟨root,⟨name,attributes,children,.closed :: before,after,hr,by simp [he],by simpa using hb⟩,hn,hd⟩
    | text data =>
      obtain ⟨root,⟨name,attributes,children,before,after,hr,he,hb⟩,hn,hd⟩ := ih h
      exact ⟨root,⟨name,attributes,children,.text data :: before,after,hr,by simp [he],by simpa using hb⟩,hn,hd⟩

/-- A document that was read has the interfaces of its root element. -/
theorem Document.read_interfaces {source text : Bytes} {d : Document}
    (h : Document.read source text = .ok d) :
    ∃ root, Xml.IsRoot (Xml.Stream.read text).events root ∧ root.isNamed "protocol" ∧
      List.Forall₂ Interface.ReadFrom (root.childrenNamed "interface") d.interfaces := by
  obtain ⟨found,hf,h⟩ := Except.bind_eq_ok_iff.mp h
  obtain ⟨root,hr,hn,he⟩ := ofEvents_root hf
  have hi := ofElement_interfaces he
  cases h
  exact ⟨root,hr,hn,hi⟩

end WaylandZig.Schema
