import WaylandZig.Proofs.Schema.EntryValue
import WaylandZig.Proofs.Zig.DocumentUnit

/-! # The literals of an enum

The literal of a member is the text of the value of its entry, in the base that the value was read in.
It denotes the number that the entry has, and an entry with that text for its value is the same entry.
-/
namespace WaylandZig.Zig

open Schema

/-- A member is one row, in which the name of an entry gets a literal that denotes its value. -/
def MemberRow (naming : Naming) (entry : Entry) (row : SourceTree) : Prop :=
  ∃ name literal, naming.identifier entry.name = .ok name ∧
    row = .line (name ++ " = " ++ literal ++ ",") ∧
    EntryValue.Writes literal entry.hex entry.value.toNat

/-- An enum that is no bitfield has one member for each of its entries, in order. -/
def MemberRows (naming : Naming) (e : Enum) (tree : SourceTree) : Prop :=
  e.bitfield = false → ∃ name rows, naming.enumType e.name = .ok name ∧
    tree = .block ("pub const " ++ name ++ " = enum(u32) \x7b") ";" rows ∧
    List.Forall₂ (MemberRow naming) e.entries rows

theorem enumMember_row {naming : Naming} {entry : Entry} {m : EnumMember}
    (h : Site.enumMember naming entry = .ok m) : MemberRow naming entry (.line m.text) := by
  obtain ⟨name,hn,h⟩ := Except.bind_eq_ok_iff.mp h
  split at h
  · cases h
  cases h
  exact ⟨name,_,hn,rfl,EntryValue.writes_text ⟨entry.value,entry.hex⟩⟩

theorem enumDecl_rows {here : Site} {e : Enum} {decl : EnumDecl} (h : here.enumDecl e = .ok decl) :
    MemberRows here.naming e decl.tree := by
  intro hb
  obtain ⟨name,hn,⟨hbits,-⟩ | ⟨-,members,hm,rfl⟩⟩ := Site.enumDecl_cases h
  · exact absurd (hb.symm.trans hbits) Bool.false_ne_true
  · refine ⟨name,_,hn,rfl,?_⟩
    rw [List.forall₂_map_right_iff]
    exact hm.imp fun _ _ => enumMember_row

/-- An entry has the number that its text spells between white space, in the base that it is spelled
in, and a text that spells none below `2 ^ 64` is reported. The text that is printed for an entry is
read as that entry. In a unit that text is the literal in the row of the entry, where it denotes the
number of the entry. -/
theorem entries_read_back :
    (∀ (r : Reader) (e result : Enum) (name text : Bytes), r.readEntry e name text = .ok result ↔
      ∃ v : EntryValue, EntryValue.Spells text v.hex v.number.toNat ∧
        result = { e with entries := e.entries ++ [⟨name,v.number,v.hex⟩] }) ∧
    (∀ (r : Reader) (e : Enum) (name text : Bytes) (fault : ReadFault),
      r.readEntry e name text = .error fault ↔
        (∀ hex n, EntryValue.Spells text hex n → 2 ^ 64 ≤ n) ∧
          fault = .invalid r.scopes (.entryValue name text)) ∧
    (∀ (r : Reader) (e : Enum) (entry : Entry),
      r.readEntry e entry.name (EntryValue.text ⟨entry.value,entry.hex⟩) =
        .ok { e with entries := e.entries ++ [entry] }) ∧
    (∀ (s : DocumentSet) (settings : Settings) (types : TypeMap) (documentIndex : Nat) (d : Document)
      (text : Bytes), documentUnit s settings types documentIndex d = .ok text →
        ∃ u, EmitsUnit s settings types documentIndex d u ∧
          text = SourceTree.text settings.indentSize.toNat u.trees ∧
          List.Forall₂ (fun (here : Site) (i : InterfaceDecl) =>
            List.Forall₂ (MemberRows here.naming) here.interface.enums (i.enums.map EnumDecl.tree))
            (sites documentIndex d) u.interfaces) := by
  refine ⟨?_,?_,?_,?_⟩
  · intro r e result name text
    exact Reader.readEntry_eq_ok_iff
  · intro r e name text fault
    exact Reader.readEntry_eq_error_iff
  · intro r e entry
    rw [Reader.readEntry, EntryValue.read?_text]
  · intro s settings types documentIndex d text h
    obtain ⟨u,hu,ht⟩ := documentUnit_eq_ok_iff.mp h
    refine ⟨u,hu,ht,hu.interfaces.imp ?_⟩
    intro here i hi
    rw [List.forall₂_map_right_iff]
    exact hi.enums.imp fun _ _ => enumDecl_rows

/-- A value in each base, one of them at the last bit of a literal. -/
def literalDocument : Document :=
  { name := "p"
    nameSpace := "wl"
    interfaces := [{
      name := "wl_output"
      enums := [{
        name := "mode"
        entries := [⟨"current",1,true⟩,⟨"preferred",2147483648,false⟩] }] }] }

theorem literalDocument_read_back :
    ∃ text u, documentUnit { documents := [literalDocument] } { indentSize := 2 } {} 0
        literalDocument = .ok text ∧
      EmitsUnit { documents := [literalDocument] } { indentSize := 2 } {} 0 literalDocument u ∧
      text = SourceTree.text 2 u.trees ∧
      List.Forall₂ (fun (here : Site) (i : InterfaceDecl) =>
        List.Forall₂ (MemberRows here.naming) here.interface.enums (i.enums.map EnumDecl.tree))
        (sites 0 literalDocument) u.interfaces := by
  have hok : (documentUnit { documents := [literalDocument] } { indentSize := 2 } {} 0
      literalDocument).isOk = true := by
    decide +kernel
  obtain ⟨text,ht⟩ := Except.exists_of_isOk hok
  obtain ⟨u,hu,htext,hrows⟩ := entries_read_back.2.2.2 _ _ _ _ _ _ ht
  exact ⟨text,u,ht,hu,htext,hrows⟩

end WaylandZig.Zig
