import WaylandZig.Proofs.Text.Lines
import WaylandZig.Proofs.Zig.Reference

/-! # The lookup of an enum reference

A reference is a name, or two names with a dot between them. A name is looked up in the interface that
refers to it. Of two names the first is an interface, looked up in the own document and then in the
documents of the set in load order. Each of these searches takes the first that fits, and an interface
that hides another one of its name in the same document hides the enums of that one too.
-/
namespace WaylandZig.Zig

open Schema

namespace EnumRef

/-- How a reference is written. -/
def text : EnumRef → Bytes
  | .plain name => name
  | .qualified interface name => interface ++ Ascii.dot :: name

/-- Every part of the reference is there, and none holds the dot. -/
def WellFormed : EnumRef → Prop
  | .plain name => name ≠ [] ∧ Ascii.dot ∉ name
  | .qualified interface name =>
    (interface ≠ [] ∧ Ascii.dot ∉ interface) ∧ name ≠ [] ∧ Ascii.dot ∉ name

/-- No text, more than one dot, or a dot with nothing on one side of it. -/
def Malformed (text : Bytes) : Prop :=
  text = [] ∨ 2 ≤ text.count Ascii.dot ∨
    (text.count Ascii.dot = 1 ∧ (text.head? = some Ascii.dot ∨ text.getLast? = some Ascii.dot))

instance (text : Bytes) : Decidable (Malformed text) := inferInstanceAs (Decidable (_ ∨ _))

section Parts

variable {a b : Bytes}

theorem ofBytes?_name (h : Ascii.dot ∉ a) : ofBytes? a = if a = [] then none else some (.plain a) := by
  rw [ofBytes?, Bytes.splitOn_eq_singleton h]
  simp only [List.isEmpty_iff]

theorem ofBytes?_pair (ha : Ascii.dot ∉ a) (hb : Ascii.dot ∉ b) :
    ofBytes? (a ++ Ascii.dot :: b) = if a = [] ∨ b = [] then none else some (.qualified a b) := by
  rw [ofBytes?, Bytes.splitOn_append ha, Bytes.splitOn_eq_singleton hb]
  simp only [Bool.or_eq_true, List.isEmpty_iff]

theorem ofBytes?_dots (ha : Ascii.dot ∉ a) (hb : Ascii.dot ∈ b) :
    ofBytes? (a ++ Ascii.dot :: b) = none := by
  obtain ⟨c,d,rfl,hc⟩ := List.eq_append_cons_of_mem hb
  obtain ⟨part,parts,hp⟩ := List.exists_cons_of_ne_nil (Bytes.splitOn_ne_nil Ascii.dot d)
  rw [ofBytes?, Bytes.splitOn_append ha, Bytes.splitOn_append hc, hp]

theorem malformed_name_iff (h : Ascii.dot ∉ a) : Malformed a ↔ a = [] := by
  have hc : a.count Ascii.dot = 0 := List.count_eq_zero.mpr h
  simp [Malformed, hc]

theorem malformed_pair_iff (ha : Ascii.dot ∉ a) (hb : Ascii.dot ∉ b) :
    Malformed (a ++ Ascii.dot :: b) ↔ a = [] ∨ b = [] := by
  have hca : a.count Ascii.dot = 0 := List.count_eq_zero.mpr ha
  have hcb : b.count Ascii.dot = 0 := List.count_eq_zero.mpr hb
  have hhead : (a ++ Ascii.dot :: b).head? = some Ascii.dot ↔ a = [] := by
    cases a with
    | nil => simp
    | cons x a =>
      have hx : x ≠ Ascii.dot := fun hx => ha (hx ▸ List.mem_cons_self)
      simp [hx]
  have hlast : (a ++ Ascii.dot :: b).getLast? = some Ascii.dot ↔ b = [] := by
    rw [List.append_cons, List.getLast?_append]
    cases hl : b.getLast? with
    | none =>
      have hn := List.getLast?_eq_none_iff.mp hl
      simp [hn]
    | some x =>
      have hm := List.mem_of_getLast? hl
      have hx : x ≠ Ascii.dot := fun hx => hb (hx ▸ hm)
      have hne := List.ne_nil_of_mem hm
      simp [hx, hne]
  have hone : (a ++ Ascii.dot :: b).count Ascii.dot = 1 := by
    rw [List.count_append, List.count_cons_self, hca, hcb]
  have hne : a ++ Ascii.dot :: b ≠ [] := by simp
  rw [Malformed, hhead, hlast, hone]
  simp [hne]

theorem malformed_dots (hb : Ascii.dot ∈ b) : Malformed (a ++ Ascii.dot :: b) := by
  have hc : 0 < b.count Ascii.dot := List.count_pos_iff.mpr hb
  refine .inr (.inl ?_)
  rw [List.count_append, List.count_cons_self]
  omega

end Parts

/-- A text has no dot, one dot, or a dot in front of further dots. -/
theorem text_cases (text : Bytes) : Ascii.dot ∉ text ∨
    ∃ a b, text = a ++ Ascii.dot :: b ∧ Ascii.dot ∉ a ∧ (Ascii.dot ∉ b ∨ Ascii.dot ∈ b) := by
  by_cases h : Ascii.dot ∈ text
  · obtain ⟨a,b,he,ha⟩ := List.eq_append_cons_of_mem h
    exact .inr ⟨a,b,he,ha,(em (Ascii.dot ∈ b)).symm⟩
  · exact .inl h

theorem ofBytes?_eq_none_iff {text : Bytes} : ofBytes? text = none ↔ Malformed text := by
  obtain h | ⟨a,b,rfl,ha,hb | hb⟩ := text_cases text
  · rw [ofBytes?_name h, malformed_name_iff h]
    simp
  · rw [ofBytes?_pair ha hb, malformed_pair_iff ha hb]
    split
    · rename_i h
      exact iff_of_true rfl h
    · rename_i h
      exact iff_of_false nofun h
  · rw [ofBytes?_dots ha hb]
    exact iff_of_true rfl (malformed_dots hb)

theorem ofBytes?_text {ref : EnumRef} (h : ref.WellFormed) : ofBytes? ref.text = some ref := by
  cases ref with
  | plain name =>
    rw [text, ofBytes?_name h.2, if_neg h.1]
  | qualified interface name =>
    rw [text, ofBytes?_pair h.1.2 h.2.2, if_neg (not_or.mpr ⟨h.1.1,h.2.1⟩)]

theorem wellFormed_of_ofBytes? {text : Bytes} {ref : EnumRef} (h : ofBytes? text = some ref) :
    ref.WellFormed ∧ ref.text = text := by
  obtain hn | ⟨a,b,rfl,ha,hb | hb⟩ := text_cases text
  · rw [ofBytes?_name hn] at h
    split at h
    · cases h
    · rename_i hne
      cases h
      exact ⟨⟨hne,hn⟩,rfl⟩
  · rw [ofBytes?_pair ha hb] at h
    split at h
    · cases h
    · rename_i hne
      cases h
      obtain ⟨hna,hnb⟩ := not_or.mp hne
      exact ⟨⟨⟨hna,ha⟩,hnb,hb⟩,rfl⟩
  · rw [ofBytes?_dots ha hb] at h
    cases h

theorem ofBytes?_eq_some_iff {text : Bytes} {ref : EnumRef} :
    ofBytes? text = some ref ↔ ref.WellFormed ∧ ref.text = text := by
  constructor
  · exact wellFormed_of_ofBytes?
  · rintro ⟨hw,rfl⟩
    exact ofBytes?_text hw

theorem WellFormed.not_malformed {ref : EnumRef} (h : ref.WellFormed) : ¬ Malformed ref.text := by
  rw [← ofBytes?_eq_none_iff, ofBytes?_text h]
  exact nofun

end EnumRef

/-- What a reference of an interface leads to, and the search that finds it. -/
inductive Resolves (s : DocumentSet) (here : Site) : EnumRef → Resolution → Prop
  | interface {name : Bytes} {j : Nat} {e : Enum}
      (found : FirstAt (fun e => e.name = name) here.interface.enums j e) :
      Resolves s here (.plain name) ⟨here,e,.interface⟩
  | document {interface name : Bytes} {k : Nat} {i : Interface} {e : Enum}
      (found : Declares interface name here.document k i e) :
      Resolves s here (.qualified interface name)
        ⟨⟨here.documentIndex,here.document,k,i⟩,e,.document⟩
  | global {interface name : Bytes} {m : Nat} {d : Document} {k : Nat} {i : Interface} {e : Enum}
      (elsewhere : ¬ HasEnum interface name here.document)
      (first : FirstAt (HasEnum interface name) s.documents m d)
      (found : Declares interface name d k i e) :
      Resolves s here (.qualified interface name) ⟨⟨m,d,k,i⟩,e,.global⟩

section Lookup

variable {s : DocumentSet} {here : Site} {interface name : Bytes} {m : Nat} {d : Document}

/-- A document that has the enum is not the own one when the own one has it not. -/
theorem ne_of_elsewhere (hd : s.documents[here.documentIndex]? = some here.document)
    (ho : ¬ HasEnum interface name here.document)
    (hf : FirstAt (HasEnum interface name) s.documents m d) :
    m ≠ here.documentIndex ∧ d ≠ here.document := by
  have hne : d ≠ here.document := by
    rintro rfl
    exact ho hf.holds
  refine ⟨?_,hne⟩
  rintro rfl
  exact hne (Option.some.inj (hf.item.symm.trans hd))

theorem find?_iff_resolves (hd : s.documents[here.documentIndex]? = some here.document) {ref : EnumRef}
    {r : Resolution} : ref.find? s here = some r ↔ Resolves s here ref r := by
  constructor
  · intro h
    cases ref with
    | plain name =>
      obtain ⟨e,he,rfl⟩ := Option.map_eq_some_iff.mp h
      obtain ⟨j,hj⟩ := findEnum?_eq_some_iff.mp he
      exact .interface hj
    | qualified interface name =>
      cases ho : enumIn? interface name here.documentIndex here.document with
      | some found =>
        simp only [EnumRef.find?, ho, Option.some.injEq] at h
        cases h
        obtain ⟨k,i,hi,hs⟩ := enumIn?_eq_some_iff.mp ho
        rw [hs]
        exact .document hi
      | none =>
        simp only [EnumRef.find?, ho] at h
        obtain ⟨⟨site,e⟩,hs,rfl⟩ := Option.map_eq_some_iff.mp h
        obtain ⟨m,d,k,i,hf,hi,rfl⟩ := enumInSet?_eq_some_iff.mp hs
        have hn := enumIn?_eq_none_iff.mp ho
        have hstage : Site.sameDocument ⟨m,d,k,i⟩ here = false := by
          simpa [Site.sameDocument] using (ne_of_elsewhere hd hn hf).1
        simp only [hstage, Bool.false_eq_true, if_false]
        exact .global hn hf hi
  · rintro (hj | hi | ⟨hn,hf,hi⟩)
    · exact Option.map_eq_some_iff.mpr ⟨_,findEnum?_eq_some_iff.mpr ⟨_,hj⟩,rfl⟩
    · have ho := enumIn?_eq_some_iff (m := here.documentIndex).mpr ⟨_,_,hi,rfl⟩
      simp only [EnumRef.find?, ho]
    · have ho := enumIn?_eq_none_iff (m := here.documentIndex).mpr hn
      have hs := enumInSet?_eq_some_iff.mpr ⟨_,_,_,_,hf,hi,rfl⟩
      have hne := (ne_of_elsewhere hd hn hf).1
      simp [EnumRef.find?, ho, hs, Site.sameDocument, hne]

theorem resolve_iff_resolves (hd : s.documents[here.documentIndex]? = some here.document) {text : Bytes}
    {r : Resolution} : resolve s here text = .ok r ↔
      ∃ ref : EnumRef, ref.WellFormed ∧ ref.text = text ∧ Resolves s here ref r := by
  simp only [resolve_eq_ok_iff, EnumRef.ofBytes?_eq_some_iff, find?_iff_resolves hd, and_assoc]

theorem resolve_error {text : Bytes} {d : Diagnostic} (h : resolve s here text = .error d) :
    (EnumRef.Malformed text ∧ d = malformedReference text here) ∨
      (¬ EnumRef.Malformed text ∧ d = unresolvedReference text here) := by
  rw [resolve] at h
  cases hp : EnumRef.ofBytes? text with
  | none =>
    rw [hp] at h
    cases h
    exact .inl ⟨EnumRef.ofBytes?_eq_none_iff.mp hp,rfl⟩
  | some ref =>
    rw [hp] at h
    have hn : ¬ EnumRef.Malformed text := by
      rw [← EnumRef.ofBytes?_eq_none_iff, hp]
      exact nofun
    cases hf : ref.find? s here with
    | some r =>
      simp only [hf] at h
      cases h
    | none =>
      simp only [hf] at h
      cases h
      exact .inr ⟨hn,rfl⟩

theorem within_new (code : Code) (message document interface : Bytes) :
    Diagnostic.within { code := code, message := message } document interface =
      { code := code, document := document, interface := interface, message := message } := by
  cases document with
  | nil =>
    cases interface with
    | nil => rfl
    | cons b interface => rfl
  | cons b document =>
    cases interface with
    | nil => rfl
    | cons c interface => rfl

theorem resolve_malformed_iff (hd : s.documents[here.documentIndex]? = some here.document)
    {text : Bytes} : (∃ d, resolve s here text = .error d ∧ d.code = .malformedReference) ↔
      EnumRef.Malformed text := by
  constructor
  · rintro ⟨d,he,hc⟩
    obtain ⟨hm,-⟩ | ⟨-,rfl⟩ := resolve_error he
    · exact hm
    · cases hc
  · intro hm
    cases hr : resolve s here text with
    | ok r =>
      obtain ⟨ref,hw,rfl,-⟩ := (resolve_iff_resolves hd).mp hr
      exact absurd hm hw.not_malformed
    | error d =>
      obtain ⟨-,rfl⟩ | ⟨hn,-⟩ := resolve_error hr
      · exact ⟨_,rfl,rfl⟩
      · exact absurd hm hn

theorem resolve_unresolved_iff (hd : s.documents[here.documentIndex]? = some here.document)
    {text : Bytes} : (∃ d, resolve s here text = .error d ∧ d.code = .unresolvedReference) ↔
      ¬ EnumRef.Malformed text ∧
        ∀ ref : EnumRef, ref.WellFormed → ref.text = text → ∀ r, ¬ Resolves s here ref r := by
  constructor
  · rintro ⟨d,he,hc⟩
    obtain ⟨-,rfl⟩ | ⟨hn,-⟩ := resolve_error he
    · cases hc
    refine ⟨hn,?_⟩
    intro ref hw ht r hr
    have ho := (resolve_iff_resolves hd).mpr ⟨ref,hw,ht,hr⟩
    rw [he] at ho
    cases ho
  · rintro ⟨hn,hnone⟩
    cases hr : resolve s here text with
    | ok r =>
      obtain ⟨ref,hw,ht,hres⟩ := (resolve_iff_resolves hd).mp hr
      exact absurd hres (hnone ref hw ht r)
    | error d =>
      obtain ⟨hm,-⟩ | ⟨-,rfl⟩ := resolve_error hr
      · exact absurd hm hn
      · exact ⟨_,rfl,rfl⟩

theorem resolve_error_names {text : Bytes} {d : Diagnostic} (h : resolve s here text = .error d) :
    d.document = here.document.name ∧ d.interface = here.interface.name := by
  obtain ⟨-,rfl⟩ | ⟨-,rfl⟩ := resolve_error h
  · rw [malformedReference, within_new]
    exact ⟨rfl,rfl⟩
  · rw [unresolvedReference, within_new]
    exact ⟨rfl,rfl⟩

end Lookup

/-- The lookup of a reference leads where its search ends first. It fails on a text that is no
reference, and on a reference that no search finds, in the name of the interface that refers to it. A
document that is found behind the own one is another document. -/
theorem resolve_meets_lookup {s : DocumentSet} {here : Site}
    (hd : s.documents[here.documentIndex]? = some here.document) (text : Bytes) :
    ((∃ d, resolve s here text = .error d ∧ d.code = .malformedReference) ↔
      EnumRef.Malformed text) ∧
    (∀ r, resolve s here text = .ok r ↔
      ∃ ref : EnumRef, ref.WellFormed ∧ ref.text = text ∧ Resolves s here ref r) ∧
    ((∃ d, resolve s here text = .error d ∧ d.code = .unresolvedReference) ↔
      ¬ EnumRef.Malformed text ∧
        ∀ ref : EnumRef, ref.WellFormed → ref.text = text → ∀ r, ¬ Resolves s here ref r) ∧
    (∀ d, resolve s here text = .error d →
      d.document = here.document.name ∧ d.interface = here.interface.name) ∧
    ∀ r, resolve s here text = .ok r → r.stage = .global →
      r.site.documentIndex ≠ here.documentIndex ∧ r.site.document ≠ here.document := by
  refine ⟨resolve_malformed_iff hd,?_,resolve_unresolved_iff hd,?_,?_⟩
  · intro r
    exact resolve_iff_resolves hd
  · intro d he
    exact resolve_error_names he
  · intro r hr hg
    obtain ⟨ref,-,-,hres⟩ := (resolve_iff_resolves hd).mp hr
    cases hres with
    | interface found => cases hg
    | document found => cases hg
    | global elsewhere first found => exact ne_of_elsewhere hd elsewhere first

def legacyDocument : Document :=
  { name := "legacy"
    nameSpace := "wl"
    interfaces := [{ name := "wl_surface", enums := [{ name := "error" }] }] }

def currentDocument : Document :=
  { name := "current"
    nameSpace := "wl"
    interfaces := [
      { name := "wl_surface", enums := [{ name := "error" },{ name := "error", bitfield := true }] },
      { name := "wl_subsurface" }] }

def toplevelDocument : Document :=
  { name := "toplevel"
    nameSpace := "xdg"
    interfaces := [{ name := "xdg_toplevel" }] }

/-- Two documents that declare the same enum, and one that declares none. -/
def shadowedSet : DocumentSet := { documents := [legacyDocument,currentDocument,toplevelDocument] }

def subsurfaceSite : Site := ⟨1,currentDocument,1,{ name := "wl_subsurface" }⟩

def toplevelSite : Site := ⟨2,toplevelDocument,0,{ name := "xdg_toplevel" }⟩

theorem shadowedSet_meets_lookup :
    (shadowedSet.documents[1]? = some currentDocument ∧
      ∃ r, resolve shadowedSet subsurfaceSite "wl_surface.error" = .ok r ∧
        r.site.document = currentDocument ∧ r.enum = { name := "error" } ∧ r.stage = .document) ∧
    shadowedSet.documents[2]? = some toplevelDocument ∧
      (∃ r, resolve shadowedSet toplevelSite "wl_surface.error" = .ok r ∧
        r.site.document = legacyDocument ∧ r.stage = .global) ∧
      (∃ d, resolve shadowedSet toplevelSite "a.b.c" = .error d ∧ d.code = .malformedReference) ∧
      ∃ d, resolve shadowedSet toplevelSite "error" = .error d ∧ d.document = "toplevel" := by
  have hw : EnumRef.WellFormed (.qualified "wl_surface" "error") := by
    refine ⟨⟨?_,?_⟩,?_,?_⟩ <;> decide
  have hn : ¬ HasEnum "wl_surface" "error" toplevelDocument := enumIn?_eq_none_iff (m := 0).mp rfl
  have hl : Declares "wl_surface" "error" legacyDocument 0 _ _ := ⟨⟨rfl,rfl,nofun⟩,0,rfl,rfl,nofun⟩
  have hc : Declares "wl_surface" "error" currentDocument 0 _ _ := ⟨⟨rfl,rfl,nofun⟩,0,rfl,rfl,nofun⟩
  have hf : FirstAt (HasEnum "wl_surface" "error") shadowedSet.documents 0 legacyDocument :=
    ⟨rfl,⟨_,_,_,hl⟩,nofun⟩
  have hs : shadowedSet.documents[subsurfaceSite.documentIndex]? = some subsurfaceSite.document := rfl
  have ht : shadowedSet.documents[toplevelSite.documentIndex]? = some toplevelSite.document := rfl
  obtain ⟨-,hown,-⟩ := resolve_meets_lookup hs "wl_surface.error"
  obtain ⟨-,hfar,-⟩ := resolve_meets_lookup ht "wl_surface.error"
  obtain ⟨hdots,-⟩ := resolve_meets_lookup ht "a.b.c"
  obtain ⟨-,-,-,hplace,-⟩ := resolve_meets_lookup ht "error"
  refine ⟨⟨hs,_,(hown _).mpr ⟨_,hw,?_,.document hc⟩,rfl,rfl,rfl⟩,ht,
    ⟨_,(hfar _).mpr ⟨_,hw,?_,.global hn hf hl⟩,rfl,rfl⟩,hdots.mpr (by decide),?_⟩
  · decide
  · decide
  · have he : resolve shadowedSet toplevelSite "error" =
        .error (unresolvedReference "error" toplevelSite) := rfl
    exact ⟨_,he,(hplace _ he).1⟩

end WaylandZig.Zig
