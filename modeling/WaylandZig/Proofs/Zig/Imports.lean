import WaylandZig.Proofs.Text.Lines
import WaylandZig.Proofs.Zig.Generator
import WaylandZig.Proofs.Zig.Identifier
import WaylandZig.Proofs.Zig.SourceTree

/-! # Imports in source text

The imports of a unit are found in its text by scanning each line for the word that begins one. A text
without that word, or with one import of a unit between plain parts, has the targets that one expects,
and a tree of such lines imports nothing else.
-/
namespace WaylandZig.Zig

/-- How an import begins. -/
def importWord : Bytes := "@import"

def importOpening : Bytes := importWord ++ "(\""

/-- The targets of the imports in a line, each up to its closing quote. -/
def importTargets : Bytes → List Bytes
  | [] => []
  | b :: rest =>
    if importOpening.isPrefixOf (b :: rest) then
      ((b :: rest).drop importOpening.length).takeWhile (· != Ascii.quote) :: importTargets rest
    else importTargets rest

/-- The lines of a text that are no comments. -/
def codeLines (text : Bytes) : List Bytes :=
  (text.splitOn Ascii.newline).filter fun line => !line.startsWith "//"

/-- No byte ends a line or begins an import. -/
def Plain (text : Bytes) : Prop := ∀ b ∈ text, b ≠ Ascii.newline ∧ b ≠ Ascii.atSign

instance (text : Bytes) : Decidable (Plain text) :=
  List.decidableBAll (fun b => b ≠ Ascii.newline ∧ b ≠ Ascii.atSign) text

/-- A single line that imports nothing but the targets. -/
structure ImportsOnly (targets : List Bytes) (line : Bytes) : Prop where
  oneLine : Ascii.newline ∉ line
  targets : ∀ t ∈ importTargets line, t ∈ targets

section Plain

@[simp] theorem plain_append {a b : Bytes} : Plain (a ++ b) ↔ Plain a ∧ Plain b :=
  List.forall_mem_append

theorem plain_ofString {text : String}
    (h : ∀ b ∈ text.toByteArray.data.toList, b ≠ Ascii.newline ∧ b ≠ Ascii.atSign) : Plain text := by
  rw [Bytes.ofString_eq_data]
  exact h

theorem plain_around {lead name follow : Bytes} (hl : Plain lead) (hn : Plain name)
    (hf : Plain follow) : Plain (lead ++ name ++ follow) :=
  plain_append.mpr ⟨plain_append.mpr ⟨hl,hn⟩,hf⟩

theorem Plain.newline_notMem {text : Bytes} (h : Plain text) : Ascii.newline ∉ text :=
  fun hn => (h _ hn).1 rfl

theorem Plain.atSign_notMem {text : Bytes} (h : Plain text) : Ascii.atSign ∉ text :=
  fun ha => (h _ ha).2 rfl

theorem plain_of_isWord {w : Bytes} (h : ∀ b ∈ w, Ascii.isWord b = true) : Plain w := by
  intro b hb
  have hw := h b hb
  constructor
  · rintro rfl
    revert hw
    decide
  · rintro rfl
    revert hw
    decide

theorem plain_of_identifier {n : Naming} {name out : Bytes} (h : n.identifier name = .ok out) :
    Plain out :=
  plain_of_isWord fun _ hb => isWord_of_isWordName (Naming.isWordName_of_identifier h) hb

theorem plain_spaces (n : Nat) : Plain (Bytes.spaces n) := by
  intro b hb
  obtain rfl : b = 0x20 := List.eq_of_mem_replicate hb
  decide

theorem importTargets_cons_of_ne {b : UInt8} (hb : b ≠ Ascii.atSign) (rest : Bytes) :
    importTargets (b :: rest) = importTargets rest := by
  have ho : importOpening = Ascii.atSign :: importOpening.tail := rfl
  rw [importTargets, if_neg]
  intro h
  rw [List.isPrefixOf_iff_prefix, ho] at h
  exact hb (List.cons_prefix_cons.mp h).1.symm

theorem importTargets_append {front : Bytes} (h : Ascii.atSign ∉ front) (rest : Bytes) :
    importTargets (front ++ rest) = importTargets rest := by
  induction front with
  | nil => rfl
  | cons b front ih =>
    simp only [List.mem_cons, not_or] at h
    rw [List.cons_append, importTargets_cons_of_ne (Ne.symm h.1), ih h.2]

theorem importTargets_eq_nil {text : Bytes} (h : Ascii.atSign ∉ text) : importTargets text = [] := by
  have ha := importTargets_append h []
  rwa [List.append_nil] at ha

/-- Every at sign begins something else than an import. -/
def otherBuiltins : Bytes → Bool
  | [] => true
  | [b] => b != Ascii.atSign
  | b :: c :: rest => (b != Ascii.atSign || c != 0x69) && otherBuiltins (c :: rest)

theorem importTargets_append_of_otherBuiltins {front : Bytes} (h : otherBuiltins front = true)
    (rest : Bytes) : importTargets (front ++ rest) = importTargets rest := by
  have ho : importOpening = Ascii.atSign :: 0x69 :: importOpening.tail.tail := rfl
  induction front with
  | nil => rfl
  | cons b front ih =>
    cases front with
    | nil => exact importTargets_cons_of_ne (by simpa [otherBuiltins] using h) rest
    | cons c front =>
      simp only [otherBuiltins, Bool.and_eq_true, Bool.or_eq_true, bne_iff_ne] at h
      rw [List.cons_append, importTargets, if_neg, ih h.2]
      intro hp
      rw [List.isPrefixOf_iff_prefix, ho, List.cons_append, List.cons_prefix_cons,
        List.cons_prefix_cons] at hp
      rcases h.1 with hb | hc
      · exact hb hp.1.symm
      · exact hc hp.2.1.symm

theorem importTargets_opening (rest : Bytes) : importTargets (importOpening ++ rest) =
    rest.takeWhile (· != Ascii.quote) :: importTargets rest := by
  have ho : importOpening = Ascii.atSign :: importOpening.tail := rfl
  have hp : importOpening.isPrefixOf (Ascii.atSign :: (importOpening.tail ++ rest)) = true := by
    rw [List.isPrefixOf_iff_prefix, ← List.cons_append, ← ho]
    exact List.prefix_append _ _
  have hd : (Ascii.atSign :: (importOpening.tail ++ rest)).drop importOpening.length = rest := by
    rw [← List.cons_append, ← ho]
    exact List.drop_left
  calc
    importTargets (importOpening ++ rest) =
        importTargets (Ascii.atSign :: (importOpening.tail ++ rest)) := rfl
    _ = rest.takeWhile (· != Ascii.quote) :: importTargets (importOpening.tail ++ rest) := by
      rw [importTargets, if_pos hp, hd]
    _ = _ := by rw [importTargets_append (by decide)]

/-- The only target of an import of a unit is the path of that unit. -/
theorem importTargets_importOf {unit rest : Bytes} (hu : ∀ b ∈ unit, Ascii.isWord b = true)
    (hr : Plain rest) : importTargets (importOf unit ++ rest) = [unitPath unit] := by
  have he : importOf unit ++ rest = importOpening ++ (unitPath unit ++ Ascii.quote :: (")" ++ rest)) := by
    simp [importOf, unitPath]
    rfl
  have hz : (".zig" : Bytes).all (· != Ascii.quote) = true := by decide
  have hq : ∀ b ∈ unitPath unit, (b != Ascii.quote) = true := by
    intro b hb
    rcases List.mem_append.mp hb with hb | hb
    · have hw := hu b hb
      rw [bne_iff_ne]
      rintro rfl
      revert hw
      decide
    · exact List.all_eq_true.mp hz b hb
  have hp : Plain (unitPath unit ++ ("\")" ++ rest)) := by
    simp only [unitPath, plain_append]
    exact ⟨⟨plain_of_isWord hu,by decide⟩,by decide,hr⟩
  have ha : Ascii.atSign ∉ unitPath unit ++ Ascii.quote :: (")" ++ rest) := hp.atSign_notMem
  rw [he, importTargets_opening, importTargets_eq_nil ha, List.takeWhile_append_of_pos hq,
    List.takeWhile_cons_of_neg (by simp), List.append_nil]

/-- A text without an import has none where it is followed by a byte that the word does not hold. -/
theorem importTargets_append_of_importFree {text rest : Bytes} {b : UInt8} (hb : b ∉ importWord)
    (hr : Ascii.atSign ∉ b :: rest) (h : ¬ importWord <:+: text) :
    importTargets (text ++ b :: rest) = [] := by
  induction text with
  | nil => exact importTargets_eq_nil hr
  | cons a text ih =>
    have ht : ¬ importWord <:+: text := fun hi => h (List.infix_cons hi)
    rw [List.cons_append, importTargets, if_neg]
    · exact ih ht
    · intro hp
      rw [List.isPrefixOf_iff_prefix] at hp
      have hw : importWord <+: a :: (text ++ b :: rest) := (List.prefix_append _ _).trans hp
      -- An import that reaches past the text would have to hold the byte behind it.
      have hf : a :: text ++ [b] <+: a :: (text ++ b :: rest) := ⟨rest,by simp⟩
      rcases List.prefix_or_prefix_of_prefix hw hf with hp | hp
      · rcases List.prefix_concat_iff.mp hp with he | hp
        · exact hb (by rw [he]; simp)
        · exact h hp.isInfix
      · exact hb (hp.subset (by simp))

end Plain

section Lines

variable {targets : List Bytes}

theorem Plain.importsOnly {line : Bytes} (h : Plain line) : ImportsOnly targets line := by
  refine ⟨h.newline_notMem,?_⟩
  rw [importTargets_eq_nil h.atSign_notMem]
  simp

theorem ImportsOnly.append_left {front line : Bytes} (hf : Plain front)
    (h : ImportsOnly targets line) : ImportsOnly targets (front ++ line) := by
  constructor
  · rw [List.mem_append, not_or]
    exact ⟨hf.newline_notMem,h.oneLine⟩
  · rw [importTargets_append hf.atSign_notMem]
    exact h.targets

theorem importsOnly_importOf {unit rest : Bytes} (hu : ∀ b ∈ unit, Ascii.isWord b = true)
    (hr : Plain rest) (ht : unitPath unit ∈ targets) :
    ImportsOnly targets (importOf unit ++ rest) := by
  constructor
  · have hn := (plain_of_isWord hu).newline_notMem
    have hr := hr.newline_notMem
    simp only [importOf, List.mem_append, not_or]
    exact ⟨⟨⟨by decide,hn⟩,by decide⟩,hr⟩
  · rw [importTargets_importOf hu hr]
    simpa using ht

/-- The code lines of a text that was written line by line, where comments may hold anything. -/
theorem codeLines_importsOnly {lines : List Bytes}
    (h : ∀ line ∈ lines, Ascii.newline ∉ line ∧
      (line.startsWith "//" = true ∨ ImportsOnly targets line)) :
    ∀ line ∈ codeLines (lines.flatMap (· ++ [Ascii.newline])), ImportsOnly targets line := by
  intro line hl
  rw [codeLines, Bytes.splitOn_lines fun l hl => (h l hl).1] at hl
  obtain ⟨hm,hc⟩ := List.mem_filter.mp hl
  rcases List.mem_append.mp hm with hm | hm
  · rcases (h line hm).2 with hs | hs
    · simp [hs] at hc
    · exact hs
  · obtain rfl := List.mem_singleton.mp hm
    exact Plain.importsOnly (by decide)

end Lines

namespace SourceTree

/-- Every line imports nothing but the targets, and what opens and closes a block is plain. -/
inductive ImportsIn (targets : List Bytes) : SourceTree → Prop
  | blank : ImportsIn targets .blank
  | line {text : Bytes} (h : ImportsOnly targets text) : ImportsIn targets (.line text)
  | block {head tail : Bytes} {body : List SourceTree} (hh : Plain head) (ht : Plain tail)
    (hb : ∀ t ∈ body, ImportsIn targets t) : ImportsIn targets (.block head tail body)

theorem ImportsIn.lines {targets : List Bytes} {t : SourceTree} (h : t.ImportsIn targets)
    (indent depth : Nat) : ∀ line ∈ t.lines indent depth, ImportsOnly targets line := by
  have hp (depth : Nat) : Plain (pad indent depth) := plain_spaces _
  induction h generalizing depth with
  | blank =>
    intro line hl
    obtain rfl : line = [] := by simpa [SourceTree.lines] using hl
    exact Plain.importsOnly (by decide)
  | line h =>
    intro line hl
    obtain rfl := List.mem_singleton.mp hl
    exact h.append_left (hp depth)
  | @block head tail body hh ht hb ih =>
    intro line hl
    have hc : Plain "\x7d" := by decide
    rw [SourceTree.lines] at hl
    split at hl
    · obtain rfl := List.mem_singleton.mp hl
      exact Plain.importsOnly (by simp [hp depth, hh, hc, ht])
    · simp only [List.cons_append, List.mem_cons, List.mem_append, List.not_mem_nil, or_false] at hl
      rcases hl with rfl | hl | rfl
      · exact Plain.importsOnly (by simp [hp depth, hh])
      · rw [allLines_eq_flatMap] at hl
        obtain ⟨t,ht,hl⟩ := List.mem_flatMap.mp hl
        exact ih t ht (depth + 1) line hl
      · exact Plain.importsOnly (by simp [hp depth, hc, ht])

theorem codeLines_text {targets : List Bytes} {trees : List SourceTree}
    (h : ∀ t ∈ trees, t.ImportsIn targets) (indent : Nat) :
    ∀ line ∈ codeLines (text indent trees), ImportsOnly targets line := by
  refine codeLines_importsOnly ?_
  intro line hl
  rw [allLines_eq_flatMap] at hl
  obtain ⟨t,ht,hl⟩ := List.mem_flatMap.mp hl
  have hi := (h t ht).lines indent 0 line hl
  exact ⟨hi.oneLine,.inr hi⟩

end SourceTree

end WaylandZig.Zig
