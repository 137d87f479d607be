import Mathlib.Data.List.TakeWhile
import Mathlib.Data.List.Infix
import WaylandZig.Schema.NameSpace

/-! # The name space and the names it was inferred from

The name space depends on the names only through their longest common beginning and on whether that
is itself one of them. It is one token, and every one of the names begins with it. Where the shortest
name is itself that token, another name may go on behind it without an underscore, and then the name
space ends inside a word of that other name.
-/
namespace WaylandZig

namespace Bytes

theorem cut_fst (sep : UInt8) (s : Bytes) : (s.cut sep).1 = s.takeWhile (· != sep) := by
  induction s with
  | nil => rfl
  | cons b rest ih =>
    rw [cut]
    split
    · rename_i hb
      simp [hb]
    · rename_i hb
      have hne : (b != sep) = true := by simpa using hb
      simp only [List.takeWhile_cons, if_pos hne, ih]

theorem notMem_of_beforeLast? {sep : UInt8} {s : Bytes} (h : s.beforeLast? sep = none) : sep ∉ s := by
  induction s with
  | nil => exact List.not_mem_nil
  | cons b rest ih =>
    rw [beforeLast?] at h
    split at h
    · cases h
    · rename_i hr
      split at h
      · cases h
      · rename_i hb
        simp only [List.mem_cons, not_or]
        exact ⟨Ne.symm hb,ih hr⟩

theorem exists_of_beforeLast? {sep : UInt8} {s front : Bytes} (h : s.beforeLast? sep = some front) :
    ∃ rest, s = front ++ sep :: rest := by
  induction s generalizing front with
  | nil => simp [beforeLast?] at h
  | cons b rest ih =>
    rw [beforeLast?] at h
    split at h
    · rename_i inner hi
      cases h
      obtain ⟨tail,rfl⟩ := ih hi
      exact ⟨tail,rfl⟩
    · split at h
      · rename_i hb
        cases h
        exact ⟨rest,by rw [hb]; rfl⟩
      · cases h

end Bytes

namespace Schema.NameSpace

theorem underscore_notMem_firstToken (s : Bytes) : Ascii.underscore ∉ firstToken s := by
  intro h
  rw [firstToken, Bytes.cut_fst] at h
  have hne := List.mem_takeWhile_imp h
  simp at hne

theorem firstToken_eq_self {s : Bytes} (h : Ascii.underscore ∉ s) : firstToken s = s := by
  rw [firstToken, Bytes.cut_fst, List.takeWhile_eq_self_iff]
  intro b hb
  have hne : b ≠ Ascii.underscore := by
    rintro rfl
    exact h hb
  simpa using hne

theorem firstToken_append (front rest : Bytes) :
    firstToken (front ++ Ascii.underscore :: rest) = firstToken front := by
  induction front with
  | nil => simp [firstToken, Bytes.cut]
  | cons b front ih =>
    simp only [firstToken, List.cons_append, Bytes.cut] at ih ⊢
    split
    · rfl
    · rw [ih]

theorem firstToken_append_isPrefix {s : Bytes} (h : Ascii.underscore ∈ s) :
    firstToken s ++ [Ascii.underscore] <+: s := by
  obtain ⟨front,rest,rfl,hf⟩ := List.eq_append_cons_of_mem h
  rw [firstToken_append, firstToken_eq_self hf]
  exact ⟨rest,List.append_assoc _ _ _⟩

/-- Cutting back to the last underscore keeps the first token of a text that has an underscore, and
nothing of one that has none. -/
theorem firstToken_wholeWords (s : Bytes) :
    firstToken (wholeWords s) = if Ascii.underscore ∈ s then firstToken s else [] := by
  cases h : s.beforeLast? Ascii.underscore with
  | none =>
    rw [if_neg (Bytes.notMem_of_beforeLast? h), wholeWords, h]
    rfl
  | some front =>
    obtain ⟨rest,rfl⟩ := Bytes.exists_of_beforeLast? h
    rw [if_pos (by simp), wholeWords, h, firstToken_append]
    rfl

/-- The shortest name is one of the names, and none is shorter. -/
theorem shortest_spec (first : Bytes) (rest : List Bytes) :
    shortest first rest ∈ first :: rest ∧
      ∀ n ∈ first :: rest, (shortest first rest).length ≤ n.length := by
  induction rest generalizing first with
  | nil => simp [shortest]
  | cons n rest ih =>
    have hs : shortest first (n :: rest) =
        shortest (if n.length < first.length then n else first) rest := rfl
    rw [hs]
    split
    · rename_i hlt
      obtain ⟨hm,hle⟩ := ih n
      refine ⟨List.mem_cons_of_mem _ hm,?_⟩
      intro m hmem
      rcases List.mem_cons.mp hmem with rfl | hmem
      · have hn := hle n List.mem_cons_self
        omega
      · exact hle m hmem
    · rename_i hge
      obtain ⟨hm,hle⟩ := ih first
      have hf := hle first List.mem_cons_self
      constructor
      · rcases List.mem_cons.mp hm with hm | hm
        · rw [hm]
          exact List.mem_cons_self
        · exact List.mem_cons_of_mem _ (List.mem_cons_of_mem _ hm)
      · intro m hmem
        rcases List.mem_cons.mp hmem with rfl | hmem
        · exact hf
        rcases List.mem_cons.mp hmem with rfl | hmem
        · omega
        · exact hle m (List.mem_cons_of_mem _ hmem)

/-- The names agree on their first `n` bytes. -/
def Agree (first : Bytes) (rest : List Bytes) (n : Nat) : Prop :=
  ∀ m ∈ rest, ∀ j < n, m[j]? = first[j]?

theorem Agree.take_isPrefix {first : Bytes} {rest : List Bytes} {n : Nat} (h : Agree first rest n)
    {m : Bytes} (hm : m ∈ first :: rest) : first.take n <+: m := by
  rcases List.mem_cons.mp hm with rfl | hm
  · exact List.take_prefix n m
  · have he : first.take n = m.take n := by
      refine List.ext_getElem? fun j => ?_
      rw [List.getElem?_take, List.getElem?_take]
      split
      · rename_i hj
        exact (h m hm j hj).symm
      · rfl
    rw [he]
    exact List.take_prefix n m

theorem agree_of_any_eq_false {first : Bytes} {rest : List Bytes} {n : Nat}
    (h : ∀ j < n, (rest.any fun m => m[j]? != first[j]?) = false) : Agree first rest n := by
  intro m hm j hj
  have hn := List.any_eq_false.mp (h j hj) m hm
  simpa using hn

/-- All of the names begin with `common`, and with nothing longer. -/
structure LongestCommon (names : List Bytes) (common : Bytes) : Prop where
  shared : ∀ name ∈ names, common <+: name
  longest : ∀ other, (∀ name ∈ names, other <+: name) → other.length ≤ common.length

section Common

variable {names : List Bytes} {common other : Bytes}

theorem LongestCommon.ne_nil (h : LongestCommon names common) : names ≠ [] := by
  rintro rfl
  -- Anything is a common beginning of no names at all, so none is the longest.
  have hl := h.longest (0 :: common) nofun
  rw [List.length_cons] at hl
  omega

theorem LongestCommon.isPrefix (h : LongestCommon names common)
    (ho : ∀ name ∈ names, other <+: name) : other <+: common := by
  obtain ⟨name,hm⟩ := List.exists_mem_of_ne_nil names h.ne_nil
  exact List.prefix_of_prefix_length_le (ho name hm) (h.shared name hm) (h.longest other ho)

theorem LongestCommon.unique (h : LongestCommon names common) (h' : LongestCommon names other) :
    common = other :=
  (h'.isPrefix h.shared).eq_of_length_le (h.longest other h'.shared)

theorem longestCommon_of_mem (hm : common ∈ names) (hs : ∀ name ∈ names, common <+: name) :
    LongestCommon names common :=
  ⟨hs,fun _ ho => (ho common hm).length_le⟩

theorem LongestCommon.congr {others : List Bytes} (hm : ∀ name, name ∈ others ↔ name ∈ names)
    (h : LongestCommon names common) : LongestCommon others common := by
  constructor
  · intro name ho
    exact h.shared name ((hm name).mp ho)
  · intro other ho
    exact h.longest other fun name hn => ho name ((hm name).mpr hn)

end Common

section Scan

variable {first : Bytes} {rest : List Bytes}

/-- A scan that stops at a disagreement has passed over the longest common beginning. -/
theorem longestCommon_take {i : Nat} (h : disagreement? first rest = some i) :
    LongestCommon (first :: rest) (first.take i) := by
  obtain ⟨hi,hmem,hbefore⟩ := List.find?_range_eq_some.mp h
  have ha : Agree first rest i := agree_of_any_eq_false fun j hj => by simpa using hbefore j hj
  constructor
  · intro name hm
    exact ha.take_isPrefix hm
  · intro other ho
    obtain ⟨n,hn,hd⟩ := List.any_eq_true.mp hi
    have hlt : i < first.length :=
      (List.mem_range.mp hmem).trans_le ((shortest_spec first rest).2 first List.mem_cons_self)
    rw [List.length_take_of_le hlt.le]
    by_contra hlong
    -- A longer common beginning would hold the byte at which the two names differ.
    have hlong : i < other.length := by omega
    have hf := List.prefix_iff_getElem?.mp (ho first List.mem_cons_self) i hlong
    have hg := List.prefix_iff_getElem?.mp (ho n (List.mem_cons_of_mem _ hn)) i hlong
    rw [hf, hg] at hd
    simp at hd

/-- A scan without a disagreement ends with the shortest name, which all of the names begin with. -/
theorem longestCommon_shortest (h : disagreement? first rest = none) :
    LongestCommon (first :: rest) (shortest first rest) := by
  obtain ⟨hmem,hle⟩ := shortest_spec first rest
  have hagree := List.find?_range_eq_none.mp h
  have ha : Agree first rest (shortest first rest).length :=
    agree_of_any_eq_false fun j hj => by simpa using hagree j hj
  have hs : first.take (shortest first rest).length = shortest first rest := by
    refine (ha.take_isPrefix hmem).eq_of_length ?_
    exact List.length_take_of_le (hle first List.mem_cons_self)
  refine longestCommon_of_mem hmem ?_
  intro name hm
  have hp := ha.take_isPrefix hm
  rwa [hs] at hp

theorem take_notMem {i : Nat} (h : disagreement? first rest = some i) :
    first.take i ∉ first :: rest := by
  intro hm
  obtain ⟨-,hmem,-⟩ := List.find?_range_eq_some.mp h
  have hle := (shortest_spec first rest).2 _ hm
  have hlt := List.mem_range.mp hmem
  have ht := List.length_take_le i first
  omega

end Scan

/-- The part of the common beginning in front of its first underscore. One without an underscore is a
token if it is one of the names, and else the beginning of a word. -/
def tokenOf (names : List Bytes) (common : Bytes) : Bytes :=
  if Ascii.underscore ∈ common then common.takeWhile (· != Ascii.underscore)
  else if names.contains common then common
  else []

section Inferred

variable {names : List Bytes} {common : Bytes}

theorem tokenOf_of_mem (h : Ascii.underscore ∈ common) : tokenOf names common = firstToken common := by
  rw [tokenOf, if_pos h, firstToken, Bytes.cut_fst]

theorem tokenOf_of_notMem (h : Ascii.underscore ∉ common) :
    tokenOf names common = if common ∈ names then common else [] := by
  rw [tokenOf, if_neg h]
  exact if_congr List.contains_iff_mem rfl rfl

theorem exists_longestCommon (hne : names ≠ []) :
    ∃ common, LongestCommon names common ∧ infer names = tokenOf names common := by
  cases names with
  | nil => exact absurd rfl hne
  | cons first rest =>
    cases hd : disagreement? first rest with
    | some i =>
      refine ⟨first.take i,longestCommon_take hd,?_⟩
      simp only [infer, hd]
      rw [firstToken_wholeWords]
      split
      · rename_i hu
        exact (tokenOf_of_mem hu).symm
      · rename_i hu
        rw [tokenOf_of_notMem hu, if_neg (take_notMem hd)]
    | none =>
      refine ⟨shortest first rest,longestCommon_shortest hd,?_⟩
      simp only [infer, hd]
      by_cases hu : Ascii.underscore ∈ shortest first rest
      · exact (tokenOf_of_mem hu).symm
      · rw [tokenOf_of_notMem hu, if_pos (shortest_spec first rest).1, firstToken_eq_self hu]

theorem LongestCommon.infer_eq (h : LongestCommon names common) :
    infer names = tokenOf names common := by
  obtain ⟨other,ho,he⟩ := exists_longestCommon h.ne_nil
  rw [he, h.unique ho]

theorem tokenOf_isPrefix (names : List Bytes) (common : Bytes) : tokenOf names common <+: common := by
  unfold tokenOf
  split
  · exact List.takeWhile_prefix _
  · split
    · exact List.prefix_rfl
    · exact List.nil_prefix

/-- Every name begins with the name space that is inferred from the names. -/
theorem infer_isPrefix {name : Bytes} (h : name ∈ names) : infer names <+: name := by
  obtain ⟨common,hc,he⟩ := exists_longestCommon (List.ne_nil_of_mem h)
  rw [he]
  exact (tokenOf_isPrefix names common).trans (hc.shared name h)

/-- A name space is one token. -/
theorem underscore_notMem_infer (names : List Bytes) : Ascii.underscore ∉ infer names := by
  by_cases hne : names = []
  · rw [hne]
    exact List.not_mem_nil
  obtain ⟨common,-,he⟩ := exists_longestCommon hne
  rw [he]
  by_cases hu : Ascii.underscore ∈ common
  · rw [tokenOf_of_mem hu]
    exact underscore_notMem_firstToken common
  · intro h
    exact hu ((tokenOf_isPrefix names common).subset h)

theorem infer_congr {others : List Bytes} (hne : names ≠ [])
    (hm : ∀ name, name ∈ others ↔ name ∈ names) : infer others = infer names := by
  obtain ⟨common,hc,he⟩ := exists_longestCommon hne
  rw [he, (hc.congr hm).infer_eq]
  simp only [tokenOf, List.contains_iff_mem, hm]

theorem infer_of_token {token : Bytes} (hne : names ≠ []) (ht : Ascii.underscore ∉ token)
    (hs : ∀ name ∈ names, token ++ [Ascii.underscore] <+: name) : infer names = token := by
  obtain ⟨common,hc,he⟩ := exists_longestCommon hne
  obtain ⟨rest,rfl⟩ := hc.isPrefix hs
  rw [he, tokenOf_of_mem (by simp), List.append_assoc, List.singleton_append, firstToken_append,
    firstToken_eq_self ht]

end Inferred

/-- The name space is a function of the longest common beginning of the names, and of whether it is
one of them. It depends neither on the order of the names nor on how often they occur, and a token
that all of the names go on behind with an underscore is the name space. -/
theorem infer_eq_tokenOf_common {names : List Bytes} (hne : names ≠ []) :
    (∃ common, LongestCommon names common) ∧
    (∀ common, LongestCommon names common → infer names = tokenOf names common) ∧
    (∀ others, (∀ name, name ∈ others ↔ name ∈ names) → infer others = infer names) ∧
    ∀ token, Ascii.underscore ∉ token →
      (∀ name ∈ names, token ++ [Ascii.underscore] <+: name) → infer names = token := by
  obtain ⟨common,hc,-⟩ := exists_longestCommon hne
  refine ⟨⟨common,hc⟩,?_,?_,?_⟩
  · intro common hc
    exact hc.infer_eq
  · intro others hm
    exact infer_congr hne hm
  · intro token ht hs
    exact infer_of_token hne ht hs

/-- The common beginning is the second of the names, and the name space is its first token. -/
def viewportNames : List Bytes := ["wp_viewporter","wp_viewport"]

theorem viewportNames_infer : viewportNames ≠ [] ∧
    LongestCommon viewportNames "wp_viewport" ∧
    infer viewportNames = tokenOf viewportNames "wp_viewport" ∧
    infer (viewportNames ++ viewportNames.reverse) = infer viewportNames ∧
    infer viewportNames = "wp" := by
  have hne : viewportNames ≠ [] := by decide
  have hc : LongestCommon viewportNames "wp_viewport" :=
    longestCommon_of_mem (by decide +kernel) (by decide +kernel)
  obtain ⟨-,hcommon,hcongr,htoken⟩ := infer_eq_tokenOf_common hne
  refine ⟨hne,hc,hcommon _ hc,hcongr _ ?_,htoken "wp" (by decide) (by decide +kernel)⟩
  intro name
  simp

/-- The token is a word of every name: a name goes on behind it with an underscore or not at all. -/
def EndsWord (token : Bytes) (names : List Bytes) : Prop :=
  ∀ name ∈ names, name = token ∨ token ++ [Ascii.underscore] <+: name

instance (token : Bytes) (names : List Bytes) : Decidable (EndsWord token names) :=
  inferInstanceAs (Decidable (∀ name ∈ names, _ ∨ _))

/-- All of the names begin with one of them that is a token, and one of them goes on behind it inside
a word. -/
def SplitsWord (names : List Bytes) : Prop :=
  ∃ word ∈ names, word ≠ [] ∧ Ascii.underscore ∉ word ∧ (∀ name ∈ names, word <+: name) ∧
    ¬ EndsWord word names

section Words

variable {names : List Bytes}

theorem infer_of_isToken {word : Bytes} (hm : word ∈ names) (hu : Ascii.underscore ∉ word)
    (hs : ∀ name ∈ names, word <+: name) : infer names = word := by
  rw [(longestCommon_of_mem hm hs).infer_eq, tokenOf_of_notMem hu, if_pos hm]

/-- A name space ends a word of every name, or it is one of the names. -/
theorem endsWord_or_mem (h : infer names ≠ []) : EndsWord (infer names) names ∨ infer names ∈ names := by
  have hne : names ≠ [] := by
    rintro rfl
    exact h rfl
  obtain ⟨common,hc,he⟩ := exists_longestCommon hne
  by_cases hu : Ascii.underscore ∈ common
  · left
    intro name hm
    right
    rw [he, tokenOf_of_mem hu]
    exact (firstToken_append_isPrefix hu).trans (hc.shared name hm)
  · right
    rw [tokenOf_of_notMem hu] at he
    split at he
    · rename_i hm
      rwa [he]
    · exact absurd he h

end Words

/-- A name space ends a word of every name, unless one of the names is a token that another one has at
the front of a longer word. -/
theorem infer_endsWord_iff (names : List Bytes) :
    (infer names ≠ [] → EndsWord (infer names) names) ↔ ¬ SplitsWord names := by
  constructor
  · rintro h ⟨word,hm,hw,hu,hs,hsplit⟩
    have he := infer_of_isToken hm hu hs
    rw [he] at h
    exact hsplit (h hw)
  · intro h hn
    by_contra he
    have hm := (endsWord_or_mem hn).resolve_left he
    refine h ⟨infer names,hm,hn,underscore_notMem_infer names,?_,he⟩
    intro name hname
    exact infer_isPrefix hname

/-- The first name is a token, and the second begins with a longer word. -/
def shellNames : List Bytes := ["wl","wlr_shell"]

theorem shellNames_not_endsWord : infer shellNames = "wl" ∧ infer shellNames ≠ [] ∧
    ¬ EndsWord (infer shellNames) shellNames := by
  decide +kernel

end Schema.NameSpace

end WaylandZig
