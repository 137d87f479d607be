import Mathlib.Data.Nat.Digits.Defs
import WaylandZig.Proofs.Pairing
import WaylandZig.Text.Numeral

/-! # Numerals are read back

A numeral is written from its last digit to its first and read from its first to its last. Exactly the
non-empty strings of digits are read, as the number that their digits denote, and reading the numeral
of a number gives that number.
-/
namespace WaylandZig.Numeral

/-- Every digit in its place. -/
def digits : Bytes := "0123456789abcdef"

/-- A digit of the base stands for its place among the digits. A letter counts in either case. -/
def IsDigit (base : Nat) (b : UInt8) (d : Nat) : Prop :=
  d < base ∧ digits.idxOf? (Ascii.toLower b) = some d

/-- A string of digits, of which there is at least one, denotes a number. -/
def Denotes (base : Nat) (ds : Bytes) (n : Nat) : Prop :=
  ds ≠ [] ∧ ∃ values, List.Forall₂ (IsDigit base) ds values ∧ n = Nat.ofDigits base values.reverse

theorem digitValue?_eq_some_iff {base d : Nat} {b : UInt8} :
    digitValue? base b = some d ↔ IsDigit base b d := by
  have hplace : (if Ascii.isDigit b then some (b.toNat - 0x30)
      else if 0x61 ≤ b && b ≤ 0x66 then some (b.toNat - 0x57)
      else if 0x41 ≤ b && b ≤ 0x46 then some (b.toNat - 0x37)
      else none) = digits.idxOf? (Ascii.toLower b) := by
    obtain ⟨n,rfl⟩ : ∃ n : Fin 256, UInt8.ofNat n = b := ⟨⟨b.toNat,b.toNat_lt⟩,UInt8.ofNat_toNat⟩
    revert n
    decide +kernel
  simp only [digitValue?, hplace, Option.filter_eq_some_iff, decide_eq_true_eq, IsDigit]
  exact and_comm

/-- What is read so far with one more digit behind it. -/
def withDigit (base n : Nat) (b : UInt8) : Option Nat := (digitValue? base b).map (n * base + ·)

theorem nat?_cons (base : Nat) (b : UInt8) (rest : Bytes) :
    nat? base (b :: rest) = (b :: rest).foldlM (withDigit base) 0 :=
  rfl

theorem digitValue?_digit {base d : Nat} (hd : d < base) (hb : base ≤ 16) :
    digitValue? base (digit d) = some d := by
  have hall : ∀ d : Fin 16, digitValue? 16 (digit d) = some d.val := by decide
  -- The base only bounds the digit that the byte stands for.
  obtain ⟨hv,-⟩ := Option.filter_eq_some_iff.mp (hall ⟨d,Nat.lt_of_lt_of_le hd hb⟩)
  exact Option.filter_eq_some_iff.mpr ⟨hv,by simpa using hd⟩

theorem withDigit_digit {base n d : Nat} (hd : d < base) (hb : base ≤ 16) :
    withDigit base n (digit d) = some (n * base + d) := by
  rw [withDigit, digitValue?_digit hd hb, Option.map_some]

/-- Reading what stands for `n` in front of a tail goes on with `n`. -/
theorem foldlM_digitsInto {base fuel n : Nat} (h2 : 2 ≤ base) (h16 : base ≤ 16) (hn : n < fuel)
    (tail : Bytes) : (digitsInto base fuel n tail).foldlM (withDigit base) 0 =
      tail.foldlM (withDigit base) n := by
  induction fuel generalizing n tail with
  | zero => omega
  | succ fuel ih =>
    have hd : n % base < base := Nat.mod_lt n (by omega)
    have hs (m : Nat) : (digit (n % base) :: tail).foldlM (withDigit base) m =
        tail.foldlM (withDigit base) (m * base + n % base) := by
      rw [List.foldlM_cons, withDigit_digit hd h16]
      rfl
    simp only [digitsInto]
    split
    · rename_i hz
      rw [hs, Nat.zero_mul, Nat.zero_add, Nat.mod_eq_of_lt]
      exact (Nat.div_eq_zero_iff.mp hz).resolve_left (by omega)
    · rename_i hz
      have hpos : 0 < n := Nat.pos_of_ne_zero (by rintro rfl; exact hz (Nat.zero_div base))
      have hlt : n / base < n := Nat.div_lt_self hpos (by omega)
      rw [ih (by omega), hs, Nat.div_add_mod']

theorem digitsInto_succ_ne_nil (base fuel n : Nat) (tail : Bytes) :
    digitsInto base (fuel + 1) n tail ≠ [] := by
  induction fuel generalizing n tail with
  | zero =>
    simp only [digitsInto]
    split <;> simp
  | succ fuel ih =>
    rw [digitsInto]
    split
    · simp
    · exact ih _ _

/-- The numeral of a number is read as that number. -/
theorem nat?_ofNat {base : Nat} (h2 : 2 ≤ base) (h16 : base ≤ 16) (n : Nat) :
    nat? base (ofNat base n) = some n := by
  obtain ⟨b,rest,hr⟩ := List.exists_cons_of_ne_nil (digitsInto_succ_ne_nil base n n [])
  have hf := foldlM_digitsInto h2 h16 (Nat.lt_succ_self n) []
  rw [ofNat, hr, nat?_cons, ← hr, hf]
  rfl

/-- Zeros in front of a numeral do not change what it is read as. -/
theorem nat?_padded {base : Nat} (h2 : 2 ≤ base) (h16 : base ≤ 16) (width n : Nat) :
    nat? base (padded base width n) = some n := by
  have hz (k : Nat) (ds : Bytes) : (List.replicate k 0x30 ++ ds).foldlM (withDigit base) 0 =
      ds.foldlM (withDigit base) 0 := by
    induction k with
    | zero => rfl
    | succ k ih =>
      have h0 : withDigit base 0 (digit 0) = some (0 * base + 0) := withDigit_digit (by omega) h16
      rw [List.replicate_succ, List.cons_append, List.foldlM_cons]
      rw [Nat.zero_mul] at h0
      exact (congrArg (· >>= _) h0).trans ih
  have hn := nat?_ofNat h2 h16 n
  obtain ⟨b,rest,hr⟩ := List.exists_cons_of_ne_nil (digitsInto_succ_ne_nil base n n [])
  obtain ⟨c,more,hp⟩ : ∃ c more, padded base width n = c :: more := by
    refine List.exists_cons_of_ne_nil ?_
    rw [padded, ofNat, hr]
    simp
  rw [hp, nat?_cons, ← hp, padded, hz]
  rw [ofNat, hr, nat?_cons, ← hr] at hn
  exact hn

theorem nat?_decimal (n : Nat) : nat? 10 (decimal n) = some n :=
  nat?_ofNat (by decide) (by decide) n

theorem nat?_hex (n : Nat) : nat? 16 (hex n) = some n :=
  nat?_ofNat (by decide) (by decide) n

/-- Reading on from `m` takes the digits behind those of `m`. -/
theorem foldlM_eq_some_iff {base m n : Nat} {ds : Bytes} :
    ds.foldlM (withDigit base) m = some n ↔
      ∃ values, List.Forall₂ (IsDigit base) ds values ∧
        n = Nat.ofDigits base (values.reverse ++ [m]) := by
  induction ds generalizing m with
  | nil =>
    simp only [List.foldlM_nil, List.forall₂_nil_left_iff, exists_eq_left, List.reverse_nil,
      List.nil_append, Nat.ofDigits_singleton]
    exact Option.some_inj.trans eq_comm
  | cons b rest ih =>
    have hstep (d : Nat) (values : List Nat) :
        Nat.ofDigits base (values.reverse ++ [m * base + d]) =
          Nat.ofDigits base ((d :: values).reverse ++ [m]) := by
      rw [List.reverse_cons, List.append_assoc, List.singleton_append, Nat.ofDigits_append,
        Nat.ofDigits_append, Nat.ofDigits_singleton, Nat.ofDigits_cons, Nat.ofDigits_singleton,
        Nat.mul_comm m, Nat.add_comm d]
    rw [List.foldlM_cons]
    constructor
    · intro h
      obtain ⟨next,hn,h⟩ := Option.bind_eq_some_iff.mp h
      obtain ⟨d,hd,rfl⟩ := Option.map_eq_some_iff.mp hn
      obtain ⟨values,hv,rfl⟩ := ih.mp h
      exact ⟨d :: values,.cons (digitValue?_eq_some_iff.mp hd) hv,hstep d values⟩
    · rintro ⟨values,hv,rfl⟩
      cases hv with
      | cons hd hv =>
        rename_i d values
        have hn : withDigit base m b = some (m * base + d) := by
          rw [withDigit, digitValue?_eq_some_iff.mpr hd, Option.map_some]
        exact Option.bind_eq_some_iff.mpr ⟨_,hn,ih.mpr ⟨values,hv,(hstep d values).symm⟩⟩

/-- What is read is what the digits denote. -/
theorem nat?_eq_some_iff {base n : Nat} {ds : Bytes} : nat? base ds = some n ↔ Denotes base ds n := by
  cases ds with
  | nil => simp [nat?, Denotes]
  | cons b rest =>
    rw [nat?_cons, foldlM_eq_some_iff]
    simp only [Nat.ofDigits_append_zero, Denotes, ne_eq, reduceCtorEq, not_false_eq_true, true_and]

theorem uint64?_eq_some_iff {base : Nat} {ds : Bytes} {v : UInt64} :
    uint64? base ds = some v ↔ Denotes base ds v.toNat := by
  rw [uint64?, Option.bind_eq_some_iff, ← nat?_eq_some_iff]
  constructor
  · rintro ⟨n,hn,h⟩
    split at h
    · rename_i hlt
      obtain rfl := Option.some.inj h
      rw [hn, UInt64.toNat_ofNat_of_lt' hlt]
    · cases h
  · intro h
    exact ⟨_,h,by rw [if_pos v.toNat_lt, UInt64.ofNat_toNat]⟩

/-- What is read as a number is made of word bytes. -/
theorem isWord_of_nat? {base n : Nat} {ds : Bytes} (h : nat? base ds = some n) :
    ∀ b ∈ ds, Ascii.isWord b = true := by
  have hdigit : ∀ n : Fin 256, Ascii.toLower (UInt8.ofNat n) ∈ digits →
      Ascii.isWord (UInt8.ofNat n) = true := by
    decide +kernel
  obtain ⟨-,values,hv,-⟩ := nat?_eq_some_iff.mp h
  intro b hb
  obtain ⟨d,-,-,hd⟩ := hv.exists_of_mem_left hb
  have hm : Ascii.toLower b ∈ digits := List.isSome_idxOf?.mp (by simp [hd])
  simpa using hdigit ⟨b.toNat,b.toNat_lt⟩ (by simpa using hm)

end WaylandZig.Numeral
