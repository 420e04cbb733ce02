import Mathlib.Data.List.Lex
import Mathlib.Tactic.Linarith
import Mathlib.Tactic.Ring

/-!
# Bytes and machine words

Rust's arithmetic on `u64` that is not Lean's own (`saturating_sub`,
`abs_diff`), `to_be_bytes` and `from_be_bytes`, the order of byte strings, and
slices (`get` with a range, `chunks`).

`lt_iff_beValue_lt` reads a byte string of fixed length as the number it writes
in base `256`: the lexicographic order of the bytes is the order of the numbers.
So two bytes, or four, are those of exactly one word
(`UInt16.toBeBytes_ofBeBytes`, `UInt32.toBeBytes_ofBeBytes`).
-/

/-! ### Words -/

namespace UInt64

/-- `u64::saturating_sub`. -/
def saturatingSub (a b : UInt64) : UInt64 := if a < b then 0 else a - b

/-- `u64::abs_diff`. -/
def absDiff (a b : UInt64) : UInt64 := if a < b then b - a else a - b

theorem toNat_saturatingSub (a b : UInt64) :
    (saturatingSub a b).toNat = a.toNat - b.toNat := by
  rw [saturatingSub]
  by_cases h : a < b
  · have := lt_iff_toNat_lt.mp h
    rw [if_pos h, UInt64.toNat_zero]
    omega
  · have hle : b ≤ a := UInt64.not_lt.mp h
    rw [if_neg h, UInt64.toNat_sub_of_le a b hle]

theorem toNat_absDiff (a b : UInt64) :
    (absDiff a b).toNat = (a.toNat - b.toNat) + (b.toNat - a.toNat) := by
  rw [absDiff]
  by_cases h : a < b
  · have hlt := lt_iff_toNat_lt.mp h
    rw [if_pos h, UInt64.toNat_sub_of_le b a (UInt64.le_of_lt h)]
    omega
  · have hle : b ≤ a := UInt64.not_lt.mp h
    have := le_iff_toNat_le.mp hle
    rw [if_neg h, UInt64.toNat_sub_of_le a b hle]
    omega

/-- `u64::to_be_bytes`. -/
def toBeBytes (a : UInt64) : List UInt8 :=
  [(a >>> 56).toUInt8, (a >>> 48).toUInt8, (a >>> 40).toUInt8, (a >>> 32).toUInt8,
    (a >>> 24).toUInt8, (a >>> 16).toUInt8, (a >>> 8).toUInt8, a.toUInt8]

@[simp] theorem toBeBytes_length (a : UInt64) : a.toBeBytes.length = 8 := rfl

end UInt64

/-! ### The order of bytes -/

instance UInt8.instLinearOrder : LinearOrder UInt8 where
  le_refl := UInt8.le_refl
  le_trans _ _ _ := UInt8.le_trans
  lt_iff_le_not_ge a b := by
    rw [UInt8.lt_iff_toNat_lt, UInt8.le_iff_toNat_le, UInt8.le_iff_toNat_le]
    omega
  le_antisymm _ _ := UInt8.le_antisymm
  le_total := UInt8.le_total
  toDecidableLE := inferInstance

/-- The number a byte string writes in base `256`, most significant byte first. -/
def beValue (l : List UInt8) : Nat := l.foldl (fun acc b => acc * 256 + b.toNat) 0

theorem foldl_beValue (l : List UInt8) (n : Nat) :
    l.foldl (fun acc b => acc * 256 + b.toNat) n = n * 256 ^ l.length + beValue l := by
  induction l generalizing n with
  | nil => simp [beValue]
  | cons b l ih =>
    rw [beValue, List.foldl_cons, List.foldl_cons, ih, ih (0 * 256 + b.toNat), List.length_cons,
      pow_succ]
    ring

theorem beValue_cons (b : UInt8) (l : List UInt8) :
    beValue (b :: l) = b.toNat * 256 ^ l.length + beValue l := by
  rw [beValue, List.foldl_cons, foldl_beValue]
  simp

theorem beValue_append (l m : List UInt8) :
    beValue (l ++ m) = beValue l * 256 ^ m.length + beValue m := by
  rw [beValue, List.foldl_append, foldl_beValue, ← beValue]

theorem beValue_lt (l : List UInt8) : beValue l < 256 ^ l.length := by
  induction l with
  | nil => simp [beValue]
  | cons b l ih =>
    have hb : b.toNat < 256 := b.toNat_lt
    rw [beValue_cons, List.length_cons, pow_succ]
    nlinarith

/-- **Byte strings of one length compare as the numbers they write.** -/
theorem lt_iff_beValue_lt {l m : List UInt8} (h : l.length = m.length) :
    l < m ↔ beValue l < beValue m := by
  induction l generalizing m with
  | nil =>
    obtain rfl : m = [] := List.length_eq_zero_iff.mp h.symm
    simp
  | cons a l ih =>
    cases m with
    | nil => simp at h
    | cons b m =>
      have hlen : l.length = m.length := Nat.succ.inj h
      have hl := beValue_lt l
      have hm := beValue_lt m
      rw [List.cons_lt_cons_iff, beValue_cons, beValue_cons, ih hlen, UInt8.lt_iff_toNat_lt, hlen]
      rw [hlen] at hl
      constructor
      · rintro (hab | ⟨rfl, hv⟩)
        · have : (a.toNat + 1) * 256 ^ m.length ≤ b.toNat * 256 ^ m.length :=
            Nat.mul_le_mul_right _ hab
          rw [Nat.add_mul] at this
          omega
        · omega
      · intro hv
        rcases Nat.lt_trichotomy a.toNat b.toNat with hab | hab | hab
        · exact Or.inl hab
        · refine Or.inr ⟨UInt8.toNat_inj.mp hab, ?_⟩
          rw [hab] at hv
          omega
        · have : (b.toNat + 1) * 256 ^ m.length ≤ a.toNat * 256 ^ m.length :=
            Nat.mul_le_mul_right _ hab
          rw [Nat.add_mul] at this
          omega

theorem beValue_toBeBytes (a : UInt64) : beValue a.toBeBytes = a.toNat := by
  have ha := a.toNat_lt
  simp only [UInt64.toBeBytes, beValue, List.foldl_cons, List.foldl_nil]
  simp [UInt64.toNat_shiftRight, Nat.shiftRight_eq_div_pow]
  omega

theorem toBeBytes_injective : Function.Injective UInt64.toBeBytes := by
  intro a b h
  have := congrArg beValue h
  rw [beValue_toBeBytes, beValue_toBeBytes] at this
  exact UInt64.toNat_inj.mp this

theorem beValue_inj {l m : List UInt8} (h : l.length = m.length) (hv : beValue l = beValue m) :
    l = m := by
  rcases lt_trichotomy l m with hlt | heq | hlt
  · have := (lt_iff_beValue_lt h).mp hlt
    omega
  · exact heq
  · have := (lt_iff_beValue_lt h.symm).mp hlt
    omega

/-- A mask passes through an exclusive or. -/
theorem UInt8.xor_and_right (a b c : UInt8) : (a ^^^ b) &&& c = (a &&& c) ^^^ (b &&& c) := by
  apply UInt8.toBitVec_inj.mp
  ext i hi
  simp [Bool.and_xor_distrib_right]

/-! ### Words of two and four bytes -/

namespace UInt16

/-- `u16::to_be_bytes`. -/
def toBeBytes (a : UInt16) : List UInt8 := [(a >>> 8).toUInt8, a.toUInt8]

/-- `u16::from_be_bytes`, on two bytes. -/
def ofBeBytes (l : List UInt8) : UInt16 := UInt16.ofNat (beValue l)

@[simp] theorem toBeBytes_length (a : UInt16) : a.toBeBytes.length = 2 := rfl

theorem beValue_toBeBytes (a : UInt16) : beValue a.toBeBytes = a.toNat := by
  have ha := a.toNat_lt
  simp only [toBeBytes, beValue, List.foldl_cons, List.foldl_nil]
  simp [UInt16.toNat_shiftRight, Nat.shiftRight_eq_div_pow]
  omega

@[simp] theorem ofBeBytes_toBeBytes (a : UInt16) : ofBeBytes a.toBeBytes = a := by
  rw [ofBeBytes, beValue_toBeBytes, UInt16.ofNat_toNat]

theorem toBeBytes_ofBeBytes {l : List UInt8} (h : l.length = 2) : (ofBeBytes l).toBeBytes = l := by
  have hl := beValue_lt l
  rw [h] at hl
  refine beValue_inj h.symm ?_
  rw [beValue_toBeBytes, ofBeBytes, UInt16.toNat_ofNat_of_lt' (by rw [UInt16.size]; omega)]

end UInt16

namespace UInt32

/-- `u32::to_be_bytes`. -/
def toBeBytes (a : UInt32) : List UInt8 :=
  [(a >>> 24).toUInt8, (a >>> 16).toUInt8, (a >>> 8).toUInt8, a.toUInt8]

/-- `u32::from_be_bytes`, on four bytes. -/
def ofBeBytes (l : List UInt8) : UInt32 := UInt32.ofNat (beValue l)

@[simp] theorem toBeBytes_length (a : UInt32) : a.toBeBytes.length = 4 := rfl

theorem beValue_toBeBytes (a : UInt32) : beValue a.toBeBytes = a.toNat := by
  have ha := a.toNat_lt
  simp only [toBeBytes, beValue, List.foldl_cons, List.foldl_nil]
  simp [UInt32.toNat_shiftRight, Nat.shiftRight_eq_div_pow]
  omega

@[simp] theorem ofBeBytes_toBeBytes (a : UInt32) : ofBeBytes a.toBeBytes = a := by
  rw [ofBeBytes, beValue_toBeBytes, UInt32.ofNat_toNat]

theorem toBeBytes_ofBeBytes {l : List UInt8} (h : l.length = 4) : (ofBeBytes l).toBeBytes = l := by
  have hl := beValue_lt l
  rw [h] at hl
  refine beValue_inj h.symm ?_
  rw [beValue_toBeBytes, ofBeBytes, UInt32.toNat_ofNat_of_lt' (by rw [UInt32.size]; omega)]

end UInt32

/-! ### Slices -/

namespace List

variable {α : Type}

/-- `<[T]>::get`, for the range from `i` up to `j`. -/
def getRange? (l : List α) (i j : Nat) : Option (List α) :=
  if i ≤ j ∧ j ≤ l.length then some ((l.drop i).take (j - i)) else none

theorem getRange?_eq_some {l s : List α} {i n : Nat} (hn : 0 < n) :
    l.getRange? i (i + n) = some s ↔ s.length = n ∧ ∃ rest, l.drop i = s ++ rest := by
  rw [getRange?, Nat.add_sub_cancel_left]
  constructor
  · intro h
    split_ifs at h with hle
    rw [← Option.some.inj h]
    refine ⟨?_, (l.drop i).drop n, (List.take_append_drop n _).symm⟩
    rw [List.length_take, List.length_drop]
    omega
  · rintro ⟨rfl, rest, hdrop⟩
    have hlen := congrArg List.length hdrop
    rw [List.length_drop, List.length_append] at hlen
    rw [if_pos (by omega), hdrop, List.take_left]

/-- **A slice depends on its own places** and on where the list ends. -/
theorem getRange?_congr {l m : List α} {i j : Nat} (hlen : m.length = l.length)
    (h : ∀ k, i ≤ k → k < j → m[k]? = l[k]?) : m.getRange? i j = l.getRange? i j := by
  rw [getRange?, getRange?, hlen]
  split_ifs
  · congr 1
    apply List.ext_getElem?
    intro k
    rw [List.getElem?_take, List.getElem?_take]
    split_ifs with hk
    · rw [List.getElem?_drop, List.getElem?_drop]
      exact h (i + k) (by omega) (by omega)
    · rfl
  · rfl

/-- `<[T]>::chunks`, for a size `n` that is not zero. -/
def chunks (n : Nat) : List α → List (List α)
  | [] => []
  | a :: l => (a :: l.take (n - 1)) :: chunks n (l.drop (n - 1))
termination_by l => l.length
decreasing_by simp only [List.length_drop, List.length_cons]; omega

theorem flatten_chunks (n : Nat) (l : List α) : (l.chunks n).flatten = l := by
  induction l using chunks.induct n with
  | case1 => rw [chunks, List.flatten_nil]
  | case2 a l ih =>
    rw [chunks, List.flatten_cons, ih, List.cons_append, List.take_append_drop]

theorem length_of_mem_chunks {n : Nat} (hn : 0 < n) {l c : List α} (hc : c ∈ l.chunks n) :
    0 < c.length ∧ c.length ≤ n := by
  induction l using chunks.induct n with
  | case1 =>
    rw [chunks] at hc
    cases hc
  | case2 a l ih =>
    rw [chunks] at hc
    rcases List.mem_cons.mp hc with rfl | hc
    · rw [List.length_cons, List.length_take]
      omega
    · exact ih hc

end List

/-! ### Fixed-length arrays -/

/-- `<[u8; n]>::try_from` on a slice of bytes. -/
def Vector.ofBytes? (n : Nat) (l : List UInt8) : Option (Vector UInt8 n) :=
  if h : l.length = n then some ⟨l.toArray, h⟩ else none

theorem Vector.ofBytes?_eq_some {n : Nat} {l : List UInt8} {v : Vector UInt8 n} :
    Vector.ofBytes? n l = some v ↔ l = v.toList := by
  rw [Vector.ofBytes?]
  constructor
  · intro h
    split at h
    · rw [← Option.some.inj h]
      rfl
    · cases h
  · rintro rfl
    rw [dif_pos v.length_toList]
    rfl
