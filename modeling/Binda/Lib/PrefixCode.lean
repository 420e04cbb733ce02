import Mathlib.Data.List.Basic
import Mathlib.Logic.Function.Basic

/-!
# Prefix codes

A writer is a **prefix code** when what it wrote can be split off the front of
any text in one way only: `code a ++ u = code b ++ v` forces `a = b` and
`u = v`.  Prefix codes are closed under the ways a compact text format is put
together, so a format is shown unambiguous field by field:

* `PrefixCode.comp`: after an injective reading of the value;
* `PrefixCode.const_append`, `PrefixCode.append_const`: a fixed text before or after;
* `PrefixCode.pair`: one field after another;
* `PrefixCode.list_until`: a list of code words closed by a letter that starts none;
* `PrefixCode.bracketed`: the same with a separator between the words.

`decimal_then` is the one code of numbers used here: decimal digits followed by
a letter that is not a digit.
-/

variable {α β γ : Type}

/-- What `code` writes can be split off the front of a text in one way only. -/
def PrefixCode (code : α → List γ) : Prop :=
  ∀ a b u v, code a ++ u = code b ++ v → a = b ∧ u = v

namespace PrefixCode

variable {code : α → List γ}

theorem injective (h : PrefixCode code) : Function.Injective code := by
  intro a b hab
  exact (h a b [] [] (by rw [hab])).1

theorem comp (h : PrefixCode code) {f : β → α} (hf : Function.Injective f) :
    PrefixCode fun b => code (f b) := by
  intro a b u v huv
  obtain ⟨hab, he⟩ := h (f a) (f b) u v huv
  exact ⟨hf hab, he⟩

theorem const_append (s : List γ) (h : PrefixCode code) : PrefixCode fun a => s ++ code a := by
  intro a b u v huv
  rw [List.append_assoc, List.append_assoc, List.append_cancel_left_eq] at huv
  exact h a b u v huv

theorem append_const (h : PrefixCode code) (s : List γ) : PrefixCode fun a => code a ++ s := by
  intro a b u v huv
  rw [List.append_assoc, List.append_assoc] at huv
  obtain ⟨hab, he⟩ := h a b _ _ huv
  exact ⟨hab, List.append_cancel_left he⟩

/-- **Two fields in a row.** -/
theorem pair {code' : β → List γ} (h : PrefixCode code) (h' : PrefixCode code') :
    PrefixCode fun p : α × β => code p.1 ++ code' p.2 := by
  intro p q u v huv
  rw [List.append_assoc, List.append_assoc] at huv
  obtain ⟨h1, he⟩ := h p.1 q.1 _ _ huv
  obtain ⟨h2, he'⟩ := h' p.2 q.2 _ _ he
  exact ⟨Prod.ext h1 h2, he'⟩

/-- **A list closed by a letter that starts no code word.** -/
theorem list_until (h : PrefixCode code) {z : γ}
    (hz : ∀ a, ∃ x t, code a = x :: t ∧ x ≠ z) :
    PrefixCode fun l : List α => l.flatMap code ++ [z] := by
  intro l
  induction l with
  | nil =>
    intro m u v huv
    cases m with
    | nil => exact ⟨rfl, List.append_cancel_left huv⟩
    | cons b m =>
      -- the closing letter would start the word of `b`
      obtain ⟨x, t, hb, hx⟩ := hz b
      simp only [List.flatMap_nil, List.flatMap_cons, hb] at huv
      exact absurd (List.cons.inj huv).1.symm hx
  | cons a l ih =>
    intro m u v huv
    cases m with
    | nil =>
      obtain ⟨x, t, ha, hx⟩ := hz a
      simp only [List.flatMap_nil, List.flatMap_cons, ha] at huv
      exact absurd (List.cons.inj huv).1 hx
    | cons b m =>
      simp only [List.flatMap_cons, List.append_assoc] at huv
      obtain ⟨hab, he⟩ := h a b _ _ huv
      obtain ⟨hlm, hu⟩ := ih m u v (by simpa only [List.append_assoc] using he)
      exact ⟨by rw [hab, hlm], hu⟩

/-- Code words with `sep` between them, closed by `z`. -/
def separated (code : α → List γ) (sep z : γ) : List α → List γ
  | [] => [z]
  | a :: l => code a ++ (l.flatMap (fun b => sep :: code b) ++ [z])

/-- **A separated list** is unambiguous once closed by a letter that is neither
the separator nor the start of a word. -/
theorem bracketed (h : PrefixCode code) {sep z : γ} (hsep : sep ≠ z)
    (hz : ∀ a, ∃ x t, code a = x :: t ∧ x ≠ z) : PrefixCode (separated code sep z) := by
  have htail : PrefixCode fun l : List α => l.flatMap (fun b => sep :: code b) ++ [z] :=
    (h.const_append [sep]).list_until fun a => ⟨sep, code a, rfl, hsep⟩
  intro l m u v huv
  cases l with
  | nil =>
    cases m with
    | nil => exact ⟨rfl, List.append_cancel_left huv⟩
    | cons b m =>
      obtain ⟨x, t, hb, hx⟩ := hz b
      simp only [separated, hb] at huv
      exact absurd (List.cons.inj huv).1.symm hx
  | cons a l =>
    cases m with
    | nil =>
      obtain ⟨x, t, ha, hx⟩ := hz a
      simp only [separated, ha] at huv
      exact absurd (List.cons.inj huv).1 hx
    | cons b m =>
      simp only [separated, List.append_assoc] at huv
      obtain ⟨hab, he⟩ := h a b _ _ huv
      obtain ⟨hlm, hu⟩ := htail l m u v (by simpa only [List.append_assoc] using he)
      exact ⟨by rw [hab, hlm], hu⟩

end PrefixCode

/-! ### Decimal numbers -/

theorem toDigits_ten_injective : Function.Injective (Nat.toDigits 10) := by
  intro m n h
  have := congrArg (fun l => Nat.ofDigitChars 10 l 0) h
  simpa only [Nat.ofDigitChars_ten_toDigits] using this

theorem notMem_toDigits_ten {x : Char} (hx : x.isDigit = false) (n : Nat) :
    x ∉ Nat.toDigits 10 n := by
  intro hm
  have := Nat.isDigit_of_mem_toDigits (by decide) (by decide) hm
  rw [hx] at this
  exact Bool.false_ne_true this

/-- Two texts split at a letter that is on neither side before it. -/
theorem split_at_first [DecidableEq γ] {x : γ} {l m u v : List γ} (hl : x ∉ l) (hm : x ∉ m)
    (h : l ++ x :: u = m ++ x :: v) : l = m ∧ u = v := by
  induction l generalizing m with
  | nil =>
    cases m with
    | nil => exact ⟨rfl, (List.cons.inj h).2⟩
    | cons b m => exact absurd (List.mem_cons.mpr (Or.inl (List.cons.inj h).1)) hm
  | cons a l ih =>
    cases m with
    | nil => exact absurd (List.mem_cons.mpr (Or.inl (List.cons.inj h).1.symm)) hl
    | cons b m =>
      obtain ⟨hab, he⟩ := List.cons.inj h
      obtain ⟨hlm, hu⟩ := ih (fun hc => hl (List.mem_cons_of_mem a hc))
        (fun hc => hm (List.mem_cons_of_mem b hc)) he
      exact ⟨by rw [hab, hlm], hu⟩

/-- Two texts split at a letter that is on neither side after it. -/
theorem split_at_last [DecidableEq γ] {x : γ} {l m u v : List γ} (hu : x ∉ u) (hv : x ∉ v)
    (h : l ++ x :: u = m ++ x :: v) : l = m ∧ u = v := by
  have hr : u.reverse ++ x :: l.reverse = v.reverse ++ x :: m.reverse := by
    have := congrArg List.reverse h
    simpa using this
  obtain ⟨h1, h2⟩ := split_at_first (by simpa using hu) (by simpa using hv) hr
  exact ⟨List.reverse_injective h2, List.reverse_injective h1⟩

/-- **Decimal digits closed by a letter that is not a digit.** -/
theorem PrefixCode.decimal_then {x : Char} (hx : x.isDigit = false) :
    PrefixCode fun n : Nat => Nat.toDigits 10 n ++ [x] := by
  intro m n u v huv
  rw [List.append_assoc, List.append_assoc] at huv
  obtain ⟨hmn, he⟩ := split_at_first (notMem_toDigits_ten hx m) (notMem_toDigits_ten hx n) huv
  exact ⟨toDigits_ten_injective hmn, he⟩
