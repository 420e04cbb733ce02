import Binda.Lib.Text

/-!
# Scanning compact JSON

An automaton that reads compact JSON from the left and knows whether it is in a
string.  It turns `bad` where compact JSON without arrays of numbers cannot go
on: a string is followed by `:`, `,` or a closing brace, a `:` outside of strings
by a string or a number, and such a number by a comma.

* `scan_jsonString`, `scan_decimal`: what strings and numbers leave.
* `scan_stamped`: reading `:`, digits and `:` is possible inside a string only.
-/

/-- Where the scanner stands. -/
inductive Scan
  /-- Outside of strings. -/
  | out
  /-- After a `:`, outside of strings. -/
  | colon
  /-- In the digits after a `:`. -/
  | number
  /-- In a string. -/
  | string
  /-- In a string, after a backslash. -/
  | escape
  /-- After the quote that closes a string. -/
  | closed
  /-- Nothing follows from here. -/
  | bad
  deriving DecidableEq, Repr

namespace Scan

/-- One letter. -/
def step : Scan → Char → Scan
  | out, c => if c = '\"' then string else if c = ':' then colon else out
  | colon, c => if c = '\"' then string else if c.isDigit then number else bad
  | number, c => if c.isDigit then number else if c = ',' then out else bad
  | string, c => if c = '\"' then closed else if c = '\\' then escape else string
  | escape, _ => string
  | closed, c => if c = ':' then colon else if c = ',' ∨ c = '\x7d' then out else bad
  | bad, _ => bad

/-- All letters of a text. -/
def scan (s : Scan) (l : List Char) : Scan := l.foldl step s

variable {s : Scan} {l m : List Char}

@[simp] theorem scan_nil : scan s [] = s := rfl

@[simp] theorem scan_cons (c : Char) : scan s (c :: l) = scan (step s c) l := rfl

@[simp] theorem scan_append : scan s (l ++ m) = scan (scan s l) m := List.foldl_append

@[simp] theorem scan_bad : scan bad l = bad := by
  induction l with
  | nil => rfl
  | cons c l ih => exact ih

/-! ### Strings -/

theorem step_hexDigit {n : Nat} (h : n < 16) : step string (hexDigit n) = string := by
  have key : ∀ i : Fin 16, step string (hexDigit i) = string := by decide
  exact key ⟨n, h⟩

/-- A character of a string leaves the scanner in the string. -/
theorem scan_jsonChar (c : Char) : scan string (jsonChar c) = string := by
  rcases jsonChar_cases c with ⟨hc, he⟩ | ⟨e, _, he, _⟩ | ⟨hb, hq, he⟩
  · have h₁ : step string (hexDigit (c.toNat / 16)) = string := step_hexDigit (by omega)
    have h₂ : step string (hexDigit (c.toNat % 16)) = string := step_hexDigit (by omega)
    rw [he]
    change step (step string (hexDigit (c.toNat / 16))) (hexDigit (c.toNat % 16)) = string
    rw [h₁, h₂]
  · rw [he]
    rfl
  · rw [he]
    simp [step, hb, hq]

/-- **A string is read to its end.** -/
theorem scan_jsonString (t : String) (hs : step s '\"' = string) :
    scan s (jsonString t) = closed := by
  have hbody : scan string (t.toList.flatMap jsonChar) = string := by
    induction t.toList with
    | nil => rfl
    | cons c l ih => rw [List.flatMap_cons, scan_append, scan_jsonChar, ih]
  rw [jsonString, scan_cons, hs, scan_append, hbody]
  rfl

/-! ### Numbers -/

/-- A nonempty list of digits. -/
def Digits (l : List Char) : Prop := l ≠ [] ∧ ∀ c ∈ l, c.isDigit = true

theorem digits_toDigits (n : Nat) : Digits (Nat.toDigits 10 n) :=
  ⟨Nat.toDigits_ne_nil, fun _ hc => Nat.isDigit_of_mem_toDigits (by decide) (by decide) hc⟩

theorem scan_digits_number (h : ∀ c ∈ l, c.isDigit = true) : scan number l = number := by
  induction l with
  | nil => rfl
  | cons c l ih =>
    have hc : step number c = number := by simp [step, h c List.mem_cons_self]
    rw [scan_cons, hc]
    exact ih fun x hx => h x (List.mem_cons_of_mem c hx)

theorem ne_of_isDigit {c x : Char} (hc : c.isDigit = true) (hx : x.isDigit = false) : c ≠ x := by
  rintro rfl
  rw [hc] at hx
  cases hx

theorem scan_digits_colon (h : Digits l) : scan colon l = number := by
  obtain ⟨hne, hd⟩ := h
  cases l with
  | nil => exact absurd rfl hne
  | cons c l =>
    have hdigit := hd c List.mem_cons_self
    have hc : step colon c = number := by
      simp [step, hdigit, ne_of_isDigit hdigit (x := '\"') (by decide)]
    rw [scan_cons, hc]
    exact scan_digits_number fun x hx => hd x (List.mem_cons_of_mem c hx)

theorem scan_digits_string (h : ∀ c ∈ l, c.isDigit = true) : scan string l = string := by
  induction l with
  | nil => rfl
  | cons c l ih =>
    have hdigit := h c List.mem_cons_self
    have hc : step string c = string := by
      simp [step, ne_of_isDigit hdigit (x := '\"') (by decide),
        ne_of_isDigit hdigit (x := '\\') (by decide)]
    rw [scan_cons, hc]
    exact ih fun x hx => h x (List.mem_cons_of_mem c hx)

/-- **A number between two colons is in a string.** -/
theorem scan_stamped (hl : Digits l) (h : scan s (':' :: (l ++ ':' :: m)) ≠ bad) :
    scan s (':' :: (l ++ ':' :: m)) = scan string m := by
  have hcolon : ∀ t : Scan, step t ':' = colon → scan t (':' :: (l ++ ':' :: m)) = bad := by
    intro t ht
    rw [scan_cons, ht, scan_append, scan_digits_colon hl]
    exact scan_bad
  have hstring : ∀ t : Scan, step t ':' = string →
      scan t (':' :: (l ++ ':' :: m)) = scan string m := by
    intro t ht
    rw [scan_cons, ht, scan_append, scan_digits_string hl.2]
    rfl
  cases s with
  | out => exact absurd (hcolon out rfl) h
  | closed => exact absurd (hcolon closed rfl) h
  | string => exact hstring string rfl
  | escape => exact hstring escape rfl
  | colon => exact absurd scan_bad h
  | number => exact absurd scan_bad h
  | bad => exact absurd scan_bad h

end Scan
