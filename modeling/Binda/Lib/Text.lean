import Mathlib.Data.List.DropRight
import Binda.Lib.PrefixCode

/-!
# Text

Rust's `str` operations, on Lean strings (both are sequences of Unicode scalar
values kept as UTF-8), and the compact JSON spelling of a string.

`jsonString` writes the quotes and the standard escapes.  `jsonString_prefixCode`
says a JSON string can be split off the front of a text in one way only: each
letter is written by a prefix code (`jsonChar_prefixCode`), and no letter's
spelling starts with a quote.
-/

/-! ### Trimming and case -/

/-- `char::is_whitespace`: the Unicode property `White_Space`. -/
def isWhitespace (c : Char) : Bool :=
  let n := c.toNat
  (9 ≤ n && n ≤ 13) || n == 0x20 || n == 0x85 || n == 0xA0 || n == 0x1680 ||
    (0x2000 ≤ n && n ≤ 0x200A) || n == 0x2028 || n == 0x2029 || n == 0x202F || n == 0x205F ||
    n == 0x3000

/-- `str::trim`. -/
def trim (s : String) : String :=
  String.ofList ((s.toList.dropWhile isWhitespace).rdropWhile isWhitespace)

/-- `str::trim_end_matches` for one character. -/
def trimEndMatches (x : Char) (s : String) : String :=
  String.ofList (s.toList.rdropWhile fun c => c == x)

/-- `str::to_ascii_lowercase`. -/
def toAsciiLowercase (s : String) : String := String.ofList (s.toList.map Char.toLower)

/-! ### Splitting and numbers -/

/-- `str::split_once` for one character: what is before its first occurrence, and after. -/
def splitOnce (x : Char) (s : String) : Option (String × String) :=
  match s.toList.dropWhile fun c => c != x with
  | [] => none
  | _ :: after => some (String.ofList (s.toList.takeWhile fun c => c != x), String.ofList after)

/-- `str::parse::<u16>`: decimal digits, behind a `+` or not. -/
def parseU16 (s : String) : Option UInt16 :=
  let digits :=
    match s.toList with
    | '+' :: digits => digits
    | digits => digits
  if digits.isEmpty || !digits.all Char.isDigit then none
  else
    let value := Nat.ofDigitChars 10 digits 0
    if value < UInt16.size then some (UInt16.ofNat value) else none

example : splitOnce ' ' "10 mail" = some ("10", "mail") ∧ splitOnce ' ' "mail" = none ∧
    parseU16 "+010" = some 10 ∧ parseU16 "65536" = none ∧ parseU16 "" = none := by decide

/-! ### Hexadecimal -/

/-- The lower-case hexadecimal digit of a number below `16`. -/
def hexDigit (n : Nat) : Char := if n < 10 then Char.ofNat (48 + n) else Char.ofNat (87 + n)

theorem hexDigit_inj {m n : Nat} (hm : m < 16) (hn : n < 16) (h : hexDigit m = hexDigit n) :
    m = n := by
  have key : ∀ i : Fin 16, ∀ j : Fin 16, hexDigit i = hexDigit j → i = j := by decide
  exact Fin.mk.inj_iff.mp (key ⟨m, hm⟩ ⟨n, hn⟩ h)

/-- Two hexadecimal digits for each byte, `{:02x}`. -/
def hexEncode (bytes : List UInt8) : List Char :=
  bytes.flatMap fun b => [hexDigit (b.toNat / 16), hexDigit (b.toNat % 16)]

theorem hexEncode_length (bytes : List UInt8) : (hexEncode bytes).length = 2 * bytes.length := by
  induction bytes with
  | nil => rfl
  | cons b l ih =>
    rw [hexEncode, List.flatMap_cons, List.length_append, ← hexEncode, ih, List.length_cons]
    simp only [List.length_cons, List.length_nil]
    omega

theorem hexEncode_injective : Function.Injective hexEncode := by
  intro l
  induction l with
  | nil =>
    intro m h
    cases m with
    | nil => rfl
    | cons c m => simp [hexEncode] at h
  | cons b l ih =>
    intro m h
    cases m with
    | nil => simp [hexEncode] at h
    | cons c m =>
      simp only [hexEncode, List.flatMap_cons, List.cons_append, List.nil_append,
        List.cons.injEq] at h
      obtain ⟨h1, h2, h3⟩ := h
      have hb := b.toNat_lt
      have hc := c.toNat_lt
      have e1 := hexDigit_inj (by omega) (by omega) h1
      have e2 := hexDigit_inj (by omega) (by omega) h2
      have hbc : b = c := UInt8.toNat_inj.mp (by omega)
      rw [hbc, ih h3]

/-! ### JSON strings -/

/-- How one character of a JSON string is written: the short escapes, `\u00..`
for the other control characters, and the character itself otherwise. -/
def jsonChar (c : Char) : List Char :=
  if c = '\"' then ['\\', '\"']
  else if c = '\\' then ['\\', '\\']
  else if c.toNat = 8 then ['\\', 'b']
  else if c.toNat = 9 then ['\\', 't']
  else if c.toNat = 10 then ['\\', 'n']
  else if c.toNat = 12 then ['\\', 'f']
  else if c.toNat = 13 then ['\\', 'r']
  else if c.toNat < 32 then
    ['\\', 'u', '0', '0', hexDigit (c.toNat / 16), hexDigit (c.toNat % 16)]
  else [c]

/-- A JSON string, quotes included. -/
def jsonString (s : String) : List Char :=
  '\"' :: (s.toList.flatMap jsonChar ++ ['\"'])

/-- What a reader of the front of the text sees: the escapes are told apart by
the letter after the backslash, everything else stands for itself. -/
theorem jsonChar_cases (c : Char) :
    (c.toNat < 32 ∧ jsonChar c =
        ['\\', 'u', '0', '0', hexDigit (c.toNat / 16), hexDigit (c.toNat % 16)]) ∨
      (∃ e, e ≠ 'u' ∧ jsonChar c = ['\\', e] ∧
        ((e = '\"' ∧ c = '\"') ∨ (e = '\\' ∧ c = '\\') ∨ (e = 'b' ∧ c.toNat = 8) ∨
          (e = 't' ∧ c.toNat = 9) ∨ (e = 'n' ∧ c.toNat = 10) ∨ (e = 'f' ∧ c.toNat = 12) ∨
          (e = 'r' ∧ c.toNat = 13))) ∨
      (c ≠ '\\' ∧ c ≠ '\"' ∧ jsonChar c = [c]) := by
  rw [jsonChar]
  by_cases h1 : c = '\"'
  · rw [if_pos h1]
    exact Or.inr (Or.inl ⟨'\"', by decide, rfl, Or.inl ⟨rfl, h1⟩⟩)
  rw [if_neg h1]
  by_cases h2 : c = '\\'
  · rw [if_pos h2]
    exact Or.inr (Or.inl ⟨'\\', by decide, rfl, by simp [h2]⟩)
  rw [if_neg h2]
  by_cases h3 : c.toNat = 8
  · rw [if_pos h3]
    exact Or.inr (Or.inl ⟨'b', by decide, rfl, by simp [h3]⟩)
  rw [if_neg h3]
  by_cases h4 : c.toNat = 9
  · rw [if_pos h4]
    exact Or.inr (Or.inl ⟨'t', by decide, rfl, by simp [h4]⟩)
  rw [if_neg h4]
  by_cases h5 : c.toNat = 10
  · rw [if_pos h5]
    exact Or.inr (Or.inl ⟨'n', by decide, rfl, by simp [h5]⟩)
  rw [if_neg h5]
  by_cases h6 : c.toNat = 12
  · rw [if_pos h6]
    exact Or.inr (Or.inl ⟨'f', by decide, rfl, by simp [h6]⟩)
  rw [if_neg h6]
  by_cases h7 : c.toNat = 13
  · rw [if_pos h7]
    exact Or.inr (Or.inl ⟨'r', by decide, rfl, by simp [h7]⟩)
  rw [if_neg h7]
  by_cases h8 : c.toNat < 32
  · rw [if_pos h8]
    exact Or.inl ⟨h8, rfl⟩
  · rw [if_neg h8]
    exact Or.inr (Or.inr ⟨h2, h1, rfl⟩)

theorem jsonChar_prefixCode : PrefixCode jsonChar := by
  intro a b u v h
  rcases jsonChar_cases a with ⟨ha, hea⟩ | ⟨x, hx, hea, hxa⟩ | ⟨ha, ha', hea⟩ <;>
    rcases jsonChar_cases b with ⟨hb, heb⟩ | ⟨y, hy, heb, hyb⟩ | ⟨hb, hb', heb⟩ <;>
    rw [hea, heb] at h <;>
    simp only [List.cons_append, List.nil_append, List.cons.injEq, true_and] at h
  · obtain ⟨h1, h2, h3⟩ := h
    have e1 := hexDigit_inj (by omega) (by omega) h1
    have e2 := hexDigit_inj (by omega) (by omega) h2
    exact ⟨Char.toNat_inj.mp (by omega), h3⟩
  · exact absurd h.1.symm hy
  · exact absurd h.1.symm hb
  · exact absurd h.1 hx
  · obtain ⟨rfl, h2⟩ := h
    refine ⟨?_, h2⟩
    rcases hxa with ⟨e, hc⟩ | ⟨e, hc⟩ | ⟨e, hc⟩ | ⟨e, hc⟩ | ⟨e, hc⟩ | ⟨e, hc⟩ | ⟨e, hc⟩ <;>
      subst e <;> simp at hyb <;>
      first
        | rw [hc, hyb]
        | exact Char.toNat_inj.mp (by rw [hc, hyb])
  · exact absurd h.1.symm hb
  · exact absurd h.1 ha
  · exact absurd h.1 ha
  · exact h

theorem jsonChar_head (c : Char) : ∃ x t, jsonChar c = x :: t ∧ x ≠ '\"' := by
  rcases jsonChar_cases c with ⟨_, he⟩ | ⟨x, _, he, _⟩ | ⟨_, h, he⟩
  · exact ⟨_, _, he, by decide⟩
  · exact ⟨_, _, he, by decide⟩
  · exact ⟨_, _, he, h⟩

theorem toList_injective : Function.Injective String.toList := fun _ _ => String.toList_injective

/-- **A JSON string can be split off the front of a text in one way only.** -/
theorem jsonString_prefixCode : PrefixCode jsonString :=
  ((jsonChar_prefixCode.list_until jsonChar_head).comp toList_injective).const_append ['\"']
