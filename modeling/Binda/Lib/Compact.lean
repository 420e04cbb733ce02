import Mathlib.Algebra.GroupWithZero.Nat
import Mathlib.Data.String.Basic
import Binda.Lib.Json
import Binda.Lib.Text

/-!
# Compact JSON

A document as it is written without white space, and how many bytes that takes.
`size` is computed part by part (`size_array`, `size_object`): what the parts take,
a comma between them, two brackets around them.
-/

namespace Json

mutual

/-- The text of a document. -/
def compact : Json → List Char
  | null => "null".toList
  | bool true => "true".toList
  | bool false => "false".toList
  | nat n => Nat.toDigits 10 n
  | number literal => literal.toList
  | string s => jsonString s
  | array elements => '[' :: compactElements elements
  | object members => '\x7b' :: compactMembers members

/-- The elements of an array and the closing bracket. -/
def compactElements : List Json → List Char
  | [] => [']']
  | [j] => j.compact ++ [']']
  | j :: j' :: elements => j.compact ++ ',' :: compactElements (j' :: elements)

/-- The members of an object and the closing brace. -/
def compactMembers : List (String × Json) → List Char
  | [] => ['\x7d']
  | [(name, j)] => jsonString name ++ ':' :: j.compact ++ ['\x7d']
  | (name, j) :: m :: members =>
    jsonString name ++ ':' :: j.compact ++ ',' :: compactMembers (m :: members)

end

/-- The bytes of the text. -/
def size (j : Json) : Nat := String.utf8Len j.compact

/-- The bytes of a list with a comma between the items. -/
def separated (sizes : List Nat) : Nat := sizes.sum + (sizes.length - 1)

theorem separated_cons_cons (m n : Nat) (sizes : List Nat) :
    separated (m :: n :: sizes) = m + 1 + separated (n :: sizes) := by
  simp only [separated, List.sum_cons, List.length_cons]
  omega

theorem separated_perm {sizes sizes' : List Nat} (h : sizes.Perm sizes') :
    separated sizes = separated sizes' := by
  rw [separated, separated, h.sum_nat, h.length_eq]

theorem utf8Len_compactElements : ∀ elements : List Json,
    String.utf8Len (compactElements elements) = separated (elements.map size) + 1 := by
  intro elements
  induction elements with
  | nil => rfl
  | cons j elements ih =>
    cases elements with
    | nil =>
      rw [compactElements, String.utf8Len_append, ← size]
      rfl
    | cons j' elements =>
      rw [compactElements, String.utf8Len_append, String.utf8Len_cons, ih, ← size]
      simp only [List.map_cons, separated_cons_cons, show Char.utf8Size ',' = 1 from rfl]
      omega

/-- The bytes of a member: the name, a colon and the value. -/
def memberSize (m : String × Json) : Nat := (string m.1).size + 1 + m.2.size

theorem utf8Len_compactMembers : ∀ members : List (String × Json),
    String.utf8Len (compactMembers members) = separated (members.map memberSize) + 1 := by
  intro members
  induction members with
  | nil => rfl
  | cons m members ih =>
    obtain ⟨name, j⟩ := m
    have hmember : String.utf8Len (jsonString name ++ ':' :: j.compact) = memberSize (name, j) := by
      rw [String.utf8Len_append, String.utf8Len_cons, show Char.utf8Size ':' = 1 from rfl,
        memberSize, size, size, compact]
      dsimp only
      omega
    cases members with
    | nil =>
      rw [compactMembers, String.utf8Len_append, hmember]
      rfl
    | cons m' members =>
      rw [compactMembers, String.utf8Len_append, hmember, String.utf8Len_cons, ih]
      simp only [List.map_cons, separated_cons_cons, show Char.utf8Size ',' = 1 from rfl]
      omega

/-- **The bytes of an array.** -/
theorem size_array (elements : List Json) :
    (array elements).size = separated (elements.map size) + 2 := by
  rw [size, compact, String.utf8Len_cons, utf8Len_compactElements]
  rfl

/-- **The bytes of an object.** -/
theorem size_object (members : List (String × Json)) :
    (object members).size = separated (members.map memberSize) + 2 := by
  rw [size, compact, String.utf8Len_cons, utf8Len_compactMembers]
  rfl

theorem size_nat_pos (n : Nat) : 0 < (nat n).size := by
  rw [size, compact, Nat.pos_iff_ne_zero, Ne, String.utf8Len_eq_zero]
  exact Nat.toDigits_ne_nil

/-- A string takes at least its characters. -/
theorem length_le_size_string (s : String) : s.toList.length ≤ (string s).size := by
  have hchar : ∀ c : Char, 1 ≤ String.utf8Len (jsonChar c) := by
    intro c
    rw [Nat.one_le_iff_ne_zero, Ne, String.utf8Len_eq_zero]
    rcases jsonChar_cases c with ⟨_, h⟩ | ⟨e, _, h, _⟩ | ⟨_, _, h⟩ <;> rw [h] <;> simp
  rw [size, compact, jsonString, String.utf8Len_cons, String.utf8Len_append]
  generalize s.toList = cs
  induction cs with
  | nil => exact Nat.zero_le _
  | cons c cs ih =>
    have hc := hchar c
    rw [List.flatMap_cons, String.utf8Len_append, List.length_cons]
    omega

/-- Every number of an array takes at least two bytes. -/
theorem two_mul_length_le_size_array {α : Type} (f : α → Nat) (l : List α) :
    2 * l.length ≤ (array (l.map fun a => nat (f a))).size := by
  have hsum : l.length ≤ ((l.map fun a => nat (f a)).map size).sum := by
    induction l with
    | nil => exact Nat.zero_le _
    | cons a l ih =>
      have ha := size_nat_pos (f a)
      rw [List.map_cons, List.map_cons, List.sum_cons, List.length_cons]
      omega
  rw [size_array, separated, List.length_map, List.length_map]
  omega

end Json
