import Mathlib.Data.List.Flatten
import Binda.Lib.Bytes

/-!
# UTF-8

`str::as_bytes` and `std::str::from_utf8`, on lists of bytes.  A text has one
spelling and a spelling belongs to one text (`String.ofBytes?_eq_some`).

An ASCII byte stands in a spelling where its letter stands in the text and
nowhere else (`mem_asBytes`), and a text joined with a separator falls apart at
the separators of its parts as well as at those between them
(`List.splitOn_intercalate_eq_flatMap`).
-/

namespace String

/-- `str::as_bytes`. -/
def asBytes (s : String) : List UInt8 := s.toUTF8.data.toList

/-- `std::str::from_utf8`. -/
def ofBytes? (bytes : List UInt8) : Option String := String.fromUTF8? bytes.toByteArray

theorem asBytes_ofList (cs : List Char) : (String.ofList cs).asBytes = cs.flatMap utf8EncodeChar := by
  rw [asBytes, String.toUTF8, String.toByteArray_ofList, List.utf8Encode,
    List.toList_data_toByteArray]

theorem asBytes_eq (s : String) : s.asBytes = s.toList.flatMap utf8EncodeChar := by
  rw [← asBytes_ofList, String.ofList_toList]

theorem toByteArray_asBytes (s : String) : s.asBytes.toByteArray = s.toUTF8 := by
  apply ByteArray.ext
  apply Array.toList_inj.mp
  rw [List.toList_data_toByteArray, asBytes]

/-- **A spelling is read back as the text it spells.** -/
theorem ofBytes?_eq_some {bytes : List UInt8} {s : String} :
    ofBytes? bytes = some s ↔ s.asBytes = bytes := by
  rw [ofBytes?, String.fromUTF8?]
  constructor
  · intro h
    split at h
    · rw [← Option.some.inj h]
      exact List.toList_data_toByteArray
    · cases h
  · rintro rfl
    rw [dif_pos (by rw [toByteArray_asBytes]; exact s.isValidUTF8)]
    congr 1
    exact String.toByteArray_inj.mp (toByteArray_asBytes s)

@[simp] theorem ofBytes?_asBytes (s : String) : ofBytes? s.asBytes = some s :=
  ofBytes?_eq_some.mpr rfl

theorem asBytes_injective : Function.Injective asBytes := by
  intro s t h
  have hs := ofBytes?_asBytes s
  rw [h, ofBytes?_asBytes] at hs
  exact (Option.some.inj hs).symm

@[simp] theorem asBytes_eq_nil {s : String} : s.asBytes = [] ↔ s.toList = [] := by
  rw [asBytes_eq, List.flatMap_eq_nil_iff]
  constructor
  · intro h
    rw [List.eq_nil_iff_forall_not_mem]
    exact fun c hc => utf8EncodeChar_ne_nil (h c hc)
  · intro h c hc
    rw [h] at hc
    cases hc

/-- A byte below `0x80` in a character's spelling is the character itself. -/
theorem mem_utf8EncodeChar {c : Char} {b : UInt8} (hb : b.toNat < 0x80) :
    b ∈ utf8EncodeChar c ↔ c.toNat = b.toNat := by
  have hv : c.toNat = c.val.toNat := rfl
  rw [utf8EncodeChar, hv]
  -- the bytes of a longer spelling are `0x80` and more
  split_ifs <;>
    simp only [List.mem_cons, List.not_mem_nil, or_false, ← UInt8.toNat_inj, UInt8.toNat_ofNat'] <;>
    omega

/-- **An ASCII byte of the spelling is an ASCII letter of the text.** -/
theorem mem_asBytes {s : String} {c : Char} (hc : c.toNat < 0x80) :
    UInt8.ofNat c.toNat ∈ s.asBytes ↔ c ∈ s.toList := by
  have hb : (UInt8.ofNat c.toNat).toNat = c.toNat := by
    rw [UInt8.toNat_ofNat']
    omega
  rw [asBytes_eq, List.mem_flatMap]
  constructor
  · rintro ⟨d, hd, hm⟩
    rw [mem_utf8EncodeChar (by rw [hb]; exact hc), hb] at hm
    rw [← Char.toNat_inj.mp hm]
    exact hd
  · intro h
    exact ⟨c, h, (mem_utf8EncodeChar (by rw [hb]; exact hc)).mpr hb.symm⟩

end String

/-! ### Splitting what was joined -/

namespace List

variable {α : Type}

theorem sublist_intercalate {x : α} {ls : List (List α)} {l : List α} (hl : l ∈ ls) :
    l <+ [x].intercalate ls := by
  induction ls with
  | nil => cases hl
  | cons m ls ih =>
    cases ls with
    | nil =>
      rw [List.mem_singleton.mp hl, List.intercalate_singleton]
    | cons n ls =>
      rw [List.intercalate_cons_cons]
      rcases List.mem_cons.mp hl with rfl | hl
      · exact (List.sublist_append_left l _).trans (List.sublist_append_left _ _)
      · exact (ih hl).trans (List.sublist_append_right _ _)

variable [BEq α]

theorem length_le_flatMap_splitOn (x : α) (ls : List (List α)) :
    ls.length ≤ (ls.flatMap fun l => l.splitOn x).length := by
  induction ls with
  | nil => exact Nat.le_refl 0
  | cons l ls ih =>
    have hl := List.length_pos_of_ne_nil (List.splitOn_ne_nil x l)
    rw [List.flatMap_cons, List.length_append, List.length_cons]
    omega

variable [LawfulBEq α]

/-- **A joined list falls apart where its parts do, and between them.** -/
theorem splitOn_intercalate_eq_flatMap (x : α) {ls : List (List α)} (hls : ls ≠ []) :
    ([x].intercalate ls).splitOn x = ls.flatMap fun l => l.splitOn x := by
  induction ls with
  | nil => exact absurd rfl hls
  | cons l ls ih =>
    cases ls with
    | nil => simp
    | cons m ls =>
      rw [List.intercalate_cons_cons, List.append_assoc, List.singleton_append,
        List.splitOn_append_cons_self, ih (by simp)]
      exact List.flatMap_cons.symm

/-- A part is not longer than the whole. -/
theorem sublist_of_mem_splitOn {x : α} {l part : List α} (h : part ∈ l.splitOn x) :
    part <+ l := by
  have := sublist_intercalate (x := x) h
  rwa [List.intercalate_splitOn] at this

theorem two_le_length_splitOn {x : α} {l : List α} (hx : x ∈ l) : 2 ≤ (l.splitOn x).length := by
  obtain ⟨u, v, rfl⟩ := List.append_of_mem hx
  rw [List.splitOn_append_cons_self, List.length_append]
  have hu := List.length_pos_of_ne_nil (List.splitOn_ne_nil x u)
  have hv := List.length_pos_of_ne_nil (List.splitOn_ne_nil x v)
  omega

/-- **Lists are their own parts when the separator is in none of them.** -/
theorem flatMap_splitOn_eq_self {x : α} {ls : List (List α)} :
    (ls.flatMap fun l => l.splitOn x) = ls ↔ ∀ l ∈ ls, x ∉ l := by
  induction ls with
  | nil => simp
  | cons l ls ih =>
    rw [List.flatMap_cons, List.forall_mem_cons]
    constructor
    · intro h
      have hlen := congrArg List.length h
      rw [List.length_append, List.length_cons] at hlen
      -- a list with the separator would be two parts, and the others are one each at least
      have hx : x ∉ l := by
        intro hx
        have h1 := two_le_length_splitOn hx
        have h2 := length_le_flatMap_splitOn x ls
        omega
      rw [List.splitOn_eq_singleton hx, List.singleton_append] at h
      exact ⟨hx, ih.mp (List.cons.inj h).2⟩
    · rintro ⟨hx, hls⟩
      rw [List.splitOn_eq_singleton hx, ih.mpr hls, List.singleton_append]

/-- No part has the separator. -/
theorem notMem_of_mem_splitOn {x : α} {l part : List α} (h : part ∈ l.splitOn x) : x ∉ part := by
  have hparts := splitOn_intercalate_eq_flatMap x (List.splitOn_ne_nil x l)
  rw [List.intercalate_splitOn] at hparts
  exact flatMap_splitOn_eq_self.mp hparts.symm part h

end List
