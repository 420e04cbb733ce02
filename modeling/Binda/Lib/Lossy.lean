import Binda.Lib.Utf8

/-!
# UTF-8, with replacements

`String::from_utf8_lossy`: bytes that spell a text are read as that text, and what is no
spelling is replaced.  Each replacement stands for the longest beginning of a character's
spelling, so that reading goes on at the first byte that does not fit.

`lossyChars_append` says the characters spelled at the front are read whatever follows.
-/

namespace String

/-- Whether `second` may follow the first byte `b` of a spelling of three bytes or four. -/
def secondFits (b second : UInt8) : Bool :=
  if b == 0xE0 then 0xA0 ≤ second && second ≤ 0xBF
  else if b == 0xED then 0x80 ≤ second && second ≤ 0x9F
  else if b == 0xF0 then 0x90 ≤ second && second ≤ 0xBF
  else if b == 0xF4 then 0x80 ≤ second && second ≤ 0x8F
  else 0x80 ≤ second && second ≤ 0xBF

/-- How many bytes of `b :: rest`, which starts with no character, one replacement stands
for.  A byte that is missing counts as zero and never fits. -/
def replacedLength (b : UInt8) (rest : List UInt8) : Nat :=
  let second := rest[0]?.getD 0
  let third := rest[1]?.getD 0
  if 0xE0 ≤ b && b ≤ 0xEF then
    if secondFits b second then 2 else 1
  else if 0xF0 ≤ b && b ≤ 0xF4 then
    if secondFits b second then
      if third &&& 0xC0 == 0x80 then 3 else 2
    else 1
  else 1

/-- The characters of `String::from_utf8_lossy`. -/
def lossyChars : List UInt8 → List Char
  | [] => []
  | b :: rest =>
    match (b :: rest).toByteArray.utf8DecodeChar? 0 with
    | some c => c :: lossyChars (rest.drop (c.utf8Size - 1))
    | none => '\uFFFD' :: lossyChars (rest.drop (replacedLength b rest - 1))
termination_by bytes => bytes.length
decreasing_by all_goals simp only [List.length_drop, List.length_cons]; omega

/-- `String::from_utf8_lossy`. -/
def fromUtf8Lossy (bytes : List UInt8) : String := String.ofList (lossyChars bytes)

theorem lossyChars_cons_char (c : Char) (rest : List UInt8) :
    lossyChars (utf8EncodeChar c ++ rest) = c :: lossyChars rest := by
  have hdecode : (utf8EncodeChar c ++ rest).toByteArray.utf8DecodeChar? 0 = some c := by
    rw [List.toByteArray_append]
    exact ByteArray.utf8DecodeChar?_utf8EncodeChar_append
  have hlen : (utf8EncodeChar c).length = c.utf8Size := length_utf8EncodeChar c
  obtain ⟨b, l, hl⟩ := List.exists_cons_of_ne_nil (utf8EncodeChar_ne_nil (c := c))
  rw [hl, List.cons_append] at hdecode ⊢
  rw [hl, List.length_cons] at hlen
  rw [lossyChars, hdecode]
  simp only [List.cons.injEq, true_and]
  rw [← hlen, Nat.add_sub_cancel, List.drop_left]

/-- **Characters spelled at the front are read, whatever follows.** -/
theorem lossyChars_append (cs : List Char) (rest : List UInt8) :
    lossyChars (cs.flatMap utf8EncodeChar ++ rest) = cs ++ lossyChars rest := by
  induction cs with
  | nil => rfl
  | cons c cs ih => rw [List.flatMap_cons, List.append_assoc, lossyChars_cons_char, ih,
      List.cons_append]

/-- A text is read as it was spelled. -/
@[simp] theorem fromUtf8Lossy_asBytes (s : String) : fromUtf8Lossy s.asBytes = s := by
  have h := lossyChars_append s.toList []
  rw [List.append_nil, ← asBytes_eq, lossyChars, List.append_nil] at h
  rw [fromUtf8Lossy, h, String.ofList_toList]

/-- No byte is read as more than one character. -/
theorem length_lossyChars_le (bytes : List UInt8) : (lossyChars bytes).length ≤ bytes.length := by
  induction bytes using lossyChars.induct with
  | case1 =>
    rw [lossyChars]
    exact Nat.le_refl 0
  | case2 b rest c hdecode ih =>
    rw [lossyChars, hdecode]
    simp only [List.length_cons, List.length_drop] at ih ⊢
    omega
  | case3 b rest hdecode ih =>
    rw [lossyChars, hdecode]
    simp only [List.length_cons, List.length_drop] at ih ⊢
    omega

/-! ### Spellings that are cut -/

theorem length_flatMap_utf8EncodeChar_le (cs : List Char) :
    (cs.flatMap utf8EncodeChar).length ≤ 4 * cs.length := by
  induction cs with
  | nil => exact Nat.le_refl 0
  | cons c cs ih =>
    have hc : (utf8EncodeChar c).length ≤ 4 := by
      rw [length_utf8EncodeChar]
      exact c.utf8Size_le_four
    rw [List.flatMap_cons, List.length_append, List.length_cons]
    omega

/-- A spelling cut anywhere is that of some characters at the front, and at most three bytes
of the next. -/
theorem exists_take_flatMap_utf8EncodeChar (cs : List Char) (k : Nat) :
    ∃ p q r, cs = p ++ q ∧
      (cs.flatMap utf8EncodeChar).take k = p.flatMap utf8EncodeChar ++ r ∧
      r.length ≤ 3 ∧ (p.flatMap utf8EncodeChar).length ≤ k := by
  induction cs generalizing k with
  | nil => exact ⟨[], [], [], rfl, by simp, by simp, Nat.zero_le k⟩
  | cons c cs ih =>
    have hc : (utf8EncodeChar c).length ≤ 4 := by
      rw [length_utf8EncodeChar]
      exact c.utf8Size_le_four
    by_cases hk : (utf8EncodeChar c).length ≤ k
    · obtain ⟨p, q, r, hcs, htake, hr, hp⟩ := ih (k - (utf8EncodeChar c).length)
      refine ⟨c :: p, q, r, by rw [hcs, List.cons_append], ?_, hr, ?_⟩
      · rw [List.flatMap_cons, List.take_append, List.take_of_length_le hk, htake,
          List.flatMap_cons, List.append_assoc]
      · rw [List.flatMap_cons, List.length_append]
        omega
    · refine ⟨[], c :: cs, (utf8EncodeChar c).take k, rfl, ?_, ?_, Nat.zero_le k⟩
      · rw [List.flatMap_cons, List.take_append_of_le_length (by omega)]
        rfl
      · rw [List.length_take]
        omega

/-- **A spelling cut well before its end has fewer characters.** -/
theorem length_lossyChars_take_lt {s : String} {k : Nat} (h : k + 12 < s.asBytes.length) :
    (lossyChars (s.asBytes.take k)).length < s.toList.length := by
  rw [asBytes_eq] at h ⊢
  obtain ⟨p, q, r, hs, htake, hr, hp⟩ := exists_take_flatMap_utf8EncodeChar s.toList k
  have hq := length_flatMap_utf8EncodeChar_le q
  have hrest := length_lossyChars_le r
  rw [htake, lossyChars_append, hs, List.length_append, List.length_append]
  rw [hs, List.flatMap_append, List.length_append] at h
  omega

end String
