import Binda.Core.Fcrdns

/-!
# Names with pointers

What `read_name` does on any bytes at all.  `Visits buf s ss r` lists the rounds `ss` the
loop goes through from `s` on until it returns `r`; `visits_readNameFrom` says there always
is such a list, with a bound on its length and on the pointers followed, and
`readNameRound_congr` that a round depends on no byte but those of `bytesRead`.

`nameEnd?` walks over a name as it stands in the message, up to its first pointer or its
end, and follows nothing.  `nameEnd?_of_readName` says that this is the position `read_name`
returns, so that the bytes of the name itself decide it (`nameEnd?_congr`).
-/

namespace Binda.Fcrdns

variable {buf buf' : List UInt8} {s t : NameState}

/-! ### One round -/

/-- The positions of the bytes a round gets to see. -/
def bytesRead (buf : List UInt8) (s : NameState) : List Nat :=
  match buf[s.pos]? with
  | none => []
  | some len =>
    if len = 0 then [s.pos]
    else if isPointer len then
      if s.pos + 1 < buf.length then [s.pos, s.pos + 1] else [s.pos]
    else if s.pos + 1 + len.toNat ≤ buf.length then
      s.pos :: List.range' (s.pos + 1) len.toNat
    else [s.pos]

/-- The round follows a pointer. -/
def followsPointer (buf : List UInt8) (s : NameState) : Bool :=
  match buf[s.pos]?, readNameRound buf s with
  | some len, .next _ => isPointer len
  | _, _ => false

theorem lt_length_of_mem_bytesRead {i : Nat} (h : i ∈ bytesRead buf s) : i < buf.length := by
  rw [bytesRead] at h
  split at h
  · cases h
  rename_i len hlen
  obtain ⟨hlt, -⟩ := List.getElem?_eq_some_iff.mp hlen
  split_ifs at h with h1 h2 h3 h4
  · rw [List.mem_singleton.mp h]
    exact hlt
  · simp only [List.mem_cons, List.not_mem_nil, or_false] at h
    omega
  · rw [List.mem_singleton.mp h]
    exact hlt
  · simp only [List.mem_cons, List.mem_range'_1] at h
    omega
  · rw [List.mem_singleton.mp h]
    exact hlt

/-- **A round depends on the bytes it sees and on nothing else** but where the message ends. -/
theorem readNameRound_congr (hlen : buf'.length = buf.length)
    (h : ∀ i ∈ bytesRead buf s, buf'[i]? = buf[i]?) :
    readNameRound buf' s = readNameRound buf s := by
  have hpos : buf'[s.pos]? = buf[s.pos]? := by
    cases hb : buf[s.pos]? with
    | none =>
      rw [List.getElem?_eq_none_iff] at hb ⊢
      omega
    | some len =>
      rw [← hb]
      refine h s.pos ?_
      rw [bytesRead, hb]
      dsimp only
      split_ifs <;> simp
  cases hb : buf[s.pos]? with
  | none => rw [readNameRound, readNameRound, hpos, hb]
  | some len =>
    by_cases hzero : len = 0
    · rw [readNameRound, readNameRound, hpos, hb]
      simp only [if_pos hzero]
    by_cases hptr : isPointer len = true
    · have hsecond : buf'[s.pos + 1]? = buf[s.pos + 1]? := by
        by_cases hlt : s.pos + 1 < buf.length
        · refine h (s.pos + 1) ?_
          rw [bytesRead, hb]
          simp only [if_neg hzero, if_pos hptr, if_pos hlt]
          simp
        · rw [List.getElem?_eq_none_iff.mpr (by omega), List.getElem?_eq_none_iff.mpr (by omega)]
      rw [readNameRound, readNameRound, hpos, hb]
      simp only [if_neg hzero, if_pos hptr, hsecond]
    · have hlabel : buf'.getRange? (s.pos + 1) (s.pos + 1 + len.toNat) =
          buf.getRange? (s.pos + 1) (s.pos + 1 + len.toNat) := by
        by_cases hle : s.pos + 1 + len.toNat ≤ buf.length
        · refine List.getRange?_congr hlen fun k hk hk' => h k ?_
          rw [bytesRead, hb]
          simp only [if_neg hzero, if_neg hptr, if_pos hle, List.mem_cons, List.mem_range'_1]
          omega
        · rw [List.getRange?, List.getRange?, if_neg (by omega), if_neg (by omega)]
      rw [readNameRound, readNameRound, hpos, hb]
      simp only [if_neg hzero, if_neg hptr, hlabel]

/-! ### All rounds -/

/-- The rounds the loop goes through, from the one at `s` on, and what it returns. -/
inductive Visits (buf : List UInt8) : NameState → List NameState → Option (String × Nat) → Prop
  | failed {s : NameState} (h : readNameRound buf s = .failed) : Visits buf s [s] none
  | finished {s : NameState} {name : String × Nat} (h : readNameRound buf s = .finished name) :
      Visits buf s [s] (some name)
  | next {s t : NameState} {ss : List NameState} {r : Option (String × Nat)}
      (h : readNameRound buf s = .next t) (rest : Visits buf t ss r) : Visits buf s (s :: ss) r

/-- A round that goes on follows one pointer more, or none. -/
theorem jumps_of_next (h : readNameRound buf s = .next t) :
    t.jumps = s.jumps + (if followsPointer buf s then 1 else 0) ∧
      (followsPointer buf s = true → s.jumps < 32) := by
  rcases readNameRound_eq_next h with ⟨len, _, hlen, _, hptr, _, ht⟩ |
    ⟨len, _, hlen, _, hptr, _, hj, ht⟩
  · have hfollows : followsPointer buf s = false := by
      rw [followsPointer, hlen, h]
      exact hptr
    rw [hfollows, ht]
    exact ⟨rfl, fun h => by cases h⟩
  · have hfollows : followsPointer buf s = true := by
      rw [followsPointer, hlen, h]
      exact hptr
    rw [hfollows, ht]
    exact ⟨rfl, fun _ => hj⟩

/-- A round that does not go on follows none. -/
theorem followsPointer_eq_false (h : ∀ t, readNameRound buf s ≠ .next t) :
    followsPointer buf s = false := by
  rw [followsPointer]
  split
  · rename_i t _ ht
    exact absurd ht (h t)
  · rfl

/-- **The loop ends**: it goes through a list of rounds that is no longer than what is left
to do says, and follows no more pointers than are left. -/
theorem visits_readNameFrom (buf : List UInt8) (s : NameState) :
    ∃ ss, Visits buf s ss (readNameFrom buf s) ∧ ss.length ≤ s.remaining buf + 1 ∧
      ss.countP (followsPointer buf) ≤ 32 - s.jumps := by
  cases hround : readNameRound buf s with
  | failed =>
    have hnot : followsPointer buf s = false := by
      refine followsPointer_eq_false fun t ht => ?_
      rw [hround] at ht
      cases ht
    rw [readNameFrom_eq, hround]
    refine ⟨[s], .failed hround, by simp, ?_⟩
    simp [hnot]
  | finished name =>
    have hnot : followsPointer buf s = false := by
      refine followsPointer_eq_false fun t ht => ?_
      rw [hround] at ht
      cases ht
    rw [readNameFrom_eq, hround]
    refine ⟨[s], .finished hround, by simp, ?_⟩
    simp [hnot]
  | next t =>
    have hless := remaining_lt hround
    obtain ⟨ss, hss, hlen, hcount⟩ := visits_readNameFrom buf t
    obtain ⟨hjumps, hlt⟩ := jumps_of_next hround
    rw [readNameFrom_eq, hround]
    refine ⟨s :: ss, .next hround hss, ?_, ?_⟩
    · rw [List.length_cons]
      omega
    · rw [List.countP_cons]
      by_cases hf : followsPointer buf s = true
      · have := hlt hf
        rw [if_pos hf] at hjumps ⊢
        omega
      · rw [if_neg hf] at hjumps ⊢
        omega
termination_by s.remaining buf
decreasing_by exact hless

/-! ### Where the name ends -/

/-- The position behind the name at `pos` as it stands in the message: behind its length
zero or its first pointer. -/
def nameEnd? (buf : List UInt8) (pos : Nat) : Option Nat :=
  match _hlen : buf[pos]? with
  | none => none
  | some len =>
    if len = 0 then some (pos + 1)
    else if isPointer len then
      if pos + 1 < buf.length then some (pos + 2) else none
    else if pos + 1 + len.toNat ≤ buf.length then nameEnd? buf (pos + 1 + len.toNat)
    else none
termination_by buf.length - pos
decreasing_by
  obtain ⟨hlt, -⟩ := List.getElem?_eq_some_iff.mp _hlen
  omega

/-- One label, without the evidence that the walk ends. -/
theorem nameEnd?_eq (buf : List UInt8) (pos : Nat) :
    nameEnd? buf pos =
      match buf[pos]? with
      | none => none
      | some len =>
        if len = 0 then some (pos + 1)
        else if isPointer len then
          if pos + 1 < buf.length then some (pos + 2) else none
        else if pos + 1 + len.toNat ≤ buf.length then nameEnd? buf (pos + 1 + len.toNat)
        else none := by
  rw [nameEnd?]
  split
  · rename_i h
    rw [h]
  · rename_i len h
    rw [h]

theorem nameEnd?_zero {pos : Nat} (h : buf[pos]? = some 0) : nameEnd? buf pos = some (pos + 1) := by
  rw [nameEnd?_eq, h]
  rfl

theorem nameEnd?_pointer {pos : Nat} {len : UInt8} (h : buf[pos]? = some len)
    (hzero : len ≠ 0) (hptr : isPointer len = true) (hlt : pos + 1 < buf.length) :
    nameEnd? buf pos = some (pos + 2) := by
  rw [nameEnd?_eq, h]
  simp only [if_neg hzero, if_pos hptr, if_pos hlt]

theorem nameEnd?_label {pos : Nat} {len : UInt8} (h : buf[pos]? = some len)
    (hzero : len ≠ 0) (hptr : isPointer len = false) (hle : pos + 1 + len.toNat ≤ buf.length) :
    nameEnd? buf pos = nameEnd? buf (pos + 1 + len.toNat) := by
  rw [nameEnd?_eq buf pos, h]
  simp only [if_neg hzero, hptr, if_pos hle, Bool.false_eq_true, if_false]

/-- What a name that has an end starts with. -/
theorem nameEnd?_cases {pos stop : Nat} (h : nameEnd? buf pos = some stop) :
    (buf[pos]? = some 0 ∧ stop = pos + 1) ∨
      ∃ len, buf[pos]? = some len ∧ len ≠ 0 ∧
        ((isPointer len = true ∧ pos + 1 < buf.length ∧ stop = pos + 2) ∨
          (isPointer len = false ∧ pos + 1 + len.toNat ≤ buf.length ∧
            nameEnd? buf (pos + 1 + len.toNat) = some stop)) := by
  rw [nameEnd?_eq] at h
  split at h
  · cases h
  rename_i len hlen
  split_ifs at h with h1 h2 h3 h4
  · rw [h1] at hlen
    exact Or.inl ⟨hlen, (Option.some.inj h).symm⟩
  · exact Or.inr ⟨len, hlen, h1, Or.inl ⟨h2, h3, (Option.some.inj h).symm⟩⟩
  · exact Or.inr ⟨len, hlen, h1, Or.inr ⟨Bool.eq_false_iff.mpr h2, h4, h⟩⟩

/-- **A name ends inside the message.** -/
theorem lt_and_le_of_nameEnd? {pos stop : Nat} (h : nameEnd? buf pos = some stop) :
    pos < stop ∧ stop ≤ buf.length := by
  rcases nameEnd?_cases h with ⟨hlen, rfl⟩ | ⟨len, hlen, _, ⟨_, hlt, rfl⟩ | ⟨_, hle, hrest⟩⟩ <;>
    obtain ⟨hpos, -⟩ := List.getElem?_eq_some_iff.mp hlen
  · omega
  · omega
  · have := lt_and_le_of_nameEnd? hrest
    omega
termination_by buf.length - pos

/-- **Its own bytes decide where it ends.** -/
theorem nameEnd?_congr {pos stop : Nat} (h : nameEnd? buf pos = some stop)
    (hsame : ∀ i, pos ≤ i → i < stop → buf'[i]? = buf[i]?) : nameEnd? buf' pos = some stop := by
  have hin := lt_and_le_of_nameEnd? h
  have hstop : stop ≤ buf'.length := by
    have hlast := hsame (stop - 1) (by omega) (by omega)
    rw [List.getElem?_eq_getElem (by omega : stop - 1 < buf.length)] at hlast
    obtain ⟨hlt, -⟩ := List.getElem?_eq_some_iff.mp hlast
    omega
  have hfirst := hsame pos (Nat.le_refl pos) hin.1
  rcases nameEnd?_cases h with
    ⟨hlen, rfl⟩ | ⟨len, hlen, hzero, ⟨hptr, hlt, rfl⟩ | ⟨hptr, hle, hrest⟩⟩
  · exact nameEnd?_zero (hfirst.trans hlen)
  · exact nameEnd?_pointer (hfirst.trans hlen) hzero hptr (by omega)
  · obtain ⟨hpos, -⟩ := List.getElem?_eq_some_iff.mp hlen
    have hin' := lt_and_le_of_nameEnd? hrest
    rw [nameEnd?_label (hfirst.trans hlen) hzero hptr (by omega)]
    exact nameEnd?_congr hrest fun i hi => hsame i (by omega)
termination_by buf.length - pos

/-- **The loop returns the end it has noted**, or else that of the name it stands at. -/
theorem end_of_readNameFrom {name : String} {stop : Nat} {s : NameState}
    (h : readNameFrom buf s = some (name, stop)) :
    s.endPos.or (nameEnd? buf s.pos) = some stop := by
  rw [readNameFrom_eq] at h
  cases hround : readNameRound buf s with
  | failed =>
    rw [hround] at h
    cases h
  | finished r =>
    rw [hround] at h
    obtain ⟨hzero, hr⟩ := readNameRound_eq_finished hround
    have hname : r = (name, stop) := Option.some.inj h
    rw [hname, Prod.mk.injEq] at hr
    rw [hr.2, nameEnd?_zero hzero]
    cases s.endPos <;> rfl
  | next t =>
    rw [hround] at h
    have hless := remaining_lt hround
    have ih := end_of_readNameFrom h
    rcases readNameRound_eq_next hround with ⟨len, label, hlen, hzero, hptr, hlabel, rfl⟩ |
      ⟨len, second, hlen, hzero, hptr, hsecond, _, rfl⟩
    · -- behind a label nothing is noted, and the name ends where it did
      have hle : s.pos + 1 + len.toNat ≤ buf.length := by
        rw [List.getRange?] at hlabel
        split_ifs at hlabel with hin
        exact hin.2
      rw [nameEnd?_label hlen hzero hptr hle]
      exact ih
    · -- the first pointer is noted, and a later one is not
      obtain ⟨hlt, -⟩ := List.getElem?_eq_some_iff.mp hsecond
      rw [nameEnd?_pointer hlen hzero hptr hlt, ← ih]
      cases s.endPos <;> rfl
termination_by s.remaining buf
decreasing_by exact hless

/-- **The position `read_name` returns is the end of the name where it stands**, whatever
its pointers lead to. -/
theorem nameEnd?_of_readName {name : String} {start stop : Nat}
    (h : readName buf start = some (name, stop)) : nameEnd? buf start = some stop := by
  have := end_of_readNameFrom h
  rwa [NameState.start, Option.none_or] at this

/-- Equal stretches have equal bytes. -/
theorem getElem?_eq_of_stretch {start stop i : Nat}
    (h : (buf'.drop start).take (stop - start) = (buf.drop start).take (stop - start))
    (hi : start ≤ i) (hi' : i < stop) : buf'[i]? = buf[i]? := by
  have := congrArg (fun l => l[i - start]?) h
  simp only [List.getElem?_take, List.getElem?_drop, if_pos (by omega : i - start < stop - start)]
    at this
  rwa [Nat.add_sub_cancel' hi] at this

/-- **Reading a name ends inside the message.**  The loop goes through finitely many rounds,
sees no byte outside the message, follows at most 32 pointers, and the position it returns
is behind the start, inside the message, and decided by the bytes between the two. -/
theorem readName_terminates_inside (buf : List UInt8) (start : Nat) :
    (∃ ss, Visits buf (.start start) ss (readName buf start) ∧
      ss.length ≤ 33 * (buf.length + 1) ∧
      (∀ s ∈ ss, ∀ i ∈ bytesRead buf s, i < buf.length) ∧
      ss.countP (followsPointer buf) ≤ 32) ∧
    ∀ name stop, readName buf start = some (name, stop) →
      start < stop ∧ stop ≤ buf.length ∧
      ∀ buf' name' stop', readName buf' start = some (name', stop') →
        (buf'.drop start).take (stop - start) = (buf.drop start).take (stop - start) →
        stop' = stop := by
  constructor
  · obtain ⟨ss, hss, hlen, hcount⟩ := visits_readNameFrom buf (.start start)
    refine ⟨ss, hss, ?_, fun s _ i hi => lt_length_of_mem_bytesRead hi, hcount⟩
    have hremaining : (NameState.start start).remaining buf ≤ 32 * (buf.length + 1) + buf.length :=
      Nat.add_le_add_left (Nat.sub_le _ _) _
    omega
  · intro name stop h
    have hstop := nameEnd?_of_readName h
    refine ⟨(lt_and_le_of_nameEnd? hstop).1, (lt_and_le_of_nameEnd? hstop).2, ?_⟩
    intro buf' name' stop' h' hsame
    have hstop' := nameEnd?_congr hstop fun i => getElem?_eq_of_stretch hsame
    rw [nameEnd?_of_readName h'] at hstop'
    exact Option.some.inj hstop'

end Binda.Fcrdns
