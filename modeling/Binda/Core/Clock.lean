import Binda.Core.ClientApi
import Binda.Core.Liveness
import Binda.Core.Ntp
import Mathlib.Data.List.Basic

/-!
# The disciplined clock

`NtpTimeSource` in `ntp.rs`: the local clock plus an offset, which every pass takes from
the first server that answers.  A pass that no server answers changes nothing.

`synchronized_eq` says what the source is after any passes: it has the offset of the last
answer, or none.  `clock_error` bounds how far its readings are from the true time, if the
server was asked before the NTP seconds wrap: by half of what one datagram took longer than
the other, the drift of the local clock since, and five roundings to the millisecond.  So two such clocks
agree on what is fresh and what is live up to their errors (`clocks_agree`).
-/

namespace Binda

/-! ### The source -/

/-- What one query takes from outside: the clock when the request is built, the datagram
that is received, and the clock after it. -/
structure NtpAnswer where
  t1 : Duration
  datagram : List UInt8
  t4 : Duration

/-- Eight bytes of a datagram. -/
def timestampAt (datagram : List UInt8) (pos : Nat) : Vector UInt8 8 :=
  Vector.ofFn fun i => datagram.getD (pos + i) 0

/-- `query_offset_millis`, once a datagram has been received. -/
def NtpAnswer.offset (x : NtpAnswer) : Option Int :=
  -- a longer datagram is cut to the 48 bytes of the buffer
  if x.datagram.length < 48 then none
  else do
    let t2 ← readNtpTimestamp (timestampAt x.datagram 32)
    let t3 ← readNtpTimestamp (timestampAt x.datagram 40)
    return queryOffsetMillis x.t1 t2 t3 x.t4

/-- `query_offset_millis`; a server that cannot be reached, or stays silent, gives `none`. -/
def queryServer (answer : Option NtpAnswer) : Option Int := answer.bind NtpAnswer.offset

/-- `NtpTimeSource`. -/
structure NtpTimeSource where
  offsetMillis : Int
  synced : Bool
  deriving DecidableEq

namespace NtpTimeSource

/-- What `spawn` starts from. -/
def unsynced : NtpTimeSource := { offsetMillis := 0, synced := false }

/-- `is_synced`. -/
def isSynced (s : NtpTimeSource) : Bool := s.synced

/-- `sync_once`; for each server in turn, what a query to it yields. -/
def syncOnce (s : NtpTimeSource) : List (Option NtpAnswer) → NtpTimeSource
  | [] => s
  | answer :: rest =>
    match queryServer answer with
    | some offset => { offsetMillis := offset, synced := true }
    | none => s.syncOnce rest

/-- `now_millis`; the sum wraps as in a release build. -/
def nowMillis (s : NtpTimeSource) (here : Duration) : UInt64 :=
  let adjusted := Int.bmod (asI64 here.asMillis + s.offsetMillis) (2 ^ 64)
  UInt64.ofNat (max adjusted 0).toNat

/-- `spawn`, and what its thread does: one pass after another. -/
def synchronized (passes : List (List (Option NtpAnswer))) : NtpTimeSource :=
  passes.foldl syncOnce unsynced

/-! ### Passes -/

variable {s : NtpTimeSource} {passes : List (List (Option NtpAnswer))}
  {pass : List (Option NtpAnswer)} {x : NtpAnswer}

/-- The offset of the last pass that was answered, by its first server that did. -/
def lastOffset (passes : List (List (Option NtpAnswer))) : Option Int :=
  passes.reverse.findSome? fun pass => pass.findSome? queryServer

theorem syncOnce_eq (s : NtpTimeSource) (pass : List (Option NtpAnswer)) :
    s.syncOnce pass = ((pass.findSome? queryServer).map fun offset =>
      { offsetMillis := offset, synced := true }).getD s := by
  induction pass with
  | nil => rfl
  | cons answer rest ih =>
    rw [syncOnce, List.findSome?_cons]
    cases queryServer answer with
    | none => exact ih
    | some offset => rfl

/-- **What the source is after any passes.** -/
theorem synchronized_eq (passes : List (List (Option NtpAnswer))) :
    synchronized passes = ((lastOffset passes).map fun offset =>
      { offsetMillis := offset, synced := true }).getD unsynced := by
  induction passes using List.reverseRecOn with
  | nil => rfl
  | append_singleton passes pass ih =>
    rw [synchronized, List.foldl_concat, ← synchronized, syncOnce_eq, lastOffset,
      List.reverse_append, List.reverse_singleton, List.singleton_append, List.findSome?_cons]
    cases pass.findSome? queryServer with
    | none => exact ih
    | some offset => rfl

/-- A source is synced once some pass has been answered. -/
theorem isSynced_iff : (synchronized passes).isSynced = true ↔
    ∃ pass ∈ passes, ∃ answer ∈ pass, (queryServer answer).isSome = true := by
  have hlast : (synchronized passes).isSynced = (lastOffset passes).isSome := by
    rw [synchronized_eq, isSynced]
    cases lastOffset passes <;> rfl
  rw [hlast, lastOffset, List.isSome_findSome?, List.any_eq_true]
  simp only [List.mem_reverse, List.isSome_findSome?, List.any_eq_true]

/-! ### The error -/

/-- The answer is of a server whose clock is right, at a date before the end of the NTP era in
February 2036 (a later one is read as one of the era before), and the local clock is ahead of it
by `skew`; the request was under way for `out`, and the reply for `back`.  All in nanoseconds. -/
structure FromServer (x : NtpAnswer) (skew : Int) (out back : Nat) : Prop where
  long : 48 ≤ x.datagram.length
  stamped : ∃ received sent : Duration, received.secs.toNat < ntpEraEnd ∧
    sent.secs.toNat < ntpEraEnd ∧ timestampAt x.datagram 32 = writeNtpTimestamp received ∧
    timestampAt x.datagram 40 = writeNtpTimestamp sent ∧
    (received.asNanos : Int) - x.t1.asNanos = out - skew ∧
    (x.t4.asNanos : Int) - sent.asNanos = back + skew
  small : x.t1.asMillis < 2 ^ 61 ∧ x.t4.asMillis < 2 ^ 61

theorem two_mul_tdiv_two (n : Int) : n - 1 ≤ 2 * n.tdiv 2 ∧ 2 * n.tdiv 2 ≤ n + 1 := by
  have hsplit := Int.mul_tdiv_add_tmod n 2
  have hlt := Int.tmod_lt_of_pos n (b := 2) (by decide)
  have hgt := Int.lt_tmod_of_pos n (b := 2) (by decide)
  omega

/-- A timestamp of before the wrap is read back as a time of before the wrap. -/
theorem read_before_wrap {d : Duration} (h : d.secs.toNat < ntpEraEnd) :
    ∃ r, readNtpTimestamp (writeNtpTimestamp d) = some r ∧ r.asNanos ≤ d.asNanos ∧
      d.asNanos ≤ r.asNanos + 1 ∧ r.asMillis < 2 ^ 41 := by
  have hera : ntpEraEnd = 2085978496 := rfl
  have hread := readNtpTimestamp_eq (writeNtpTimestamp d)
  obtain ⟨hle, hge⟩ := asNanos_readNtpTimestamp h hread
  refine ⟨_, hread, hle, hge, ?_⟩
  have hnanos := d.toNat_subsecNanos_lt
  rw [Duration.asMillis]
  refine lt_of_le_of_lt (Nat.div_le_div_right hle) ?_
  rw [Duration.asNanos]
  omega

/-- The arithmetic of an offset: the true times `s2` and `s3` are read as `r2` and `r3`, and all
readings are cut to the millisecond. -/
theorem offset_bounds {t1 s2 r2 s3 r3 t4 out back : Nat} {skew q : Int} (hle2 : r2 ≤ s2)
    (hge2 : s2 ≤ r2 + 1) (hle3 : r3 ≤ s3) (hge3 : s3 ≤ r3 + 1)
    (hout : (s2 : Int) - t1 = out - skew) (hback : (t4 : Int) - s3 = back + skew)
    (hlow : ((r2 / 1000000 : Nat) - (t1 / 1000000 : Nat) : Int) +
      ((r3 / 1000000 : Nat) - (t4 / 1000000 : Nat)) - 1 ≤ 2 * q)
    (hhigh : 2 * q ≤ ((r2 / 1000000 : Nat) - (t1 / 1000000 : Nat) : Int) +
      ((r3 / 1000000 : Nat) - (t4 / 1000000 : Nat)) + 1) :
    (out : Int) - back - 2 * skew - 3000000 ≤ 2 * (q * 1000000) ∧
      2 * (q * 1000000) ≤ out - back - 2 * skew + 3000000 := by
  constructor <;> omega

theorem natAbs_offset_lt {t1 r2 r3 t4 : Nat} {q : Int} (h1 : t1 < 2 ^ 61) (h4 : t4 < 2 ^ 61)
    (h2 : r2 < 2 ^ 41) (h3 : r3 < 2 ^ 41) (hlow : ((r2 : Int) - t1) + (r3 - t4) - 1 ≤ 2 * q)
    (hhigh : 2 * q ≤ ((r2 : Int) - t1) + (r3 - t4) + 1) : q.natAbs < 2 ^ 62 := by
  omega

/-- **The offset of a correct server**, twice and in nanoseconds: what the local clock is
behind, and what the request took longer than the reply. -/
theorem FromServer.offset {skew : Int} {out back : Nat} (h : FromServer x skew out back) :
    ∃ q, x.offset = some q ∧ q.natAbs < 2 ^ 62 ∧
      (out : Int) - back - 2 * skew - 3000000 ≤ 2 * (q * 1000000) ∧
      2 * (q * 1000000) ≤ out - back - 2 * skew + 3000000 := by
  obtain ⟨received, sent, hreceived, hsent, h32, h40, hout, hback⟩ := h.stamped
  obtain ⟨ht1, ht4⟩ := h.small
  obtain ⟨r2, hr2, hle2, hge2, hsmall2⟩ := read_before_wrap hreceived
  obtain ⟨r3, hr3, hle3, hge3, hsmall3⟩ := read_before_wrap hsent
  refine ⟨queryOffsetMillis x.t1 r2 r3 x.t4,
    by rw [NtpAnswer.offset, if_neg (Nat.not_lt.mpr h.long), h32, h40, hr2, hr3]; rfl, ?_⟩
  rw [queryOffsetMillis, asI64_of_lt (by omega), asI64_of_lt (by omega), asI64_of_lt (by omega),
    asI64_of_lt (by omega)]
  obtain ⟨hlow, hhigh⟩ := two_mul_tdiv_two
    (((r2.asMillis : Int) - x.t1.asMillis) + (r3.asMillis - x.t4.asMillis))
  refine ⟨natAbs_offset_lt ht1 ht4 hsmall2 hsmall3 hlow hhigh,
    offset_bounds hle2 hge2 hle3 hge3 hout hback hlow hhigh⟩

/-- A sum in range does not wrap. -/
theorem toNat_nowMillis {here : Duration} (hsmall : here.asMillis < 2 ^ 61)
    (hoffset : s.offsetMillis.natAbs < 2 ^ 62) :
    ((s.nowMillis here).toNat : Int) = max (here.asMillis + s.offsetMillis) 0 := by
  have hwrap : Int.bmod (here.asMillis + s.offsetMillis) (2 ^ 64) =
      here.asMillis + s.offsetMillis := Int.bmod_eq_of_le_mul_two (by omega) (by omega)
  rw [nowMillis, asI64_of_lt (by omega), hwrap,
    UInt64.toNat_ofNat_of_lt' (by rw [UInt64.size]; omega)]
  omega

/-- `x` is the last answer: the servers before it in its pass failed, and so did all of the
passes after. -/
def LastAnswer (passes : List (List (Option NtpAnswer))) (x : NtpAnswer) : Prop :=
  ∃ before silent rest later, passes = before ++ (silent ++ some x :: rest) :: later ∧
    (∀ answer ∈ silent, queryServer answer = none) ∧
    ∀ pass ∈ later, ∀ answer ∈ pass, queryServer answer = none

theorem findSome?_silent (h : ∀ answer ∈ pass, queryServer answer = none) :
    pass.findSome? queryServer = none := List.findSome?_eq_none_iff.mpr h

theorem LastAnswer.lastOffset {q : Int} (h : LastAnswer passes x) (hx : x.offset = some q) :
    lastOffset passes = some q := by
  obtain ⟨before, silent, rest, later, rfl, hsilent, hlater⟩ := h
  have hfirst : (silent ++ some x :: rest).findSome? queryServer = some q := by
    have hquery : queryServer (some x) = some q := hx
    rw [List.findSome?_append, findSome?_silent hsilent, Option.none_or, List.findSome?_cons,
      hquery]
  have hnone : later.reverse.findSome? (fun pass => pass.findSome? queryServer) = none :=
    List.findSome?_eq_none_iff.mpr fun pass hpass =>
      findSome?_silent (hlater pass (List.mem_reverse.mp hpass))
  rw [NtpTimeSource.lastOffset, List.reverse_append, List.reverse_cons, List.append_assoc,
    List.findSome?_append, hnone, Option.none_or, List.singleton_append, List.findSome?_cons,
    hfirst]

/-- At the true time `t`, at which the local clock shows `here`, the source is at most `error`
nanoseconds off by what it was synchronized with: the last answer is of a correct server, half of
what one of its datagrams took longer than the other, the drift of the local clock since and
two and a half milliseconds make at most the error. -/
structure Disciplined (passes : List (List (Option NtpAnswer))) (here : Duration) (t error : Nat) :
    Prop where
  small : here.asMillis < 2 ^ 61
  answered : ∃ x skew out back, LastAnswer passes x ∧ FromServer x skew out back ∧
    ((out : Int) - back).natAbs + 2 * ((here.asNanos : Int) - t - skew).natAbs + 5000000 ≤
      2 * error

/-- A reading of a disciplined source is that close to the true time. -/
theorem Disciplined.nowMillis_error {here : Duration} {t error : Nat}
    (h : Disciplined passes here t error) :
    (((synchronized passes).nowMillis here).toNat * 1000000 - t : Int).natAbs ≤ error := by
  obtain ⟨x, skew, out, back, hlast, hserver, herror⟩ := h.answered
  have hsmall := h.small
  obtain ⟨q, hoffset, hrange, hlow, hhigh⟩ := hserver.offset
  rw [synchronized_eq, hlast.lastOffset hoffset, Option.map_some, Option.getD_some,
    toNat_nowMillis hsmall hrange]
  rw [Duration.asMillis]
  clear hrange hsmall
  dsimp only
  omega

/-- **How far the clock is from the true time.**  Whatever passes there were, answered or not: once
a server has answered the source is synced, and if the last answer was of a correct server its
readings are no further from the true time than half of what one datagram took longer than
the other, the drift of the local clock since, and two and a half milliseconds. -/
theorem clock_error (passes : List (List (Option NtpAnswer))) :
    ((synchronized passes).isSynced = true ↔
        ∃ pass ∈ passes, ∃ answer ∈ pass, (queryServer answer).isSome = true) ∧
      ((synchronized passes).isSynced = false → ∀ here, here.asMillis < 2 ^ 61 →
        ((synchronized passes).nowMillis here).toNat = here.asMillis) ∧
      ∀ here t error, Disciplined passes here t error → (synchronized passes).isSynced = true ∧
        (((synchronized passes).nowMillis here).toNat * 1000000 - t : Int).natAbs ≤ error := by
  refine ⟨isSynced_iff, fun hsynced here hsmall => ?_, fun here t error h => ⟨?_, ?_⟩⟩
  · have hnone : synchronized passes = unsynced := by
      rw [synchronized_eq] at hsynced ⊢
      cases hlast : lastOffset passes with
      | none => rfl
      | some q =>
        rw [hlast] at hsynced
        cases hsynced
    have hnow := toNat_nowMillis (s := unsynced) hsmall (by decide)
    rw [hnone]
    rw [unsynced] at hnow ⊢
    dsimp only at hnow
    omega
  · obtain ⟨x, _, _, _, hlast, hserver, _⟩ := h.answered
    obtain ⟨q, hoffset, _⟩ := hserver.offset
    rw [synchronized_eq, hlast.lastOffset hoffset]
    rfl
  · exact h.nowMillis_error

/-- The time of the sample. -/
def promptTime : Duration := ⟨1700000000, 0, by decide⟩

/-- An answer that takes no time, of a server with the same clock. -/
def promptAnswer : NtpAnswer where
  t1 := promptTime
  datagram := List.replicate 32 0 ++ (writeNtpTimestamp promptTime).toList ++
    (writeNtpTimestamp promptTime).toList
  t4 := promptTime

/-- The second server answers, and in the next pass none does. -/
def promptPasses : List (List (Option NtpAnswer)) := [[none, some promptAnswer], [none]]

theorem disciplined_prompt :
    Disciplined promptPasses promptTime promptTime.asNanos 2500000 where
  small := by decide
  answered := by
    refine ⟨promptAnswer, 0, 0, 0, ?_, ?_, by decide⟩
    · exact ⟨[], [none], [], [[none]], rfl, by decide, by decide⟩
    · exact ⟨by decide, ⟨promptTime, promptTime, by decide, by decide, by decide, by decide,
        by decide, by decide⟩, by decide⟩

theorem clock_error_prompt : (synchronized promptPasses).isSynced = true ∧
    (((synchronized promptPasses).nowMillis promptTime).toNat * 1000000 - promptTime.asNanos :
      Int).natAbs ≤ 2500000 :=
  (clock_error promptPasses).2.2 _ _ _ disciplined_prompt

/-- **Two clocks agree** on what is fresh and what is live, up to their errors: a time that one
source stamps at `t` is judged at `t'` by the other. -/
theorem clocks_agree {passes passes' : List (List (Option NtpAnswer))} {here here' : Duration}
    {t t' error error' : Nat} (h : Disciplined passes here t error)
    (h' : Disciplined passes' here' t' error') (hlater : t ≤ t') :
    (t' - t + error + error' ≤ 10 * 1000000000 →
        isFresh ((synchronized passes).nowMillis here) ((synchronized passes').nowMillis here') =
          true) ∧
      (isFresh ((synchronized passes).nowMillis here) ((synchronized passes').nowMillis here') =
          true → t' - t ≤ 10 * 1000000000 + error + error') ∧
      (t' - t + error + error' ≤ 60 * 1000000000 →
        withinWindow ((synchronized passes).nowMillis here)
          ((synchronized passes').nowMillis here') = true) ∧
      (withinWindow ((synchronized passes).nowMillis here)
          ((synchronized passes').nowMillis here') = true →
        t' - t ≤ 60 * 1000000000 + error + error') := by
  have hstamp := h.nowMillis_error
  have hnow := h'.nowMillis_error
  rw [withinWindow_iff, isFresh_iff]
  refine ⟨fun hle => ?_, fun hle => ?_, fun hle => ?_, fun hle => ?_⟩ <;> omega

/-- A source agrees with itself. -/
theorem clocks_agree_prompt :
    isFresh ((synchronized promptPasses).nowMillis promptTime)
        ((synchronized promptPasses).nowMillis promptTime) = true ∧
      withinWindow ((synchronized promptPasses).nowMillis promptTime)
        ((synchronized promptPasses).nowMillis promptTime) = true := by
  obtain ⟨hfresh, _, hwithin, _⟩ := clocks_agree disciplined_prompt disciplined_prompt le_rfl
  exact ⟨hfresh (by decide), hwithin (by decide)⟩

end NtpTimeSource

end Binda
