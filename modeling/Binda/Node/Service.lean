import Mathlib.Data.List.Chain
import Binda.Node.RateLimit

/-!
# What the limiter promises

Runs of `allow_at` over any mix of keys, each call with its own reading of the clock and its
own order of the hash map.

While a key is not forgotten its bucket sees exactly its own calls
(`allowedTimes_eq_granted`), so the bounds of a single bucket hold of it; and a key that is
forgotten starts again with a full bucket, which refuses no call that is spaced.
`service_bounds` puts the two together with the bound on the number of keys.
-/

namespace Binda

/-- One call of `allow_at`. -/
structure Call (κ : Type) where
  order : VisitOrder κ
  key : κ
  now : Rat

namespace RateLimiter

variable {κ : Type} [DecidableEq κ] {limiter : RateLimiter κ} {key : κ} {calls : List (Call κ)}

/-- The limiter after one call. -/
def call (limiter : RateLimiter κ) (c : Call κ) : RateLimiter κ :=
  (limiter.allowAt c.order c.key c.now).2

/-- The limiter after some calls. -/
def after (limiter : RateLimiter κ) (calls : List (Call κ)) : RateLimiter κ :=
  calls.foldl call limiter

/-- When the calls of a key are made. -/
def timesOf (key : κ) (calls : List (Call κ)) : List Rat :=
  (calls.filter fun c => c.key = key).map fun c => c.now

/-- When the calls of a key are made that are allowed. -/
def allowedTimes (key : κ) : RateLimiter κ → List (Call κ) → List Rat
  | _, [] => []
  | limiter, c :: calls =>
    let rest := allowedTimes key (limiter.call c) calls
    if c.key = key ∧ (limiter.allowAt c.order c.key c.now).1 = true then c.now :: rest else rest

/-- The key is not forgotten by any of the calls. -/
def Kept (key : κ) : RateLimiter κ → List (Call κ) → Prop :=
  Run.Along call fun limiter c => limiter.evicted c.order c.key ≠ some key

/-- No bucket has a debt. -/
def Solvent (limiter : RateLimiter κ) : Prop :=
  ∀ key, TokenBucket.Solvent (limiter.buckets.lookup key)

/-! ### One call -/

theorem timesOf_cons (key : κ) (c : Call κ) (calls : List (Call κ)) :
    timesOf key (c :: calls) =
      if c.key = key then c.now :: timesOf key calls else timesOf key calls := by
  rw [timesOf, List.filter_cons]
  by_cases h : c.key = key
  · rw [if_pos h, if_pos (by simpa using h)]
    rfl
  · rw [if_neg h, if_neg (by simpa using h)]
    rfl

theorem lookup_call (c : Call κ) (key : κ) :
    (limiter.call c).buckets.lookup key =
      if key = c.key then some (limiter.visitOf c.key c.now).2
      else if limiter.evicted c.order c.key = some key then none
      else limiter.buckets.lookup key :=
  lookup_allowAt key

theorem Solvent.call (h : limiter.Solvent) (hcapacity : 0 ≤ limiter.capacity)
    (hrate : 0 ≤ limiter.refillPerSec) (c : Call κ) : (limiter.call c).Solvent := by
  intro key
  rw [lookup_call]
  split_ifs
  · exact TokenBucket.solvent_some.mpr
      (TokenBucket.visit_tokens_nonneg c.now hcapacity hrate (h c.key))
  · exact TokenBucket.solvent_none
  · exact h key

/-! ### Runs -/

theorem solvent_new (capacity : UInt32) (rate : Rat) (most : Nat) :
    (new capacity rate most : RateLimiter κ).Solvent := fun _ => TokenBucket.solvent_none

/-- The calls are a run. -/
theorem reaches_after (limiter : RateLimiter κ) (calls : List (Call κ)) :
    Run.Reaches call (fun _ _ => True) limiter (limiter.after calls) :=
  Run.Reaches.foldl (fun _ _ => trivial) calls limiter

/-- A run changes no parameter. -/
theorem parameters_after (limiter : RateLimiter κ) (calls : List (Call κ)) :
    (limiter.after calls).capacity = limiter.capacity ∧
      (limiter.after calls).refillPerSec = limiter.refillPerSec ∧
      (limiter.after calls).maxTrackedKeys = limiter.maxTrackedKeys := by
  refine (reaches_after limiter calls).invariant
    (I := fun l => l.capacity = limiter.capacity ∧ l.refillPerSec = limiter.refillPerSec ∧
      l.maxTrackedKeys = limiter.maxTrackedKeys) ⟨rfl, rfl, rfl⟩ ?_
  intro l c _ h
  exact h

/-- **No call leaves a debt.** -/
theorem solvent_after (h : limiter.Solvent) (hcapacity : 0 ≤ limiter.capacity)
    (hrate : 0 ≤ limiter.refillPerSec) (calls : List (Call κ)) :
    (limiter.after calls).Solvent := by
  refine ((reaches_after limiter calls).invariant
    (I := fun l => 0 ≤ l.capacity ∧ 0 ≤ l.refillPerSec ∧ l.Solvent)
    ⟨hcapacity, hrate, h⟩ ?_).2.2
  rintro l c - ⟨hcapacity, hrate, h⟩
  exact ⟨hcapacity, hrate, h.call hcapacity hrate c⟩

/-- **Never more keys than the bound.** -/
theorem size_after_le (capacity : UInt32) (rate : Rat) {most : Nat} (hmost : 1 ≤ most)
    (calls : List (Call κ)) :
    ((new capacity rate most).after calls).buckets.size ≤ most := by
  have h : ((new capacity rate most).after calls).maxTrackedKeys = most ∧
      ((new capacity rate most).after calls).buckets.size ≤ max most 1 := by
    refine (reaches_after _ calls).invariant (I := fun l : RateLimiter κ =>
      l.maxTrackedKeys = most ∧ l.buckets.size ≤ max most 1) ⟨rfl, Nat.zero_le _⟩ ?_
    rintro limiter c - ⟨hmost, hsize⟩
    rw [← hmost] at hsize ⊢
    exact ⟨rfl, size_allowAt_le hsize⟩
  omega

/-- **While a key is kept, its bucket sees its own calls and nothing else.** -/
theorem allowedTimes_eq_granted (h : Kept key limiter calls) :
    allowedTimes key limiter calls =
      TokenBucket.granted limiter.capacity limiter.refillPerSec (limiter.buckets.lookup key)
        (timesOf key calls) := by
  induction calls generalizing limiter with
  | nil => rfl
  | cons c calls ih =>
    obtain ⟨hkept, hrest⟩ := h
    rw [allowedTimes, timesOf_cons, ih hrest, lookup_call]
    by_cases hkey : c.key = key
    · rw [if_pos hkey, if_pos hkey.symm, TokenBucket.granted, allowAt_fst, hkey]
      simp only [true_and]
      rfl
    · rw [if_neg hkey, if_neg (Ne.symm hkey), if_neg hkept, if_neg fun hboth => hkey hboth.1]
      rfl

/-- **A key whose calls are spaced is never refused**, even if it is forgotten in between. -/
theorem allowedTimes_eq_timesOf (hcapacity : 1 ≤ limiter.capacity)
    (hrate : 0 < limiter.refillPerSec) (hsolvent : limiter.Solvent)
    (hlast : ∀ bucket, limiter.buckets.lookup key = some bucket →
      ∀ t ∈ (timesOf key calls).head?, 1 / limiter.refillPerSec ≤ t - bucket.lastRefill)
    (hspaced : (timesOf key calls).IsChain fun a b => 1 / limiter.refillPerSec ≤ b - a) :
    allowedTimes key limiter calls = timesOf key calls := by
  induction calls generalizing limiter with
  | nil => rfl
  | cons c calls ih =>
    have hnext := hsolvent.call (zero_le_one.trans hcapacity) hrate.le c
    rw [allowedTimes]
    rw [timesOf_cons] at hlast hspaced ⊢
    by_cases hkey : c.key = key
    · rw [if_pos hkey] at hlast hspaced ⊢
      obtain ⟨hhead, htail⟩ := List.isChain_cons.mp hspaced
      have hallowed : (limiter.allowAt c.order c.key c.now).1 = true := by
        rw [allowAt_fst, visitOf, hkey]
        cases hbucket : limiter.buckets.lookup key with
        | none => exact TokenBucket.visit_fst_none hcapacity
        | some bucket =>
          exact TokenBucket.visit_fst_of_spaced hcapacity hrate (hsolvent key bucket hbucket)
            (hlast bucket hbucket c.now rfl)
      have hrest : allowedTimes key (limiter.call c) calls = timesOf key calls := by
        refine ih hcapacity hrate hnext ?_ htail
        -- from here on the bucket was last visited by this call
        intro bucket hbucket t ht
        rw [lookup_call, if_pos hkey.symm] at hbucket
        obtain rfl := Option.some.inj hbucket
        rw [visitOf, TokenBucket.visit_lastRefill]
        exact hhead t ht
      rw [if_pos ⟨hkey, hallowed⟩, hrest]
    · rw [if_neg hkey] at hlast hspaced ⊢
      rw [if_neg fun hboth => hkey hboth.1]
      refine ih hcapacity hrate hnext ?_ hspaced
      intro bucket hbucket
      rw [lookup_call, if_neg (Ne.symm hkey)] at hbucket
      split_ifs at hbucket
      exact hlast bucket hbucket

/-- **In any window a key that is kept gets its capacity and what it regains, at most.** -/
theorem allowedTimes_count_le (hcapacity : 0 ≤ limiter.capacity) (hrate : 0 ≤ limiter.refillPerSec)
    (hsolvent : limiter.Solvent) (hkept : Kept key limiter calls)
    (htimes : (calls.map fun c => c.now).Pairwise (· ≤ ·)) {s e : Rat} (hse : s ≤ e) :
    (TokenBucket.inWindow s e (allowedTimes key limiter calls) : Rat) ≤
      limiter.capacity + (e - s) * limiter.refillPerSec := by
  have hsub : (timesOf key calls).Sublist (calls.map fun c => c.now) :=
    List.filter_sublist.map _
  rw [allowedTimes_eq_granted hkept]
  exact TokenBucket.granted_count_le hcapacity hrate (hsolvent key) hse (htimes.sublist hsub)

/-- **What the limiter promises**, for every mix of keys and every order of the hash map:
never more keys than the bound, never more requests of a key in a window than its capacity
and what it regains, and none refused to a key that leaves a token's time between its calls. -/
theorem service_bounds (capacity : UInt32) (rate : Rat) (most : Nat) (calls : List (Call κ))
    (hcapacity : 1 ≤ capacity) (hrate : 0 < rate) (hmost : 1 ≤ most)
    (htimes : (calls.map fun c => c.now).Pairwise (· ≤ ·)) :
    (∀ past, past <+: calls → ((new capacity rate most).after past).buckets.size ≤ most) ∧
      (∀ key past stretch future, calls = past ++ stretch ++ future →
        Kept key ((new capacity rate most).after past) stretch → ∀ s e, s ≤ e →
          (TokenBucket.inWindow s e
            (allowedTimes key ((new capacity rate most).after past) stretch) : Rat) ≤
              capacity.toNat + rate * (e - s)) ∧
      ∀ key, ((timesOf key calls).IsChain fun a b => 1 / rate ≤ b - a) →
        allowedTimes key (new capacity rate most) calls = timesOf key calls := by
  have hfull : (1 : Rat) ≤ (new capacity rate most : RateLimiter κ).capacity := by
    have h : 1 ≤ capacity.toNat := UInt32.le_iff_toNat_le.mp hcapacity
    exact Nat.one_le_cast.mpr h
  refine ⟨fun past _ => size_after_le capacity rate hmost past, ?_, ?_⟩
  · rintro key past stretch future rfl hkept s e hse
    obtain ⟨hcap, hper, -⟩ := parameters_after (new capacity rate most) past
    have hpos := zero_le_one.trans hfull
    have hsolvent := solvent_after (solvent_new capacity rate most) hpos hrate.le past
    rw [List.map_append, List.map_append] at htimes
    have hstretch := (List.pairwise_append.mp (List.pairwise_append.mp htimes).1).2.1
    have hcount := allowedTimes_count_le (hcap.symm ▸ hpos) (hper.symm ▸ hrate.le) hsolvent hkept
      hstretch hse
    rw [hcap, hper] at hcount
    rw [mul_comm]
    exact hcount
  · intro key hspaced
    refine allowedTimes_eq_timesOf hfull hrate (solvent_new capacity rate most) ?_ hspaced
    intro bucket hbucket
    cases hbucket

/-- Key 1 takes its burst and is refused; key 2 makes the limiter forget it; then both leave
a second between their calls. -/
def twoCallers : List (Call Nat) :=
  [⟨.listed, 1, 0⟩, ⟨.listed, 1, 0⟩, ⟨.listed, 1, 1 / 2⟩, ⟨.listed, 2, 1⟩, ⟨.listed, 1, 2⟩,
    ⟨.listed, 2, 3⟩]

theorem service_bounds_two_callers :
    ((new 2 1 1).after twoCallers).buckets.size ≤ 1 ∧
      (TokenBucket.inWindow 0 (1 / 2)
        (allowedTimes 1 ((new 2 1 1).after []) (twoCallers.take 3)) : Rat) ≤
          (2 : UInt32).toNat + 1 * (1 / 2 - 0) ∧
      allowedTimes 2 (new 2 1 1) twoCallers = timesOf 2 twoCallers := by
  obtain ⟨hsize, hcount, hnone⟩ :=
    service_bounds 2 1 1 twoCallers (by decide) (by decide) (by decide) (by decide +kernel)
  refine ⟨hsize twoCallers List.prefix_rfl, ?_, hnone 2 (by decide +kernel)⟩
  refine hcount 1 [] (twoCallers.take 3) (twoCallers.drop 3) ?_ ?_ 0 (1 / 2) (by decide +kernel)
  · rw [List.nil_append, List.take_append_drop]
  · exact ⟨by decide +kernel, by decide +kernel, by decide +kernel, trivial⟩

end RateLimiter

end Binda
