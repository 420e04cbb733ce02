import Binda.Node.Service

/-!
# Pruning is not seen

`spawn_rate_limiter_maintenance` prunes a limiter now and then of the keys that have gone
quiet.  Two runs of the same calls are compared, one with such prunings among them and one
without; each has its own order of the hash map.

* `Shadows`: what the unpruned run tracks beside the pruned one are buckets that have had time
  to fill up, all of them older than those the pruned run tracks.
* `Shadows.evicted`: so a full table forgets one of those, or both runs forget the same key.
* `Shadows.call`, `Shadows.prune`: every call and every pruning keeps it.
* `answers_eq_of_inserted`: the answers are the same.
-/

namespace Binda

/-- What happens to a limiter. -/
inductive LimiterEvent (κ : Type) where
  | call (c : Call κ)
  | prune (maxAge now : Rat)

/-- When it happens. -/
def LimiterEvent.now {κ : Type} : LimiterEvent κ → Rat
  | .call c => c.now
  | .prune _ now => now

/-- The script makes the calls, the hash map in any order, with prunings among them. -/
inductive Inserted {κ : Type} (maxAge : Rat) : List (Call κ) → List (LimiterEvent κ) → Prop
  | nil : Inserted maxAge [] []
  | call {c c' : Call κ} {calls : List (Call κ)} {script : List (LimiterEvent κ)} :
      c'.key = c.key → c'.now = c.now → Inserted maxAge calls script →
        Inserted maxAge (c :: calls) (.call c' :: script)
  | prune {calls : List (Call κ)} {script : List (LimiterEvent κ)} (now : Rat) :
      Inserted maxAge calls script → Inserted maxAge calls (.prune maxAge now :: script)

/-- There need be no pruning. -/
theorem Inserted.none {κ : Type} (maxAge : Rat) (calls : List (Call κ)) :
    Inserted maxAge calls (calls.map LimiterEvent.call) := by
  induction calls with
  | nil => exact .nil
  | cons c calls ih => exact .call rfl rfl ih

namespace RateLimiter

variable {κ : Type} [DecidableEq κ] {maxAge t now : Rat} {limiter pruned unpruned : RateLimiter κ}
  {key : κ} {bucket : Bucket} {calls : List (Call κ)}
  {script : List (LimiterEvent κ)}

/-- The limiter after one event. -/
def event (limiter : RateLimiter κ) : LimiterEvent κ → RateLimiter κ
  | .call c => limiter.call c
  | .prune maxAge now => limiter.pruneOlderThan maxAge now

/-- What the calls of a script are answered. -/
def answers : RateLimiter κ → List (LimiterEvent κ) → List Bool
  | _, [] => []
  | limiter, .call c :: script =>
    (limiter.allowAt c.order c.key c.now).1 :: answers (limiter.call c) script
  | limiter, .prune maxAge now :: script => answers (limiter.pruneOlderThan maxAge now) script

/-- No two keys share a `last_refill`. -/
def Distinct (limiter : RateLimiter κ) : Prop :=
  (limiter.buckets.values.map fun bucket => bucket.lastRefill).Nodup

instance (limiter : RateLimiter κ) : Decidable limiter.Distinct :=
  inferInstanceAs (Decidable (List.Nodup _))

/-- No two keys share a `last_refill` when a call is made. -/
def NeverShared : RateLimiter κ → List (Call κ) → Prop :=
  Run.Along call fun limiter _ => limiter.Distinct

/-- An empty bucket fills up within `maxAge`. -/
structure FillsWithin (maxAge : Rat) (limiter : RateLimiter κ) : Prop where
  capacity : 1 ≤ limiter.capacity
  rate : 0 < limiter.refillPerSec
  age : 0 < maxAge
  filled : limiter.capacity ≤ maxAge * limiter.refillPerSec

/-- The unpruned run tracks the key and the pruned run has dropped it. -/
def Dropped (pruned unpruned : RateLimiter κ) (key : κ) (bucket : Bucket) : Prop :=
  pruned.buckets.lookup key = none ∧ unpruned.buckets.lookup key = some bucket

/-- **The two runs at time `t`.** -/
structure Shadows (maxAge t : Rat) (pruned unpruned : RateLimiter κ) : Prop where
  capacity : pruned.capacity = unpruned.capacity
  refillPerSec : pruned.refillPerSec = unpruned.refillPerSec
  maxTrackedKeys : pruned.maxTrackedKeys = unpruned.maxTrackedKeys
  solvent : unpruned.Solvent
  size : unpruned.buckets.size ≤ max unpruned.maxTrackedKeys 1
  kept : ∀ key bucket, pruned.buckets.lookup key = some bucket →
    unpruned.buckets.lookup key = some bucket
  filled : ∀ key bucket, Dropped pruned unpruned key bucket → bucket.lastRefill + maxAge ≤ t
  older : ∀ key bucket, Dropped pruned unpruned key bucket →
    ∀ key' bucket', pruned.buckets.lookup key' = some bucket' →
      bucket.lastRefill < bucket'.lastRefill

/-! ### The key that is forgotten -/

/-- Where no two keys share a `last_refill`, it tells which key it is. -/
theorem Distinct.eq (h : limiter.Distinct) {key' : κ} {bucket' : Bucket}
    (hkey : limiter.buckets.lookup key = some bucket)
    (hkey' : limiter.buckets.lookup key' = some bucket')
    (hlast : bucket.lastRefill = bucket'.lastRefill) : key = key' := by
  rw [Distinct, Table.values, List.map_map] at h
  have hentry := List.inj_on_of_nodup_map h (Table.mem_entries_iff.mpr hkey)
    (Table.mem_entries_iff.mpr hkey') hlast
  exact congrArg Sigma.fst hentry

/-- **Which key was seen longest ago does not depend on the order of the hash map.** -/
theorem leastRecentlySeen_congr (order order' : VisitOrder κ) (hdistinct : unpruned.Distinct)
    (hsame : ∀ key, pruned.buckets.lookup key = unpruned.buckets.lookup key) :
    leastRecentlySeen order pruned.buckets = leastRecentlySeen order' unpruned.buckets := by
  have hsize := Table.size_congr hsame
  cases hp : leastRecentlySeen order pruned.buckets with
  | none =>
    rw [leastRecentlySeen_eq_none] at hp
    exact (leastRecentlySeen_eq_none.mpr (hsize ▸ hp)).symm
  | some k =>
    cases hu : leastRecentlySeen order' unpruned.buckets with
    | none =>
      rw [leastRecentlySeen_eq_none, ← hsize] at hu
      rw [leastRecentlySeen_eq_none.mpr hu] at hp
      cases hp
    | some k' =>
      obtain ⟨b, hb, hfirst⟩ := leastRecentlySeen_eq_some hp
      obtain ⟨b', hb', hfirst'⟩ := leastRecentlySeen_eq_some hu
      rw [hsame] at hb
      have hlast := le_antisymm (hfirst k' b' (hsame k' ▸ hb')) (hfirst' k b hb)
      rw [hdistinct.eq hb hb' hlast]

namespace Shadows

variable (h : Shadows maxAge t pruned unpruned)
include h

/-- While the pruned run lacks a key, its table is not full. -/
theorem evicted_of_dropped (hdropped : Dropped pruned unpruned key bucket)
    (order : VisitOrder κ) (key' : κ) : pruned.evicted order key' = none := by
  rw [RateLimiter.evicted]
  split_ifs with hfull
  · have hless := Table.size_lt_size (fun k b hb => ⟨b, h.kept k b hb⟩) hdropped.1 hdropped.2
    have hsize := h.size
    have hmost := h.maxTrackedKeys
    rw [leastRecentlySeen_eq_none]
    omega
  · rfl

/-- Where nothing is dropped, the tables are the same. -/
theorem lookup_congr (hnone : ∀ key bucket, ¬ Dropped pruned unpruned key bucket) (key : κ) :
    pruned.buckets.lookup key = unpruned.buckets.lookup key := by
  cases hp : pruned.buckets.lookup key with
  | some bucket => rw [h.kept key bucket hp]
  | none =>
    cases hu : unpruned.buckets.lookup key with
    | none => rfl
    | some bucket => exact absurd ⟨hp, hu⟩ (hnone key bucket)

/-- **Both runs forget the same key, or the unpruned run forgets one the other has dropped.** -/
theorem evicted (hdistinct : unpruned.Distinct) (order order' : VisitOrder κ) (key : κ) :
    pruned.evicted order key = unpruned.evicted order' key ∨
      pruned.evicted order key = none ∧
        ∃ oldest bucket, unpruned.evicted order' key = some oldest ∧
          Dropped pruned unpruned oldest bucket := by
  by_cases hdropped : ∃ k b, Dropped pruned unpruned k b
  · obtain ⟨k, b, hk⟩ := hdropped
    have hp := h.evicted_of_dropped hk order key
    cases hu : unpruned.evicted order' key with
    | none => exact Or.inl hp
    | some oldest =>
      -- the oldest key of all is not younger than the one that was dropped
      have hoss := hu
      rw [RateLimiter.evicted] at hoss
      split_ifs at hoss
      obtain ⟨bucket, hbucket, hfirst⟩ := leastRecentlySeen_eq_some hoss
      refine Or.inr ⟨hp, oldest, bucket, rfl, ?_, hbucket⟩
      cases hlookup : pruned.buckets.lookup oldest with
      | none => rfl
      | some bucket' =>
        have hsame := h.kept oldest bucket' hlookup
        rw [hbucket] at hsame
        obtain rfl := Option.some.inj hsame
        exact absurd (h.older k b hk oldest bucket hlookup) (not_lt.mpr (hfirst k b hk.2))
  · left
    push Not at hdropped
    have hsame := h.lookup_congr hdropped
    rw [RateLimiter.evicted, RateLimiter.evicted, hsame, h.maxTrackedKeys, Table.size_congr hsame,
      leastRecentlySeen_congr order order' hdistinct hsame]

/-! ### One event -/

/-- **A call finds the same bucket in both runs**, or a full one where it was dropped. -/
theorem visitOf (hfills : FillsWithin maxAge unpruned) (hnow : t ≤ now) (key : κ) :
    pruned.visitOf key now = unpruned.visitOf key now := by
  rw [RateLimiter.visitOf, RateLimiter.visitOf, h.capacity, h.refillPerSec]
  cases hp : pruned.buckets.lookup key with
  | some bucket => rw [h.kept key bucket hp]
  | none =>
    cases hu : unpruned.buckets.lookup key with
    | none => rfl
    | some bucket =>
      have hage := (h.filled key bucket ⟨hp, hu⟩).trans hnow
      exact (TokenBucket.visit_of_refilled hfills.rate.le (h.solvent key bucket hu) hage
        hfills.filled).symm

/-- What is dropped after a call was dropped before it. -/
theorem dropped_of_call {c c' : Call κ} (hdistinct : unpruned.Distinct) (hkey : c'.key = c.key)
    (hdropped : Dropped (pruned.call c') (unpruned.call c) key bucket) :
    Dropped pruned unpruned key bucket := by
  obtain ⟨hp, hu⟩ := hdropped
  rw [lookup_call, hkey] at hp
  rw [lookup_call] at hu
  split_ifs at hp hu with hne hpruned hunpruned hunpruned
  · -- the pruned run forgets the key, so the other forgets it too
    rcases h.evicted hdistinct c'.order c.order c.key with hboth | hnone
    · exact absurd (hboth ▸ hpruned) hunpruned
    · rw [hnone.1] at hpruned
      cases hpruned
  · exact ⟨hp, hu⟩

/-- What the pruned run keeps of the older keys, the other keeps as well. -/
theorem kept_of_call {c c' : Call κ} (hdistinct : unpruned.Distinct) (hkey : c'.key = c.key)
    (hne : key ≠ c.key) (hlookup : (pruned.call c').buckets.lookup key = some bucket) :
    pruned.buckets.lookup key = some bucket ∧
      (unpruned.call c).buckets.lookup key = some bucket := by
  rw [lookup_call, hkey, if_neg hne] at hlookup
  rw [lookup_call, if_neg hne]
  split_ifs at hlookup with hpruned
  refine ⟨hlookup, ?_⟩
  rw [if_neg, h.kept key bucket hlookup]
  intro hunpruned
  rcases h.evicted hdistinct c'.order c.order c.key with hboth | hdropped
  · exact hpruned (hboth ▸ hunpruned)
  · obtain ⟨-, oldest, bucket', holdest, hnone, -⟩ := hdropped
    rw [hunpruned] at holdest
    rw [← Option.some.inj holdest, hlookup] at hnone
    cases hnone

/-- **A call keeps the two runs together.** -/
theorem call {c c' : Call κ} (hfills : FillsWithin maxAge unpruned) (hdistinct : unpruned.Distinct)
    (hkey : c'.key = c.key) (hnow : c'.now = c.now) (ht : t ≤ c.now) :
    Shadows maxAge c.now (pruned.call c') (unpruned.call c) where
  capacity := h.capacity
  refillPerSec := h.refillPerSec
  maxTrackedKeys := h.maxTrackedKeys
  solvent := h.solvent.call (zero_le_one.trans hfills.capacity) hfills.rate.le c
  size := size_allowAt_le h.size
  kept := by
    intro key bucket hlookup
    by_cases hne : key = c.key
    · rw [lookup_call, hkey, if_pos hne, hnow, h.visitOf hfills ht] at hlookup
      rw [lookup_call, if_pos hne]
      exact hlookup
    · exact (h.kept_of_call hdistinct hkey hne hlookup).2
  filled := by
    intro key bucket hdropped
    exact (h.filled key bucket (h.dropped_of_call hdistinct hkey hdropped)).trans ht
  older := by
    intro key bucket hdropped key' bucket' hlookup
    have hbefore := h.dropped_of_call hdistinct hkey hdropped
    by_cases hne : key' = c.key
    · -- the bucket of the call itself is the youngest
      rw [lookup_call, hkey, if_pos hne, hnow] at hlookup
      have hfilled := h.filled key bucket hbefore
      have hage := hfills.age
      rw [← Option.some.inj hlookup, RateLimiter.visitOf, TokenBucket.visit_lastRefill]
      linarith
    · exact h.older key bucket hbefore key' bucket' (h.kept_of_call hdistinct hkey hne hlookup).1

/-- **A pruning keeps the two runs together.** -/
theorem prune (hage : 0 < maxAge) (ht : t ≤ now) :
    Shadows maxAge now (pruned.pruneOlderThan maxAge now) unpruned := by
  have hlookup : ∀ key bucket,
      (pruned.pruneOlderThan maxAge now).buckets.lookup key = some bucket ↔
        pruned.buckets.lookup key = some bucket ∧ max 0 (now - bucket.lastRefill) < maxAge := by
    intro key bucket
    rw [pruneOlderThan, Table.lookup_retain, Option.filter_eq_some_iff, decide_eq_true_iff]
  have hfilled : ∀ key bucket,
      Dropped (pruned.pruneOlderThan maxAge now) unpruned key bucket →
        bucket.lastRefill + maxAge ≤ now := by
    rintro key bucket ⟨hp, hu⟩
    cases hbefore : pruned.buckets.lookup key with
    | none => exact (h.filled key bucket ⟨hbefore, hu⟩).trans ht
    | some bucket' =>
      have hsame := h.kept key bucket' hbefore
      rw [hu] at hsame
      obtain rfl := Option.some.inj hsame
      have hold : ¬ max 0 (now - bucket.lastRefill) < maxAge := by
        intro hyoung
        rw [(hlookup key bucket).mpr ⟨hbefore, hyoung⟩] at hp
        cases hp
      rcases le_max_iff.mp (not_lt.mp hold) with hle | hle <;> linarith
  refine ⟨h.capacity, h.refillPerSec, h.maxTrackedKeys, h.solvent, h.size, ?_, hfilled, ?_⟩
  · intro key bucket hp
    exact h.kept key bucket ((hlookup key bucket).mp hp).1
  · intro key bucket hdropped key' bucket' hp
    have hold := hfilled key bucket hdropped
    have hyoung := (le_max_right _ _).trans_lt ((hlookup key' bucket').mp hp).2
    linarith

end Shadows

/-! ### Runs -/

/-- A limiter that was made by `new` and used in any way. -/
structure Sound (capacity : UInt32) (rate : Rat) (limiter : RateLimiter κ) : Prop where
  capacity : limiter.capacity = capacity.toNat
  refillPerSec : limiter.refillPerSec = rate
  solvent : 0 ≤ rate → limiter.Solvent
  size : limiter.buckets.size ≤ max limiter.maxTrackedKeys 1

theorem sound_of_reaches {capacity : UInt32} {rate : Rat} {most : Nat}
    (h : Run.Reaches event (fun _ _ => True) (new capacity rate most) limiter) :
    Sound capacity rate limiter := by
  refine h.invariant ⟨rfl, rfl, fun _ => solvent_new capacity rate most, Nat.zero_le _⟩ ?_
  rintro limiter (c | ⟨maxAge, now⟩) - h
  · refine ⟨h.capacity, h.refillPerSec, fun hrate => ?_, size_allowAt_le h.size⟩
    refine (h.solvent hrate).call ?_ (h.refillPerSec.symm ▸ hrate) c
    rw [h.capacity]
    exact Nat.cast_nonneg _
  · refine ⟨h.capacity, h.refillPerSec, fun hrate key bucket hlookup => ?_, ?_⟩
    · rw [event, pruneOlderThan, Table.lookup_retain, Option.filter_eq_some_iff] at hlookup
      exact h.solvent hrate key bucket hlookup.1
    · exact (Table.size_retain_le _ _).trans h.size

/-- Nothing is dropped yet. -/
theorem Sound.shadows_self {capacity : UInt32} {rate : Rat} (h : Sound capacity rate limiter)
    (hrate : 0 ≤ rate) (maxAge t : Rat) : Shadows maxAge t limiter limiter := by
  have hnone : ∀ key bucket, ¬ Dropped limiter limiter key bucket := by
    rintro key bucket ⟨hp, hu⟩
    rw [hp] at hu
    cases hu
  exact ⟨rfl, rfl, rfl, h.solvent hrate, h.size, fun _ _ hlookup => hlookup,
    fun key bucket hdropped => absurd hdropped (hnone key bucket),
    fun key bucket hdropped => absurd hdropped (hnone key bucket)⟩

/-- A limiter without room for a token refuses everything. -/
theorem answers_of_capacity_lt (h : Inserted maxAge calls script)
    (hcapacity : limiter.capacity < 1) : limiter.answers script = calls.map fun _ => false := by
  induction h generalizing limiter with
  | nil => rfl
  | @call c c' calls script _ _ _ ih =>
    have hrefused : (limiter.allowAt c'.order c'.key c'.now).1 = false := by
      rw [allowAt_fst, visitOf, ← Bool.not_eq_true, TokenBucket.visit_fst, not_le]
      exact (TokenBucket.level_le_capacity _ _ _ _).trans_lt hcapacity
    have hrest : (limiter.call c').answers script = calls.map fun _ => false := ih hcapacity
    rw [answers, hrefused, hrest, List.map_cons]
  | prune now _ ih => exact ih hcapacity

/-- **From states that are shadows the answers are the same.** -/
theorem Shadows.answers_eq (h : Inserted maxAge calls script)
    (hstart : Shadows maxAge t pruned unpruned) (hfills : FillsWithin maxAge unpruned)
    (htimes : (t :: script.map LimiterEvent.now).Pairwise (· ≤ ·))
    (hnever : NeverShared unpruned calls) :
    pruned.answers script = unpruned.answers (calls.map LimiterEvent.call) := by
  induction h generalizing t pruned unpruned with
  | nil => rfl
  | @call c c' calls script hkey hnow _ ih =>
    obtain ⟨hdistinct, hrest⟩ := hnever
    obtain ⟨hfirst, hlater⟩ := List.pairwise_cons.mp htimes
    have ht : t ≤ c.now := hnow ▸ hfirst c'.now List.mem_cons_self
    have hanswer : (pruned.allowAt c'.order c'.key c'.now).1 =
        (unpruned.allowAt c.order c.key c.now).1 := by
      rw [allowAt_fst, allowAt_fst, hkey, hnow, hstart.visitOf hfills ht]
    rw [List.map_cons, answers, answers, hanswer]
    refine congrArg _ (ih (hstart.call hfills hdistinct hkey hnow ht) ?_ (hnow ▸ hlater) hrest)
    exact ⟨hfills.capacity, hfills.rate, hfills.age, hfills.filled⟩
  | prune now _ ih =>
    obtain ⟨hfirst, hlater⟩ := List.pairwise_cons.mp htimes
    exact ih (hstart.prune hfills.age (hfirst now List.mem_cons_self)) hfills hlater hnever

/-- **Pruning is not seen.**  Where a bucket fills up within `max_age` and no two keys share a
`last_refill`, the calls get the answers they get without the prunings. -/
theorem answers_eq_of_inserted (capacity : UInt32) (rate maxAge : Rat) (most : Nat)
    (limiter : RateLimiter κ) (calls : List (Call κ)) (script : List (LimiterEvent κ))
    (hlimiter : Run.Reaches event (fun _ _ => True) (new capacity rate most) limiter)
    (hage : 0 ≤ maxAge) (hfilled : capacity.toNat ≤ maxAge * rate)
    (hinserted : Inserted maxAge calls script)
    (htimes : (script.map LimiterEvent.now).Pairwise (· ≤ ·))
    (hnever : NeverShared limiter calls) :
    limiter.answers script = limiter.answers (calls.map LimiterEvent.call) := by
  have hsound := sound_of_reaches hlimiter
  rcases Nat.eq_zero_or_pos capacity.toNat with hzero | hpos
  · have hcapacity : limiter.capacity < 1 := by
      rw [hsound.capacity, hzero]
      decide
    rw [answers_of_capacity_lt hinserted hcapacity,
      answers_of_capacity_lt (Inserted.none maxAge calls) hcapacity]
  · have hone : (1 : Rat) ≤ capacity.toNat := Nat.one_le_cast.mpr hpos
    have hprod : 0 < maxAge * rate := by linarith
    have hrate : 0 < rate := pos_of_mul_pos_right hprod hage
    have hfills : FillsWithin maxAge limiter := by
      refine ⟨?_, ?_, pos_of_mul_pos_left hprod hrate.le, ?_⟩
      · rw [hsound.capacity]
        exact hone
      · rw [hsound.refillPerSec]
        exact hrate
      · rw [hsound.capacity, hsound.refillPerSec]
        exact hfilled
    have hstart := hsound.shadows_self hrate.le maxAge
    cases script with
    | nil =>
      cases hinserted
      rfl
    | cons e script =>
      refine (hstart e.now).answers_eq hinserted hfills ?_ hnever
      rw [List.map_cons] at htimes ⊢
      refine List.pairwise_cons.mpr ⟨fun u hu => ?_, htimes⟩
      rcases List.mem_cons.mp hu with rfl | hu
      · exact le_rfl
      · exact (List.pairwise_cons.mp htimes).1 u hu

example : (RATE_LIMIT_BURST.toNat : Rat) ≤ RATE_LIMIT_PRUNE_AGE * RATE_LIMIT_PER_SEC := by
  decide +kernel

/-- Three addresses and room for two. -/
def threeCallers : List (Call Nat) :=
  [⟨.listed, 1, 0⟩, ⟨.listed, 1, 10⟩, ⟨.listed, 2, 110⟩, ⟨.listed, 3, 205⟩, ⟨.listed, 2, 206⟩,
    ⟨.listed, 1, 300⟩, ⟨.listed, 1, 301⟩, ⟨.listed, 3, 302⟩]

/-- Address 1 is dropped by the pruning in the one run and forgotten for address 3 in the
other; from then on both tables are full. -/
theorem answers_eq_of_inserted_three_callers :
    (new 1 (1 / 100) 2).answers
        [.call ⟨.listed, 1, 0⟩, .call ⟨.listed, 1, 10⟩, .call ⟨.listed, 2, 110⟩, .prune 100 200,
          .call ⟨.listed, 3, 205⟩, .call ⟨.listed, 2, 206⟩, .call ⟨.listed, 1, 300⟩,
          .prune 100 300, .call ⟨.listed, 1, 301⟩, .call ⟨.listed, 3, 302⟩] =
      (new 1 (1 / 100) 2).answers (threeCallers.map LimiterEvent.call) := by
  refine answers_eq_of_inserted 1 (1 / 100) 100 2 (new 1 (1 / 100) 2) threeCallers _
    (Run.Reaches.refl _) (by decide) (by decide +kernel) ?_ (by decide +kernel) ?_
  · exact .call rfl rfl (.call rfl rfl (.call rfl rfl (.prune 200 (.call rfl rfl
      (.call rfl rfl (.call rfl rfl (.prune 300 (.call rfl rfl (.call rfl rfl .nil)))))))))
  · exact ⟨by decide +kernel, by decide +kernel, by decide +kernel, by decide +kernel,
      by decide +kernel, by decide +kernel, by decide +kernel, by decide +kernel, trivial⟩

end RateLimiter

end Binda
