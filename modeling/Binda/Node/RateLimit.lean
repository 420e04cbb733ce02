import Mathlib.Data.List.MinMax
import Mathlib.Data.Rat.Cast.Order
import Binda.Lib.Run
import Binda.Lib.TokenBucket
import Binda.Registry.Store

/-!
# The rate limiter

`rate_limit.rs`: a token bucket for each source address, and a bound on how many addresses
are remembered.  The source counts in `f64`; here tokens, seconds and instants are exact
rational numbers.

`lookup_allowAt` says what one call does to the table: the bucket of its own key is visited,
and the key that was seen longest ago may be forgotten to make room.
-/

namespace Binda

/-- `Bucket`. -/
abbrev Bucket := TokenBucket Rat

/-- `RateLimiter`. -/
structure RateLimiter (κ : Type) where
  capacity : Rat
  refillPerSec : Rat
  maxTrackedKeys : Nat
  buckets : Table κ Bucket

namespace RateLimiter

variable {κ : Type}

/-- `RateLimiter::new`. -/
def new (capacity : UInt32) (refillPerSec : Rat) (maxTrackedKeys : Nat) : RateLimiter κ where
  capacity := capacity.toNat
  refillPerSec := refillPerSec
  maxTrackedKeys := maxTrackedKeys
  buckets := ∅

def RATE_LIMIT_BURST : UInt32 := 20

def RATE_LIMIT_PER_SEC : Rat := 10

def RATE_LIMIT_MAX_TRACKED_KEYS : Nat := 100000

/-- In seconds. -/
def RATE_LIMIT_PRUNE_AGE : Rat := 300

/-- `new_rate_limiter`. -/
def newRateLimiter : RateLimiter κ :=
  new RATE_LIMIT_BURST RATE_LIMIT_PER_SEC RATE_LIMIT_MAX_TRACKED_KEYS

variable [DecidableEq κ]

/-- What `evict_least_recently_seen` removes: the first of the keys with the earliest refill,
in the order of the hash map. -/
def leastRecentlySeen (order : VisitOrder κ) (buckets : Table κ Bucket) : Option κ :=
  (order.visit buckets.keys).argmin fun key =>
    ((buckets.lookup key).map fun bucket => bucket.lastRefill).getD 0

/-- `evict_least_recently_seen`. -/
def evictLeastRecentlySeen (order : VisitOrder κ) (buckets : Table κ Bucket) : Table κ Bucket :=
  match leastRecentlySeen order buckets with
  | some oldestKey => AList.erase oldestKey buckets
  | none => buckets

/-- The first lines of `allow_at`: a key that is not tracked makes the limiter forget another
when it is full. -/
def makeRoom (order : VisitOrder κ) (key : κ) (limiter : RateLimiter κ) : Table κ Bucket :=
  if (limiter.buckets.lookup key).isNone && limiter.maxTrackedKeys ≤ limiter.buckets.size then
    evictLeastRecentlySeen order limiter.buckets
  else limiter.buckets

/-- `allow_at`: whether the request is allowed, and the limiter after it. -/
def allowAt (order : VisitOrder κ) (key : κ) (now : Rat) (limiter : RateLimiter κ) :
    Bool × RateLimiter κ :=
  let buckets := limiter.makeRoom order key
  let (allowed, bucket) :=
    TokenBucket.visit limiter.capacity limiter.refillPerSec (buckets.lookup key) now
  (allowed, { limiter with buckets := AList.insert key bucket buckets })

/-- `prune_older_than`. -/
def pruneOlderThan (maxAge now : Rat) (limiter : RateLimiter κ) : RateLimiter κ :=
  { limiter with
    buckets := limiter.buckets.retain fun _ bucket => max 0 (now - bucket.lastRefill) < maxAge }

/-! ### The key that is forgotten -/

/-- The key a call by `key` makes the limiter forget, if it does. -/
def evicted (order : VisitOrder κ) (key : κ) (limiter : RateLimiter κ) : Option κ :=
  if limiter.buckets.lookup key = none ∧ limiter.maxTrackedKeys ≤ limiter.buckets.size then
    leastRecentlySeen order limiter.buckets
  else none

/-- **The key seen longest ago**: it is tracked, and no other was refilled before it. -/
theorem leastRecentlySeen_eq_some {order : VisitOrder κ} {buckets : Table κ Bucket} {key : κ}
    (h : leastRecentlySeen order buckets = some key) :
    ∃ bucket, buckets.lookup key = some bucket ∧
      ∀ key' bucket', buckets.lookup key' = some bucket' →
        bucket.lastRefill ≤ bucket'.lastRefill := by
  have hmem := (order.perm _).mem_iff.mp (List.argmin_mem h)
  obtain ⟨bucket, hbucket⟩ := Table.mem_keys_iff.mp hmem
  refine ⟨bucket, hbucket, fun key' bucket' hbucket' => ?_⟩
  have hmem' := (order.perm _).mem_iff.mpr (Table.mem_keys_iff.mpr ⟨bucket', hbucket'⟩)
  have hle := List.le_of_mem_argmin hmem' h
  rwa [hbucket, hbucket', Option.map_some, Option.map_some, Option.getD_some, Option.getD_some]
    at hle

/-- A table without such a key is empty. -/
theorem leastRecentlySeen_eq_none {order : VisitOrder κ} {buckets : Table κ Bucket} :
    leastRecentlySeen order buckets = none ↔ buckets.size = 0 := by
  have hlen := (order.perm buckets.keys).length_eq
  rw [leastRecentlySeen, List.argmin_eq_none, ← List.length_eq_zero_iff, hlen,
    Table.size_eq_keys_length]

/-! ### One call -/

variable {limiter : RateLimiter κ} {order : VisitOrder κ} {key : κ} {now : Rat}

theorem makeRoom_eq :
    limiter.makeRoom order key =
      match limiter.evicted order key with
      | some oldestKey => AList.erase oldestKey limiter.buckets
      | none => limiter.buckets := by
  rw [makeRoom, evicted, evictLeastRecentlySeen]
  simp only [Bool.and_eq_true, Option.isNone_iff_eq_none, decide_eq_true_eq]
  split_ifs <;> rfl

/-- A key that is forgotten is not the one that calls. -/
theorem evicted_ne : limiter.evicted order key ≠ some key := by
  intro h
  rw [evicted] at h
  split_ifs at h with hroom
  obtain ⟨bucket, hbucket, -⟩ := leastRecentlySeen_eq_some h
  rw [hroom.1] at hbucket
  cases hbucket

theorem lookup_makeRoom (key' : κ) :
    (limiter.makeRoom order key).lookup key' =
      if limiter.evicted order key = some key' then none else limiter.buckets.lookup key' := by
  rw [makeRoom_eq]
  cases h : limiter.evicted order key with
  | none => rw [if_neg (by simp)]
  | some oldestKey =>
    dsimp only
    rw [Table.lookup_erase_eq]
    by_cases he : key' = oldestKey
    · rw [if_pos he, if_pos (by rw [he])]
    · rw [if_neg he, if_neg fun hs => he (Option.some.inj hs).symm]

theorem lookup_makeRoom_self : (limiter.makeRoom order key).lookup key =
    limiter.buckets.lookup key := by
  rw [lookup_makeRoom, if_neg evicted_ne]

/-- What the call's own bucket comes to. -/
def visitOf (limiter : RateLimiter κ) (key : κ) (now : Rat) : Bool × Bucket :=
  TokenBucket.visit limiter.capacity limiter.refillPerSec (limiter.buckets.lookup key) now

/-- **The answer depends on the bucket of the key alone.** -/
theorem allowAt_fst : (limiter.allowAt order key now).1 = (limiter.visitOf key now).1 := by
  rw [allowAt, visitOf, lookup_makeRoom_self]

/-- **What a call does to the table**: its own bucket is visited, and the key it makes the
limiter forget is gone. -/
theorem lookup_allowAt (key' : κ) :
    (limiter.allowAt order key now).2.buckets.lookup key' =
      if key' = key then some (limiter.visitOf key now).2
      else if limiter.evicted order key = some key' then none
      else limiter.buckets.lookup key' := by
  rw [allowAt, lookup_makeRoom_self, ← visitOf]
  dsimp only
  rw [Table.lookup_insert_eq, lookup_makeRoom]

/-- **A call keeps the number of keys within the bound**, or at one where the bound is none. -/
theorem size_allowAt_le (h : limiter.buckets.size ≤ max limiter.maxTrackedKeys 1) :
    (limiter.allowAt order key now).2.buckets.size ≤ max limiter.maxTrackedKeys 1 := by
  rw [allowAt]
  dsimp only
  cases hkey : limiter.buckets.lookup key with
  | some bucket =>
    have hroom : limiter.makeRoom order key = limiter.buckets := by
      rw [makeRoom, hkey]
      rfl
    have hmem : key ∈ limiter.buckets.keys := Table.mem_keys_iff.mpr ⟨bucket, hkey⟩
    rwa [hroom, Table.size_insert_of_mem hmem]
  | none =>
    have hinsert := Table.size_insert_le key
      (TokenBucket.visit limiter.capacity limiter.refillPerSec
        ((limiter.makeRoom order key).lookup key) now).2 (limiter.makeRoom order key)
    have hroom : (limiter.makeRoom order key).size + 1 ≤ max limiter.maxTrackedKeys 1 := by
      rw [makeRoom_eq, evicted]
      by_cases hfull : limiter.maxTrackedKeys ≤ limiter.buckets.size
      · rw [if_pos ⟨hkey, hfull⟩]
        cases holdest : leastRecentlySeen order limiter.buckets with
        | none =>
          have hempty := leastRecentlySeen_eq_none.mp holdest
          dsimp only
          omega
        | some oldestKey =>
          obtain ⟨bucket, hbucket, -⟩ := leastRecentlySeen_eq_some holdest
          have hless := Table.size_erase_of_mem (Table.mem_keys_iff.mpr ⟨bucket, hbucket⟩)
          dsimp only
          omega
      · rw [if_neg fun hboth => hfull hboth.2]
        dsimp only
        omega
    exact hinsert.trans hroom

end RateLimiter

end Binda
