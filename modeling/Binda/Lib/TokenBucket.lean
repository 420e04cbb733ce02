import Mathlib.Algebra.Order.Field.Basic
import Mathlib.Tactic.FieldSimp
import Mathlib.Tactic.Linarith

/-!
# Token buckets

A token bucket holds tokens up to a capacity and regains them at a constant rate; a request
is granted if there is a token for it.  The bucket is refilled when it is visited, for the
time since its last visit.  No bucket at all counts as a full one.

* `granted_count_le`: however the visits lie, those granted in a window are at most the
  capacity and what is regained in it.
* `visit_fst_of_spaced`: a visit is granted when one token has come back since the last.
* `visit_of_refilled`: a bucket that had time to fill up is as good as none.
-/

/-- A bucket: its tokens, and when they were last counted. -/
structure TokenBucket (K : Type) where
  tokens : K
  lastRefill : K
  deriving DecidableEq

namespace TokenBucket

/-! ### Windows of time -/

section Window

variable {K : Type} [LinearOrder K]

/-- How many of the times lie in the window from `s` to `e`. -/
def inWindow (s e : K) (times : List K) : Nat := times.countP fun t => s ≤ t && t ≤ e

theorem inWindow_cons_le (s e t : K) (times : List K) :
    inWindow s e (t :: times) ≤ 1 + inWindow s e times := by
  rw [inWindow, inWindow, List.countP_cons]
  split_ifs <;> omega

theorem inWindow_cons_of_lt {s e t : K} (h : t < s) (times : List K) :
    inWindow s e (t :: times) = inWindow s e times := by
  rw [inWindow, List.countP_cons_of_neg]
  · rfl
  · simp [h]

theorem inWindow_eq_zero {s e : K} {times : List K} (h : ∀ t ∈ times, e < t) :
    inWindow s e times = 0 := by
  rw [inWindow, List.countP_eq_zero]
  intro t ht
  have := h t ht
  simp only [Bool.and_eq_true, decide_eq_true_eq, not_and, not_le]
  exact fun _ => this

end Window

/-! ### Visits -/

variable {K : Type} [Field K] [LinearOrder K]

/-- The tokens there are at `now`. -/
def level (capacity rate : K) (b : Option (TokenBucket K)) (now : K) : K :=
  let bucket := b.getD ⟨capacity, now⟩
  min (bucket.tokens + max 0 (now - bucket.lastRefill) * rate) capacity

/-- One visit: whether there was a token to take, and the bucket afterwards. -/
def visit (capacity rate : K) (b : Option (TokenBucket K)) (now : K) : Bool × TokenBucket K :=
  let tokens := level capacity rate b now
  if 1 ≤ tokens then (true, ⟨tokens - 1, now⟩) else (false, ⟨tokens, now⟩)

/-- The bucket, if there is one, has no debt. -/
def Solvent (b : Option (TokenBucket K)) : Prop := ∀ bucket, b = some bucket → 0 ≤ bucket.tokens

/-- The visits that are granted, of those at these times. -/
def granted (capacity rate : K) : Option (TokenBucket K) → List K → List K
  | _, [] => []
  | b, now :: times =>
    let rest := granted capacity rate (some (visit capacity rate b now).2) times
    if (visit capacity rate b now).1 then now :: rest else rest

variable {capacity rate : K} {b : Option (TokenBucket K)} {now : K}

theorem level_le_capacity (capacity rate : K) (b : Option (TokenBucket K)) (now : K) :
    level capacity rate b now ≤ capacity := min_le_right _ _

@[simp] theorem visit_lastRefill : (visit capacity rate b now).2.lastRefill = now := by
  rw [visit]
  split_ifs <;> rfl

theorem visit_fst : (visit capacity rate b now).1 = true ↔ 1 ≤ level capacity rate b now := by
  rw [visit]
  split_ifs with h <;> simp [h]

/-- What a visit takes is one token or none. -/
theorem visit_tokens (capacity rate : K) (b : Option (TokenBucket K)) (now : K) :
    (visit capacity rate b now).2.tokens =
      level capacity rate b now - if (visit capacity rate b now).1 then 1 else 0 := by
  rw [visit]
  split_ifs <;> simp_all

theorem level_none : level capacity rate none now = capacity := by
  rw [level]
  simp

/-- A full bucket grants. -/
theorem visit_fst_none (hcapacity : 1 ≤ capacity) :
    (visit capacity rate none now).1 = true := by
  rw [visit_fst, level_none]
  exact hcapacity

theorem solvent_none : Solvent (none : Option (TokenBucket K)) := fun _ h => by cases h

theorem solvent_some {bucket : TokenBucket K} : Solvent (some bucket) ↔ 0 ≤ bucket.tokens := by
  constructor
  · intro h
    exact h bucket rfl
  · rintro h _ he
    rwa [← Option.some.inj he]

theorem granted_sublist (capacity rate : K) (b : Option (TokenBucket K)) (times : List K) :
    (granted capacity rate b times).Sublist times := by
  induction times generalizing b with
  | nil => exact List.Sublist.refl _
  | cons now times ih =>
    rw [granted]
    split_ifs
    · exact (ih _).cons_cons now
    · exact (ih _).cons now

section Ordered

variable [IsStrictOrderedRing K]

/-- What a bucket that was not visited has now. -/
theorem level_some_le (capacity rate : K) {bucket : TokenBucket K} (h : bucket.lastRefill ≤ now) :
    level capacity rate (some bucket) now ≤
      bucket.tokens + (now - bucket.lastRefill) * rate := by
  rw [level]
  dsimp only [Option.getD_some]
  rw [max_eq_right (by linarith)]
  exact min_le_left _ _

theorem level_nonneg (now : K) (hcapacity : 0 ≤ capacity) (hrate : 0 ≤ rate)
    (hb : Solvent b) : 0 ≤ level capacity rate b now := by
  cases b with
  | none =>
    rw [level_none]
    exact hcapacity
  | some bucket =>
    have htokens := hb bucket rfl
    have hregained : 0 ≤ max 0 (now - bucket.lastRefill) * rate :=
      mul_nonneg (le_max_left _ _) hrate
    exact le_min (by dsimp only [Option.getD_some]; linarith) hcapacity

/-- A visit leaves no debt. -/
theorem visit_tokens_nonneg (now : K) (hcapacity : 0 ≤ capacity) (hrate : 0 ≤ rate)
    (hb : Solvent b) : 0 ≤ (visit capacity rate b now).2.tokens := by
  have hlevel := level_nonneg now hcapacity hrate hb
  rw [visit_tokens]
  split_ifs with h
  · have := visit_fst.mp h
    linarith
  · linarith

/-- **A bucket that had time to fill up is as good as none.** -/
theorem visit_of_refilled {bucket : TokenBucket K} {age : K} (hrate : 0 ≤ rate)
    (htokens : 0 ≤ bucket.tokens) (hage : bucket.lastRefill + age ≤ now)
    (hfull : capacity ≤ age * rate) :
    visit capacity rate (some bucket) now = visit capacity rate none now := by
  have hlevel : level capacity rate (some bucket) now = level capacity rate none now := by
    rw [level_none, level]
    refine min_eq_right ?_
    have h1 : age ≤ max 0 (now - bucket.lastRefill) := le_max_of_le_right (by linarith)
    have h2 := mul_le_mul_of_nonneg_right h1 hrate
    dsimp only [Option.getD_some]
    linarith
  rw [visit, visit, hlevel]

/-- A visit is granted while there is a token. -/
theorem visit_fst_some {bucket : TokenBucket K} (hcapacity : 1 ≤ capacity) (hrate : 0 ≤ rate)
    (htoken : 1 ≤ bucket.tokens) : (visit capacity rate (some bucket) now).1 = true := by
  rw [visit_fst, level]
  refine le_min ?_ hcapacity
  have hregained : 0 ≤ max 0 (now - bucket.lastRefill) * rate :=
    mul_nonneg (le_max_left _ _) hrate
  dsimp only [Option.getD_some]
  linarith

/-- **A visit is granted when a token has come back since the last.** -/
theorem visit_fst_of_spaced {bucket : TokenBucket K} (hcapacity : 1 ≤ capacity) (hrate : 0 < rate)
    (htokens : 0 ≤ bucket.tokens) (hspaced : 1 / rate ≤ now - bucket.lastRefill) :
    (visit capacity rate (some bucket) now).1 = true := by
  rw [visit_fst, level]
  refine le_min ?_ hcapacity
  have h1 : 1 / rate ≤ max 0 (now - bucket.lastRefill) := le_max_of_le_right hspaced
  have h2 := mul_le_mul_of_nonneg_right h1 hrate.le
  rw [one_div_mul_cancel hrate.ne'] at h2
  dsimp only [Option.getD_some]
  linarith

/-! ### Windows -/

/-- A request counts once in a window, if at all. -/
theorem inWindow_granted_cons_le (capacity rate : K) (b : Option (TokenBucket K))
    (s e now : K) (times : List K) :
    (inWindow s e (granted capacity rate b (now :: times)) : K) ≤
      (if (visit capacity rate b now).1 then 1 else 0) +
        inWindow s e (granted capacity rate (some (visit capacity rate b now).2) times) := by
  rw [granted]
  split_ifs
  · have := inWindow_cons_le s e now
      (granted capacity rate (some (visit capacity rate b now).2) times)
    have hcast : (inWindow s e _ : K) ≤ ((1 + inWindow s e _ : Nat) : K) := Nat.cast_le.mpr this
    rwa [Nat.cast_add, Nat.cast_one] at hcast
  · rw [zero_add]

/-- From its last refill on, a bucket grants what it has and what it regains. -/
theorem granted_count_le_tokens (s : K) {e : K} {bucket : TokenBucket K} {times : List K}
    (hcapacity : 0 ≤ capacity) (hrate : 0 ≤ rate) (htokens : 0 ≤ bucket.tokens)
    (hlast : bucket.lastRefill ≤ e) (htimes : (bucket.lastRefill :: times).Pairwise (· ≤ ·)) :
    (inWindow s e (granted capacity rate (some bucket) times) : K) ≤
      bucket.tokens + (e - bucket.lastRefill) * rate := by
  have hregained : 0 ≤ (e - bucket.lastRefill) * rate := mul_nonneg (by linarith) hrate
  induction times generalizing bucket with
  | nil =>
    rw [granted, inWindow, List.countP_nil, Nat.cast_zero]
    linarith
  | cons now times ih =>
    obtain ⟨hfirst, hrest⟩ := List.pairwise_cons.mp htimes
    by_cases hnow : now ≤ e
    · have hv := visit_tokens_nonneg now hcapacity hrate (solvent_some.mpr htokens)
      have hlevel := level_some_le capacity rate (hfirst now List.mem_cons_self)
      have hcons := inWindow_granted_cons_le capacity rate (some bucket) s e now times
      have htaken := visit_tokens capacity rate (some bucket) now
      have hih := ih hv (by rwa [visit_lastRefill]) (by rwa [visit_lastRefill])
        (by rw [visit_lastRefill]; exact mul_nonneg (by linarith) hrate)
      rw [visit_lastRefill] at hih
      linarith
    · rw [inWindow_eq_zero fun t ht => ?_, Nat.cast_zero]
      · linarith
      · have hmem := (granted_sublist capacity rate (some bucket) (now :: times)).subset ht
        rcases List.mem_cons.mp hmem with rfl | hmem
        · exact not_le.mp hnow
        · exact (not_le.mp hnow).trans_le ((List.pairwise_cons.mp hrest).1 t hmem)

/-- **In any window a bucket grants at most its capacity and what it regains.** -/
theorem granted_count_le {s e : K} {times : List K} (hcapacity : 0 ≤ capacity) (hrate : 0 ≤ rate)
    (hb : Solvent b) (hse : s ≤ e)
    (htimes : times.Pairwise (· ≤ ·)) :
    (inWindow s e (granted capacity rate b times) : K) ≤ capacity + (e - s) * rate := by
  have hregained : 0 ≤ (e - s) * rate := mul_nonneg (by linarith) hrate
  induction times generalizing b with
  | nil =>
    rw [granted, inWindow, List.countP_nil, Nat.cast_zero]
    linarith
  | cons now times ih =>
    obtain ⟨hfirst, hrest⟩ := List.pairwise_cons.mp htimes
    have hv := solvent_some.mpr (visit_tokens_nonneg now hcapacity hrate hb)
    rcases lt_or_ge now s with hbefore | hs
    · -- before the window nothing counts
      have hih := ih hv hrest
      rw [granted]
      split_ifs
      · rwa [inWindow_cons_of_lt hbefore]
      · exact hih
    rcases lt_or_ge e now with hafter | he
    · rw [inWindow_eq_zero fun t ht => ?_, Nat.cast_zero]
      · linarith
      · have hmem := (granted_sublist capacity rate b (now :: times)).subset ht
        rcases List.mem_cons.mp hmem with rfl | hmem
        · exact hafter
        · exact hafter.trans_le (hfirst t hmem)
    · -- the first in the window finds the capacity at most, and what is regained comes after
      have hcons := inWindow_granted_cons_le capacity rate b s e now times
      have htaken := visit_tokens capacity rate b now
      have hlevel := level_le_capacity capacity rate b now
      have hlast : (visit capacity rate b now).2.lastRefill = now := visit_lastRefill
      have hmore := granted_count_le_tokens s hcapacity hrate (solvent_some.mp hv)
        (hlast.trans_le he) (hlast.symm ▸ htimes)
      have hless : (e - now) * rate ≤ (e - s) * rate :=
        mul_le_mul_of_nonneg_right (by linarith) hrate
      rw [hlast] at hmore
      linarith

end Ordered

end TokenBucket
