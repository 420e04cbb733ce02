import Binda.Lib.Bytes
import Binda.Lib.Table
import Binda.Core.Client

/-!
# Liveness

`liveness.rs`: when each host was last heard of, and how many registrations it
was given.  Both tables go by the canonical host, not by the owner's key.

A clock reading is a `UInt64`, as `TimeSource::now_millis` yields it; one
operation takes one reading.
-/

namespace Binda

/-- `LIVENESS_WINDOW`, in milliseconds. -/
def livenessWindowMillis : UInt64 := 60000

/-- `MAX_REGISTRATIONS_PER_CLIENT`. -/
def maxRegistrationsPerClient : Nat := 5

/-- `now.saturating_sub(t) <= LIVENESS_WINDOW`: a time ahead of the clock is
within the window as well. -/
def withinWindow (t now : UInt64) : Bool := UInt64.saturatingSub now t ≤ livenessWindowMillis

theorem withinWindow_iff {t now : UInt64} :
    withinWindow t now = true ↔ now.toNat ≤ t.toNat + 60000 := by
  rw [withinWindow, decide_eq_true_eq, UInt64.le_iff_toNat_le, UInt64.toNat_saturatingSub,
    show livenessWindowMillis.toNat = 60000 from rfl]
  omega

theorem withinWindow_self (now : UInt64) : withinWindow now now = true :=
  withinWindow_iff.mpr (Nat.le_add_right _ _)

/-- `LivenessTracker`. -/
structure LivenessTracker where
  lastSeenMillis : Table String UInt64
  registrationCounts : Table String Nat

namespace LivenessTracker

/-- `LivenessTracker::new`. -/
def new : LivenessTracker := { lastSeenMillis := ∅, registrationCounts := ∅ }

variable (l : LivenessTracker)

/-- `record_probe`. -/
def recordProbe (client : ClientIdentity) (now : UInt64) : LivenessTracker :=
  { l with lastSeenMillis := AList.insert client.quotaKey now l.lastSeenMillis }

/-- `is_live`. -/
def isLive (client : ClientIdentity) (now : UInt64) : Bool :=
  match l.lastSeenMillis.lookup client.quotaKey with
  | some last => withinWindow last now
  | none => false

/-- `registration_count`. -/
def registrationCount (client : ClientIdentity) : Nat :=
  (l.registrationCounts.lookup client.quotaKey).getD 0

/-- `can_register`. -/
def canRegister (client : ClientIdentity) (now : UInt64) : Bool :=
  l.isLive client now && l.registrationCount client < maxRegistrationsPerClient

/-- `increment_registration`. -/
def incrementRegistration (client : ClientIdentity) : LivenessTracker :=
  { l with registrationCounts :=
      AList.insert client.quotaKey (l.registrationCount client + 1) l.registrationCounts }

/-- `forget_client_by_key`. -/
def forgetClientByKey (key : String) : LivenessTracker :=
  { lastSeenMillis := AList.erase key l.lastSeenMillis
    registrationCounts := AList.erase key l.registrationCounts }

/-- `expired_clients`. -/
def expiredClients (now : UInt64) : List String :=
  (l.lastSeenMillis.retain fun _ last => !withinWindow last now).keys

/-! ### What the tables say afterwards -/

variable {l}

theorem isLive_iff {client : ClientIdentity} {now : UInt64} :
    l.isLive client now = true ↔
      ∃ last, l.lastSeenMillis.lookup client.quotaKey = some last ∧
        withinWindow last now = true := by
  rw [isLive]
  cases l.lastSeenMillis.lookup client.quotaKey <;> simp

/-- A host is expired when it was heard of, but not within the window. -/
theorem mem_expiredClients {host : String} {now : UInt64} :
    host ∈ l.expiredClients now ↔
      ∃ last, l.lastSeenMillis.lookup host = some last ∧ withinWindow last now = false := by
  rw [expiredClients, Table.mem_keys_iff]
  simp only [Table.lookup_retain, Option.filter_eq_some_iff, Bool.not_eq_true']

theorem foldl_forget_lastSeen (keys : List String) (host : String) :
    ∀ l : LivenessTracker, (keys.foldl forgetClientByKey l).lastSeenMillis.lookup host =
      if host ∈ keys then none else l.lastSeenMillis.lookup host := by
  induction keys with
  | nil => intro l; simp
  | cons k keys ih =>
    intro l
    rw [List.foldl_cons, ih, forgetClientByKey, Table.lookup_erase_eq]
    by_cases hk : host = k <;> by_cases hm : host ∈ keys <;> simp [hk, hm]

theorem foldl_forget_counts (keys : List String) (host : String) :
    ∀ l : LivenessTracker, (keys.foldl forgetClientByKey l).registrationCounts.lookup host =
      if host ∈ keys then none else l.registrationCounts.lookup host := by
  induction keys with
  | nil => intro l; simp
  | cons k keys ih =>
    intro l
    rw [List.foldl_cons, ih, forgetClientByKey, Table.lookup_erase_eq]
    by_cases hk : host = k <;> by_cases hm : host ∈ keys <;> simp [hk, hm]

end LivenessTracker

end Binda
