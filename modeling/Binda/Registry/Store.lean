import Mathlib.Data.Prod.Lex
import Mathlib.Data.String.Basic
import Binda.Lib.Select
import Binda.Core.Liveness
import Binda.Core.Rumor

/-!
# The registration store

`store.rs`, function by function.  A function that reads the clock takes the
reading, `issue` takes the nonce, and a loop over the keys of a hash map takes
the order in which it visits them.

The claims of one host are a `ClaimTable`: every rumor lies under its own
domain, so that sorting them by token and domain never meets a tie.
-/

namespace Binda

/-- `Registration`. -/
structure Registration where
  clientKey : String
  quotaKey : String
  token : RegistrationToken
  records : List Record
  rumor : Option RegistrationRumor
  deriving DecidableEq

/-- `RegistrationError`. -/
inductive RegistrationError
  | notLive
  | registrationLimitReached
  deriving DecidableEq, Repr

/-- The text `thiserror` gives it. -/
def RegistrationError.text : RegistrationError → String
  | .notLive => "client is not currently live (must probe within the liveness window first)"
  | .registrationLimitReached => "verified host already holds the maximum number of registrations"

/-! ### The claims of one host -/

/-- A `HashMap<DomainName, RegistrationRumor>` with each rumor under its own domain. -/
structure ClaimTable where
  table : Table DomainName RegistrationRumor
  keyed : ∀ d r, table.lookup d = some r → r.domain = d

namespace ClaimTable

/-- No claims. -/
def empty : ClaimTable := ⟨∅, by simp⟩

variable (c : ClaimTable)

def lookup (d : DomainName) : Option RegistrationRumor := c.table.lookup d

def values : List RegistrationRumor := c.table.values

def size : Nat := c.table.size

/-- `insert(rumor.domain.clone(), rumor)`. -/
def insert (r : RegistrationRumor) : ClaimTable where
  table := AList.insert r.domain r c.table
  keyed d r' h := by
    rw [Table.lookup_insert_eq] at h
    split at h
    · rename_i hd
      rw [← Option.some.inj h, hd]
    · exact c.keyed d r' h

def retain (p : DomainName → RegistrationRumor → Bool) : ClaimTable where
  table := c.table.retain p
  keyed d r h := by
    rw [Table.lookup_retain, Option.filter_eq_some_iff] at h
    exact c.keyed d r h.1

/-- Rewrite every claim; a rewritten claim keeps its domain. -/
def mapValues (f : RegistrationRumor → RegistrationRumor) (hf : ∀ r, (f r).domain = r.domain) :
    ClaimTable where
  table := c.table.mapValues fun _ r => f r
  keyed d r h := by
    rw [Table.lookup_mapValues, Option.map_eq_some_iff] at h
    obtain ⟨r', hr', rfl⟩ := h
    rw [hf, c.keyed d r' hr']

/-- Rewrite the claim on `d`, if there is one. -/
def modify (d : DomainName) (f : RegistrationRumor → RegistrationRumor)
    (hf : ∀ r, (f r).domain = r.domain) : ClaimTable where
  table := c.table.modify d f
  keyed d' r h := by
    rw [Table.lookup_modify] at h
    split at h
    · rename_i hd
      obtain ⟨r', hr', rfl⟩ := Option.map_eq_some_iff.mp h
      rw [hf, c.keyed d r' hr', hd]
    · exact c.keyed d' r h

end ClaimTable

/-! ### The store -/

/-- `RegistryStore`. -/
structure RegistryStore where
  registrations : Table DomainName Registration
  quotaClaims : Table String ClaimTable
  liveness : LivenessTracker
  probeEvidence : Table String (UInt64 × List UInt8)

/-- The order in which a loop visits the keys of a hash map. -/
structure VisitOrder (κ : Type) where
  visit : List κ → List κ
  perm : ∀ keys, (visit keys).Perm keys

/-- The keys as the table lists them. -/
def VisitOrder.listed {κ : Type} : VisitOrder κ := ⟨id, fun _ => List.Perm.refl _⟩

/-- What one operation takes from outside: the clock, the random generator and
the hash map's order. -/
structure Ambient where
  now : UInt64
  nonce : Vector UInt8 8
  order : VisitOrder String

/-- `lease_is_live`. -/
def leaseIsLive (rumor : RegistrationRumor) (now : UInt64) : Bool :=
  withinWindow rumor.probeTimestampMillis now

/-- The key by which `reconcile_quota` sorts: the token, then the domain. -/
def claimRank (rumor : RegistrationRumor) : List UInt8 ×ₗ String :=
  toLex (rumor.token.rawOrderingKey, rumor.domain.raw)

/-- `registration_from_rumor`. -/
def registrationFromRumor (rumor : RegistrationRumor) (quotaKey : String) : Registration :=
  { clientKey := rumor.clientKey
    quotaKey
    token := rumor.token
    records := rumor.records
    rumor := some rumor }

/-- The probe evidence of `client_key`'s own rumors is replaced. -/
def RegistrationRumor.refreshed (clientKey : String) (timestamp : UInt64) (signature : List UInt8)
    (rumor : RegistrationRumor) : RegistrationRumor :=
  if rumor.clientKey = clientKey then
    { rumor with probeTimestampMillis := timestamp, probeSignature := signature }
  else rumor

/-- The evidence for the records of `client_key`'s own rumor is replaced. -/
def RegistrationRumor.recordsSigned (clientKey : String) (timestamp : UInt64)
    (signature : List UInt8) (rumor : RegistrationRumor) : RegistrationRumor :=
  if rumor.clientKey = clientKey then
    { rumor with recordsTimestampMillis := some timestamp, recordsSignature := some signature }
  else rumor

@[simp] theorem RegistrationRumor.refreshed_domain (k : String) (t : UInt64) (s : List UInt8)
    (r : RegistrationRumor) : (r.refreshed k t s).domain = r.domain := by
  rw [refreshed]
  split <;> rfl

@[simp] theorem RegistrationRumor.recordsSigned_domain (k : String) (t : UInt64) (s : List UInt8)
    (r : RegistrationRumor) : (r.recordsSigned k t s).domain = r.domain := by
  rw [recordsSigned]
  split <;> rfl

namespace RegistryStore

/-- `RegistryStore::new`. -/
def new : RegistryStore :=
  { registrations := ∅, quotaClaims := ∅, liveness := LivenessTracker.new, probeEvidence := ∅ }

variable (E : Ed25519) (s : RegistryStore)

/-- The claims filed under a host, none if it has no entry. -/
def claims (quota : String) : ClaimTable := (s.quotaClaims.lookup quota).getD ClaimTable.empty

/-- `quota_claims.entry(quota).or_default().insert(rumor.domain.clone(), rumor)`. -/
def submit (quota : String) (rumor : RegistrationRumor) : RegistryStore :=
  { s with quotaClaims := AList.insert quota ((s.claims quota).insert rumor) s.quotaClaims }

/-- One turn of the loop that installs the winners. -/
def install (quota : String) (registrations : Table DomainName Registration)
    (rumor : RegistrationRumor) : Table DomainName Registration :=
  let replace :=
    match registrations.lookup rumor.domain with
    | some existing => decide (negotiateLocally existing.token rumor.token = rumor.token)
    | none => true
  if replace then
    AList.insert rumor.domain (registrationFromRumor rumor quota) registrations
  else registrations

/-- `reconcile_quota`. -/
def reconcileQuota (quota : String) (now : UInt64) : RegistryStore :=
  match s.quotaClaims.lookup quota with
  | none => s
  | some claims =>
    let claims := claims.retain fun _ rumor => rumor.isAuthorized E && leaseIsLive rumor now
    let winners := Select.firstBy claimRank maxRegistrationsPerClient claims.values
    let winnerDomains := winners.map fun rumor => rumor.domain
    let claims := claims.retain fun domain _ => winnerDomains.contains domain
    let registrations :=
      s.registrations.retain fun _ reg => reg.quotaKey != quota || reg.rumor.isNone
    { s with
      quotaClaims := AList.insert quota claims s.quotaClaims
      registrations := winners.foldl (install quota) registrations }

/-- `probe`. -/
def probe (client : ClientIdentity) (now : UInt64) : RegistryStore :=
  { s with liveness := s.liveness.recordProbe client now }

/-- `probe_with_evidence`. -/
def probeWithEvidence (client : ClientIdentity) (now timestamp : UInt64)
    (signature : List UInt8) : RegistryStore :=
  let s := s.probe client now
  { s with probeEvidence := AList.insert client.key (timestamp, signature) s.probeEvidence }

/-- `last_probe_evidence`. -/
def lastProbeEvidence (client : ClientIdentity) : Option (UInt64 × List UInt8) :=
  s.probeEvidence.lookup client.key

/-- The first half of `reclaim_stale`: drop what the expired hosts hold and
forget them. -/
def dropExpired (now : UInt64) : RegistryStore :=
  let expired := s.liveness.expiredClients now
  { s with
    registrations := s.registrations.retain fun _ reg => !expired.contains reg.quotaKey
    liveness := expired.foldl LivenessTracker.forgetClientByKey s.liveness }

/-- `reclaim_stale`. -/
def reclaimStale (order : VisitOrder String) (now : UInt64) : RegistryStore :=
  let s := s.dropExpired now
  (order.visit s.quotaClaims.keys).foldl (fun s quota => s.reconcileQuota E quota now) s

/-- `register`. -/
def register (env : Ambient) (domain : DomainName) (client : ClientIdentity) :
    Except RegistrationError RegistrationToken × RegistryStore :=
  if !s.liveness.isLive client env.now then (.error .notLive, s)
  else
    let s := s.reclaimStale E env.order env.now
    if (s.registrations.lookup domain).isSome then (.error .registrationLimitReached, s)
    else if !s.liveness.canRegister client env.now then (.error .registrationLimitReached, s)
    else
      let token := RegistrationToken.issue env.now env.nonce
      let registration : Registration :=
        { clientKey := client.key
          quotaKey := client.quotaKey
          token
          records := []
          rumor := none }
      (.ok token,
        { s with
          registrations := AList.insert domain registration s.registrations
          liveness := s.liveness.incrementRegistration client })

/-- `set_records`. -/
def setRecords (domain : DomainName) (client : ClientIdentity) (records : List Record) :
    Bool × RegistryStore :=
  match s.registrations.lookup domain with
  | some reg =>
    if reg.clientKey = client.key then
      (true,
        { s with
          registrations := AList.insert domain { reg with records } s.registrations })
    else (false, s)
  | none => (false, s)

/-- `attach_rumor`. -/
def attachRumor (rumor : RegistrationRumor) (now : UInt64) : Bool × RegistryStore :=
  let quota := quotaKey rumor.rdns
  match s.registrations.lookup rumor.domain with
  | some reg =>
    if reg.clientKey = rumor.clientKey ∧ reg.token = rumor.token then
      (true, (s.submit quota rumor).reconcileQuota E quota now)
    else (false, s)
  | none => (false, s)

/-- `refresh_probe_evidence`. -/
def refreshProbeEvidence (clientKey : String) (timestamp : UInt64) (signature : List UInt8) :
    RegistryStore :=
  { s with
    registrations := s.registrations.mapValues fun _ reg =>
      if reg.clientKey = clientKey then
        { reg with rumor := reg.rumor.map fun rumor =>
            { rumor with probeTimestampMillis := timestamp, probeSignature := signature } }
      else reg
    quotaClaims := s.quotaClaims.mapValues fun _ claims =>
      claims.mapValues (RegistrationRumor.refreshed clientKey timestamp signature) (by simp) }

/-- `attach_record_evidence`: the registration's rumor takes over the records,
the copy among the claims takes the time stamp and the signature only. -/
def attachRecordEvidence (domain : DomainName) (clientKey : String) (timestamp : UInt64)
    (signature : List UInt8) : RegistryStore :=
  { s with
    registrations := s.registrations.modify domain fun reg =>
      if reg.clientKey = clientKey then
        { reg with rumor := reg.rumor.map fun rumor =>
            { rumor with
              records := reg.records
              recordsTimestampMillis := some timestamp
              recordsSignature := some signature } }
      else reg
    quotaClaims := s.quotaClaims.mapValues fun _ claims =>
      claims.modify domain (RegistrationRumor.recordsSigned clientKey timestamp signature)
        (by simp) }

/-- `adopt_rumor`. -/
def adoptRumor (rumor : RegistrationRumor) (now : UInt64) : Bool × RegistryStore :=
  if !rumor.isAuthorized E || !leaseIsLive rumor now then (false, s)
  else
    let quota := quotaKey rumor.rdns
    (true, (s.submit quota rumor).reconcileQuota E quota now)

/-- The rumors are adopted one after another at one clock reading. -/
def adoptAll (E : Ed25519) (now : UInt64) (rumors : List RegistrationRumor) (s : RegistryStore) :
    RegistryStore :=
  rumors.foldl (fun s rumor => (s.adoptRumor E rumor now).2) s

/-- `all_rumors`. -/
def allRumors (order : VisitOrder DomainName) : List (DomainName × String × RegistrationToken) :=
  (order.visit s.registrations.keys).filterMap fun domain =>
    (s.registrations.lookup domain).map fun reg => (domain, reg.clientKey, reg.token)

/-- `lookup`. -/
def lookup (domain : DomainName) : Option Registration := s.registrations.lookup domain

end RegistryStore

end Binda
