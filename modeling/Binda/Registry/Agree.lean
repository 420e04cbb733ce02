import Binda.Registry.Sample
import Binda.Registry.Invariant

/-!
# The two tables

A lease is stored twice, with the registration and among the claims of its host.
`TablesAgree` says that the two copies are equal, and the registration repeats
them.  `tablesAgree_of_keepsRecords` is the condition under which every state of
a run has it: records are only set where nothing changes.  All other operations
keep the tables in agreement; setting records changes the one copy and not the
other (`tables_diverge`), so the condition is exact: the first event that does
not meet it leaves the tables apart (`tablesAgree_prefixes_iff`).
-/

namespace Binda

namespace RegistryStore

open RegistrationRumor

variable {E : Ed25519} {s t : RegistryStore} {now : UInt64} {d : DomainName} {g : Registration}
  {r : RegistrationRumor} {q : String}

/-- The registration `g` of `d` repeats its rumor `r`, and so does the claim. -/
structure Repeats (s : RegistryStore) (d : DomainName) (g : Registration) (r : RegistrationRumor) :
    Prop where
  domain : r.domain = d
  clientKey : r.clientKey = g.clientKey
  token : r.token = g.token
  records : r.records = g.records
  quotaKey : quotaKey r.rdns = g.quotaKey
  claim : (s.claims g.quotaKey).lookup d = some r

/-- The two tables agree. -/
def TablesAgree (s : RegistryStore) : Prop :=
  ∀ d g r, s.lookup d = some g → g.rumor = some r → s.Repeats d g r

/-- If the event sets the records of a domain that is registered with a lease, they
are the records it has. -/
def KeepsRecords (E : Ed25519) (s : RegistryStore) (e : Event) : Prop :=
  ∀ envelope v client g, e.op = .request (.setRecords envelope) v →
    authenticate E envelope (setRecordsMessage envelope.body.domain envelope.body.records
      envelope.timestampMillis) e.now = .ok client →
    s.lookup envelope.body.domain = some g → g.clientKey = client.key → g.rumor ≠ none →
    envelope.body.records = g.records

/-- Every lease is among the claims of its host. -/
def Copied (s : RegistryStore) : Prop :=
  ∀ d g r, s.lookup d = some g → g.rumor = some r → (s.claims g.quotaKey).lookup d = some r

/-- In a consistent store only the copies can differ. -/
theorem Consistent.tablesAgree (hc : Consistent E s) (h : s.Copied) : s.TablesAgree := by
  intro d g r hg hr
  have hl := hc.leased d g r hg hr not_false
  exact ⟨hl.domain, hl.clientKey.symm, hl.token.symm, hl.records.symm, hl.quotaKey.symm,
    h d g r hg hr⟩

/-! ### One step -/

/-- **Reconciling a host copies its leases.** -/
theorem Copied.reconcileQuota (hq : s.Filed q)
    (h : ∀ d g r, s.lookup d = some g → g.rumor = some r → g.quotaKey ≠ q →
      (s.claims g.quotaKey).lookup d = some r) : (s.reconcileQuota E q now).Copied := by
  intro d g r hg hr
  rcases lookup_reconcileQuota_cases hq hg with ⟨w, hw, rfl⟩ | ⟨hg', hor⟩
  · obtain rfl := Option.some.inj hr
    have hown : (registrationFromRumor w q).quotaKey = q := rfl
    rw [claims_reconcileQuota, if_pos hown]
    exact hw
  · have hne : g.quotaKey ≠ q := hor.resolve_right (by simp [hr])
    rw [claims_reconcileQuota, if_neg hne]
    exact h d g r hg' hr hne

theorem Copied.filed (h : s.Copied) : (s.filed E r now).Copied := by
  refine Copied.reconcileQuota (filed_submit r) fun d g w hg hw hne => ?_
  rw [claims_submit, if_neg hne]
  exact h d g w hg hw

theorem Copied.reclaimStale (h : s.Copied) (order : VisitOrder String) :
    (s.reclaimStale E order now).Copied := by
  refine reclaimStale_induction ?_ fun t q hq ht =>
    Copied.reconcileQuota hq fun d g r hg hr _ => ht d g r hg hr
  intro d g r hg hr
  exact h d g r (lookup_dropExpired_eq_some.mp hg).1 hr

theorem Copied.probed {client : ClientIdentity} {ts : UInt64} {sig : List UInt8} (h : s.Copied)
    (hc : Consistent E s) : (s.probed client now ts sig).Copied := by
  intro d g r hg hr
  rw [lookup_probed_eq_some] at hg
  obtain ⟨g₀, hg₀, rfl⟩ := hg
  cases hr₀ : g₀.rumor with
  | none =>
    rw [Registration.refreshed_rumor_eq_none.mpr hr₀] at hr
    cases hr
  | some r₀ =>
    have hkey := (hc.leased d g₀ r₀ hg₀ hr₀ not_false).clientKey
    rw [Registration.refreshed_rumor_of_key hr₀ hkey] at hr
    obtain rfl := Option.some.inj hr
    rw [Registration.refreshed_quotaKey, lookup_claims_probed, h d g₀ r₀ hg₀ hr₀, Option.map_some]

/-- Records that are the same leave the copies the same. -/
theorem Copied.published {client : ClientIdentity} {records : List Record} {ts : UInt64}
    {sig : List UInt8} (h : s.Copied) (hc : Consistent E s) (hg : s.lookup d = some g)
    (hk : g.clientKey = client.key) (hsame : g.rumor ≠ none → records = g.records) :
    (s.published client d records ts sig).Copied := by
  intro d' g' r' hg' hr'
  rw [lookup_published hg hk] at hg'
  split at hg'
  · rename_i hd
    subst hd
    obtain rfl := Option.some.inj hg'
    obtain ⟨r, hr, rfl⟩ := Option.map_eq_some_iff.mp hr'
    have hl := hc.leased d' g r hg hr not_false
    have hkr : r.clientKey = client.key := hl.clientKey ▸ hk
    have hrec : r.records = records := hl.records.symm.trans (hsame (by simp [hr])).symm
    rw [claims_published hg hk, ClaimTable.lookup_modify, if_pos rfl]
    refine (congrArg (Option.map _) (h d' g r hg hr)).trans ?_
    rw [Option.map_some, RegistrationRumor.recordsSigned, if_pos hkr, ← hrec]
  · rename_i hd
    rw [claims_published hg hk, ClaimTable.lookup_modify, if_neg hd]
    exact h d' g' r' hg' hr'

/-- Records that are new get into the one copy only. -/
theorem Copied.records_eq {client : ClientIdentity} {records : List Record} {ts : UInt64}
    {sig : List UInt8} (h : s.Copied) (hc : Consistent E s) (hg : s.lookup d = some g)
    (hk : g.clientKey = client.key) (hr : g.rumor ≠ none)
    (h' : (s.published client d records ts sig).Copied) : records = g.records := by
  obtain ⟨r, hr⟩ := Option.ne_none_iff_exists'.mp hr
  have hl := hc.leased d g r hg hr not_false
  have hkr : r.clientKey = client.key := hl.clientKey ▸ hk
  have hnew : (s.published client d records ts sig).lookup d =
      some (g.published records ts sig) := by
    rw [lookup_published hg hk, if_pos rfl]
  -- what the registration has now, and what the claim has
  have hclaim := h' d _ _ hnew (congrArg (Option.map _) hr)
  have hkept : ((s.published client d records ts sig).claims g.quotaKey).lookup d =
      some (r.recordsSigned client.key ts sig) := by
    rw [claims_published hg hk, ClaimTable.lookup_modify, if_pos rfl]
    exact congrArg (Option.map _) (h d g r hg hr)
  have heq := Option.some.inj (hclaim.symm.trans hkept)
  rw [RegistrationRumor.recordsSigned, if_pos hkr] at heq
  have hrec : records = r.records := congrArg RegistrationRumor.records heq
  exact hrec.trans hl.records.symm

theorem Copied.granted {client : ClientIdentity} {token : RegistrationToken} (h : s.Copied) :
    (s.granted client d token).Copied := by
  intro d' g' r' hg' hr'
  rw [lookup_granted] at hg'
  split at hg'
  · obtain rfl := Option.some.inj hg'
    cases hr'
  · exact h d' g' r' hg' hr'

/-- **Every event that keeps the records keeps the copies.** -/
theorem Copied.after {e : Event} (h : s.Copied) (hc : Consistent E s) (hk : KeepsRecords E s e) :
    (s.after E e).Copied := by
  obtain ⟨answer, s', ho, heq⟩ := exists_change E s e
  rw [heq]
  cases ho with
  | idle _ _ => exact h
  | probed _ _ => exact h.probed hc
  | published op ha hg hown => exact h.published hc hg hown (hk _ _ _ _ op ha hg hown)
  | adopted _ _ => exact h.filed
  | reclaimed _ _ => exact h.reclaimStale _
  | panicked _ _ => exact (h.reclaimStale _).granted
  | leased _ _ => exact ((h.reclaimStale _).granted).filed

/-- **No other event does**: where the copies are kept, the records were. -/
theorem Copied.keepsRecords {e : Event} (h : s.Copied) (hc : Consistent E s)
    (h' : (s.after E e).Copied) : KeepsRecords E s e := by
  intro envelope v client g op ha hg hk hr
  rw [(step_of_published op ha hg hk).2] at h'
  exact h.records_eq hc hg hk hr h'

theorem TablesAgree.copied (h : s.TablesAgree) : s.Copied :=
  fun d g r hg hr => (h d g r hg hr).claim

/-- **The condition is exact, event by event**: from tables that agree, an event leads to
tables that agree just when it keeps the records. -/
theorem Consistent.tablesAgree_after_iff (hc : Consistent E s) (h : s.TablesAgree) (e : Event) :
    (s.after E e).TablesAgree ↔ KeepsRecords E s e := by
  constructor
  · intro h'
    exact h.copied.keepsRecords hc h'.copied
  · intro hk
    exact (hc.after e).tablesAgree (h.copied.after hc hk)

/-- **The first event that does not keep the records leaves the tables apart**: they agree all
along a run just when every event of it keeps the records. -/
theorem tablesAgree_prefixes_iff (E : Ed25519) (events : List Event) :
    (∀ l, l <+: events → (storeAfter E l).TablesAgree) ↔
      Run.Along (after E) (KeepsRecords E) new events := by
  have hstep : ∀ (a : RegistryStore) (e : Event), Consistent E a ∧ a.TablesAgree →
      ((Consistent E (a.after E e) ∧ (a.after E e).TablesAgree) ↔ KeepsRecords E a e) := by
    rintro a e ⟨hc, h⟩
    rw [and_iff_right (hc.after e)]
    exact hc.tablesAgree_after_iff h e
  have hnew : Consistent E new ∧ new.TablesAgree := by
    refine ⟨consistent_new, fun d g r hg => ?_⟩
    cases hg
  rw [Run.Along.iff_prefixes hstep hnew]
  refine forall₂_congr fun l _ => (and_iff_right ?_).symm
  exact (Run.Reaches.foldl (fun _ _ => trivial) l new).invariant consistent_new
    fun _ e _ ha => ha.after e

/-- **The tables agree along every run that keeps the records.** -/
theorem tablesAgree_of_keepsRecords (E : Ed25519) (c : Clocked)
    (h : Clocked.Runs E (KeepsRecords E) Clocked.start c) : c.store.TablesAgree := by
  have hboth : Consistent E c.store ∧ c.store.Copied := by
    refine Run.Reaches.invariant (I := fun c => Consistent E c.store ∧ c.store.Copied) h ?_ ?_
    · refine ⟨consistent_new, fun d g r hg => ?_⟩
      cases hg
    · rintro c e ⟨_, hk⟩ ⟨hc, hcopied⟩
      exact ⟨hc.after e, hcopied.after hc hk⟩
  exact hboth.1.tablesAgree hboth.2

/-- A lease that carries a record. -/
def recordedLease : RegistrationRumor :=
  { nameLease 1000 with
    records := [sampleRecord]
    recordsTimestampMillis := some 1500
    recordsSignature := some (stamp (sampleClient 1 "host").verifyingKey
      (setRecordsMessage ⟨"name"⟩ [sampleRecord] 1500)) }

/-- The lease comes in by gossip, and its owner probes and sets the same record anew. -/
def recordAgain : List Event :=
  [adopts 2000 recordedLease, (sampleClient 1 "host").probes 3000,
    (sampleClient 1 "host").setsRecords 4000 ⟨"name"⟩ [sampleRecord], reclaims 5000]

/-- Its node when the record is set. -/
def recorded : Clocked :=
  (Clocked.start.next Ed25519.sample (adopts 2000 recordedLease)).next Ed25519.sample
    ((sampleClient 1 "host").probes 3000)

theorem records_recorded :
    (recorded.store.lookup ⟨"name"⟩).map Registration.records = some [sampleRecord] := by
  decide +kernel

theorem tablesAgree_adopted :
    Clocked.Runs Ed25519.sample (KeepsRecords Ed25519.sample) Clocked.start
        (recordAgain.foldl (Clocked.next Ed25519.sample) Clocked.start) ∧
      (recordAgain.foldl (Clocked.next Ed25519.sample) Clocked.start).store.TablesAgree := by
  have hrun : Clocked.Runs Ed25519.sample (KeepsRecords Ed25519.sample) Clocked.start
      (recordAgain.foldl (Clocked.next Ed25519.sample) Clocked.start) := by
    refine Run.Along.reaches ⟨⟨by decide, ?_⟩, ⟨by decide, ?_⟩, ⟨by decide, ?_⟩, ⟨by decide, ?_⟩,
      trivial⟩
    · intro envelope v client g op
      cases op
    · intro envelope v client g op
      cases op
    · intro envelope v client g op _ hg _ _
      cases op
      have hrecords := records_recorded
      have hg' : recorded.store.lookup ⟨"name"⟩ = some g := hg
      rw [hg'] at hrecords
      exact (Option.some.inj hrecords).symm
    · intro envelope v client g op
      cases op
  exact ⟨hrun, tablesAgree_of_keepsRecords _ _ hrun⟩

/-- **The tables diverge**: the claim keeps the old records. -/
theorem tables_diverge :
    ¬ ∀ (E : Ed25519) (c : Clocked), Reachable E c → c.store.TablesAgree := by
  intro h
  have hreach := reachable_of_events Ed25519.sample recordSet (by decide +kernel)
  have hdiffer : ((storeAfter Ed25519.sample recordSet).lookup ⟨"name"⟩).any (fun g =>
      g.rumor.any fun r => decide (((storeAfter Ed25519.sample recordSet).claims
        g.quotaKey).lookup ⟨"name"⟩ ≠ some r)) = true := by decide +kernel
  obtain ⟨g, hg, hany⟩ := (Option.any_eq_true _ _).mp hdiffer
  obtain ⟨r, hr, hclaim⟩ := (Option.any_eq_true _ _).mp hany
  rw [decide_eq_true_eq] at hclaim
  have hagree := h _ _ hreach
  dsimp only at hagree
  exact hclaim (hagree ⟨"name"⟩ g r hg hr).claim

end RegistryStore

end Binda
