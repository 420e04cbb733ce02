import Binda.Registry.Sample
import Binda.Registry.Invariant

/-!
# When a registration runs out

A registration is proven live at a reading (`provenLive`) when its lease, or its
host if it has no lease, was heard of within the window.  Nothing removes a
registration at the moment it runs out: the tables are only cleaned when some
event reclaims.  `reclaimStale_unexpired` says that nothing expired is left then.
`lookup_can_be_stale` says that something may be at any other time.

The second half follows one adopted lease (`Traces`).  As long as its owner is
silent the time of its probe does not change, so it outlasts the window by as
much as that time was ahead of the clock.  A request may be ahead by ten seconds,
a rumor by any amount: `neverOutlives_iff` says that ten seconds is exactly what the
rumor may be ahead for its lease to be gone after seventy.
-/

namespace Binda

namespace RegistryStore

open RegistrationRumor

variable {E : Ed25519} {s t : RegistryStore} {now : UInt64} {q : String} {d : DomainName}
  {g : Registration} {r : RegistrationRumor}

/-! ### Proven live -/

/-- The lease's probe is within the window, or the host's last probe if there is
no lease. -/
def provenLive (s : RegistryStore) (now : UInt64) (g : Registration) : Bool :=
  match g.rumor with
  | some r => leaseIsLive r now
  | none =>
    match s.liveness.lastSeenMillis.lookup g.quotaKey with
    | some last => withinWindow last now
    | none => false

/-- Everything a lookup finds is proven live. -/
def AllLive (s : RegistryStore) (now : UInt64) : Prop :=
  ∀ d g, s.lookup d = some g → s.provenLive now g = true

theorem provenLive_of_rumor (hr : g.rumor = some r) : s.provenLive now g = leaseIsLive r now := by
  rw [provenLive, hr]

theorem provenLive_of_leaseless (hr : g.rumor = none) :
    s.provenLive now g = true ↔
      ∃ last, s.liveness.lastSeenMillis.lookup g.quotaKey = some last ∧
        withinWindow last now = true := by
  rw [provenLive, hr]
  cases s.liveness.lastSeenMillis.lookup g.quotaKey <;> simp

theorem filed_reclaimStale {order : VisitOrder String} :
    (s.reclaimStale E order now).Filed q ↔ s.Filed q :=
  reclaimStale_induction (P := fun t => t.Filed q ↔ s.Filed q) Iff.rfl fun _ _ _ ht =>
    filed_reconcileQuota.trans ht

/-- The leases of a host that had its turn are live. -/
theorem leaseIsLive_of_filed {order : VisitOrder String} (hq : s.Filed q)
    (hg : (s.reclaimStale E order now).lookup d = some g) (hr : g.rumor = some r)
    (hgq : g.quotaKey = q) : leaseIsLive r now = true := by
  have hturn : ∀ d g r, (s.reclaimStale E order now).lookup d = some g → g.rumor = some r →
      g.quotaKey = q → leaseIsLive r now = true := by
    refine reclaimStale_visit (P := fun _ => True)
      (Q := fun t => ∀ d g r, t.lookup d = some g → g.rumor = some r → g.quotaKey = q →
        leaseIsLive r now = true) hq trivial (fun _ _ _ _ _ => trivial) ?_ ?_
    · intro t hq _ d g r hg hr hgq
      rcases lookup_reconcileQuota_cases hq hg with ⟨r', hr', rfl⟩ | ⟨_, hne | hnone⟩
      · obtain rfl := Option.some.inj hr
        exact (ClaimTable.lookup_settle.mp hr').2.1.2
      · exact absurd hgq hne
      · rw [hnone] at hr
        cases hr
    · intro t q' hq' ht d g r hg hr hgq
      rcases lookup_reconcileQuota_cases hq' hg with ⟨r', hr', rfl⟩ | ⟨hg', _⟩
      · obtain rfl := Option.some.inj hr
        exact (ClaimTable.lookup_settle.mp hr').2.1.2
      · exact ht d g r hg' hr hgq
  exact hturn d g r hg hr hgq

/-- A host that reclaiming has not forgotten was heard of within the window. -/
theorem withinWindow_of_reclaimStale {order : VisitOrder String} {last : UInt64}
    (h : (s.reclaimStale E order now).liveness.lastSeenMillis.lookup q = some last) :
    withinWindow last now = true := by
  rw [lastSeen_reclaimStale] at h
  split at h
  · cases h
  · rename_i hexp
    rw [LivenessTracker.mem_expiredClients] at hexp
    by_contra hw
    exact hexp ⟨last, h, by simpa using hw⟩

/-- **Reclaiming leaves live registrations only.** -/
theorem Consistent.allLive_reclaimStale (h : Consistent E s) (order : VisitOrder String) :
    (s.reclaimStale E order now).AllLive now := by
  intro d g hg
  cases hr : g.rumor with
  | some r =>
    rw [provenLive_of_rumor hr]
    obtain ⟨records, hcopy⟩ := ((h.reclaimStale order).leased d g r hg hr not_false).copy
    exact leaseIsLive_of_filed (filed_reclaimStale.mp (filed_of_claim hcopy)) hg hr rfl
  | none =>
    obtain ⟨_, _, _, last, hlast⟩ := (h.reclaimStale order).leaseless d g hg hr
    exact (provenLive_of_leaseless hr).mpr ⟨last, hlast, withinWindow_of_reclaimStale hlast⟩

/-- A client registers a name and falls silent. -/
def registeredOnce : List Event :=
  [(sampleClient 1 "host").probes 1000, (sampleClient 1 "host").registers 1000 ⟨"name"⟩ 0]

/-- **A name is found long after its owner has fallen silent.** -/
theorem lookup_can_be_stale :
    ¬ ∀ (E : Ed25519) (c : Clocked), Reachable E c → ∀ now, c.clock ≤ now → c.store.AllLive now := by
  intro h
  have hr := reachable_of_events Ed25519.sample registeredOnce (by decide +kernel)
  have hlive := h _ _ hr 600000 (by decide +kernel)
  dsimp only at hlive
  have hstale : ((storeAfter Ed25519.sample registeredOnce).lookup ⟨"name"⟩).any (fun g =>
      !(storeAfter Ed25519.sample registeredOnce).provenLive 600000 g) = true := by
    decide +kernel
  obtain ⟨g, hg, hno⟩ := (Option.any_eq_true _ _).mp hstale
  rw [hlive _ g hg] at hno
  cases hno

/-- Every registration has an authorized lease of its domain, or no lease and a host
that was heard of, and either is within the window. -/
def Unexpired (E : Ed25519) (s : RegistryStore) (now : UInt64) : Prop :=
  ∀ d g, s.lookup d = some g →
    (∃ r, g.rumor = some r ∧ r.domain = d ∧ r.isAuthorized E = true ∧
      UInt64.saturatingSub now r.probeTimestampMillis ≤ 60000) ∨
    (g.rumor = none ∧ ∃ last, s.liveness.lastSeenMillis.lookup g.quotaKey = some last ∧
      UInt64.saturatingSub now last ≤ 60000)

theorem Consistent.unexpired (h : Consistent E s) (hlive : s.AllLive now) :
    s.Unexpired E now := by
  intro d g hg
  have hg' := hlive d g hg
  cases hr : g.rumor with
  | some r =>
    have hl := h.leased d g r hg hr not_false
    rw [provenLive_of_rumor hr] at hg'
    exact Or.inl ⟨r, rfl, hl.domain, hl.authorized, of_decide_eq_true hg'⟩
  | none =>
    obtain ⟨last, hlast, hw⟩ := (provenLive_of_leaseless hr).mp hg'
    exact Or.inr ⟨rfl, last, hlast, of_decide_eq_true hw⟩

/-- **Reclaiming leaves nothing expired**, whatever the clock says. -/
theorem reclaimStale_unexpired {c : Clocked} (hc : Reachable E c) (order : VisitOrder String)
    (now : UInt64) : (c.store.reclaimStale E order now).Unexpired E now := by
  have hs := consistent_of_reachable hc
  exact (hs.reclaimStale order).unexpired (hs.allLive_reclaimStale order)

theorem reclaimStale_unexpired_registeredOnce :
    ((storeAfter Ed25519.sample registeredOnce).reclaimStale Ed25519.sample VisitOrder.listed
      61000).Unexpired Ed25519.sample 61000 :=
  reclaimStale_unexpired (reachable_of_events Ed25519.sample registeredOnce (by decide +kernel)) _ _

/-! ### One adopted lease -/

/-- The domain of `r` is registered under `r`'s owner and token. -/
def HeldAs (s : RegistryStore) (r : RegistrationRumor) : Prop :=
  ∃ g, s.lookup r.domain = some g ∧ g.clientKey = r.clientKey ∧ g.token = r.token

/-- If it is, then by a lease, not by a registration without one. -/
def NotLocal (s : RegistryStore) (r : RegistrationRumor) : Prop :=
  ∀ g, s.lookup r.domain = some g → g.rumor = none → g.clientKey = r.clientKey → g.token ≠ r.token

/-- The owner of `r` does not probe, nobody passes on a rumor for its domain, and
the node does not issue the owner the same token for it once more. -/
structure Silent (E : Ed25519) (r : RegistrationRumor) (s : RegistryStore) (e : Event) : Prop where
  probe : ∀ envelope v (client : ClientIdentity), e.op = .request (.probe envelope) v →
    authenticate E envelope (probeMessage envelope.timestampMillis) e.now = .ok client →
    client.key ≠ r.clientKey
  rumor : ∀ r', e.op = .adoptRumor r' → r'.domain ≠ r.domain
  issue : ∀ envelope client, GrantedBy E s e envelope client → envelope.body.domain = r.domain →
    client.key = r.clientKey → e.token ≠ r.token

/-- Whatever the store has of the lease `r` carries the time of its probe. -/
structure Traces (r : RegistrationRumor) (s : RegistryStore) : Prop where
  claim : ∀ q r₁, (s.claims q).lookup r.domain = some r₁ → r₁.clientKey = r.clientKey →
    r₁.token = r.token → r₁.probeTimestampMillis = r.probeTimestampMillis
  held : ∀ g, s.lookup r.domain = some g → g.clientKey = r.clientKey → g.token = r.token →
    ∃ r₁, g.rumor = some r₁ ∧ r₁.probeTimestampMillis = r.probeTimestampMillis

theorem Traces.reconcileQuota (h : Traces r s) (hq : s.Filed q) :
    Traces r (s.reconcileQuota E q now) := by
  constructor
  · exact fun q' r₁ hr => h.claim q' r₁ (claim_of_reconcileQuota hr)
  · intro g hg hk ht
    rcases lookup_reconcileQuota_cases hq hg with ⟨r₁, hr₁, rfl⟩ | ⟨hg', _⟩
    · exact ⟨r₁, rfl, h.claim q r₁ (ClaimTable.lookup_settle.mp hr₁).1 hk ht⟩
    · exact h.held g hg' hk ht

theorem Traces.filed {r' : RegistrationRumor} (h : Traces r s)
    (hr' : r'.domain = r.domain → r'.clientKey = r.clientKey → r'.token ≠ r.token) :
    Traces r (s.filed E r' now) := by
  have hs : Traces r (s.submit (quotaKey r'.rdns) r') := by
    refine ⟨fun q r₁ hr hk ht => ?_, h.held⟩
    rw [claims_submit] at hr
    split at hr
    · rw [ClaimTable.lookup_insert] at hr
      split at hr
      · rename_i hd
        obtain rfl := Option.some.inj hr
        exact absurd ht (hr' hd.symm hk)
      · exact h.claim _ r₁ hr hk ht
    · exact h.claim q r₁ hr hk ht
  exact hs.reconcileQuota (filed_submit r')

theorem Traces.reclaimStale (h : Traces r s) (order : VisitOrder String) :
    Traces r (s.reclaimStale E order now) :=
  reclaimStale_induction (P := Traces r)
    ⟨h.claim, fun g hg => h.held g (lookup_dropExpired_eq_some.mp hg).1⟩
    fun _ _ hq ht => ht.reconcileQuota hq

theorem Traces.granted {client : ClientIdentity} {token : RegistrationToken} (h : Traces r s)
    (hnew : d = r.domain → client.key = r.clientKey → token ≠ r.token) :
    Traces r (s.granted client d token) := by
  refine ⟨h.claim, fun g hg hk ht => ?_⟩
  rw [lookup_granted] at hg
  split at hg
  · rename_i hd
    obtain rfl := Option.some.inj hg
    exact absurd ht (hnew hd.symm hk)
  · exact h.held g hg hk ht

theorem Traces.probed {client : ClientIdentity} {ts : UInt64} {sig : List UInt8}
    (h : Traces r s) (hne : client.key ≠ r.clientKey) :
    Traces r (s.probed client now ts sig) := by
  constructor
  · intro q r₁ hr hk ht
    rw [lookup_claims_probed_eq_some] at hr
    obtain ⟨r₀, hr₀, rfl⟩ := hr
    rw [RegistrationRumor.refreshed] at hk ht ⊢
    split at hk
    · rename_i hc
      exact absurd (hc.symm.trans hk) hne
    · rename_i hc
      rw [if_neg hc] at ht ⊢
      exact h.claim q r₀ hr₀ hk ht
  · intro g hg hk ht
    rw [lookup_probed_eq_some] at hg
    obtain ⟨g₀, hg₀, rfl⟩ := hg
    rw [Registration.refreshed] at hk ht ⊢
    split at hk
    · rename_i hc
      exact absurd (hc.symm.trans hk) hne
    · rename_i hc
      rw [if_neg hc] at ht ⊢
      exact h.held g₀ hg₀ hk ht

theorem Traces.published {client : ClientIdentity} {records : List Record} {ts : UInt64}
    {sig : List UInt8} {g₀ : Registration} (h : Traces r s) (hg₀ : s.lookup d = some g₀)
    (hk₀ : g₀.clientKey = client.key) : Traces r (s.published client d records ts sig) := by
  constructor
  · intro q r₁ hr hk ht
    obtain ⟨r₀, hr₀, rfl | rfl⟩ := exists_claim_of_published hg₀ hk₀ hr
    · exact h.claim q r₁ hr₀ hk ht
    · rw [RegistrationRumor.recordsSigned] at hk ht ⊢
      split at hk
      · rename_i hc
        rw [if_pos hc] at ht ⊢
        exact h.claim q r₀ hr₀ hk ht
      · rename_i hc
        rw [if_neg hc] at ht ⊢
        exact h.claim q r₀ hr₀ hk ht
  · intro g hg hk ht
    rw [lookup_published hg₀ hk₀] at hg
    split at hg
    · rename_i hd
      obtain rfl := Option.some.inj hg
      rw [← hd] at hg₀
      obtain ⟨r₀, hr₀, hp⟩ := h.held _ hg₀ hk ht
      exact ⟨_, congrArg (Option.map _) hr₀, hp⟩
    · exact h.held g hg hk ht

/-- **While the owner is silent the time of the probe does not change.** -/
theorem Traces.after {e : Event} (h : Traces r s) (he : Silent E r s e) :
    Traces r (s.after E e) := by
  obtain ⟨answer, s', ho, heq⟩ := exists_change E s e
  rw [heq]
  cases ho with
  | idle _ _ => exact h
  | @probed envelope v client op ha => exact h.probed (he.probe envelope v client op ha)
  | published _ _ hg₀ hk₀ => exact h.published hg₀ hk₀
  | adopted op _ => exact h.filed fun hd => absurd hd (he.rumor _ op)
  | reclaimed _ _ => exact h.reclaimStale _
  | panicked hg _ => exact (h.reclaimStale _).granted (he.issue _ _ hg)
  | leased hg _ =>
    exact ((h.reclaimStale _).granted (he.issue _ _ hg)).filed (he.issue _ _ hg)

/-- What adopting `r` leaves of it carries the time of its probe. -/
theorem Traces.of_filed (hc : Consistent E s) (ha : r.isAuthorized E = true) (hl : s.NotLocal r) :
    Traces r (s.filed E r now) := by
  have hown := ownedBy_of_isAuthorized ha
  have hclaim : ∀ q r₁, ((s.submit (quotaKey r.rdns) r).claims q).lookup r.domain = some r₁ →
      r₁.clientKey = r.clientKey → r₁.token = r.token →
      r₁.probeTimestampMillis = r.probeTimestampMillis := by
    intro q r₁ hr hk _
    rw [claims_submit] at hr
    split at hr
    · rw [ClaimTable.lookup_insert, if_pos rfl] at hr
      rw [← Option.some.inj hr]
    · rename_i hne
      have hq := quotaKey_eq_of_clientKey (hc.owner q _ r₁ hr) hown hk
      exact absurd ((hc.host q _ r₁ hr).symm.trans hq) hne
  constructor
  · exact fun q r₁ hr => hclaim q r₁ (claim_of_reconcileQuota hr)
  · intro g hg hk ht
    rcases lookup_reconcileQuota_cases (filed_submit r) hg with ⟨r₁, hr₁, rfl⟩ | ⟨hg', hstand⟩
    · exact ⟨r₁, rfl, hclaim _ r₁ (ClaimTable.lookup_settle.mp hr₁).1 hk ht⟩
    · cases hr : g.rumor with
      | none => exact absurd ht (hl g hg' hr hk)
      | some r₁ =>
        have hlease := hc.leased _ g r₁ hg' hr not_false
        have hne : g.quotaKey ≠ quotaKey r.rdns := hstand.resolve_right (by rw [hr]; simp)
        have hq := quotaKey_eq_of_clientKey (ownedBy_of_isAuthorized hlease.authorized) hown
          (hlease.clientKey.symm.trans hk)
        exact absurd (hlease.quotaKey.trans hq) hne

/-- **A lease held after reclaiming is within the window.** -/
theorem Traces.withinWindow_of_heldAs {order : VisitOrder String} (h : Traces r s)
    (hc : Consistent E s)
    (hheld : (s.reclaimStale E order now).HeldAs r) :
    withinWindow r.probeTimestampMillis now = true := by
  obtain ⟨g, hg, hk, ht⟩ := hheld
  obtain ⟨r₁, hr₁, hp⟩ := (h.reclaimStale order).held g hg hk ht
  have hlive := hc.allLive_reclaimStale order _ g hg
  rw [provenLive_of_rumor hr₁, leaseIsLive, hp] at hlive
  exact hlive

/-- No lease adopted at the reading `t` is held seventy seconds later if its owner
has been silent since. -/
def NeverOutlives (E : Ed25519) (r : RegistrationRumor) (t : UInt64) : Prop :=
  ∀ (c c' : Clocked) (order : VisitOrder String) (t' : UInt64), Reachable E c → c.clock ≤ t →
    c.store.NotLocal r →
    Clocked.Runs E (Silent E r) { clock := t, store := (c.store.adoptRumor E r t).2 } c' →
    c'.clock ≤ t' → t.toNat + 60000 + 10000 < t'.toNat →
    ¬ (c'.store.reclaimStale E order t').HeldAs r

/-- A lease with a probe more than ten seconds ahead is taken by an empty store,
and reclaiming keeps it. -/
theorem not_neverOutlives {t : UInt64} (hv : ClaimTable.Valid E t r)
    (hahead : t.toNat + 10000 < r.probeTimestampMillis.toNat) (hend : t.toNat + 70001 < 2 ^ 64) :
    ¬ NeverOutlives E r t := by
  intro h
  have ht' : (UInt64.ofNat (t.toNat + 70001)).toNat = t.toNat + 70001 :=
    UInt64.toNat_ofNat_of_lt' hend
  refine h Clocked.start _ VisitOrder.listed (UInt64.ofNat (t.toNat + 70001))
    (Run.Reaches.refl _) (UInt64.le_iff_toNat_le.mpr (Nat.zero_le _)) (fun g hg => by cases hg)
    (Run.Reaches.refl _) ?_ (by omega) ?_
  · rw [UInt64.le_iff_toNat_le, ht']
    exact Nat.le_add_right _ _
  · have hsettled := ClaimTable.lookup_settle_single hv
    have hlater : ClaimTable.Valid E (UInt64.ofNat (t.toNat + 70001)) r :=
      ⟨hv.1, withinWindow_iff.mpr (by omega)⟩
    have hlook : (new.filed E r t).lookup r.domain =
        some (registrationFromRumor r (quotaKey r.rdns)) :=
      lookup_filed_first rfl hv fun g hg => by cases hg
    refine ⟨registrationFromRumor r (quotaKey r.rdns), ?_, rfl, rfl⟩
    rw [Clocked.start, adoptRumor_snd_of_valid hv]
    refine lookup_reclaimStale_of_sole ?_ ?_ ?_
    · rw [claims_filed, if_pos rfl]
      exact ClaimTable.lookup_settle_settle hsettled hlater
    · intro q' hq'
      rw [claims_filed, if_neg hq']
      rfl
    · intro g hg hor
      dsimp only at hg
      rw [hlook] at hg
      rw [← Option.some.inj hg]
      rfl

/-- **A lease outlives its owner's silence when its probe is more than ten seconds
ahead of the clock**, unless the clock ends before. -/
theorem neverOutlives_iff {t : UInt64} (hv : ClaimTable.Valid E t r) :
    NeverOutlives E r t ↔
      r.probeTimestampMillis.toNat ≤ t.toNat + 10000 ∨ 2 ^ 64 ≤ t.toNat + 70001 := by
  constructor
  · intro h
    by_contra hno
    rw [not_or, not_le, not_le] at hno
    exact not_neverOutlives hv hno.1 hno.2 h
  · rintro hor c c' order t' hreach hclock hlocal hrun hle hlt hheld
    have hc := consistent_of_reachable hreach
    rw [adoptRumor_snd_of_valid hv] at hrun
    have hstart : Consistent E (c.store.filed E r t) ∧ Traces r (c.store.filed E r t) :=
      ⟨hc.filed hv.1, Traces.of_filed hc hv.1 hlocal⟩
    revert hrun hstart
    generalize c.store.filed E r t = s₁
    intro hrun hstart
    have hboth : Consistent E c'.store ∧ Traces r c'.store :=
      Run.Reaches.invariant (I := fun c => Consistent E c.store ∧ Traces r c.store) hrun hstart
        fun _ e hok h => ⟨h.1.after e, h.2.after hok.2⟩
    have hw := withinWindow_iff.mp (hboth.2.withinWindow_of_heldAs hboth.1 hheld)
    have := t'.toNat_lt
    omega

/-- A lease whose probe is one hour ahead of the clock. -/
def aheadOfClock : RegistrationRumor :=
  (sampleClient 1 "host").lease ⟨"name"⟩ (sampleToken 1000 0) 1000 3601000

theorem aheadOfClock_valid : ClaimTable.Valid Ed25519.sample 1000 aheadOfClock :=
  ⟨isAuthorized_lease _ _ _ _ _, by decide⟩

theorem neverOutlives_aheadOfClock_iff :
    NeverOutlives Ed25519.sample aheadOfClock 1000 ↔
      aheadOfClock.probeTimestampMillis.toNat ≤ (1000 : UInt64).toNat + 10000 ∨
        2 ^ 64 ≤ (1000 : UInt64).toNat + 70001 :=
  neverOutlives_iff aheadOfClock_valid

/-- **A lease can outlive its owner's silence by an hour.** -/
theorem lease_can_outlive :
    ¬ ∀ (E : Ed25519) (r : RegistrationRumor) (t : UInt64), ClaimTable.Valid E t r →
      NeverOutlives E r t := by
  intro h
  exact not_neverOutlives aheadOfClock_valid (by decide) (by decide) (h _ _ _ aheadOfClock_valid)

end RegistryStore

end Binda
