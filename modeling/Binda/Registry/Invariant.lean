import Binda.Registry.Step

/-!
# The invariant of a store

`Consistent E s` collects what ties the tables of a store together, and
`consistent_of_reachable` says that it holds in every reachable store.

The tie that matters most is `Leased`: a registration with a rumor repeats what
the rumor says, the rumor is authorized, and the host's claims hold a copy of
it which may differ in the records only.  That the records may differ is a
behaviour of the source: `attach_record_evidence` gives the copy the signature
of the new records without the records.

Between `submit` and the reconciliation that follows it the tie is broken for
one host, hence the invariant with an exception, `ConsistentBut`.
-/

namespace Binda

namespace RegistrationRumor

/-- The rumor names `owner` in each of its three places. -/
structure OwnedBy (owner : ClientIdentity) (r : RegistrationRumor) : Prop where
  ownerKey : r.ownerKey = owner.verifyingKey.toList
  rdns : r.rdns = owner.rdns
  clientKey : r.clientKey = owner.key

theorem Authorization.ownedBy {E : Ed25519} {owner : ClientIdentity} {r : RegistrationRumor}
    (h : Authorization E owner r) : OwnedBy owner r := ⟨h.ownerKey, h.rdns, h.clientKey⟩

theorem OwnedBy.quotaKey {owner : ClientIdentity} {r : RegistrationRumor} (h : OwnedBy owner r) :
    Binda.quotaKey r.rdns = owner.quotaKey := by
  rw [h.rdns]
  rfl

/-- A rumor under a client's key is owned by that client. -/
theorem OwnedBy.eq_of_clientKey {owner client : ClientIdentity} {r : RegistrationRumor}
    (h : OwnedBy owner r) (hk : r.clientKey = client.key) : owner = client :=
  ClientIdentity.key_injective (h.clientKey.symm.trans hk)

theorem OwnedBy.refreshed {owner : ClientIdentity} {r : RegistrationRumor} {k : String}
    {t : UInt64} {sig : List UInt8} (h : OwnedBy owner r) : OwnedBy owner (r.refreshed k t sig) := by
  rw [RegistrationRumor.refreshed]
  split
  · exact ⟨h.ownerKey, h.rdns, h.clientKey⟩
  · exact h

@[simp] theorem refreshed_rdns {r : RegistrationRumor} {k : String} {t : UInt64}
    {sig : List UInt8} :
    (r.refreshed k t sig).rdns = r.rdns := by
  rw [refreshed]
  split <;> rfl

theorem OwnedBy.recordsSigned {owner : ClientIdentity} {r : RegistrationRumor} {k : String}
    {t : UInt64} {sig : List UInt8} (h : OwnedBy owner r) :
    OwnedBy owner (r.recordsSigned k t sig) := by
  rw [RegistrationRumor.recordsSigned]
  split
  · exact ⟨h.ownerKey, h.rdns, h.clientKey⟩
  · exact h

@[simp] theorem recordsSigned_rdns {r : RegistrationRumor} {k : String} {t : UInt64}
    {sig : List UInt8} : (r.recordsSigned k t sig).rdns = r.rdns := by
  rw [recordsSigned]
  split <;> rfl

/-- The owner's own new probe keeps a lease authorized. -/
theorem isAuthorized_probe {E : Ed25519} {r : RegistrationRumor} {client : ClientIdentity}
    {t : UInt64} {sig : List UInt8}
    (ha : r.isAuthorized E = true) (hk : r.clientKey = client.key)
    (hs : client.Signed E (probeMessage t) sig) :
    ({ r with probeTimestampMillis := t, probeSignature := sig } : RegistrationRumor).isAuthorized E
      = true := by
  obtain ⟨owner, ho⟩ := isAuthorized_iff.mp ha
  obtain rfl := ho.ownedBy.eq_of_clientKey hk
  exact isAuthorized_iff.mpr
    ⟨owner, ho.ownerKey, ho.rdns, ho.clientKey, ho.registered, hs, ho.published⟩

/-- The owner's own new records keep a lease authorized. -/
theorem isAuthorized_publish {E : Ed25519} {r : RegistrationRumor} {client : ClientIdentity}
    {records : List Record} {t : UInt64}
    {sig : List UInt8} (ha : r.isAuthorized E = true) (hk : r.clientKey = client.key)
    (hs : client.Signed E (setRecordsMessage r.domain records t) sig) :
    ({ r with records, recordsTimestampMillis := some t, recordsSignature := some sig } :
      RegistrationRumor).isAuthorized E = true := by
  obtain ⟨owner, ho⟩ := isAuthorized_iff.mp ha
  obtain rfl := ho.ownedBy.eq_of_clientKey hk
  exact isAuthorized_iff.mpr ⟨owner, ho.ownerKey, ho.rdns, ho.clientKey, ho.registered, ho.probed,
    Or.inr ⟨t, sig, rfl, rfl, hs⟩⟩

theorem ownedBy_of_isAuthorized {E : Ed25519} {r : RegistrationRumor} (h : r.isAuthorized E = true) :
    ∃ owner, OwnedBy owner r := by
  obtain ⟨owner, ho⟩ := isAuthorized_iff.mp h
  exact ⟨owner, ho.ownedBy⟩

/-- **One owner, one host.** -/
theorem quotaKey_eq_of_clientKey {r r' : RegistrationRumor} (h : ∃ owner, OwnedBy owner r)
    (h' : ∃ owner, OwnedBy owner r') (hk : r.clientKey = r'.clientKey) :
    quotaKey r.rdns = quotaKey r'.rdns := by
  obtain ⟨owner, ho⟩ := h
  obtain ⟨owner', ho'⟩ := h'
  obtain rfl := ho.eq_of_clientKey (hk.trans ho'.clientKey)
  rw [ho.quotaKey, ho'.quotaKey]

end RegistrationRumor

namespace RegistryStore

open RegistrationRumor

variable {E : Ed25519} {s t : RegistryStore} {now : UInt64} {q : String} {d : DomainName}
  {g : Registration} {r : RegistrationRumor}

/-- The registration `g` of `d` repeats its rumor `r`, and the claims of the
host hold a copy of the rumor that may differ in the records. -/
structure Leased (E : Ed25519) (s : RegistryStore) (d : DomainName) (g : Registration)
    (r : RegistrationRumor) : Prop where
  domain : r.domain = d
  clientKey : g.clientKey = r.clientKey
  token : g.token = r.token
  records : g.records = r.records
  quotaKey : g.quotaKey = quotaKey r.rdns
  authorized : r.isAuthorized E = true
  copy : ∃ records, (s.claims g.quotaKey).lookup d = some { r with records }

/-- The tables agree, except for what the hosts in `U` hold by leases. -/
structure ConsistentBut (E : Ed25519) (U : String → Prop) (s : RegistryStore) : Prop where
  host : ∀ q d r, (s.claims q).lookup d = some r → quotaKey r.rdns = q
  owner : ∀ q d r, (s.claims q).lookup d = some r → ∃ owner, OwnedBy owner r
  few : ∀ q, ¬ U q → (s.claims q).size ≤ maxRegistrationsPerClient
  leased : ∀ d g r, s.lookup d = some g → g.rumor = some r → ¬ U g.quotaKey → Leased E s d g r
  leaseless : ∀ d g, s.lookup d = some g → g.rumor = none →
    ∃ client : ClientIdentity, g.clientKey = client.key ∧ g.quotaKey = client.quotaKey ∧
      ∃ last, s.liveness.lastSeenMillis.lookup g.quotaKey = some last
  evidence : ∀ k t sig, s.probeEvidence.lookup k = some (t, sig) →
    ∃ client : ClientIdentity, k = client.key ∧ client.Signed E (probeMessage t) sig

/-- The tables agree. -/
abbrev Consistent (E : Ed25519) (s : RegistryStore) : Prop := ConsistentBut E (fun _ => False) s

/-- A lease is tied to the host's claim on its own domain only. -/
theorem Leased.of_claims (h : Leased E s d g r)
    (hc : (t.claims g.quotaKey).lookup d = (s.claims g.quotaKey).lookup d) : Leased E t d g r := by
  obtain ⟨hd, hk, ht, hr, hq, ha, hcopy⟩ := h
  rw [← hc] at hcopy
  exact ⟨hd, hk, ht, hr, hq, ha, hcopy⟩

theorem consistent_new : Consistent E new where
  host _ _ _ h := by cases h
  owner _ _ _ h := by cases h
  few _ _ := Nat.zero_le _
  leased _ _ _ h := by cases h
  leaseless _ _ h := by cases h
  evidence _ _ _ h := by cases h

/-! ### Reconciling -/

/-- A lease a reconciliation installs is tied to its settled claim. -/
theorem leased_of_settled
    (hhost : ∀ d r, (s.claims q).lookup d = some r → quotaKey r.rdns = q)
    (hr : ((s.claims q).settle E now).lookup d = some r) :
    Leased E (s.reconcileQuota E q now) d (registrationFromRumor r q) r where
  domain := ClaimTable.domain_of_lookup hr
  clientKey := rfl
  token := rfl
  records := rfl
  quotaKey := (hhost d r (ClaimTable.lookup_settle.mp hr).1).symm
  authorized := (ClaimTable.lookup_settle.mp hr).2.1.1
  copy := by
    have hq : (registrationFromRumor r q).quotaKey = q := rfl
    refine ⟨r.records, ?_⟩
    rw [claims_reconcileQuota, if_pos hq]
    exact hr

/-- What a reconciliation leaves on a domain is the lease of a settled claim, or
was there before and is no lease of the host. -/
theorem lookup_reconcileQuota_cases (hq : s.Filed q)
    (hg : (s.reconcileQuota E q now).lookup d = some g) :
    (∃ r, ((s.claims q).settle E now).lookup d = some r ∧ g = registrationFromRumor r q) ∨
      (s.lookup d = some g ∧ (g.quotaKey ≠ q ∨ g.rumor = none)) := by
  rw [lookup_reconcileQuota hq] at hg
  cases hr : ((s.claims q).settle E now).lookup d with
  | none =>
    rw [hr] at hg
    exact Or.inr (standing_eq_some.mp hg)
  | some r =>
    rw [hr] at hg
    have hg' := Option.some.inj hg
    rcases contest_eq_or q (s.standing q d) r with hc | hc
    · exact Or.inl ⟨r, rfl, hg'.symm.trans hc⟩
    · rw [hg'] at hc
      exact Or.inr (standing_eq_some.mp hc)

/-- A registration without a lease outlasts a reconciliation at most. -/
theorem lookup_of_reconcileQuota (hg : (s.reconcileQuota E q now).lookup d = some g)
    (hn : g.rumor = none) : s.lookup d = some g := by
  by_cases hq : s.Filed q
  · rcases lookup_reconcileQuota_cases hq hg with ⟨r, _, rfl⟩ | ⟨hg', _⟩
    · cases hn
    · exact hg'
  · rwa [reconcileQuota_of_not_filed hq] at hg

theorem lookup_of_filed (hg : (s.filed E r now).lookup d = some g) (hn : g.rumor = none) :
    s.lookup d = some g :=
  lookup_of_reconcileQuota (s := s.submit (quotaKey r.rdns) r) hg hn

/-- And a reclaiming only if its host was heard of. -/
theorem lookup_of_reclaimStale {order : VisitOrder String}
    (hg : (s.reclaimStale E order now).lookup d = some g) (hn : g.rumor = none) :
    s.lookup d = some g ∧ g.quotaKey ∉ s.liveness.expiredClients now := by
  have hdropped : ∀ d g, (s.reclaimStale E order now).lookup d = some g → g.rumor = none →
      (s.dropExpired now).lookup d = some g :=
    reclaimStale_induction (P := fun t => ∀ d g, t.lookup d = some g → g.rumor = none →
      (s.dropExpired now).lookup d = some g) (fun _ _ hg _ => hg)
      fun t q _ ht d g hg hn => ht d g (lookup_of_reconcileQuota hg hn) hn
  exact lookup_dropExpired_eq_some.mp (hdropped d g hg hn)

/-- **Reconciling a host restores the invariant for it.** -/
theorem ConsistentBut.reconcileQuota {U : String → Prop} (h : ConsistentBut E U s)
    (hU : ∀ host, U host → host = q) (hq : s.Filed q) : Consistent E (s.reconcileQuota E q now) := by
  refine ⟨fun q' d r hr => h.host q' d r (claim_of_reconcileQuota hr),
    fun q' d r hr => h.owner q' d r (claim_of_reconcileQuota hr), ?_, ?_, ?_, ?_⟩
  · intro q' _
    rw [claims_reconcileQuota]
    split
    · exact ClaimTable.size_settle_le
    · rename_i hne
      exact h.few q' fun hu => hne (hU q' hu)
  · intro d g r hg hr _
    rcases lookup_reconcileQuota_cases hq hg with ⟨r', hr', rfl⟩ | ⟨hg', hstand⟩
    · obtain rfl := Option.some.inj hr
      exact leased_of_settled (fun d r => h.host q d r) hr'
    · have hne : g.quotaKey ≠ q := hstand.resolve_right (by rw [hr]; simp)
      refine (h.leased d g r hg' hr fun hu => hne (hU _ hu)).of_claims ?_
      rw [claims_reconcileQuota, if_neg hne]
  · intro d g hg hr
    rcases lookup_reconcileQuota_cases hq hg with ⟨r', _, rfl⟩ | ⟨hg', _⟩
    · cases hr
    · rw [liveness_reconcileQuota]
      exact h.leaseless d g hg' hr
  · rw [probeEvidence_reconcileQuota]
    exact h.evidence

theorem Consistent.submit (h : Consistent E s) (ha : r.isAuthorized E = true) :
    ConsistentBut E (fun host => host = quotaKey r.rdns) (s.submit (quotaKey r.rdns) r) := by
  have hnew : ∀ q' d' r', ((s.submit (quotaKey r.rdns) r).claims q').lookup d' = some r' →
      (q' = quotaKey r.rdns ∧ r' = r) ∨ (s.claims q').lookup d' = some r' := by
    intro q' d' r' hr
    rw [claims_submit] at hr
    split at hr
    · rename_i he
      rw [ClaimTable.lookup_insert] at hr
      split at hr
      · exact Or.inl ⟨he, (Option.some.inj hr).symm⟩
      · exact Or.inr (he ▸ hr)
    · exact Or.inr hr
  refine ⟨?_, ?_, ?_, ?_, h.leaseless, h.evidence⟩
  · intro q' d' r' hr
    rcases hnew q' d' r' hr with ⟨rfl, rfl⟩ | hr
    · rfl
    · exact h.host q' d' r' hr
  · intro q' d' r' hr
    rcases hnew q' d' r' hr with ⟨_, rfl⟩ | hr
    · exact ownedBy_of_isAuthorized ha
    · exact h.owner q' d' r' hr
  · intro q' hne
    rw [claims_submit, if_neg hne]
    exact h.few q' not_false
  · intro d' g' r' hg hr hne
    refine (h.leased d' g' r' hg hr not_false).of_claims ?_
    rw [claims_submit, if_neg hne]

/-- **Filing an authorized claim keeps the invariant.** -/
theorem Consistent.filed (h : Consistent E s) (ha : r.isAuthorized E = true) :
    Consistent E (s.filed E r now) :=
  (h.submit ha).reconcileQuota (fun _ hu => hu) (filed_submit r)

/-! ### Reclaiming -/

theorem Consistent.dropExpired (h : Consistent E s) : Consistent E (s.dropExpired now) := by
  refine ⟨h.host, h.owner, h.few, ?_, ?_, h.evidence⟩
  · intro d g r hg hr hu
    exact (h.leased d g r (lookup_dropExpired_eq_some.mp hg).1 hr hu).of_claims rfl
  · intro d g hg hr
    obtain ⟨hg', hexp⟩ := lookup_dropExpired_eq_some.mp hg
    obtain ⟨client, hk, hq, last, hlast⟩ := h.leaseless d g hg' hr
    refine ⟨client, hk, hq, last, ?_⟩
    rw [RegistryStore.dropExpired, LivenessTracker.foldl_forget_lastSeen, if_neg hexp]
    exact hlast

theorem Consistent.reclaimStale (h : Consistent E s) (order : VisitOrder String) :
    Consistent E (s.reclaimStale E order now) :=
  reclaimStale_induction h.dropExpired fun _ _ hq ht =>
    ht.reconcileQuota (fun _ hu => hu.elim) hq

/-! ### Requests -/

/-- **A probe refreshes the registration, its rumor and the copy alike.** -/
theorem Leased.probed {client : ClientIdentity} {ts : UInt64} {sig : List UInt8}
    (h : Leased E s d g r) (hs : client.Signed E (probeMessage ts) sig) :
    Leased E (s.probed client now ts sig) d (g.refreshed client.key ts sig)
      (r.refreshed client.key ts sig) := by
  obtain ⟨records, hcopy⟩ := h.copy
  by_cases hk : r.clientKey = client.key
  · have hk' : ({ r with records } : RegistrationRumor).clientKey = client.key := hk
    rw [RegistrationRumor.refreshed, if_pos hk]
    refine ⟨h.domain, Registration.refreshed_clientKey.trans h.clientKey,
      Registration.refreshed_token.trans h.token, Registration.refreshed_records.trans h.records,
      Registration.refreshed_quotaKey.trans h.quotaKey, isAuthorized_probe h.authorized hk hs,
      records, ?_⟩
    rw [Registration.refreshed_quotaKey, lookup_claims_probed, hcopy, Option.map_some,
      RegistrationRumor.refreshed, if_pos hk']
  · have hk' : ¬ ({ r with records } : RegistrationRumor).clientKey = client.key := hk
    have hg : ¬ g.clientKey = client.key := fun hg => hk (h.clientKey.symm.trans hg)
    rw [RegistrationRumor.refreshed, if_neg hk, Registration.refreshed, if_neg hg]
    refine h.of_claims ?_
    rw [lookup_claims_probed, hcopy, Option.map_some, RegistrationRumor.refreshed, if_neg hk']

theorem Consistent.probed {client : ClientIdentity} {ts : UInt64} {sig : List UInt8}
    (h : Consistent E s) (hs : client.Signed E (probeMessage ts) sig) :
    Consistent E (s.probed client now ts sig) := by
  refine ⟨?_, ?_, ?_, ?_, ?_, ?_⟩
  · intro q d r hr
    obtain ⟨r₀, hr₀, rfl⟩ := lookup_claims_probed_eq_some.mp hr
    rw [refreshed_rdns]
    exact h.host q d r₀ hr₀
  · intro q d r hr
    obtain ⟨r₀, hr₀, rfl⟩ := lookup_claims_probed_eq_some.mp hr
    obtain ⟨owner, ho⟩ := h.owner q d r₀ hr₀
    exact ⟨owner, ho.refreshed⟩
  · intro q hu
    rw [claims_probed, ClaimTable.size_mapValues]
    exact h.few q hu
  · intro d g r hg hr hu
    obtain ⟨g₀, hg₀, rfl⟩ := lookup_probed_eq_some.mp hg
    cases hr₀ : g₀.rumor with
    | none =>
      rw [Registration.refreshed_rumor_eq_none.mpr hr₀] at hr
      cases hr
    | some r₀ =>
      have hl := h.leased d g₀ r₀ hg₀ hr₀ not_false
      rw [Registration.refreshed_rumor_of_key hr₀ hl.clientKey] at hr
      obtain rfl := Option.some.inj hr
      exact hl.probed hs
  · intro d g hg hr
    obtain ⟨g₀, hg₀, rfl⟩ := lookup_probed_eq_some.mp hg
    obtain ⟨c, hk, hq, last, hlast⟩ :=
      h.leaseless d g₀ hg₀ (Registration.refreshed_rumor_eq_none.mp hr)
    rw [Registration.refreshed_clientKey, Registration.refreshed_quotaKey]
    refine ⟨c, hk, hq, ?_⟩
    rw [lastSeen_probed]
    split
    · exact ⟨now, rfl⟩
    · exact ⟨last, hlast⟩
  · intro k t' sig' hk
    rw [probeEvidence_probed] at hk
    split at hk
    · rename_i he
      obtain ⟨rfl, rfl⟩ := Prod.mk.inj (Option.some.inj hk)
      exact ⟨client, he, hs⟩
    · exact h.evidence k t' sig' hk

/-- **The owner's records go into the registration, its rumor and the copy.** -/
theorem Leased.published {client : ClientIdentity} {records : List Record} {ts : UInt64}
    {sig : List UInt8} (h : Leased E s d g r) (hg : s.lookup d = some g)
    (hk : g.clientKey = client.key) (hs : client.Signed E (setRecordsMessage d records ts) sig) :
    Leased E (s.published client d records ts sig) d (g.published records ts sig)
      { r with records, recordsTimestampMillis := some ts, recordsSignature := some sig } := by
  have hkr : r.clientKey = client.key := h.clientKey ▸ hk
  obtain ⟨old, hcopy⟩ := h.copy
  have hk' : ({ r with records := old } : RegistrationRumor).clientKey = client.key := hkr
  refine ⟨h.domain, h.clientKey, h.token, rfl, h.quotaKey,
    isAuthorized_publish h.authorized hkr (h.domain ▸ hs), old, ?_⟩
  rw [claims_published hg hk, ClaimTable.lookup_modify, if_pos rfl]
  refine (congrArg (Option.map _) hcopy).trans ?_
  rw [Option.map_some, RegistrationRumor.recordsSigned, if_pos hk']

theorem Consistent.published {client : ClientIdentity} {records : List Record} {ts : UInt64}
    {sig : List UInt8} {g₀ : Registration} (h : Consistent E s) (hg₀ : s.lookup d = some g₀)
    (hk₀ : g₀.clientKey = client.key)
    (hs : client.Signed E (setRecordsMessage d records ts) sig) :
    Consistent E (s.published client d records ts sig) := by
  refine ⟨?_, ?_, ?_, ?_, ?_, ?_⟩
  · intro q d' r hr
    obtain ⟨r₀, hr₀, rfl | rfl⟩ := exists_claim_of_published hg₀ hk₀ hr
    · exact h.host q d' r hr₀
    · rw [recordsSigned_rdns]
      exact h.host q d' r₀ hr₀
  · intro q d' r hr
    obtain ⟨r₀, hr₀, rfl | rfl⟩ := exists_claim_of_published hg₀ hk₀ hr
    · exact h.owner q d' r hr₀
    · obtain ⟨owner, ho⟩ := h.owner q d' r₀ hr₀
      exact ⟨owner, ho.recordsSigned⟩
  · intro q hu
    rw [claims_published hg₀ hk₀, ClaimTable.size_modify]
    exact h.few q hu
  · intro d' g r hg hr hu
    rw [lookup_published hg₀ hk₀] at hg
    split at hg
    · rename_i hd
      subst hd
      obtain rfl := Option.some.inj hg
      obtain ⟨r₀, hr₀, rfl⟩ := Option.map_eq_some_iff.mp hr
      exact (h.leased d' g₀ r₀ hg₀ hr₀ not_false).published hg₀ hk₀ hs
    · rename_i hd
      refine (h.leased d' g r hg hr hu).of_claims ?_
      rw [claims_published hg₀ hk₀, ClaimTable.lookup_modify, if_neg hd]
  · intro d' g hg hr
    rw [liveness_published]
    rw [lookup_published hg₀ hk₀] at hg
    split at hg
    · obtain rfl := Option.some.inj hg
      exact h.leaseless d g₀ hg₀ (Option.map_eq_none_iff.mp hr)
    · exact h.leaseless d' g hg hr
  · rw [probeEvidence_published]
    exact h.evidence

theorem Consistent.granted {client : ClientIdentity} {token : RegistrationToken}
    (h : Consistent E s) (hlive : s.liveness.isLive client now = true) :
    Consistent E (s.granted client d token) := by
  refine ⟨h.host, h.owner, h.few, ?_, ?_, h.evidence⟩
  · intro d' g r hg hr hu
    rw [lookup_granted] at hg
    split at hg
    · obtain rfl := Option.some.inj hg
      cases hr
    · exact (h.leased d' g r hg hr hu).of_claims rfl
  · intro d' g hg hr
    rw [lookup_granted] at hg
    split at hg
    · obtain rfl := Option.some.inj hg
      obtain ⟨last, hlast, _⟩ := LivenessTracker.isLive_iff.mp hlive
      exact ⟨client, rfl, rfl, last, hlast⟩
    · exact h.leaseless d' g hg hr

/-! ### Events and runs -/

/-- The lease built for a granted registration is authorized. -/
theorem isAuthorized_leaseFor {envelope : SignedEnvelope RegisterBody} {client : ClientIdentity}
    {token : RegistrationToken} {evidence : UInt64 × List UInt8} (h : Consistent E s)
    (ha : authenticate E envelope (registerMessage envelope.body.domain envelope.timestampMillis)
      now = .ok client)
    (hev : s.lastProbeEvidence client = some evidence) :
    (leaseFor envelope client token evidence).isAuthorized E = true := by
  obtain ⟨_, hkey, hrdns, hsigned⟩ := authenticate_eq_ok.mp ha
  obtain ⟨client', hk, hprobe⟩ := h.evidence client.key evidence.1 evidence.2 hev
  obtain rfl := ClientIdentity.key_injective hk
  exact isAuthorized_iff.mpr
    ⟨client, hkey, hrdns, rfl, hsigned, hprobe, Or.inl ⟨rfl, rfl, rfl⟩⟩

/-- **Every event keeps the invariant.** -/
theorem Consistent.after (h : Consistent E s) (e : Event) : Consistent E (s.after E e) := by
  obtain ⟨answer, s', ho, heq⟩ := exists_change E s e
  rw [heq]
  cases ho with
  | idle _ _ => exact h
  | probed _ ha => exact h.probed (authenticate_eq_ok.mp ha).2.2.2
  | published _ ha hg hk => exact h.published hg hk (authenticate_eq_ok.mp ha).2.2.2
  | adopted _ hv => exact h.filed hv.1
  | reclaimed _ _ => exact h.reclaimStale _
  | panicked hg _ => exact (h.reclaimStale _).granted (isLive_reclaimStale hg.grants.live)
  | leased hg hev =>
    exact ((h.reclaimStale _).granted (isLive_reclaimStale hg.grants.live)).filed
      (isAuthorized_leaseFor h hg.authentic hev)

/-- **Every reachable store is consistent.** -/
theorem consistent_of_reachable {c : Clocked} (h : Reachable E c) : Consistent E c.store :=
  Run.Reaches.invariant (I := fun c => Consistent E c.store) h consistent_new
    fun _ e _ hc => hc.after e

end RegistryStore

end Binda
