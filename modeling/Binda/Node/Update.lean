import Binda.Node.Exchange
import Binda.Registry.Sample

/-!
# Whether an update reaches the peer

A digest names a domain and the issue time of its token, and neither changes
when the owner probes again or publishes records.  So a lease the peer already
holds is never asked for, and what the exchange makes of it does not depend on
the node's copy.

`upToDate_iff` says when the peer's registration nevertheless ends with the
records and the probe time of the node's: it had that probe time before, and
either its records were those and no rumor of the lease's host arrives, or its
claim had them and outlasts the claims that do.
-/

namespace Binda

namespace RegistryStore

open RegistrationRumor

variable {E : Ed25519} {a b s : RegistryStore} {now : UInt64} {q : String} {d : DomainName}
  {g gA gB : Registration} {r rA rB w : RegistrationRumor} {order : VisitOrder DomainName}

/-! ### Claims that do not collide -/

/-- Every claim of the store, registered or not: the domain, the owner and the
token. -/
def claimList (s : RegistryStore) : List (DomainName × String × RegistrationToken) :=
  s.registrations.entries.map (fun e => (e.1, e.2.clientKey, e.2.token)) ++
    s.quotaClaims.values.flatMap fun c => c.values.map fun r => (r.domain, r.clientKey, r.token)

theorem mem_claimList_of_lookup (h : s.lookup d = some g) :
    (d, g.clientKey, g.token) ∈ s.claimList :=
  List.mem_append_left _ (List.mem_map.mpr ⟨⟨d, g⟩, Table.mem_entries_iff.mpr h, rfl⟩)

theorem mem_claimList_of_claim (h : (s.claims q).lookup d = some r) :
    (d, r.clientKey, r.token) ∈ s.claimList := by
  obtain rfl := ClaimTable.domain_of_lookup h
  have hc : s.claims q ∈ s.quotaClaims.values :=
    Table.mem_values.mpr ⟨q, claims_eq_of_filed (filed_of_claim h)⟩
  exact List.mem_append_right _ (List.mem_flatMap.mpr
    ⟨s.claims q, hc, List.mem_map.mpr ⟨r, ClaimTable.mem_values.mpr h, rfl⟩⟩)

/-- No two claims of the two stores on one domain differ in the owner or the token. -/
def NoCollision (a b : RegistryStore) : Prop :=
  ∀ x ∈ a.claimList ++ b.claimList, ∀ y ∈ a.claimList ++ b.claimList, x.1 = y.1 → x = y

instance : Decidable (NoCollision a b) := inferInstanceAs (Decidable (∀ x ∈ _, _))

/-! ### A lease both hold -/

/-- Both hold the lease of `d`, and `a`'s copy has the later probe or the later
records. -/
structure Behind (a b : RegistryStore) (d : DomainName) (gA gB : Registration)
    (rA rB : RegistrationRumor) : Prop where
  heldA : a.lookup d = some gA
  leaseA : gA.rumor = some rA
  heldB : b.lookup d = some gB
  leaseB : gB.rumor = some rB
  owner : gB.clientKey = gA.clientKey
  token : gB.token = gA.token
  later : rB.probeTimestampMillis < rA.probeTimestampMillis ∨
    ∃ t, rA.recordsTimestampMillis = some t ∧ ∀ t', rB.recordsTimestampMillis = some t' → t' < t

/-- The store holds `d` by a lease with the records and the probe time of `gA`
and its rumor `rA`. -/
def UpToDate (s : RegistryStore) (d : DomainName) (gA : Registration) (rA : RegistrationRumor) :
    Prop :=
  ∃ g r, s.lookup d = some g ∧ g.rumor = some r ∧ g.records = gA.records ∧
    r.probeTimestampMillis = rA.probeTimestampMillis

/-- The registration `gB` of `d` has the records of `gA` and no rumor of its host
arrives, or its claim has them and outlasts those that do. -/
def EndsWithRecords (E : Ed25519) (now : UInt64) (b : RegistryStore) (d : DomainName)
    (gA gB : Registration) (l : List RegistrationRumor) : Prop :=
  (arriving E now l gB.quotaKey = [] ∧ gB.records = gA.records) ∨
    (arriving E now l gB.quotaKey ≠ [] ∧ ∃ w, (b.claims gB.quotaKey).lookup d = some w ∧
      w.records = gA.records ∧ ClaimTable.Valid E now w ∧
        ((b.claims gB.quotaKey).insertAll (arriving E now l gB.quotaKey)).place E now w <
          maxRegistrationsPerClient)

/-- A lease held by both is not asked for. -/
theorem Behind.not_offered (h : Behind a b d gA gB rA rB) (ha : Consistent E a) :
    d ∉ (offered order a b).map RegistrationRumor.domain := by
  rintro hd
  obtain ⟨r, hr, rfl⟩ := List.mem_map.mp hd
  obtain ⟨g, hg, _, hw⟩ := (mem_offered ha).mp hr
  rw [h.heldA] at hg
  have hlt := hw gB h.heldB
  rw [← Option.some.inj hg, h.token] at hlt
  exact absurd hlt (UInt64.lt_irrefl _)

/-- Where no claims collide a lease's domain is claimed by its host only. -/
theorem Consistent.soleHost (hb : Consistent E b) (hn : NoCollision a b)
    (hg : b.lookup d = some g) (hr : g.rumor = some r) : b.SoleHost d g.quotaKey := by
  have hl := hb.leased d g r hg hr not_false
  refine ⟨fun q hq => ?_, fun g' hg' => ?_⟩
  · rw [Option.eq_none_iff_forall_ne_some]
    intro w hw
    have he := hn _ (List.mem_append_right _ (mem_claimList_of_claim hw)) _
      (List.mem_append_right _ (mem_claimList_of_lookup hg)) rfl
    have hk : w.clientKey = r.clientKey :=
      (Prod.mk.inj (Prod.mk.inj he).2).1.trans hl.clientKey
    have hhost := quotaKey_eq_of_clientKey (hb.owner q d w hw)
      (ownedBy_of_isAuthorized hl.authorized) hk
    exact hq ((hb.host q d w hw).symm.trans (hhost.trans hl.quotaKey.symm))
  · rw [hg] at hg'
    obtain rfl := Option.some.inj hg'
    exact ⟨rfl, by simp [hr]⟩

/-- What is offered ranks as the peer's claim on its domain, if there is one. -/
theorem NoCollision.compatible (hn : NoCollision a b) (ha : Consistent E a) :
    (b.claims q).Compatible (arriving E now (offered order a b) q) := by
  intro r hr r' hr'
  obtain ⟨g, hg, hgr, _⟩ := (mem_offered ha).mp (mem_arriving.mp hr).1
  have hl := ha.leased _ g r hg hgr not_false
  have he := hn _ (List.mem_append_right _ (mem_claimList_of_claim hr')) _
    (List.mem_append_left _ (mem_claimList_of_lookup hg)) rfl
  have ht : r'.token = r.token := (Prod.mk.inj (Prod.mk.inj he).2).2.trans hl.token
  rw [claimRank, claimRank, ht, ClaimTable.domain_of_lookup hr']

/-- **When the peer's registration ends with what the node has.** -/
theorem Behind.upToDate_iff (h : Behind a b d gA gB rA rB) (ha : Consistent E a)
    (hb : Consistent E b) (hn : NoCollision a b) :
    (b.adoptAll E now (offered order a b)).UpToDate d gA rA ↔
      rB.probeTimestampMillis = rA.probeTimestampMillis ∧
        EndsWithRecords E now b d gA gB (offered order a b) := by
  have hl := hb.leased d gB rB h.heldB h.leaseB not_false
  obtain ⟨records, hcopy⟩ := hl.copy
  have hd : d ∉ (offered order a b).map RegistrationRumor.domain := h.not_offered ha
  rw [UpToDate, EndsWithRecords,
    (hb.soleHost hn h.heldB h.leaseB).lookup_adoptAll nodup_offered hd]
  by_cases hnil : arriving E now (offered order a b) gB.quotaKey = []
  · rw [if_pos hnil]
    constructor
    · rintro ⟨g, r, hg, hr, hrec, hp⟩
      rw [h.heldB] at hg
      obtain rfl := Option.some.inj hg
      rw [h.leaseB] at hr
      obtain rfl := Option.some.inj hr
      exact ⟨hp, Or.inl ⟨hnil, hrec⟩⟩
    · rintro ⟨hp, ⟨_, hrec⟩ | ⟨hne, _⟩⟩
      · exact ⟨gB, rB, h.heldB, h.leaseB, hrec, hp⟩
      · exact absurd hnil hne
  · rw [if_neg hnil]
    -- the arriving rumors leave the old claim on `d` or none
    have hsub : ((arriving E now (offered order a b) gB.quotaKey).map
        RegistrationRumor.domain).Sublist ((offered order a b).map RegistrationRumor.domain) :=
      List.filter_sublist.map _
    have hd' : d ∉ (arriving E now (offered order a b) gB.quotaKey).map RegistrationRumor.domain :=
      fun hin => hd (hsub.subset hin)
    have hvalid : ∀ r ∈ arriving E now (offered order a b) gB.quotaKey, ClaimTable.Valid E now r :=
      fun r hr => (mem_arriving.mp hr).2.1
    have hiff := ClaimTable.lookup_takeIn_iff hnil (nodup_offered.sublist hsub) hd' hvalid
      (hn.compatible ha) hcopy
    constructor
    · rintro ⟨g, r, hg, hr, hrec, hp⟩
      obtain ⟨w, hw, rfl⟩ := Option.map_eq_some_iff.mp hg
      have hwold := ClaimTable.lookup_of_lookup_takeIn hw hd'
      rw [hcopy] at hwold
      obtain rfl := Option.some.inj hwold
      obtain rfl := Option.some.inj hr
      exact ⟨hp, Or.inr ⟨hnil, _, hcopy, hrec, hiff.mp hw⟩⟩
    · rintro ⟨hp, ⟨hnil', _⟩ | ⟨_, w, hw, hrec, hkept⟩⟩
      · exact absurd hnil' hnil
      · rw [hcopy] at hw
        obtain rfl := Option.some.inj hw
        exact ⟨registrationFromRumor _ gB.quotaKey, _, Option.map_eq_some_iff.mpr
          ⟨_, hiff.mpr hkept, rfl⟩, rfl, hrec, hp⟩

end RegistryStore

/-! ### One exchange -/

namespace Node

open RegistryStore

/-- **An exchange brings the peer up to date** only if the peer had the probe time
already and ends with the records. -/
theorem exchange_upToDate_iff {Address : Type} [DecidableEq Address] {E : Ed25519}
    {a b : Node Address} {ta tb : UInt64} {addrA addrB : Address} {env : RoundAmbient Address}
    {d : DomainName} {gA gB : Registration} {rA rB : RegistrationRumor}
    (ha : Reachable E ⟨ta, a.store⟩) (hb : Reachable E ⟨tb, b.store⟩)
    (hn : NoCollision a.store b.store) (h : Behind a.store b.store d gA gB rA rB) :
    (exchange E a b addrA addrB env).2.store.UpToDate d gA rA ↔
      rB.probeTimestampMillis = rA.probeTimestampMillis ∧
        EndsWithRecords E env.adopting.now b.store d gA gB
          (offered env.order a.store b.store) := by
  rw [(exchange_eq a b addrA addrB env).2]
  exact h.upToDate_iff (consistent_of_reachable ha) (consistent_of_reachable hb) hn

/-- The node a client registered a name with, and where it probed once more. -/
def issuer : Node Bool :=
  { store := storeAfter Ed25519.sample (probedTwice 2000), pendingChallenges := ∅ }

/-- A node that learned the lease before the second probe. -/
def replica : Node Bool :=
  { store := storeAfter Ed25519.sample [adopts 1000 (nameLease 1000)], pendingChallenges := ∅ }

theorem reachable_issuer : Reachable Ed25519.sample ⟨2000, issuer.store⟩ :=
  reachable_of_events Ed25519.sample (probedTwice 2000) (by decide +kernel)

theorem reachable_replica : Reachable Ed25519.sample ⟨1000, replica.store⟩ :=
  reachable_of_events Ed25519.sample [adopts 1000 (nameLease 1000)] (by decide +kernel)

theorem noCollision_replica : NoCollision issuer.store replica.store := by decide +kernel

theorem behind_replica :
    Behind issuer.store replica.store ⟨"name"⟩ (registrationFromRumor (nameLease 2000) "host")
      (registrationFromRumor (nameLease 1000) "host") (nameLease 2000) (nameLease 1000) where
  heldA := by decide +kernel
  leaseA := rfl
  heldB := by decide +kernel
  leaseB := rfl
  owner := rfl
  token := rfl
  later := Or.inl (by decide)

/-- What the client sends to the node of its two names: no records for the first, as before. -/
def emptyRecords : List Event :=
  [(sampleClient 1 "host").probes 1000, (sampleClient 1 "host").registers 1000 ⟨"name"⟩ 0,
    (sampleClient 1 "host").registers 1000 ⟨"other"⟩ 1,
    (sampleClient 1 "host").setsRecords 2000 ⟨"name"⟩ []]

/-- The node, which has a lease that the replica does not know. -/
def publisher : Node Bool :=
  { store := storeAfter Ed25519.sample emptyRecords, pendingChallenges := ∅ }

/-- The lease with the records it had. -/
def publishedLease : RegistrationRumor :=
  { nameLease 1000 with
    recordsTimestampMillis := some 2000
    recordsSignature := some (stamp (sampleClient 1 "host").verifyingKey
      (setRecordsMessage ⟨"name"⟩ [] 2000)) }

theorem reachable_publisher : Reachable Ed25519.sample ⟨2000, publisher.store⟩ :=
  reachable_of_events Ed25519.sample emptyRecords (by decide +kernel)

theorem noCollision_publisher : NoCollision publisher.store replica.store := by decide +kernel

theorem behind_publisher :
    Behind publisher.store replica.store ⟨"name"⟩ (registrationFromRumor publishedLease "host")
      (registrationFromRumor (nameLease 1000) "host") publishedLease (nameLease 1000) where
  heldA := by decide +kernel
  leaseA := rfl
  heldB := by decide +kernel
  leaseB := rfl
  owner := rfl
  token := rfl
  later := Or.inr ⟨2000, rfl, fun _ h => by cases h⟩

/-- The other lease arrives, and the replica's claim outlasts it. -/
theorem endsWithRecords_publisher :
    EndsWithRecords Ed25519.sample 2000 replica.store ⟨"name"⟩
      (registrationFromRumor publishedLease "host") (registrationFromRumor (nameLease 1000) "host")
      (offered VisitOrder.listed publisher.store replica.store) :=
  Or.inr ⟨by decide +kernel, nameLease 1000, by decide +kernel, rfl, by decide +kernel,
    by decide +kernel⟩

/-- A later probe, and records that are set as they were. -/
theorem exchange_upToDate_iff_replica :
    ((exchange Ed25519.sample issuer replica true false (sampleRound 2000)).2.store.UpToDate
        ⟨"name"⟩ (registrationFromRumor (nameLease 2000) "host") (nameLease 2000) ↔
      (nameLease 1000).probeTimestampMillis = (nameLease 2000).probeTimestampMillis ∧
        EndsWithRecords Ed25519.sample 2000 replica.store ⟨"name"⟩
          (registrationFromRumor (nameLease 2000) "host")
          (registrationFromRumor (nameLease 1000) "host")
          (offered VisitOrder.listed issuer.store replica.store)) ∧
      (exchange Ed25519.sample publisher replica true false (sampleRound 2000)).2.store.UpToDate
        ⟨"name"⟩ (registrationFromRumor publishedLease "host") publishedLease :=
  ⟨exchange_upToDate_iff reachable_issuer reachable_replica noCollision_replica behind_replica,
    (exchange_upToDate_iff reachable_publisher reachable_replica noCollision_publisher
      behind_publisher).mpr ⟨rfl, endsWithRecords_publisher⟩⟩

/-- **A later probe does not reach the peer.** -/
theorem exchange_leaves_replica_behind :
    ¬ ∀ (E : Ed25519) (a b : Node Bool) (ta tb now : UInt64) (d : DomainName)
      (gA gB : Registration) (rA rB : RegistrationRumor), Reachable E ⟨ta, a.store⟩ →
      Reachable E ⟨tb, b.store⟩ → ta ≤ now → tb ≤ now → NoCollision a.store b.store →
      Behind a.store b.store d gA gB rA rB →
      (exchange E a b true false (sampleRound now)).2.store.UpToDate d gA rA := by
  intro h
  have hup := h _ issuer replica 2000 1000 2000 _ _ _ _ _ reachable_issuer reachable_replica
    (by decide) (by decide) noCollision_replica behind_replica
  rw [(exchange_eq issuer replica true false (sampleRound 2000)).2, behind_replica.upToDate_iff
    (consistent_of_reachable reachable_issuer) (consistent_of_reachable reachable_replica)
    noCollision_replica] at hup
  exact absurd hup.1 (by decide)

end Node

end Binda
