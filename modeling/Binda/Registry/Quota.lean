import Binda.Registry.Sample
import Binda.Registry.Invariant

/-!
# The cap of five registrations

Two mechanisms bound what one host holds, and they do not know of each other.
The claims are sorted and cut at five whenever the host is reconciled; a local
registration is let in by a counter, and if its lease is not among the five
claims kept, it stays without one.  So the leases and the registrations without
a lease (`uncovered`) can together exceed the cap: `cap_fails` is such a run.

`heldBy_le_of_accounted` is the condition under which they do not.  At every
adoption and every granted registration, the host's uncovered registrations and
its valid claims, of which five are kept, must number at most five (`Fits`).
-/

namespace Binda

namespace RegistryStore

variable {E : Ed25519} {s t : RegistryStore} {now : UInt64} {q : String} {d : DomainName}

/-- How many registrations a host holds. -/
def heldBy (s : RegistryStore) (q : String) : Nat :=
  s.registrations.countWhere fun g => g.quotaKey == q

/-- How many of them have no lease. -/
def uncovered (s : RegistryStore) (q : String) : Nat :=
  s.registrations.countWhere fun g => g.quotaKey == q && g.rumor.isNone

/-- With the new claim `r` and `extra` registrations more without a lease, the
host holds no more than five. -/
def Fits (E : Ed25519) (s : RegistryStore) (now : UInt64) (r : RegistrationRumor) (extra : Nat) :
    Prop :=
  s.uncovered (quotaKey r.rdns) + extra +
    min maxRegistrationsPerClient ((s.claimsWith r).valid E now).size ≤ maxRegistrationsPerClient

/-- The event leaves its host with at most five uncovered registrations and
kept claims.  What a registration finds is the store it has just reclaimed. -/
structure Accounted (E : Ed25519) (s : RegistryStore) (e : Event) : Prop where
  adopted : ∀ r, e.op = .adoptRumor r → ClaimTable.Valid E e.now r → Fits E s e.now r 0
  leased : ∀ envelope client evidence, GrantedBy E s e envelope client →
    s.lastProbeEvidence client = some evidence →
    Fits E (s.reclaimStale E e.env.order e.now) e.now (leaseFor envelope client e.token evidence)
      (if Retained E (s.reclaimStale E e.env.order e.now) e.now
        (leaseFor envelope client e.token evidence) then 0 else 1)
  panicked : ∀ envelope client, GrantedBy E s e envelope client →
    s.lastProbeEvidence client = none →
    (s.reclaimStale E e.env.order e.now).uncovered client.quotaKey + 1 +
      ((s.reclaimStale E e.env.order e.now).claims client.quotaKey).size ≤
        maxRegistrationsPerClient

/-- Every host's uncovered registrations and claims number at most five. -/
def Capped (s : RegistryStore) : Prop :=
  ∀ q, s.uncovered q + (s.claims q).size ≤ maxRegistrationsPerClient

/-! ### What is asked of an event -/

/-- What is asked of an adoption. -/
theorem accounted_of_adoption {e : Event} {r : RegistrationRumor} (op : e.op = .adoptRumor r)
    (hfit : Fits E s e.now r 0) : Accounted E s e where
  adopted := by
    intro r' op' _
    obtain rfl : r = r' := by
      rw [op] at op'
      injection op'
    exact hfit
  leased _ _ _ hg := by
    have := op.symm.trans hg.op
    cases this
  panicked _ _ hg := by
    have := op.symm.trans hg.op
    cases this

/-- A registration is granted to the client that signed it. -/
theorem GrantedBy.eq_of_op {e : Event} {envelope envelope' : SignedEnvelope RegisterBody}
    {client client' : ClientIdentity} (hg : GrantedBy E s e envelope' client')
    (op : e.op = .request (.register envelope) true)
    (ha : authenticate E envelope (registerMessage envelope.body.domain envelope.timestampMillis)
      e.now = .ok client) : envelope = envelope' ∧ client = client' := by
  obtain rfl : envelope = envelope' := by
    have hop := op.symm.trans hg.op
    injection hop with h
    injection h
  exact ⟨rfl, Except.ok.inj (ha.symm.trans hg.authentic)⟩

/-- What is asked of a registration by a client with probe evidence. -/
theorem accounted_of_registration {e : Event} {envelope : SignedEnvelope RegisterBody}
    (client : ClientIdentity) (evidence : UInt64 × List UInt8)
    (op : e.op = .request (.register envelope) true)
    (ha : authenticate E envelope (registerMessage envelope.body.domain envelope.timestampMillis)
      e.now = .ok client)
    (hev : s.lastProbeEvidence client = some evidence)
    (hfit : Fits E (s.reclaimStale E e.env.order e.now) e.now
      (leaseFor envelope client e.token evidence)
      (if Retained E (s.reclaimStale E e.env.order e.now) e.now
        (leaseFor envelope client e.token evidence) then 0 else 1)) : Accounted E s e where
  adopted _ op' := by
    have := op.symm.trans op'
    cases this
  leased envelope' client' evidence' hg hev' := by
    obtain ⟨rfl, rfl⟩ := hg.eq_of_op op ha
    obtain rfl : evidence = evidence' := Option.some.inj (hev.symm.trans hev')
    exact hfit
  panicked envelope' client' hg hn := by
    obtain ⟨rfl, rfl⟩ := hg.eq_of_op op ha
    rw [hev] at hn
    cases hn

/-- An event that neither adopts nor registers is accounted for. -/
theorem accounted_of_other {e : Event} (hadopt : ∀ r, e.op ≠ .adoptRumor r)
    (hregister : ∀ envelope, e.op ≠ .request (.register envelope) true) : Accounted E s e where
  adopted r op := absurd op (hadopt r)
  leased envelope _ _ hg := absurd hg.op (hregister envelope)
  panicked envelope _ hg := absurd hg.op (hregister envelope)

/-! ### Uncovered registrations -/

/-- Where every uncovered registration was there before, there are no more of
them. -/
theorem uncovered_le (h : ∀ d g, t.lookup d = some g → g.rumor = none →
    ∃ g₀, s.lookup d = some g₀ ∧ g₀.quotaKey = g.quotaKey ∧ g₀.rumor = none) (q : String) :
    t.uncovered q ≤ s.uncovered q := by
  refine Table.countWhere_le_countWhere fun d g hg hp => ?_
  rw [Bool.and_eq_true, beq_iff_eq, Option.isNone_iff_eq_none] at hp
  obtain ⟨g₀, hg₀, hq, hr⟩ := h d g hg hp.2
  exact ⟨g₀, hg₀, by simp [hq, hp.1, hr]⟩

theorem uncovered_reconcileQuota_le (q' : String) :
    (s.reconcileQuota E q now).uncovered q' ≤ s.uncovered q' := by
  by_cases hq : s.Filed q
  · refine uncovered_le (fun d g hg hr => ?_) q'
    rcases lookup_reconcileQuota_cases hq hg with ⟨r, _, rfl⟩ | ⟨hg', _⟩
    · cases hr
    · exact ⟨g, hg', rfl, hr⟩
  · rw [reconcileQuota_of_not_filed hq]

theorem uncovered_filed_le {r : RegistrationRumor} (q' : String) :
    (s.filed E r now).uncovered q' ≤ s.uncovered q' :=
  uncovered_reconcileQuota_le q'

theorem uncovered_reclaimStale_le {order : VisitOrder String} (q' : String) :
    (s.reclaimStale E order now).uncovered q' ≤ s.uncovered q' := by
  refine reclaimStale_induction (P := fun t => t.uncovered q' ≤ s.uncovered q') ?_ ?_
  · exact uncovered_le (fun d g hg hr => ⟨g, (lookup_dropExpired_eq_some.mp hg).1, rfl, hr⟩) q'
  · exact fun t q _ ht => (uncovered_reconcileQuota_le q').trans ht

theorem uncovered_probed_le {client : ClientIdentity} {ts : UInt64} {sig : List UInt8}
    (q' : String) : (s.probed client now ts sig).uncovered q' ≤ s.uncovered q' := by
  refine uncovered_le (fun d g hg hr => ?_) q'
  rw [lookup_probed_eq_some] at hg
  obtain ⟨g₀, hg₀, rfl⟩ := hg
  exact ⟨g₀, hg₀, Registration.refreshed_quotaKey.symm, Registration.refreshed_rumor_eq_none.mp hr⟩

theorem uncovered_published_le {client : ClientIdentity} {records : List Record} {ts : UInt64}
    {sig : List UInt8} {g₀ : Registration} (hg₀ : s.lookup d = some g₀)
    (hk₀ : g₀.clientKey = client.key) (q' : String) :
    (s.published client d records ts sig).uncovered q' ≤ s.uncovered q' := by
  refine uncovered_le (fun d' g hg hr => ?_) q'
  rw [lookup_published hg₀ hk₀] at hg
  split at hg
  · rename_i hd
    obtain rfl := Option.some.inj hg
    exact ⟨g₀, hd ▸ hg₀, rfl, Option.map_eq_none_iff.mp hr⟩
  · exact ⟨g, hg, rfl, hr⟩

theorem uncovered_granted_le {client : ClientIdentity} {token : RegistrationToken} (q' : String) :
    (s.granted client d token).uncovered q' ≤
      s.uncovered q' + if q' = client.quotaKey then 1 else 0 := by
  refine (Table.countWhere_insert_le _ _ _ _).trans (Nat.add_le_add_left ?_ _)
  by_cases h : q' = client.quotaKey
  · simp [h]
  · simp [h, Ne.symm h]

/-- A new registration whose lease is kept does not stay uncovered. -/
theorem uncovered_leased_le {client : ClientIdentity} {token : RegistrationToken}
    {r : RegistrationRumor} (hd : r.domain = d) (ht : r.token = token)
    (hr : Retained E s now r) (q' : String) :
    ((s.granted client d token).filed E r now).uncovered q' ≤ s.uncovered q' := by
  refine uncovered_le (fun d' g hg hn => ?_) q'
  by_cases hd' : d' = d
  · -- on the new domain the claim meets its own registration and replaces it
    rw [hd', lookup_granted_filed hd ht, if_pos hr] at hg
    rw [← Option.some.inj hg] at hn
    cases hn
  · rcases lookup_reconcileQuota_cases (filed_submit r) hg with ⟨r', _, rfl⟩ | ⟨hg', _⟩
    · cases hn
    · rw [lookup_submit, lookup_granted, if_neg hd'] at hg'
      exact ⟨g, hg', rfl, hn⟩

/-! ### The cap -/

/-- After a claim is filed, its host keeps at most five claims, and no more than
there are valid ones. -/
theorem size_claims_filed_le {r : RegistrationRumor} :
    ((s.filed E r now).claims (quotaKey r.rdns)).size ≤
      min maxRegistrationsPerClient ((s.claimsWith r).valid E now).size := by
  rw [claims_filed, if_pos rfl]
  exact le_min ClaimTable.size_settle_le ClaimTable.size_settle_le_valid

/-- Filing a claim that fits keeps the cap, whatever was added before it. -/
theorem Capped.filed {r : RegistrationRumor} {extra : Nat} (h : s.Capped) {t' : RegistryStore}
    (hclaims : ∀ q, t'.claims q = s.claims q) (hfit : Fits E s now r extra)
    (hown : (t'.filed E r now).uncovered (quotaKey r.rdns) ≤ s.uncovered (quotaKey r.rdns) + extra)
    (hother : ∀ q, q ≠ quotaKey r.rdns → (t'.filed E r now).uncovered q ≤ s.uncovered q) :
    (t'.filed E r now).Capped := by
  intro q
  by_cases hq : q = quotaKey r.rdns
  · subst hq
    have hsize : ((t'.filed E r now).claims (quotaKey r.rdns)).size ≤
        min maxRegistrationsPerClient ((t'.claimsWith r).valid E now).size := size_claims_filed_le
    rw [claimsWith, hclaims] at hsize
    rw [Fits, claimsWith] at hfit
    omega
  · have := h q
    have := hother q hq
    rw [claims_filed, if_neg hq, hclaims]
    omega

theorem Capped.reclaimStale (h : s.Capped) (order : VisitOrder String) :
    (s.reclaimStale E order now).Capped := by
  intro q
  have := h q
  have : (s.reclaimStale E order now).uncovered q ≤ s.uncovered q := uncovered_reclaimStale_le q
  have hsize : ((s.claims q).settle E now).size ≤ (s.claims q).size :=
    ClaimTable.size_settle_le_valid.trans ClaimTable.size_valid_le
  rw [claims_reclaimStale]
  omega

theorem Capped.probed {client : ClientIdentity} {ts : UInt64} {sig : List UInt8} (h : s.Capped) :
    (s.probed client now ts sig).Capped := by
  intro q
  rw [claims_probed, ClaimTable.size_mapValues]
  exact (Nat.add_le_add_right (uncovered_probed_le q) _).trans (h q)

theorem Capped.published {client : ClientIdentity} {records : List Record} {ts : UInt64}
    {sig : List UInt8} {g : Registration} (h : s.Capped) (hg : s.lookup d = some g)
    (hk : g.clientKey = client.key) : (s.published client d records ts sig).Capped := by
  intro q
  rw [claims_published hg hk, ClaimTable.size_modify]
  exact (Nat.add_le_add_right (uncovered_published_le hg hk q) _).trans (h q)

/-- A registration without a lease takes one place of its host. -/
theorem Capped.granted {client : ClientIdentity} {token : RegistrationToken} (h : s.Capped)
    (hfit : s.uncovered client.quotaKey + 1 + (s.claims client.quotaKey).size ≤
      maxRegistrationsPerClient) : (s.granted client d token).Capped := by
  intro q
  have hle : (s.granted client d token).uncovered q ≤
      s.uncovered q + if q = client.quotaKey then 1 else 0 := uncovered_granted_le q
  have hcap := h q
  rw [claims_granted]
  by_cases hq : q = client.quotaKey
  · subst hq
    rw [if_pos rfl] at hle
    omega
  · rw [if_neg hq] at hle
    omega

/-- **Every accounted event keeps the cap.** -/
theorem Capped.after (h : s.Capped) {e : Event} (he : Accounted E s e) : (s.after E e).Capped := by
  obtain ⟨answer, s', ho, heq⟩ := exists_change E s e
  rw [heq]
  cases ho with
  | idle _ _ => exact h
  | probed _ _ => exact h.probed
  | published _ _ hg hk => exact h.published hg hk
  | adopted op hv =>
    exact h.filed (fun _ => rfl) (he.adopted _ op hv) (uncovered_filed_le _)
      fun q _ => uncovered_filed_le q
  | reclaimed _ _ => exact h.reclaimStale _
  | @panicked envelope client hg hn =>
    exact (h.reclaimStale e.env.order).granted (he.panicked envelope client hg hn)
  | @leased envelope client evidence hg hev =>
    have hquota := hg.quotaKey_leaseFor e.token evidence
    have hgrant : ∀ q, (((s.reclaimStale E e.env.order e.now).granted client envelope.body.domain
        e.token).filed E (leaseFor envelope client e.token evidence) e.now).uncovered q ≤
          (s.reclaimStale E e.env.order e.now).uncovered q +
            if q = client.quotaKey then 1 else 0 :=
      fun q => (uncovered_filed_le q).trans (uncovered_granted_le q)
    refine (h.reclaimStale e.env.order).filed (fun _ => rfl) (he.leased _ _ _ hg hev) ?_ ?_
    · split
      · rename_i hr
        exact uncovered_leased_le rfl rfl hr _
      · rw [hquota]
        simpa using hgrant client.quotaKey
    · intro q hq
      rw [hquota] at hq
      simpa [hq] using hgrant q

/-- A host's leases all have their claims. -/
theorem heldBy_le (hc : Consistent E s) (h : s.Capped) (q : String) :
    s.heldBy q ≤ maxRegistrationsPerClient := by
  have hsplit := Table.countWhere_split (fun g : Registration => g.quotaKey == q)
    (fun g => g.rumor.isNone) s.registrations
  have hleased : (s.registrations.countWhere fun g => g.quotaKey == q && !g.rumor.isNone) ≤
      (s.claims q).size := by
    refine Table.countWhere_le_size fun d g hg hp => ?_
    rw [Bool.and_eq_true, beq_iff_eq, Bool.not_eq_true', Option.isNone_eq_false_iff,
      Option.isSome_iff_exists] at hp
    obtain ⟨hq, r, hr⟩ := hp
    obtain ⟨records, hcopy⟩ := (hc.leased d g r hg hr not_false).copy
    exact ⟨_, hq ▸ hcopy⟩
  have := h q
  rw [heldBy, hsplit]
  rw [uncovered] at this
  omega

/-- **The cap holds along every accounted run.** -/
theorem heldBy_le_of_accounted (E : Ed25519) (c : Clocked)
    (h : Clocked.Runs E (Accounted E) Clocked.start c) (q : String) :
    c.store.heldBy q ≤ maxRegistrationsPerClient := by
  have hc : Consistent E c.store :=
    consistent_of_reachable (h.mono fun _ _ hok => ⟨hok.1, trivial⟩)
  have hcap : c.store.Capped :=
    Run.Reaches.invariant (I := fun c => c.store.Capped) h (fun _ => Nat.zero_le _)
      fun _ _ hok hcap => hcap.after hok.2
  exact heldBy_le hc hcap q

/-- A lease of the sample client on one of its domains. -/
def sampleLease (name : String) (byte : UInt8) : RegistrationRumor :=
  (sampleClient 1 "host").lease ⟨name⟩ (sampleToken 1000 byte) 1000 1000

/-- Two leases of a host come in by gossip, its client registers two names more, and two
more leases come in. -/
def sixNames : List Event :=
  [adopts 1000 (sampleLease "a" 1), adopts 1000 (sampleLease "b" 2),
    (sampleClient 1 "host").probes 2000, (sampleClient 1 "host").registers 2000 ⟨"c"⟩ 3,
    (sampleClient 1 "host").registers 2000 ⟨"d"⟩ 4, adopts 3000 (sampleLease "e" 5),
    adopts 3000 (sampleLease "f" 6)]

/-- The evidence of the client's probe. -/
def sampleEvidence (probed : UInt64) : UInt64 × List UInt8 :=
  (probed, stamp (sampleClient 1 "host").verifyingKey (probeMessage probed))

/-- All events are accounted for, and the host ends up with five names. -/
theorem heldBy_le_of_adoption :
    Clocked.Runs Ed25519.sample (Accounted Ed25519.sample) Clocked.start
        (sixNames.foldl (Clocked.next Ed25519.sample) Clocked.start) ∧
      (sixNames.foldl (Clocked.next Ed25519.sample) Clocked.start).store.heldBy "host" = 5 ∧
      (sixNames.foldl (Clocked.next Ed25519.sample) Clocked.start).store.heldBy "host" ≤
        maxRegistrationsPerClient := by
  have hrun : Clocked.Runs Ed25519.sample (Accounted Ed25519.sample) Clocked.start
      (sixNames.foldl (Clocked.next Ed25519.sample) Clocked.start) := by
    refine Run.Along.reaches ⟨⟨by decide, ?_⟩, ⟨by decide, ?_⟩, ⟨by decide, ?_⟩, ⟨by decide, ?_⟩,
      ⟨by decide, ?_⟩, ⟨by decide, ?_⟩, ⟨by decide, ?_⟩, trivial⟩
    · exact accounted_of_adoption rfl (by unfold Fits; decide +kernel)
    · exact accounted_of_adoption rfl (by unfold Fits; decide +kernel)
    · exact accounted_of_other (fun _ h => by cases h) fun _ h => by cases h
    · exact accounted_of_registration (sampleClient 1 "host") (sampleEvidence 2000) rfl
        (by decide +kernel) (by decide +kernel) (by unfold Fits; decide +kernel)
    · exact accounted_of_registration (sampleClient 1 "host") (sampleEvidence 2000) rfl
        (by decide +kernel) (by decide +kernel) (by unfold Fits; decide +kernel)
    · exact accounted_of_adoption rfl (by unfold Fits; decide +kernel)
    · exact accounted_of_adoption rfl (by unfold Fits; decide +kernel)
  exact ⟨hrun, by decide +kernel, heldBy_le_of_accounted _ _ hrun "host"⟩

/-- Five leases of a host come in by gossip, then its client probes and registers
a sixth name: the counter is still at zero. -/
def sixthName : List Event :=
  [adopts 1000 (sampleLease "a" 1), adopts 1000 (sampleLease "b" 2),
    adopts 1000 (sampleLease "c" 3), adopts 1000 (sampleLease "d" 4),
    adopts 1000 (sampleLease "e" 5), (sampleClient 1 "host").probes 2000,
    (sampleClient 1 "host").registers 2000 ⟨"f"⟩ 0]

/-- **The cap fails**: the sixth registration stays without a lease. -/
theorem cap_fails :
    ¬ ∀ (E : Ed25519) (c : Clocked), Reachable E c →
      ∀ q, c.store.heldBy q ≤ maxRegistrationsPerClient := by
  intro h
  have hsix : (storeAfter Ed25519.sample sixthName).heldBy "host" = 6 := by decide +kernel
  have hcap := h _ _ (reachable_of_events Ed25519.sample sixthName (by decide +kernel)) "host"
  dsimp only at hcap
  rw [hsix] at hcap
  exact absurd hcap (by decide)

end RegistryStore

end Binda
