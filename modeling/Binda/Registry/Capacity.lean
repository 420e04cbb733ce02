import Binda.Registry.Quota
import Binda.Registry.Record

/-!
# When capacity is refused

A registration is refused by a counter and a rumor by the five claims of its
host, and neither is a count of what the host holds.  The counter goes up with
every registration and is only reset when the host is forgotten, so it stays up
when leases run out one by one.  The claims are cut at five before they meet the
registrations on their domains, so a claim that lost its domain still counts.

`refused_only_at_capacity` says when capacity is refused.  What the counter stands
at can be read off the events of a run: it is the number of registrations granted
to the host since it was last forgotten (`grantsAfter`).  As long as these are
fewer than five, a host that holds fewer than five registrations is let in.  And a
rumor is turned away when five valid claims of its host rank before it.
-/

namespace Binda

namespace RegistryStore

variable {E : Ed25519} {s : RegistryStore} {now : UInt64} {r w : RegistrationRumor}
  {d : DomainName}

/-- `register` lets in a live client whose host holds fewer than five
registrations, if the domain is free after reclaiming. -/
def LetsInBelowCap (E : Ed25519) (c : Clocked) : Prop :=
  ∀ (env : Ambient) (d : DomainName) (client : ClientIdentity), c.clock ≤ env.now →
    c.store.liveness.isLive client env.now = true →
    (c.store.reclaimStale E env.order env.now).lookup d = none →
    (c.store.reclaimStale E env.order env.now).heldBy client.quotaKey <
      maxRegistrationsPerClient →
    ∃ token, (c.store.register E env d client).1 = .ok token

/-- A rumor that is accepted and leaves its domain unheld is of a host that holds
five registrations. -/
def TurnsAwayAtCap (E : Ed25519) (c : Clocked) : Prop :=
  ∀ (r : RegistrationRumor) (now : UInt64), c.clock ≤ now →
    (c.store.adoptRumor E r now).1 = true →
    (c.store.adoptRumor E r now).2.lookup r.domain = none →
    maxRegistrationsPerClient ≤ (c.store.adoptRumor E r now).2.heldBy (quotaKey r.rdns)

/-- The claim `w` is registered on its domain, or lost to a registration that
beats it. -/
def HoldsOrLost (s : RegistryStore) (w : RegistrationRumor) : Prop :=
  s.lookup w.domain = some (registrationFromRumor w (quotaKey w.rdns)) ∨
    ∃ g, s.lookup w.domain = some g ∧ negotiateLocally g.token w.token ≠ w.token

/-- Five valid claims of `r`'s host rank before `r`. -/
structure Crowded (E : Ed25519) (s : RegistryStore) (now : UInt64) (r : RegistrationRumor) :
    Prop where
  five : (s.claims (quotaKey r.rdns)).size = maxRegistrationsPerClient
  before : ∀ w ∈ (s.claims (quotaKey r.rdns)).values,
    ClaimTable.Valid E now w ∧ claimRank w < claimRank r ∧ s.HoldsOrLost w

/-- A settled claim holds its domain or lost it. -/
theorem holdsOrLost_of_settled {q : String} (hq : s.Filed q)
    (hw : ((s.claims q).settle E now).lookup w.domain = some w) (hr : quotaKey w.rdns = q) :
    (s.reconcileQuota E q now).HoldsOrLost w := by
  rw [HoldsOrLost, lookup_reconcileQuota hq, hw, hr]
  cases hg : s.standing q w.domain with
  | none => exact Or.inl rfl
  | some g =>
    simp only [contest]
    split
    · exact Or.inl rfl
    · rename_i hlost
      exact Or.inr ⟨g, rfl, hlost⟩

/-- **A rumor is turned away when its host is crowded.** -/
theorem Consistent.crowded (h : Consistent E s) (hv : ClaimTable.Valid E now r)
    (hnone : (s.filed E r now).lookup r.domain = none) : Crowded E (s.filed E r now) now r := by
  have hfiled : (s.submit (quotaKey r.rdns) r).Filed (quotaKey r.rdns) := filed_submit r
  have hclaims : (s.filed E r now).claims (quotaKey r.rdns) = (s.claimsWith r).settle E now := by
    rw [claims_filed, if_pos rfl, claimsWith]
  have hmem : (s.claimsWith r).lookup r.domain = some r := by
    rw [claimsWith, ClaimTable.lookup_insert, if_pos rfl]
  have hwith : (s.submit (quotaKey r.rdns) r).claims (quotaKey r.rdns) = s.claimsWith r := by
    rw [claims_submit, if_pos rfl, claimsWith]
  -- had `r` been kept, something would stand on its domain
  have hplace : maxRegistrationsPerClient ≤ (s.claimsWith r).place E now r := by
    by_contra hlt
    have hsettled : ((s.claimsWith r).settle E now).lookup r.domain = some r :=
      ClaimTable.lookup_settle.mpr ⟨hmem, hv, not_le.mp hlt⟩
    rw [claimsWith] at hsettled
    rw [lookup_filed, hsettled] at hnone
    cases hnone
  constructor
  · rw [hclaims]
    exact ClaimTable.size_settle_eq hplace
  · intro w hw
    rw [hclaims, ClaimTable.mem_values] at hw
    obtain ⟨hw', hvw, hpw⟩ := ClaimTable.lookup_settle.mp hw
    refine ⟨hvw, ?_, ?_⟩
    · by_contra hle
      have : (s.claimsWith r).place E now r ≤ (s.claimsWith r).place E now w :=
        Select.rankIn_mono (not_lt.mp hle)
      omega
    · refine holdsOrLost_of_settled hfiled (by rw [hwith]; exact hw) ?_
      rw [claimsWith, ClaimTable.lookup_insert] at hw'
      split at hw'
      · rw [Option.some.inj hw']
      · exact h.host _ _ _ hw'

/-! ### What was granted to a host -/

/-- What is granted is put down, and what was granted to a host that is forgotten is struck off. -/
def grantsNote (E : Ed25519) (s : RegistryStore) (grants : String → List DomainName)
    (e : Event) : String → List DomainName :=
  let grants := fun q =>
    if Reclaims E s e ∧ q ∈ s.liveness.expiredClients e.now then [] else grants q
  match s.grantee E e with
  | some p => Function.update grants p.2.quotaKey (p.1.body.domain :: grants p.2.quotaKey)
  | none => grants

/-- The domains granted to each host in a run since it was last forgotten. -/
def grantsAfter (E : Ed25519) (es : List Event) : String → List DomainName :=
  Run.record (RegistryStore.after E) (grantsNote E) new (fun _ => []) es

/-- The counters count what was granted. -/
def Counts (s : RegistryStore) (grants : String → List DomainName) : Prop :=
  ∀ q, (s.liveness.registrationCounts.lookup q).getD 0 = (grants q).length

variable {grants : String → List DomainName} {e : Event} {client : ClientIdentity}

theorem grantsNote_of_not_reclaims (h : ¬ Reclaims E s e) : grantsNote E s grants e = grants := by
  rw [grantsNote, grantee_eq_none h]
  dsimp only
  funext q
  rw [if_neg fun hr => h hr.1]

theorem Counts.reclaimStale {order : VisitOrder String} (h : s.Counts grants) :
    (s.reclaimStale E order now).Counts fun q =>
      if q ∈ s.liveness.expiredClients now then [] else grants q := by
  intro q
  rw [liveness_reclaimStale, LivenessTracker.foldl_forget_counts]
  dsimp only
  by_cases hq : q ∈ s.liveness.expiredClients now
  · rw [if_pos hq, if_pos hq]
    rfl
  · rw [if_neg hq, if_neg hq]
    exact h q

theorem Counts.granted {token : RegistrationToken} (h : s.Counts grants) :
    (s.granted client d token).Counts
      (Function.update grants client.quotaKey (d :: grants client.quotaKey)) := by
  intro q
  have hcount : (s.granted client d token).liveness.registrationCounts =
      AList.insert client.quotaKey (s.liveness.registrationCount client + 1)
        s.liveness.registrationCounts := rfl
  rw [hcount, Table.lookup_insert_eq, Function.update_apply]
  split
  · rw [Option.getD_some, List.length_cons, LivenessTracker.registrationCount, h]
  · exact h q

/-- A registration that is granted is put down after what is forgotten is struck off. -/
theorem Counts.granted_note {envelope : SignedEnvelope RegisterBody} (h : s.Counts grants)
    (hg : GrantedBy E s e envelope client) :
    ((s.reclaimStale E e.env.order e.now).granted client envelope.body.domain e.token).Counts
      (grantsNote E s grants e) := by
  rw [grantsNote, grantee_eq_some.mpr hg]
  dsimp only
  simp only [hg.reclaims, true_and]
  exact h.reclaimStale.granted

/-- **The counters keep count.** -/
theorem Counts.after (h : s.Counts grants) (e : Event) :
    (s.after E e).Counts (grantsNote E s grants e) := by
  obtain ⟨answer, t, hchange, hanswer, hafter⟩ :
      ∃ answer t, Change E s e answer t ∧ s.answer E e = answer ∧ s.after E e = t :=
    ⟨_, _, outcome E s e, rfl, rfl⟩
  rw [hafter]
  cases hchange with
  | idle _ hno =>
    rw [grantsNote_of_not_reclaims hno]
    exact h
  | probed hop _ =>
    rw [grantsNote_of_not_reclaims (not_reclaims_of_op hop (by simp) (by simp))]
    exact h
  | published hop _ _ _ =>
    rw [grantsNote_of_not_reclaims (not_reclaims_of_op hop (by simp) (by simp))]
    intro q
    rw [liveness_published]
    exact h q
  | adopted hop _ =>
    rw [grantsNote_of_not_reclaims (not_reclaims_of_op hop (by simp) (by simp))]
    intro q
    rw [liveness_filed]
    exact h q
  | reclaimed ha hr =>
    rw [grantsNote, grantee_of_refused (hanswer ▸ ha)]
    dsimp only
    simp only [hr, true_and]
    exact h.reclaimStale
  | panicked hg _ => exact h.granted_note hg
  | leased hg _ =>
    intro q
    rw [liveness_filed]
    exact h.granted_note hg q

/-- In every run the counter of a host is the number of registrations granted to it since it was
last forgotten. -/
theorem counts_grantsAfter (E : Ed25519) (es : List Event) :
    (storeAfter E es).Counts (grantsAfter E es) :=
  Run.record_invariant (I := Counts) (fun _ _ e h => h.after e) fun _ => rfl

/-- **When capacity is refused.**  A live client gets a free domain while its host
holds fewer than five registrations, unless five were granted to the host since it
was last forgotten.  And a rumor that leaves its domain unheld is of a host with
five valid claims before it. -/
theorem refused_only_at_capacity (E : Ed25519) (es : List Event) :
    (∀ (env : Ambient) (d : DomainName) (client : ClientIdentity),
      (storeAfter E es).liveness.isLive client env.now = true →
      ((storeAfter E es).reclaimStale E env.order env.now).lookup d = none →
      ((storeAfter E es).reclaimStale E env.order env.now).heldBy client.quotaKey <
        maxRegistrationsPerClient →
      (grantsAfter E es client.quotaKey).length < maxRegistrationsPerClient →
      ∃ token, ((storeAfter E es).register E env d client).1 = .ok token) ∧
    ∀ (r : RegistrationRumor) (now : UInt64), ((storeAfter E es).adoptRumor E r now).1 = true →
      ((storeAfter E es).adoptRumor E r now).2.lookup r.domain = none →
      Crowded E ((storeAfter E es).adoptRumor E r now).2 now r := by
  constructor
  · intro env d client hlive hfree _ hgrants
    have hslot : (storeAfter E es).liveness.registrationCount client <
        maxRegistrationsPerClient := by
      rw [LivenessTracker.registrationCount, counts_grantsAfter E es]
      exact hgrants
    exact ⟨_, by rw [register_of_grants ⟨hlive, hfree, hslot⟩]⟩
  · intro r now hok hnone
    by_cases hv : ClaimTable.Valid E now r
    · rw [adoptRumor_snd_of_valid hv] at hnone ⊢
      exact (consistent_storeAfter E es).crowded hv hnone
    · rw [adoptRumor_of_not_valid hv] at hok
      cases hok

/-- Five leases of a host come in, the first of which has lost its domain. -/
def lostClaim : List Event :=
  [adopts 1000 ((sampleClient 2 "rival").lease ⟨"a"⟩ (sampleToken 1000 9) 1000 1000),
    adopts 1000 (sampleLease "a" 1), adopts 1000 (sampleLease "b" 2),
    adopts 1000 (sampleLease "c" 3), adopts 1000 (sampleLease "d" 4),
    adopts 1000 (sampleLease "e" 5)]

theorem reachable_lostClaim :
    Reachable Ed25519.sample ⟨1000, storeAfter Ed25519.sample lostClaim⟩ :=
  reachable_of_events Ed25519.sample lostClaim (by decide +kernel)

/-- The sixth lease is accepted and turned away, and its host is left with four. -/
theorem lostClaim_turnsAway :
    ((storeAfter Ed25519.sample lostClaim).adoptRumor Ed25519.sample (sampleLease "f" 6) 1000).1 =
        true ∧
      ((storeAfter Ed25519.sample lostClaim).adoptRumor Ed25519.sample
        (sampleLease "f" 6) 1000).2.lookup ⟨"f"⟩ = none ∧
      ((storeAfter Ed25519.sample lostClaim).adoptRumor Ed25519.sample
        (sampleLease "f" 6) 1000).2.heldBy "host" = 4 := by
  decide +kernel

/-- A host with two registrations that were granted to it and a lease that came in. -/
def threeHeld : List Event :=
  [(sampleClient 1 "host").probes 1000, (sampleClient 1 "host").registers 1000 ⟨"a"⟩ 1,
    (sampleClient 1 "host").registers 1000 ⟨"b"⟩ 2,
    adopts 2000 ((sampleClient 2 "host").lease ⟨"c"⟩ (sampleToken 1500 0) 1500 1500)]

example : (grantsAfter Ed25519.sample threeHeld "host").length = 2 ∧
    (storeAfter Ed25519.sample threeHeld).heldBy "host" = 3 := by
  decide +kernel

/-- A host that holds three registrations is given a fourth, and the sixth lease of a host is
turned away. -/
theorem refused_only_at_capacity_threeHeld :
    (∃ token, ((storeAfter Ed25519.sample threeHeld).register Ed25519.sample
        (sampleAmbient 3000 0) ⟨"f"⟩ (sampleClient 1 "host")).1 = .ok token) ∧
      Crowded Ed25519.sample
        ((storeAfter Ed25519.sample lostClaim).adoptRumor Ed25519.sample (sampleLease "f" 6) 1000).2
        1000 (sampleLease "f" 6) :=
  ⟨(refused_only_at_capacity Ed25519.sample threeHeld).1 _ _ _ (by decide +kernel)
      (by decide +kernel) (by decide +kernel) (by decide +kernel),
    (refused_only_at_capacity Ed25519.sample lostClaim).2 _ _ lostClaim_turnsAway.1
      lostClaim_turnsAway.2.1⟩

/-- A client fills the counter of its host, and falls silent while its neighbour
goes on probing. -/
def slotsLeaked : List Event :=
  [(sampleClient 1 "host").probes 1000, (sampleClient 1 "host").registers 1000 ⟨"a"⟩ 1,
    (sampleClient 1 "host").registers 1000 ⟨"b"⟩ 2, (sampleClient 1 "host").registers 1000 ⟨"c"⟩ 3,
    (sampleClient 1 "host").registers 1000 ⟨"d"⟩ 4, (sampleClient 1 "host").registers 1000 ⟨"e"⟩ 5,
    (sampleClient 2 "host").probes 60000]

/-- The neighbour is live and the domain free, but the counter is full. -/
theorem slotsLeaked_refuses :
    (storeAfter Ed25519.sample slotsLeaked).liveness.isLive (sampleClient 2 "host") 62000 = true ∧
      ((storeAfter Ed25519.sample slotsLeaked).reclaimStale Ed25519.sample
        (sampleAmbient 62000 0).order 62000).lookup ⟨"f"⟩ = none ∧
      ((storeAfter Ed25519.sample slotsLeaked).reclaimStale Ed25519.sample
        (sampleAmbient 62000 0).order 62000).heldBy "host" < maxRegistrationsPerClient ∧
      ((storeAfter Ed25519.sample slotsLeaked).register Ed25519.sample (sampleAmbient 62000 0)
        ⟨"f"⟩ (sampleClient 2 "host")).1.isOk = false := by
  decide +kernel

/-- **Capacity is refused below the cap**, to a client and to a rumor. -/
theorem refused_below_cap :
    (¬ ∀ (E : Ed25519) (c : Clocked), Reachable E c → LetsInBelowCap E c) ∧
      ¬ ∀ (E : Ed25519) (c : Clocked), Reachable E c → TurnsAwayAtCap E c := by
  constructor
  · intro h
    have hr := reachable_of_events Ed25519.sample slotsLeaked (by decide +kernel)
    obtain ⟨hlive, hfree, hroom, hno⟩ := slotsLeaked_refuses
    obtain ⟨token, ht⟩ := h _ _ hr (sampleAmbient 62000 0) ⟨"f"⟩ (sampleClient 2 "host")
      (by decide +kernel) hlive hfree hroom
    dsimp only at ht
    rw [ht] at hno
    cases hno
  · intro h
    obtain ⟨hok, hnone, hfour⟩ := lostClaim_turnsAway
    have hcap : maxRegistrationsPerClient ≤ ((storeAfter Ed25519.sample lostClaim).adoptRumor
        Ed25519.sample (sampleLease "f" 6) 1000).2.heldBy "host" :=
      h _ _ reachable_lostClaim (sampleLease "f" 6) 1000 (by decide +kernel) hok hnone
    rw [hfour] at hcap
    exact absurd hcap (by decide)

end RegistryStore

end Binda
