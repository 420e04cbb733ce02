import Binda.Registry.Adoption

/-!
# A store that adopts nothing

Without gossip a domain is registered only when nobody holds it, and then nobody
has a claim on it either: `Tied s` says that every claim is the lease its domain
is registered by.  So no two hosts ever contest a domain, and the registration of
a domain goes by the claims of its own host.

`Tied.after` says that every event but an adoption keeps the tie.
-/

namespace Binda

namespace RegistryStore

open RegistrationRumor

variable {E : Ed25519} {s t : RegistryStore} {now : UInt64} {q : String} {d d' : DomainName}
  {g : Registration} {r w : RegistrationRumor} {client : ClientIdentity}
  {token : RegistrationToken}

/-- Every claim is the lease its domain is registered by. -/
structure Tied (s : RegistryStore) : Prop where
  sole : ∀ q d r, (s.claims q).lookup d = some r → s.SoleHost d q
  held : ∀ q d r, (s.claims q).lookup d = some r → s.lookup d ≠ none

theorem tied_new : Tied new where
  sole _ _ _ h := by cases h
  held _ _ _ h := by cases h

/-- Nobody has a claim on a domain that is not held. -/
theorem Tied.claims_eq_none (h : Tied s) (hd : s.lookup d = none) (q : String) :
    (s.claims q).lookup d = none := by
  by_contra hc
  obtain ⟨r, hr⟩ := Option.ne_none_iff_exists'.mp hc
  exact h.held q d r hr hd

/-- Nor on one that is held without a lease. -/
theorem Tied.claims_eq_none_of_leaseless (h : Tied s) (hg : s.lookup d = some g)
    (hr : g.rumor = none) (q : String) : (s.claims q).lookup d = none := by
  by_contra hc
  obtain ⟨r, hr'⟩ := Option.ne_none_iff_exists'.mp hc
  exact ((h.sole q d r hr').held g hg).2 hr

/-- A lease is its host's alone. -/
theorem Tied.soleHost (h : Tied s) (hc : Consistent E s) (hg : s.lookup d = some g)
    (hr : g.rumor = some r) : s.SoleHost d g.quotaKey := by
  obtain ⟨records, hcopy⟩ := (hc.leased d g r hg hr not_false).copy
  exact h.sole _ d _ hcopy

/-! ### Reclaiming -/

theorem SoleHost.of_eq (h : s.SoleHost d q) (hc : ∀ q', (s.claims q').lookup d = none →
    (t.claims q').lookup d = none) (hl : ∀ g, t.lookup d = some g → ∃ g₀, s.lookup d = some g₀ ∧
      g.quotaKey = g₀.quotaKey ∧ (g.rumor = none → g₀.rumor = none)) : t.SoleHost d q := by
  refine ⟨fun q' hq' => hc q' (h.others q' hq'), fun g hg => ?_⟩
  obtain ⟨g₀, hg₀, hq, hr⟩ := hl g hg
  obtain ⟨hq₀, hr₀⟩ := h.held g₀ hg₀
  exact ⟨hq.trans hq₀, fun hn => hr₀ (hr hn)⟩

theorem SoleHost.reconcileQuota (h : s.SoleHost d q) {q' : String} (hq' : s.Filed q') :
    (s.reconcileQuota E q' now).SoleHost d q := by
  refine ⟨fun q'' hq'' => lookup_claims_reconcileQuota_eq_none (h.others q'' hq'') q',
    fun g hg => ?_⟩
  rcases lookup_reconcileQuota_cases hq' hg with ⟨w, hw, rfl⟩ | ⟨hg', _⟩
  · have hq : q' = q := by
      by_contra hne
      rw [ClaimTable.lookup_settle_eq_none (h.others q' hne)] at hw
      cases hw
    exact ⟨hq, by simp [registrationFromRumor]⟩
  · exact h.held g hg'

/-- After its host's turn a claimed domain is held. -/
theorem lookup_reconcileQuota_ne_none (hq : s.Filed q)
    (hr : ((s.reconcileQuota E q now).claims q).lookup d = some r) :
    (s.reconcileQuota E q now).lookup d ≠ none := by
  rw [claims_reconcileQuota, if_pos rfl] at hr
  rw [lookup_reconcileQuota hq, hr]
  simp

/-- The turn of another host leaves it alone. -/
theorem SoleHost.lookup_reconcileQuota_of_other (h : s.SoleHost d q) {q' : String}
    (hq' : s.Filed q') (hne : q' ≠ q) : (s.reconcileQuota E q' now).lookup d = s.lookup d := by
  rw [lookup_reconcileQuota hq', ClaimTable.lookup_settle_eq_none (h.others q' hne)]
  exact standing_of_other fun g hg he => hne (he.symm.trans (h.held g hg).1)

/-- **Reclaiming keeps the tie.** -/
theorem Tied.reclaimStale (h : s.Tied) (order : VisitOrder String) :
    (s.reclaimStale E order now).Tied := by
  have hboth : ∀ q d r, ((s.reclaimStale E order now).claims q).lookup d = some r →
      (s.reclaimStale E order now).SoleHost d q ∧ (s.reclaimStale E order now).lookup d ≠ none := by
    intro q d r hr
    have hold : (s.claims q).lookup d = some r := by
      rw [claims_reclaimStale] at hr
      exact (ClaimTable.lookup_settle.mp hr).1
    have hsole := h.sole q d r hold
    have hturn : (s.reclaimStale E order now).SoleHost d q ∧
        (((s.reclaimStale E order now).claims q).lookup d = some r →
          (s.reclaimStale E order now).lookup d ≠ none) := by
      refine reclaimStale_visit (P := fun t => t.SoleHost d q) (Q := fun t => t.SoleHost d q ∧
        ((t.claims q).lookup d = some r → t.lookup d ≠ none)) (filed_of_claim hold) ?_ ?_ ?_ ?_
      · exact hsole.of_eq (fun _ h => h) fun g hg =>
          ⟨g, (lookup_dropExpired_eq_some.mp hg).1, rfl, id⟩
      · exact fun t q' hq' _ ht => ht.reconcileQuota hq'
      · exact fun t hq ht => ⟨ht.reconcileQuota hq, lookup_reconcileQuota_ne_none hq⟩
      · rintro t q' hq' ⟨ht, hl⟩
        refine ⟨ht.reconcileQuota hq', ?_⟩
        by_cases he : q' = q
        · subst he
          exact lookup_reconcileQuota_ne_none hq'
        · rw [ht.lookup_reconcileQuota_of_other hq' he, claims_reconcileQuota, if_neg (Ne.symm he)]
          exact hl
    exact ⟨hturn.1, hturn.2 hr⟩
  exact ⟨fun q d r hr => (hboth q d r hr).1, fun q d r hr => (hboth q d r hr).2⟩

/-- A registration without a lease stays while its host is live. -/
theorem lookup_reclaimStale_of_leaseless {order : VisitOrder String} (hg : s.lookup d = some g)
    (hr : g.rumor = none) (hnone : ∀ q, (s.claims q).lookup d = none)
    (hlive : g.quotaKey ∉ s.liveness.expiredClients now) :
    (s.reclaimStale E order now).lookup d = some g := by
  have hboth : (∀ q, ((s.reclaimStale E order now).claims q).lookup d = none) ∧
      (s.reclaimStale E order now).lookup d = some g := by
    refine reclaimStale_induction (P := fun t => (∀ q, (t.claims q).lookup d = none) ∧
      t.lookup d = some g) ⟨hnone, lookup_dropExpired_eq_some.mpr ⟨hg, hlive⟩⟩ ?_
    rintro t q' hq' ⟨hc, hl⟩
    refine ⟨fun q => lookup_claims_reconcileQuota_eq_none (hc q) q', ?_⟩
    rw [lookup_reconcileQuota hq', ClaimTable.lookup_settle_eq_none (hc q')]
    exact standing_eq_some.mpr ⟨hl, Or.inr hr⟩
  exact hboth.2

/-! ### Requests -/

theorem Tied.probed {ts : UInt64} {sig : List UInt8} (h : s.Tied) :
    (s.probed client now ts sig).Tied := by
  have hclaim : ∀ q d r, ((s.probed client now ts sig).claims q).lookup d = some r →
      ∃ r₀, (s.claims q).lookup d = some r₀ := by
    intro q d r hr
    rw [lookup_claims_probed_eq_some] at hr
    obtain ⟨r₀, hr₀, _⟩ := hr
    exact ⟨r₀, hr₀⟩
  constructor
  · intro q d r hr
    obtain ⟨r₀, hr₀⟩ := hclaim q d r hr
    refine (h.sole q d r₀ hr₀).of_eq (fun q' hq' => ?_) fun g hg => ?_
    · rw [lookup_claims_probed, hq', Option.map_none]
    · rw [lookup_probed_eq_some] at hg
      obtain ⟨g₀, hg₀, rfl⟩ := hg
      exact ⟨g₀, hg₀, Registration.refreshed_quotaKey, Registration.refreshed_rumor_eq_none.mp⟩
  · intro q d r hr
    obtain ⟨r₀, hr₀⟩ := hclaim q d r hr
    rw [lookup_probed, ne_eq, Option.map_eq_none_iff]
    exact h.held q d r₀ hr₀

theorem Tied.published {records : List Record} {ts : UInt64} {sig : List UInt8} (h : s.Tied)
    (hg : s.lookup d = some g) (hk : g.clientKey = client.key) :
    (s.published client d records ts sig).Tied := by
  have hclaim : ∀ q d', ((s.published client d records ts sig).claims q).lookup d' = none ↔
      (s.claims q).lookup d' = none := by
    intro q d'
    rw [claims_published hg hk, ClaimTable.lookup_modify]
    split
    · rename_i hd
      rw [hd, Option.map_eq_none_iff]
    · rfl
  have hreg : ∀ d' g', (s.published client d records ts sig).lookup d' = some g' →
      ∃ g₀, s.lookup d' = some g₀ ∧ g'.quotaKey = g₀.quotaKey ∧
        (g'.rumor = none → g₀.rumor = none) := by
    intro d' g' hg'
    rw [lookup_published hg hk] at hg'
    split at hg'
    · rename_i hd
      obtain rfl := Option.some.inj hg'
      exact ⟨g, hd ▸ hg, rfl, Option.map_eq_none_iff.mp⟩
    · exact ⟨g', hg', rfl, id⟩
  have hold : ∀ q d' r, ((s.published client d records ts sig).claims q).lookup d' = some r →
      ∃ r₀, (s.claims q).lookup d' = some r₀ := by
    intro q d' r hr
    refine Option.ne_none_iff_exists'.mp fun hn => ?_
    rw [(hclaim q d').mpr hn] at hr
    cases hr
  constructor
  · intro q d' r hr
    obtain ⟨r₀, hr₀⟩ := hold q d' r hr
    exact (h.sole q d' r₀ hr₀).of_eq (fun q' => (hclaim q' d').mpr) (hreg d')
  · intro q d' r hr
    obtain ⟨r₀, hr₀⟩ := hold q d' r hr
    have hheld := h.held q d' r₀ hr₀
    rw [lookup_published hg hk]
    split
    · simp
    · exact hheld

/-- A registration on another domain leaves a claimed domain alone. -/
theorem SoleHost.granted (h : s.SoleHost d q) (hne : d ≠ d') :
    (s.granted client d' token).SoleHost d q := by
  refine h.of_eq (fun _ hc => hc) fun g hg => ?_
  rw [lookup_granted, if_neg hne] at hg
  exact ⟨g, hg, rfl, id⟩

theorem Tied.granted (h : s.Tied) (hfree : s.lookup d = none) :
    (s.granted client d token).Tied := by
  have hne : ∀ q d' r, (s.claims q).lookup d' = some r → d' ≠ d := by
    intro q d' r hr hd
    rw [hd, h.claims_eq_none hfree] at hr
    cases hr
  refine ⟨fun q d' r hr => (h.sole q d' r hr).granted (hne q d' r hr), fun q d' r hr => ?_⟩
  rw [lookup_granted, if_neg (hne q d' r hr)]
  exact h.held q d' r hr

/-- A claimed domain stays held when a claim on another domain is filed. -/
theorem SoleHost.lookup_filed_ne_none (h : s.SoleHost d q) (hne : r.domain ≠ d)
    (hheld : s.lookup d ≠ none) (hw : ((s.filed E r now).claims q).lookup d = some w) :
    (s.filed E r now).lookup d ≠ none := by
  by_cases hq : quotaKey r.rdns = q
  · rw [h.lookup_filed_of_own hq, hw]
    simp
  · rwa [h.lookup_filed_of_other hne hq]

/-- The new lease is the only claim on its domain, and what it is registered by. -/
theorem Tied.leased_new (h : s.Tied) (hfree : s.lookup d = none) (hd : r.domain = d)
    (ht : r.token = token)
    (hw : (((s.granted client d token).filed E r now).claims q).lookup d = some w) :
    ((s.granted client d token).filed E r now).SoleHost d q ∧
      ((s.granted client d token).filed E r now).lookup d ≠ none := by
  have hnone := h.claims_eq_none hfree
  rw [claims_filed, claims_granted] at hw
  have hq : q = quotaKey r.rdns := by
    by_contra hne
    rw [if_neg hne, hnone q] at hw
    cases hw
  subst hq
  rw [if_pos rfl] at hw
  obtain ⟨hw', hkept⟩ := ClaimTable.lookup_settle.mp hw
  rw [ClaimTable.lookup_insert, if_pos hd.symm] at hw'
  obtain rfl := Option.some.inj hw'
  have hl : ((s.granted client d token).filed E r now).lookup d =
      some (registrationFromRumor r (quotaKey r.rdns)) :=
    (lookup_granted_filed hd ht).trans (congrArg some (if_pos hkept))
  refine ⟨⟨fun q' hq' => ?_, fun g hg => ?_⟩, by simp [hl]⟩
  · rw [claims_filed, if_neg hq']
    exact hnone q'
  · rw [hl] at hg
    rw [← Option.some.inj hg]
    exact ⟨rfl, by simp [registrationFromRumor]⟩

/-- On another domain nothing changes. -/
theorem Tied.leased_other (h : s.Tied) (hne : d' ≠ d) (hd : r.domain = d)
    (hw : (((s.granted client d token).filed E r now).claims q).lookup d' = some w) :
    ((s.granted client d token).filed E r now).SoleHost d' q ∧
      ((s.granted client d token).filed E r now).lookup d' ≠ none := by
  have hne' : r.domain ≠ d' := fun he => hne (he.symm.trans hd)
  have hw₀ := lookup_claims_of_filed hne' hw
  rw [claims_granted] at hw₀
  have hsole : (s.granted client d token).SoleHost d' q := (h.sole q d' w hw₀).granted hne
  refine ⟨hsole.filed hne', hsole.lookup_filed_ne_none hne' ?_ hw⟩
  rw [lookup_granted, if_neg hne]
  exact h.held q d' w hw₀

/-- **A lease that follows its registration keeps the tie.** -/
theorem Tied.leased (h : s.Tied) (hfree : s.lookup d = none) (hd : r.domain = d)
    (ht : r.token = token) : ((s.granted client d token).filed E r now).Tied := by
  have hboth : ∀ q d' w, (((s.granted client d token).filed E r now).claims q).lookup d' = some w →
      ((s.granted client d token).filed E r now).SoleHost d' q ∧
        ((s.granted client d token).filed E r now).lookup d' ≠ none := by
    intro q d' w hw
    by_cases hd' : d' = d
    · subst hd'
      exact h.leased_new hfree hd ht hw
    · exact h.leased_other hd' hd hw
  exact ⟨fun q d r hr => (hboth q d r hr).1, fun q d r hr => (hboth q d r hr).2⟩

/-- **Every event but an adoption keeps the tie.** -/
theorem Tied.after {e : Event} (h : s.Tied) (he : ∀ r, e.op ≠ .adoptRumor r) :
    (s.after E e).Tied := by
  obtain ⟨answer, s', ho, heq⟩ := exists_change E s e
  rw [heq]
  cases ho with
  | idle _ _ => exact h
  | probed _ _ => exact h.probed
  | published _ _ hg hk => exact h.published hg hk
  | adopted op _ => exact absurd op (he _)
  | reclaimed _ _ => exact h.reclaimStale _
  | panicked hg _ => exact (h.reclaimStale _).granted hg.grants.free
  | leased hg _ => exact (h.reclaimStale _).leased hg.grants.free rfl rfl

end RegistryStore

end Binda
