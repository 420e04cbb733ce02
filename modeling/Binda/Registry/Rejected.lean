import Binda.Registry.Origin

/-!
# Rejected claims

A reconciliation rejects a claim that is beyond its host's five, or that loses the
arbitration over its domain, as a newcomer or as the holder (`Rejects`).  The store
keeps no list of what it rejected, so one is carried along with it (`Verdicts`): a
claim is on it from its rejection until it is adopted again.

`Turn` names every call of `reconcile_quota` in an event.
-/

namespace Binda

namespace RegistryStore

variable {E : Ed25519} {s t : RegistryStore} {now : UInt64} {q : String} {d : DomainName}
  {g : Registration} {r w : RegistrationRumor} {e : Event} {c : ClaimId}

/-- `lookup` returns the claim. -/
def Returns (s : RegistryStore) (c : ClaimId) : Prop :=
  ∃ g, s.lookup c.domain = some g ∧ g.claimId c.domain = c

/-- **What a reconciliation of the host rejects.** -/
inductive Rejects (E : Ed25519) (t : RegistryStore) (q : String) (now : UInt64) : ClaimId → Prop
  /-- A claim beyond the first five. -/
  | beyond {r : RegistrationRumor} (claimed : (t.claims q).lookup r.domain = some r)
      (valid : ClaimTable.Valid E now r)
      (place : maxRegistrationsPerClient ≤ (t.claims q).place E now r) :
      Rejects E t q now r.claimId
  /-- A claim that loses to the holder of its domain. -/
  | lost {r : RegistrationRumor} {g : Registration}
      (settled : ((t.claims q).settle E now).lookup r.domain = some r)
      (held : t.standing q r.domain = some g)
      (loses : negotiateLocally g.token r.token ≠ r.token) :
      Rejects E t q now r.claimId
  /-- A holder that loses its domain to a claim. -/
  | displaced {r : RegistrationRumor} {g : Registration}
      (settled : ((t.claims q).settle E now).lookup r.domain = some r)
      (held : t.standing q r.domain = some g)
      (wins : negotiateLocally g.token r.token = r.token)
      (other : g.claimId r.domain ≠ r.claimId) :
      Rejects E t q now (g.claimId r.domain)

/-- The stores in which the hosts have their turns. -/
def turnsFrom (E : Ed25519) (now : UInt64) :
    RegistryStore → List String → List (RegistryStore × String)
  | _, [] => []
  | t, quota :: quotas => (t, quota) :: turnsFrom E now (t.reconcileQuota E quota now) quotas

/-- **The calls of `reconcile_quota` in an event**: the store before the call, and the
host. -/
inductive Turn (E : Ed25519) (s : RegistryStore) (e : Event) : RegistryStore → String → Prop
  /-- The stale registrations are reclaimed, host by host. -/
  | reclaimed {t : RegistryStore} {q : String} (h : Reclaims E s e)
      (turn : (t, q) ∈ turnsFrom E e.now (s.dropExpired e.now)
        (e.env.order.visit (s.dropExpired e.now).quotaClaims.keys)) : Turn E s e t q
  /-- A rumor is adopted. -/
  | adopted {r : RegistrationRumor} (op : e.op = .adoptRumor r)
      (valid : ClaimTable.Valid E e.now r) :
      Turn E s e (s.submit (quotaKey r.rdns) r) (quotaKey r.rdns)
  /-- The lease of a granted registration is attached. -/
  | leased {envelope client evidence} (h : GrantedBy E s e envelope client)
      (found : s.lastProbeEvidence client = some evidence) :
      Turn E s e
        (((s.reclaimStale E e.env.order e.now).granted client envelope.body.domain e.token).submit
          (quotaKey envelope.rdns) (leaseFor envelope client e.token evidence))
        (quotaKey envelope.rdns)

/-- The claim is adopted, for the first time or again. -/
def Submitted (E : Ed25519) (e : Event) (c : ClaimId) : Prop :=
  ∃ r, e.op = .adoptRumor r ∧ ClaimTable.Valid E e.now r ∧ r.claimId = c

end RegistryStore

/-- A store and the claims that were rejected and not adopted again. -/
structure Verdicts where
  clocked : Clocked
  rejected : Set ClaimId

namespace Verdicts

open RegistryStore

/-- A fresh node. -/
def start : Verdicts := { clocked := Clocked.start, rejected := ∅ }

/-- The next event. -/
def next (E : Ed25519) (w : Verdicts) (e : Event) : Verdicts :=
  { clocked := w.clocked.next E e
    rejected := fun c => (c ∈ w.rejected ∧ ¬ Submitted E e c) ∨
      ∃ t q, Turn E w.clocked.store e t q ∧ Rejects E t q e.now c }

/-- The clock does not go back, and the event meets `cond`. -/
def May (cond : Verdicts → Event → Prop) (w : Verdicts) (e : Event) : Prop :=
  w.clocked.clock ≤ e.now ∧ cond w e

/-- A run whose events all meet `cond`. -/
def Runs (E : Ed25519) (cond : Verdicts → Event → Prop) : Verdicts → Verdicts → Prop :=
  Run.Reaches (next E) (May cond)

end Verdicts

namespace RegistryStore

variable {E : Ed25519} {s t : RegistryStore} {now : UInt64} {q : String} {d : DomainName}
  {g : Registration} {r w : RegistrationRumor} {e : Event} {c : ClaimId}

/-! ### What is returned -/

theorem returns_of_lookup (h : s.lookup d = some g) : s.Returns (g.claimId d) := ⟨g, h, rfl⟩

theorem claimId_of_returns (h : s.Returns c) (hg : s.lookup c.domain = some g) :
    g.claimId c.domain = c := by
  obtain ⟨g', hg', hc⟩ := h
  rw [hg] at hg'
  rw [Option.some.inj hg']
  exact hc

theorem claimId_registrationFromRumor (h : r.domain = d) :
    (registrationFromRumor r q).claimId d = r.claimId := by
  rw [← h]
  rfl

theorem token_of_claimId (h : g.claimId d = r.claimId) : g.token = r.token :=
  congrArg ClaimId.token h

theorem clientKey_of_claimId (h : g.claimId d = r.claimId) : g.clientKey = r.clientKey :=
  congrArg ClaimId.clientKey h

/-- **The owner of a registration determines its host.** -/
theorem ConsistentBut.quotaKey_eq {U : String → Prop} (h : ConsistentBut E U s)
    (hg : s.lookup d = some g) (hU : ¬ U g.quotaKey) {d' : DomainName}
    (hw : (s.claims q).lookup d' = some w) (hk : w.clientKey = g.clientKey) : g.quotaKey = q := by
  have howner := h.owner q d' w hw
  rw [← h.host q d' w hw]
  cases hr : g.rumor with
  | none =>
    obtain ⟨client, hkey, hquota, _⟩ := h.leaseless d g hg hr
    obtain ⟨owner, ho⟩ := howner
    obtain rfl := ho.eq_of_clientKey (hk.trans hkey)
    rw [hquota, ho.quotaKey]
  | some r =>
    have hl := h.leased d g r hg hr hU
    rw [hl.quotaKey]
    exact RegistrationRumor.quotaKey_eq_of_clientKey
      (RegistrationRumor.ownedBy_of_isAuthorized hl.authorized) howner
      (hl.clientKey.symm.trans hk.symm)

/-- A lease of the host is the host's claim on its domain. -/
theorem Consistent.claimId_eq (h : Consistent E s) (hg : s.lookup d = some g)
    (hr : g.rumor ≠ none) (hw : (s.claims g.quotaKey).lookup d = some w) :
    g.claimId d = w.claimId := by
  obtain ⟨r, hr⟩ := Option.ne_none_iff_exists'.mp hr
  have hl := h.leased d g r hg hr not_false
  obtain ⟨records, hcopy⟩ := hl.copy
  obtain rfl := Option.some.inj (hcopy.symm.trans hw)
  rw [Registration.claimId, RegistrationRumor.claimId, hl.clientKey, hl.token, hl.domain]

/-- What does not stand is a lease of the host. -/
theorem standing_of_ne_claimId (h : Consistent E s) (hg : s.lookup d = some g)
    (hw : (s.claims q).lookup d = some w) (hne : g.claimId d ≠ w.claimId) :
    s.standing q d = some g := by
  refine standing_eq_some.mpr ⟨hg, ?_⟩
  by_contra hnot
  rw [not_or, not_not] at hnot
  obtain ⟨rfl, hr⟩ := hnot
  exact hne (h.claimId_eq hg hr hw)

/-! ### Reclaiming -/

/-- The registration outlasts reclaiming if nobody takes its domain: its host is not
expired, and the claim of a lease is valid. -/
def Steady (E : Ed25519) (s : RegistryStore) (now : UInt64) (d : DomainName) (g : Registration) :
    Prop :=
  g.quotaKey ∉ s.liveness.expiredClients now ∧
    (g.rumor ≠ none → ∃ w, (s.claims g.quotaKey).lookup d = some w ∧ ClaimTable.Valid E now w)

/-- Every valid claim that is not returned loses to a steady holder of its domain. -/
def HeldOff (E : Ed25519) (s : RegistryStore) (now : UInt64) : Prop :=
  ∀ q d w, (s.claims q).lookup d = some w → ClaimTable.Valid E now w → ¬ s.Returns w.claimId →
    ∃ g, s.lookup d = some g ∧ s.Steady E now d g ∧ negotiateLocally g.token w.token ≠ w.token

/-- `t` is on the way from `s` to the end of reclaiming: nothing is returned that was
not returned before, no lease is lost, and steady claims are still returned. -/
structure Midway (E : Ed25519) (s : RegistryStore) (now : UInt64) (t : RegistryStore) : Prop where
  consistent : Consistent E t
  claims : ∀ q d w, (t.claims q).lookup d = some w → (s.claims q).lookup d = some w
  kept : ∀ q d w, (s.claims q).lookup d = some w → ClaimTable.Valid E now w →
    (t.claims q).lookup d = some w
  old : ∀ c, t.Returns c → s.Returns c
  leaseless : ∀ d g, t.lookup d = some g → g.rumor = none → s.lookup d = some g
  steady : ∀ d g, s.lookup d = some g → s.Steady E now d g →
    ∃ g', t.lookup d = some g' ∧ g'.claimId d = g.claimId d ∧ g'.quotaKey = g.quotaKey ∧
      (g'.rumor ≠ none → ∃ w, (s.claims g.quotaKey).lookup d = some w ∧ ClaimTable.Valid E now w)

namespace Midway

theorem start (h : Consistent E s) : Midway E s now (s.dropExpired now) where
  consistent := h.dropExpired
  claims _ _ _ hw := hw
  kept _ _ _ hw _ := hw
  old c := by
    rintro ⟨g, hg, hc⟩
    exact ⟨g, (lookup_dropExpired_eq_some.mp hg).1, hc⟩
  leaseless d g hg _ := (lookup_dropExpired_eq_some.mp hg).1
  steady d g hg hst := ⟨g, lookup_dropExpired_eq_some.mpr ⟨hg, hst.1⟩, rfl, rfl, hst.2⟩

/-- A valid claim is among the first five. -/
theorem settled (h : Midway E s now t) (hw : (t.claims q).lookup d = some w)
    (hv : ClaimTable.Valid E now w) : ((t.claims q).settle E now).lookup d = some w :=
  ClaimTable.lookup_settle.mpr
    ⟨hw, hv, lt_of_lt_of_le (ClaimTable.place_lt_size hw hv) (h.consistent.few q not_false)⟩

/-- A claim that was not returned meets a holder that wins. -/
theorem holder (h : Midway E s now t) (hoff : s.HeldOff E now)
    (hw : ((t.claims q).settle E now).lookup d = some w) (hnot : ¬ s.Returns w.claimId) :
    ∃ g, t.lookup d = some g ∧ t.standing q d = some g ∧
      negotiateLocally g.token w.token ≠ w.token := by
  obtain ⟨hwt, hv, _⟩ := ClaimTable.lookup_settle.mp hw
  have hws := h.claims q d w hwt
  have hd : w.domain = d := ClaimTable.domain_of_lookup hws
  obtain ⟨g, hg, hst, hloses⟩ := hoff q d w hws hv hnot
  obtain ⟨g', hg', hid, _⟩ := h.steady d g hg hst
  have htoken : g'.token = g.token := congrArg ClaimId.token hid
  refine ⟨g', hg', standing_of_ne_claimId h.consistent hg' hwt fun he => hnot ?_, htoken ▸ hloses⟩
  rw [← he, hid]
  exact returns_of_lookup hg

/-- A turn returns nothing new. -/
theorem returns_of_turn (h : Midway E s now t) (hoff : s.HeldOff E now) (hq : t.Filed q)
    (hret : (t.reconcileQuota E q now).Returns c) : s.Returns c := by
  obtain ⟨g, hg, hc⟩ := hret
  rw [lookup_reconcileQuota hq] at hg
  split at hg
  · exact h.old c ⟨g, (standing_eq_some.mp hg).1, hc⟩
  · rename_i w hw
    obtain rfl := Option.some.inj hg
    have hstand : t.standing q c.domain = some (contest q (t.standing q c.domain) w) →
        s.Returns c := fun hst => h.old c ⟨_, (standing_eq_some.mp hst).1, hc⟩
    by_cases hret : s.Returns w.claimId
    · rcases contest_eq_or q (t.standing q c.domain) w with hnew | hst
      · rw [hnew, claimId_registrationFromRumor (ClaimTable.domain_of_lookup hw)] at hc
        exact hc ▸ hret
      · exact hstand hst
    · -- the claim that was not returned is held off
      obtain ⟨g', _, hst, hloses⟩ := h.holder hoff hw hret
      refine hstand ?_
      rw [hst, contest, if_neg hloses]

/-- A turn makes no registration without a lease. -/
theorem leaseless_of_turn (h : Midway E s now t) (hq : t.Filed q)
    (hg : (t.reconcileQuota E q now).lookup d = some g) (hr : g.rumor = none) :
    s.lookup d = some g := by
  rw [lookup_reconcileQuota hq] at hg
  split at hg
  · exact h.leaseless d g (standing_eq_some.mp hg).1 hr
  · rename_i w _
    obtain rfl := Option.some.inj hg
    rcases contest_eq_or q (t.standing q d) w with hnew | hold
    · rw [hnew] at hr
      cases hr
    · exact h.leaseless d _ (standing_eq_some.mp hold).1 hr

/-- A turn keeps the claim of a steady registration on its domain. -/
theorem steady_of_turn (h : Midway E s now t) (hs : Consistent E s) (hoff : s.HeldOff E now)
    (hq : t.Filed q) (hg : s.lookup d = some g) (hst : s.Steady E now d g) :
    ∃ g', (t.reconcileQuota E q now).lookup d = some g' ∧ g'.claimId d = g.claimId d ∧
      g'.quotaKey = g.quotaKey ∧ (g'.rumor ≠ none →
        ∃ w, (s.claims g.quotaKey).lookup d = some w ∧ ClaimTable.Valid E now w) := by
  obtain ⟨g', hg', hid, hquota, hclaim⟩ := h.steady d g hg hst
  rw [lookup_reconcileQuota hq]
  split
  · rename_i hnone
    refine ⟨g', standing_eq_some.mpr ⟨hg', ?_⟩, hid, hquota, hclaim⟩
    by_contra hnot
    rw [not_or, not_not] at hnot
    obtain ⟨w, hw, hv⟩ := hclaim hnot.2
    rw [← hquota, hnot.1] at hw
    rw [h.settled (h.kept q d w hw hv) hv] at hnone
    cases hnone
  · rename_i w hw
    obtain ⟨hwt, hv, _⟩ := ClaimTable.lookup_settle.mp hw
    have hws := h.claims q d w hwt
    have hd : w.domain = d := ClaimTable.domain_of_lookup hws
    by_cases he : g.claimId d = w.claimId
    · rcases contest_eq_or q (t.standing q d) w with hnew | hold
      · -- the lease of the same claim is installed
        have hq' : g.quotaKey = q :=
          hs.quotaKey_eq hg not_false hws (clientKey_of_claimId he).symm
        refine ⟨_, rfl, ?_, ?_, fun _ => ⟨w, hq' ▸ hws, hv⟩⟩
        · rw [hnew, claimId_registrationFromRumor hd, he]
        · rw [hnew, hq']
          rfl
      · have hsame : contest q (t.standing q d) w = g' :=
          Option.some.inj ((standing_eq_some.mp hold).1.symm.trans hg')
        exact ⟨g', congrArg some hsame, hid, hquota, hclaim⟩
    · have hnot : ¬ s.Returns w.claimId := fun hret => he (by
        rw [← hd] at hg ⊢
        exact claimId_of_returns hret hg)
      obtain ⟨g₁, hg₁, hst₁, hloses⟩ := h.holder hoff hw hnot
      obtain rfl := Option.some.inj (hg₁.symm.trans hg')
      refine ⟨g₁, ?_, hid, hquota, hclaim⟩
      rw [hst₁, contest, if_neg hloses]

theorem turn (h : Midway E s now t) (hs : Consistent E s) (hoff : s.HeldOff E now)
    (hq : t.Filed q) : Midway E s now (t.reconcileQuota E q now) where
  consistent := h.consistent.reconcileQuota (fun _ hu => hu.elim) hq
  claims q' d w hw := h.claims q' d w (claim_of_reconcileQuota hw)
  kept q' d w hw hv := by
    rw [claims_reconcileQuota]
    split
    · rename_i he
      rw [he] at hw
      exact h.settled (h.kept q d w hw hv) hv
    · exact h.kept q' d w hw hv
  old _ hret := h.returns_of_turn hoff hq hret
  leaseless _ _ hg hr := h.leaseless_of_turn hq hg hr
  steady _ _ hg hst := h.steady_of_turn hs hoff hq hg hst

end Midway

/-- **Reclaiming promotes nothing that is held off.** -/
theorem midway_reclaimStale (hs : Consistent E s) (hoff : s.HeldOff E now)
    (order : VisitOrder String) : Midway E s now (s.reclaimStale E order now) :=
  reclaimStale_induction (Midway.start hs) fun _ _ hq ht => ht.turn hs hoff hq

theorem midway_of_turn (hs : Consistent E s) (hoff : s.HeldOff E now) :
    ∀ {quotas : List String} {u : RegistryStore}, Midway E s now u →
      (t, q) ∈ turnsFrom E now u quotas → Midway E s now t := by
  intro quotas
  induction quotas with
  | nil => intro u _ h; cases h
  | cons quota quotas ih =>
    intro u hu h
    rcases List.mem_cons.mp h with he | h
    · rw [(Prod.mk.inj he).1]
      exact hu
    · refine ih ?_ h
      by_cases hq : u.Filed quota
      · exact hu.turn hs hoff hq
      · rwa [reconcileQuota_of_not_filed hq]

/-- **What a turn of reclaiming rejects was not returned**, and a steady registration
holds its domain. -/
theorem Midway.rejects (h : Midway E s now t) (hoff : s.HeldOff E now)
    (hrej : Rejects E t q now c) :
    ¬ s.Returns c ∧ ∃ g, s.lookup c.domain = some g ∧ s.Steady E now c.domain g := by
  cases hrej with
  | @beyond r claimed valid place =>
    have hfew := h.consistent.few q not_false
    have hlt := ClaimTable.place_lt_size claimed valid
    omega
  | @lost r g settled held loses =>
    obtain ⟨hrt, hv, _⟩ := ClaimTable.lookup_settle.mp settled
    have hnot : ¬ s.Returns r.claimId := by
      rintro ⟨g₀, hg₀, hid₀⟩
      have hold := h.old _ (returns_of_lookup (standing_eq_some.mp held).1)
      have hid := claimId_of_returns hold hg₀
      have htoken : g.token = r.token := congrArg ClaimId.token (hid.symm.trans hid₀)
      exact loses (by rw [htoken, negotiateLocally_self])
    refine ⟨hnot, ?_⟩
    obtain ⟨g', hg', hst, _⟩ := hoff q r.domain r (h.claims q r.domain r hrt) hv hnot
    exact ⟨g', hg', hst⟩
  | @displaced r g settled held wins other =>
    -- the newcomer was not returned, so it is held off
    exfalso
    obtain ⟨g₀, hg₀, hid₀⟩ := h.old _ (returns_of_lookup (standing_eq_some.mp held).1)
    have hnot : ¬ s.Returns r.claimId := fun hret =>
      other (hid₀.symm.trans (claimId_of_returns hret hg₀))
    obtain ⟨g', _, hst, hloses⟩ := h.holder hoff settled hnot
    obtain rfl := Option.some.inj (held.symm.trans hst)
    exact hloses wins

end RegistryStore

end Binda
