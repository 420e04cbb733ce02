import Binda.Registry.Origin
import Binda.Registry.Adoption
import Binda.Registry.Sample

/-!
# Evidence and time

The evidence in a lease is overwritten by whatever comes last: a probe, records,
or a rumor are accepted without a look at the time stamps of what they replace.
`evidenceKept_iff` says when an event does not take the evidence back in time:
exactly when what it brings is no older than what it replaces (`Forward`).
`evidence_goes_back` is a probe that overtakes another.
-/

namespace Binda

/-- The evidence of `r'` is no older than that of `r`. -/
def RegistrationRumor.Follows (r r' : RegistrationRumor) : Prop :=
  r.probeTimestampMillis ≤ r'.probeTimestampMillis ∧
    ∀ t, r.recordsTimestampMillis = some t →
      ∃ t', r'.recordsTimestampMillis = some t' ∧ t ≤ t'

namespace RegistryStore

open RegistrationRumor

variable {E : Ed25519} {s t : RegistryStore} {now : UInt64} {d : DomainName}
  {g : Registration} {r w : RegistrationRumor} {e : Event}

theorem follows_self (r : RegistrationRumor) : r.Follows r :=
  ⟨UInt64.le_refl _, fun t ht => ⟨t, ht, UInt64.le_refl t⟩⟩

/-- A lease that stays with its owner under its token does not lose evidence to
older evidence. -/
def EvidenceKept (s t : RegistryStore) : Prop :=
  ∀ d g g' r r', s.lookup d = some g → t.lookup d = some g' → g'.clientKey = g.clientKey →
    g'.token = g.token → g.rumor = some r → g'.rumor = some r' → r.Follows r'

/-- No lease under the owner and the token of `r` has later evidence on its domain. -/
def NoLater (s : RegistryStore) (r : RegistrationRumor) : Prop :=
  ∀ g w, s.lookup r.domain = some g → g.clientKey = r.clientKey → g.token = r.token →
    g.rumor = some w → w.Follows r

/-- What the event brings is no older than what it replaces. -/
structure Forward (E : Ed25519) (s : RegistryStore) (e : Event) : Prop where
  probed : ∀ envelope v client, e.op = .request (.probe envelope) v →
    authenticate E envelope (probeMessage envelope.timestampMillis) e.now = .ok client →
    ∀ d g r, s.lookup d = some g → g.clientKey = client.key → g.rumor = some r →
      r.probeTimestampMillis ≤ envelope.timestampMillis
  published : ∀ envelope v client, e.op = .request (.setRecords envelope) v →
    authenticate E envelope (setRecordsMessage envelope.body.domain envelope.body.records
      envelope.timestampMillis) e.now = .ok client →
    ∀ g r t, s.lookup envelope.body.domain = some g → g.clientKey = client.key →
      g.rumor = some r → r.recordsTimestampMillis = some t → t ≤ envelope.timestampMillis
  adopted : ∀ r, e.op = .adoptRumor r → ClaimTable.Valid E e.now r → s.NoLater r
  leased : ∀ envelope client evidence, GrantedBy E s e envelope client →
    s.lastProbeEvidence client = some evidence →
    Retained E s e.now (leaseFor envelope client e.token evidence) →
    s.NoLater (leaseFor envelope client e.token evidence)

/-- **Reclaiming does not change which new claims are kept**: the claims it drops are
not valid. -/
theorem Consistent.retained_reclaimStale (hc : Consistent E s) (order : VisitOrder String) :
    Retained E (s.reclaimStale E order now) now r ↔ Retained E s now r := by
  refine and_congr_right fun _ => ?_
  have hplace : ((s.reclaimStale E order now).claimsWith r).place E now r =
      (s.claimsWith r).place E now r := by
    rw [claimsWith, claimsWith, claims_reclaimStale]
    refine le_antisymm (ClaimTable.place_le_place fun d w hw hv hlt => ⟨w, ?_, hv, hlt⟩)
      (ClaimTable.place_le_place fun d w hw hv hlt => ⟨w, ?_, hv, hlt⟩) <;>
        rw [ClaimTable.lookup_insert] at hw ⊢ <;> split at hw <;> rename_i hd
    · rw [if_pos hd, hw]
    · rw [if_neg hd]
      exact (ClaimTable.lookup_settle.mp hw).1
    · rw [if_pos hd, hw]
    · rw [if_neg hd]
      exact ClaimTable.lookup_settle.mpr
        ⟨hw, hv, lt_of_lt_of_le (ClaimTable.place_lt_size hw hv) (hc.few _ not_false)⟩
  rw [hplace]

/-! ### Forward events keep the evidence -/

/-- What comes from a claim of the owner has the evidence of the lease. -/
theorem Consistent.follows_of_claim (hc : Consistent E s) {g' : Registration}
    {r' : RegistrationRumor} (hg : s.lookup d = some g) (hr : g.rumor = some r)
    (hf : s.FromClaim d g') (hk : g'.clientKey = g.clientKey) (hr' : g'.rumor = some r') :
    r.Follows r' := by
  obtain ⟨q, w, hw, rfl⟩ := hf
  obtain rfl := Option.some.inj hr'
  obtain ⟨records, rfl⟩ := hc.claim_eq hg hr hw hk
  exact follows_self r

theorem evidenceKept_self : EvidenceKept s s := by
  intro d g g' r r' hg hg' _ _ hr hr'
  rw [hg] at hg'
  obtain rfl := Option.some.inj hg'
  rw [hr] at hr'
  obtain rfl := Option.some.inj hr'
  exact follows_self r

/-- What was there before, and what comes from a claim, goes on. -/
theorem Consistent.evidenceKept_of_old (hc : Consistent E s)
    (h : ∀ d g r, t.lookup d = some g → g.rumor = some r → s.lookup d = some g ∨ s.FromClaim d g ∨
      (r.domain = d ∧ g.clientKey = r.clientKey ∧ g.token = r.token ∧ s.NoLater r)) :
    EvidenceKept s t := by
  intro d g g' r r' hg hg' hk ht hr hr'
  rcases h d g' r' hg' hr' with hold | hclaim | ⟨rfl, hkey, htoken, hlater⟩
  · exact evidenceKept_self d g g' r r' hg hold hk ht hr hr'
  · exact hc.follows_of_claim hg hr hclaim hk hr'
  · exact hlater g r hg (hk.symm.trans hkey) (ht.symm.trans htoken) hr

theorem evidenceKept_probed {client : ClientIdentity} {ts : UInt64} {sig : List UInt8}
    (h : ∀ d g r, s.lookup d = some g → g.clientKey = client.key → g.rumor = some r →
      r.probeTimestampMillis ≤ ts) : EvidenceKept s (s.probed client now ts sig) := by
  intro d g g' r r' hg hg' _ _ hr hr'
  rw [lookup_probed, hg, Option.map_some] at hg'
  obtain rfl := Option.some.inj hg'
  rw [Registration.refreshed] at hr'
  split at hr'
  · rename_i hk
    obtain ⟨r₀, hr₀, rfl⟩ := Option.map_eq_some_iff.mp hr'
    rw [hr] at hr₀
    obtain rfl := Option.some.inj hr₀
    exact ⟨h d g r hg hk hr, (follows_self r).2⟩
  · rw [hr] at hr'
    obtain rfl := Option.some.inj hr'
    exact follows_self r

theorem evidenceKept_published {client : ClientIdentity} {records : List Record} {ts : UInt64}
    {sig : List UInt8} (hg : s.lookup d = some g) (hk : g.clientKey = client.key)
    (h : ∀ r t, g.rumor = some r → r.recordsTimestampMillis = some t → t ≤ ts) :
    EvidenceKept s (s.published client d records ts sig) := by
  intro d' g₀ g' r r' hg₀ hg' hkey htoken hr hr'
  rw [lookup_published hg hk] at hg'
  split at hg'
  · rename_i hd
    subst hd
    obtain rfl := Option.some.inj hg'
    rw [hg] at hg₀
    obtain rfl := Option.some.inj hg₀
    obtain ⟨r₀, hr₀, rfl⟩ := Option.map_eq_some_iff.mp hr'
    rw [hr] at hr₀
    obtain rfl := Option.some.inj hr₀
    exact ⟨UInt64.le_refl _, fun t ht => ⟨ts, rfl, h r t hr ht⟩⟩
  · exact evidenceKept_self d' g₀ g' r r' hg₀ hg' hkey htoken hr hr'

/-- **A forward event keeps the evidence.** -/
theorem Consistent.evidenceKept (hc : Consistent E s) (h : Forward E s e) :
    EvidenceKept s (s.after E e) := by
  obtain ⟨answer, s', ho, heq⟩ := exists_change E s e
  rw [heq]
  cases ho with
  | idle _ _ => exact evidenceKept_self
  | probed op ha => exact evidenceKept_probed (h.probed _ _ _ op ha)
  | published op ha hg hk =>
    exact evidenceKept_published hg hk fun r t hr ht => h.published _ _ _ op ha _ r t hg hk hr ht
  | @adopted r op hv =>
    refine hc.evidenceKept_of_old fun d g r' hg hr' => ?_
    rcases lookup_filed_cases hg with hold | ⟨hd, rfl⟩ | hclaim
    · exact Or.inl hold
    · obtain rfl := Option.some.inj hr'
      exact Or.inr (Or.inr ⟨hd, rfl, rfl, h.adopted r op hv⟩)
    · exact Or.inr (Or.inl hclaim)
  | reclaimed _ _ =>
    refine hc.evidenceKept_of_old fun d g r' hg _ => ?_
    exact (lookup_reclaimStale_cases hg).imp_right Or.inl
  | panicked _ _ =>
    refine hc.evidenceKept_of_old fun d g r' hg hr' => ?_
    rw [lookup_granted] at hg
    split at hg
    · obtain rfl := Option.some.inj hg
      cases hr'
    · exact (lookup_reclaimStale_cases hg).imp_right Or.inl
  | @leased envelope client evidence hgr hev =>
    refine hc.evidenceKept_of_old fun d g r' hg hr' => ?_
    by_cases hd : d = envelope.body.domain
    · -- the new registration has a rumor if its lease is kept
      rw [hd, lookup_leased] at hg
      obtain rfl := Option.some.inj hg
      split at hr'
      · rename_i hkept
        obtain rfl := Option.some.inj hr'
        refine Or.inr (Or.inr ⟨hd.symm, ?_, ?_, h.leased envelope client evidence hgr hev
          ((hc.retained_reclaimStale e.env.order).mp hkept)⟩)
        · rw [if_pos hkept]
          rfl
        · rw [if_pos hkept]
          rfl
      · cases hr'
    · rcases lookup_filed_cases hg with hold | ⟨hd', _⟩ | ⟨q, w, hw, rfl⟩
      · rw [lookup_granted, if_neg hd] at hold
        exact (lookup_reclaimStale_cases hold).imp_right Or.inl
      · exact absurd hd'.symm hd
      · rw [claims_granted, claims_reclaimStale] at hw
        exact Or.inr (Or.inl ⟨q, w, (ClaimTable.lookup_settle.mp hw).1, rfl⟩)

/-! ### And only they -/

/-- A rumor that follows a lease under its owner and token takes its place. -/
theorem Consistent.lookup_filed_own (hc : Consistent E s) (hg : s.lookup r.domain = some g)
    (hw : g.rumor = some w) (hk : g.clientKey = r.clientKey) (hv : ClaimTable.Valid E now r) :
    (s.filed E r now).lookup r.domain = some (registrationFromRumor r (quotaKey r.rdns)) := by
  obtain ⟨hq, hplace⟩ := hc.place_lt hg hw rfl hk hv
  have hsettled : (((s.claims (quotaKey r.rdns)).insert r).settle E now).lookup r.domain =
      some r :=
    ClaimTable.lookup_settle.mpr ⟨ClaimTable.lookup_insert.trans (if_pos rfl), hv, hplace⟩
  have hstand : s.standing (quotaKey r.rdns) r.domain = none := by
    rw [standing, hg, Option.filter_some, if_neg (by simp [hq, hw])]
  rw [lookup_filed, hsettled, hstand]
  rfl

/-- **Only a forward event keeps the evidence.** -/
theorem Consistent.forward (hc : Consistent E s) (h : EvidenceKept s (s.after E e)) :
    Forward E s e where
  probed envelope v client op ha d g r hg hk hr := by
    rw [(step_of_probed op ha).2] at h
    have hg' : (s.probed client e.now envelope.timestampMillis envelope.signature).lookup d =
        some (g.refreshed client.key envelope.timestampMillis envelope.signature) := by
      rw [lookup_probed, hg, Option.map_some]
    have hr' : (g.refreshed client.key envelope.timestampMillis envelope.signature).rumor =
        some { r with probeTimestampMillis := envelope.timestampMillis
                      probeSignature := envelope.signature } := by
      rw [Registration.refreshed, if_pos hk, hr]
      rfl
    exact (h d g _ r _ hg hg' Registration.refreshed_clientKey Registration.refreshed_token hr
      hr').1
  published envelope v client op ha g r t hg hk hr ht := by
    rw [(step_of_published op ha hg hk).2] at h
    have hg' : (s.published client envelope.body.domain envelope.body.records
        envelope.timestampMillis envelope.signature).lookup envelope.body.domain =
        some (g.published envelope.body.records envelope.timestampMillis envelope.signature) :=
      (lookup_published hg hk).trans (if_pos rfl)
    have hr' : (g.published envelope.body.records envelope.timestampMillis
        envelope.signature).rumor = some _ := congrArg (Option.map _) hr
    obtain ⟨t', ht', hle⟩ := (h _ g _ r _ hg hg' rfl rfl hr hr').2 t ht
    rwa [Option.some.inj ht']
  adopted r op hv g w hg hk ht hw := by
    have hafter : s.after E e = s.filed E r e.now := by
      rw [RegistryStore.after, op]
      exact adoptRumor_snd_of_valid hv
    rw [hafter] at h
    exact h _ g _ w r hg (hc.lookup_filed_own hg hw hk hv) hk.symm ht.symm hw rfl
  leased envelope client evidence hgr hev hkept g w hg hk ht hw := by
    rw [(step_of_leased hgr hev).2] at h
    have hg' := lookup_leased (E := E) (s.reclaimStale E e.env.order e.now) e.now envelope client
      e.token evidence
    rw [if_pos ((hc.retained_reclaimStale e.env.order).mpr hkept)] at hg'
    exact h _ g _ w _ hg hg' hk.symm ht.symm hw rfl

/-- **An event does not take evidence back** if and only if what it brings is no
older than what it replaces. -/
theorem evidenceKept_iff (E : Ed25519) (c : Clocked) (hc : Reachable E c) (e : Event) :
    EvidenceKept c.store (c.next E e).store ↔ Forward E c.store e :=
  ⟨(consistent_of_reachable hc).forward, (consistent_of_reachable hc).evidenceKept⟩

/-- A probe signed at 2000 that arrives at 4000. -/
def delayed : Event :=
  { env := sampleAmbient 4000 0, op := .request ((sampleClient 1 "host").probeRequest 2000) true }

theorem reachable_probedTwice : Reachable Ed25519.sample
    ⟨clockAfter (probedTwice 3000), storeAfter Ed25519.sample (probedTwice 3000)⟩ :=
  reachable_of_events Ed25519.sample (probedTwice 3000) (by decide)

theorem lookup_probedTwice : (storeAfter Ed25519.sample (probedTwice 3000)).lookup ⟨"name"⟩ =
    some (registrationFromRumor (nameLease 3000) "host") := by
  decide +kernel

/-- The delayed probe is not forward. -/
theorem evidenceKept_iff_delayed :
    EvidenceKept (storeAfter Ed25519.sample (probedTwice 3000))
        ((storeAfter Ed25519.sample (probedTwice 3000)).after Ed25519.sample delayed) ↔
      Forward Ed25519.sample (storeAfter Ed25519.sample (probedTwice 3000)) delayed :=
  evidenceKept_iff _ _ reachable_probedTwice delayed

/-- **A delayed probe takes the evidence back.** -/
theorem evidence_goes_back :
    ¬ ∀ (E : Ed25519) (c : Clocked), Reachable E c → ∀ e : Event, c.clock ≤ e.now →
      EvidenceKept c.store (c.next E e).store := by
  intro h
  have hkept := h _ _ reachable_probedTwice delayed (by decide +kernel)
  dsimp only [Clocked.next] at hkept
  have hg' : ((storeAfter Ed25519.sample (probedTwice 3000)).after Ed25519.sample delayed).lookup
      ⟨"name"⟩ = some (registrationFromRumor
        ((sampleClient 1 "host").lease ⟨"name"⟩ (sampleToken 1000 0) 1000 2000) "host") := by
    decide +kernel
  have hle := (hkept _ _ _ _ _ lookup_probedTwice hg' rfl rfl rfl rfl).1
  exact absurd hle (by decide)

end RegistryStore

end Binda
