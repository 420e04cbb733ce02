import Binda.Registry.Rejected
import Binda.Registry.Adoption
import Binda.Registry.Sample

/-!
# Promotion

A claim that loses the arbitration over its domain stays among the claims of its
host, and the next reconciliation after the holder is gone installs it.  A
registration whose lease is beyond the five of its host stays without a lease.

`rejected_stay_out` says that these are the only ways: in a run whose events are
all `Firm`, no rejected claim is returned until it is adopted again.
`rejected_is_promoted` is a run in which one is.
-/

namespace Binda

namespace RegistryStore

variable {E : Ed25519} {s t : RegistryStore} {now : UInt64} {q : String} {d : DomainName}
  {g : Registration} {r w : RegistrationRumor} {e : Event} {c : ClaimId}

/-- No claim is pushed beyond the five by `r` while a registration of the same claim
stands without a lease. -/
def NoLeftover (E : Ed25519) (t : RegistryStore) (now : UInt64) (r : RegistrationRumor) : Prop :=
  ∀ w, (t.claimsWith r).lookup w.domain = some w → ClaimTable.Valid E now w →
    maxRegistrationsPerClient ≤ (t.claimsWith r).place E now w →
      ∀ g, t.lookup w.domain = some g → g.rumor = none → g.claimId w.domain ≠ w.claimId

/-- **The event promotes no claim.** -/
structure Firm (E : Ed25519) (s : RegistryStore) (rejected : Set ClaimId) (e : Event) : Prop where
  /-- Where everything is reconciled, every claim that is out is held off. -/
  reclaims : Reclaims E s e → s.HeldOff E e.now
  /-- Where the host of a rumor is reconciled, its claims that are out lose. -/
  adopts : ∀ r, e.op = .adoptRumor r → ClaimTable.Valid E e.now r → ∀ d w, d ≠ r.domain →
    ((s.claimsWith r).settle E e.now).lookup d = some w → ¬ s.Returns w.claimId →
      ∃ g, s.lookup d = some g ∧ negotiateLocally g.token w.token ≠ w.token
  /-- A rumor pushes out no claim whose registration has no lease. -/
  roomy : ∀ r, e.op = .adoptRumor r → ClaimTable.Valid E e.now r → s.NoLeftover E e.now r
  /-- Nor does the lease of a new registration. -/
  leases : ∀ envelope client evidence, GrantedBy E s e envelope client →
    s.lastProbeEvidence client = some evidence →
      s.NoLeftover E e.now (leaseFor envelope client e.token evidence)
  /-- That lease is among the five itself. -/
  within : ∀ envelope client evidence, GrantedBy E s e envelope client →
    s.lastProbeEvidence client = some evidence →
      (s.claimsWith (leaseFor envelope client e.token evidence)).place E e.now
        (leaseFor envelope client e.token evidence) < maxRegistrationsPerClient
  /-- No registration is granted under a rejected claim's token. -/
  fresh : ∀ envelope client, GrantedBy E s e envelope client →
    ⟨envelope.body.domain, client.key, e.token⟩ ∉ rejected

/-! ### Filing a claim -/

/-- What filing a claim makes the store return. -/
theorem returns_filed {P : ClaimId → Prop} (hc : Consistent E t)
    (hoff : ∀ d w, d ≠ r.domain → ((t.claimsWith r).settle E now).lookup d = some w →
      P w.claimId ∨ ∃ g, t.lookup d = some g ∧ negotiateLocally g.token w.token ≠ w.token)
    (h : (t.filed E r now).Returns c) : c = r.claimId ∨ t.Returns c ∨ P c := by
  obtain ⟨g, hg, hid⟩ := h
  rw [lookup_filed] at hg
  split at hg
  · exact Or.inr (Or.inl ⟨g, (standing_eq_some.mp hg).1, hid⟩)
  rename_i w hw
  obtain rfl := Option.some.inj hg
  have hdw : w.domain = c.domain := ClaimTable.domain_of_lookup hw
  rcases contest_eq_or (quotaKey r.rdns) (t.standing (quotaKey r.rdns) c.domain) w with hnew | hold
  · rw [hnew, claimId_registrationFromRumor hdw] at hid
    have hclaim := (ClaimTable.lookup_settle.mp hw).1
    rw [ClaimTable.lookup_insert] at hclaim
    split at hclaim
    · obtain rfl := Option.some.inj hclaim
      exact Or.inl hid.symm
    · rename_i hd
      rcases hoff c.domain w hd hw with hp | ⟨g, hg, hloses⟩
      · exact Or.inr (Or.inr (hid ▸ hp))
      · -- a winner that beats the claim stands, unless it is the claim itself
        by_cases he : g.claimId c.domain = w.claimId
        · exact Or.inr (Or.inl ⟨g, hg, he.trans hid⟩)
        · rw [standing_of_ne_claimId hc hg hclaim he, contest, if_neg hloses] at hnew
          refine absurd ?_ he
          rw [hnew, claimId_registrationFromRumor hdw]
  · exact Or.inr (Or.inl ⟨_, (standing_eq_some.mp hold).1, hid⟩)

/-- **What a reconciliation rejects is not returned after it**, if it leaves over no
registration without a lease. -/
theorem not_returns_of_rejects {U : String → Prop} (hq : t.Filed q) (hc : ConsistentBut E U t)
    (hU : ∀ host, U host → host = q)
    (hleft : ∀ w, (t.claims q).lookup w.domain = some w → ClaimTable.Valid E now w →
      maxRegistrationsPerClient ≤ (t.claims q).place E now w →
        ∀ g, t.lookup w.domain = some g → g.rumor = none → g.claimId w.domain ≠ w.claimId)
    (hrej : Rejects E t q now c) : ¬ (t.reconcileQuota E q now).Returns c := by
  rintro ⟨g', hg', hid⟩
  rw [lookup_reconcileQuota hq] at hg'
  cases hrej with
  | @beyond r claimed valid place =>
    have hnone : ((t.claims q).settle E now).lookup r.domain = none := by
      rw [Option.eq_none_iff_forall_ne_some]
      intro w hw
      obtain ⟨hwt, _, hplace⟩ := ClaimTable.lookup_settle.mp hw
      obtain rfl := Option.some.inj (hwt.symm.trans claimed)
      omega
    have hdomain : r.claimId.domain = r.domain := rfl
    rw [hdomain, hnone] at hg'
    obtain ⟨hgt, hne | hr⟩ := standing_eq_some.mp hg'
    · refine hne (hc.quotaKey_eq hgt (fun hu => hne (hU _ hu)) claimed ?_)
      exact (clientKey_of_claimId hid).symm
    · exact hleft r claimed valid place g' hgt hr hid
  | @lost r g settled held loses =>
    have hdomain : r.claimId.domain = r.domain := rfl
    rw [hdomain, settled] at hg'
    dsimp only at hg'
    rw [held, contest, if_neg loses] at hg'
    obtain rfl := Option.some.inj hg'
    exact loses (by rw [token_of_claimId hid, negotiateLocally_self])
  | @displaced r g settled held wins other =>
    have hdomain : (g.claimId r.domain).domain = r.domain := rfl
    rw [hdomain, settled] at hg'
    dsimp only at hg'
    rw [held, contest, if_pos wins] at hg'
    obtain rfl := Option.some.inj hg'
    exact other hid.symm

/-! ### Events -/

theorem reclaims_of_granted {envelope : SignedEnvelope RegisterBody} {client : ClientIdentity}
    (h : GrantedBy E s e envelope client) : Reclaims E s e :=
  Or.inr ⟨envelope, client, h.op, h.authentic, h.grants.live⟩

theorem returns_granted {client : ClientIdentity} {token : RegistrationToken}
    (h : (s.granted client d token).Returns c) : c = ⟨d, client.key, token⟩ ∨ s.Returns c := by
  obtain ⟨g, hg, hid⟩ := h
  rw [lookup_granted] at hg
  split at hg
  · rename_i hd
    obtain rfl := Option.some.inj hg
    rw [← hid, hd]
    exact Or.inl rfl
  · exact Or.inr ⟨g, hg, hid⟩

theorem Midway.lookup_claimsWith (h : Midway E s now t)
    (hw : (t.claimsWith r).lookup d = some w) : (s.claimsWith r).lookup d = some w := by
  rw [claimsWith, ClaimTable.lookup_insert] at hw ⊢
  split
  · rename_i hd
    rwa [if_pos hd] at hw
  · rename_i hd
    rw [if_neg hd] at hw
    exact h.claims _ d w hw

/-- **Reclaiming leaves over nothing new**, and the granted registration is among the
five. -/
theorem Midway.noLeftover_granted (h : Midway E s now t) {client : ClientIdentity}
    {token : RegistrationToken} (hroom : s.NoLeftover E now r)
    (hplace : (s.claimsWith r).place E now r < maxRegistrationsPerClient) :
    (t.granted client r.domain token).NoLeftover E now r := by
  intro w hw hv hle g hg hr
  have hws : (s.claimsWith r).lookup w.domain = some w := h.lookup_claimsWith hw
  have hless : (t.claimsWith r).place E now w ≤ (s.claimsWith r).place E now w :=
    ClaimTable.place_le_place fun d r' hr' hv' hlt => ⟨r', h.lookup_claimsWith hr', hv', hlt⟩
  have hout : maxRegistrationsPerClient ≤ (s.claimsWith r).place E now w := hle.trans hless
  by_cases hd : w.domain = r.domain
  · rw [hd, claimsWith, ClaimTable.lookup_insert, if_pos rfl] at hws
    obtain rfl := Option.some.inj hws
    omega
  · rw [lookup_granted, if_neg hd] at hg
    exact hroom w hws hv hout g (h.leaseless _ g hg hr) hr

/-- What a granted registration and its lease make the store return. -/
theorem Firm.returns_leased {rejected : Set ClaimId} (hf : Firm E s rejected e)
    (hs : Consistent E s) {envelope : SignedEnvelope RegisterBody} {client : ClientIdentity}
    {evidence : UInt64 × List UInt8} (hg : GrantedBy E s e envelope client)
    (h : (((s.reclaimStale E e.env.order e.now).granted client envelope.body.domain
      e.token).filed E (leaseFor envelope client e.token evidence) e.now).Returns c) :
    s.Returns c ∨ c = ⟨envelope.body.domain, client.key, e.token⟩ := by
  have hheld := hf.reclaims (reclaims_of_granted hg)
  have hmid := midway_reclaimStale hs hheld e.env.order
  have hcons : Consistent E ((s.reclaimStale E e.env.order e.now).granted client
      envelope.body.domain e.token) :=
    hmid.consistent.granted (isLive_reclaimStale hg.grants.live)
  -- whatever else of the host is settled was returned before, or is held off
  have hoff : ∀ d w, d ≠ envelope.body.domain →
      ((((s.reclaimStale E e.env.order e.now).granted client envelope.body.domain
        e.token).claimsWith (leaseFor envelope client e.token evidence)).settle E e.now).lookup d =
          some w → s.Returns w.claimId ∨ ∃ g,
            ((s.reclaimStale E e.env.order e.now).granted client envelope.body.domain
              e.token).lookup d = some g ∧ negotiateLocally g.token w.token ≠ w.token := by
    intro d w hd hw
    obtain ⟨hclaim, hv, _⟩ := ClaimTable.lookup_settle.mp hw
    have hd' : d ≠ (leaseFor envelope client e.token evidence).domain := hd
    rw [claimsWith, ClaimTable.lookup_insert, if_neg hd', claims_granted] at hclaim
    by_cases hret : s.Returns w.claimId
    · exact Or.inl hret
    · obtain ⟨g, hgs, hst, hloses⟩ := hheld _ d w (hmid.claims _ d w hclaim) hv hret
      obtain ⟨g', hg', hid, _⟩ := hmid.steady d g hgs hst
      have htoken : g'.token = g.token := congrArg ClaimId.token hid
      exact Or.inr ⟨g', by rw [lookup_granted, if_neg hd]; exact hg', htoken ▸ hloses⟩
  rcases returns_filed hcons hoff h with hc | hret | hret
  · exact Or.inr hc
  · rcases returns_granted hret with hc | hret
    · exact Or.inr hc
    · exact Or.inl (hmid.old c hret)
  · exact Or.inl hret

/-- **A firm event makes the store return nothing but what it brings.** -/
theorem Firm.returns {rejected : Set ClaimId} (hf : Firm E s rejected e) (hs : Consistent E s)
    (h : (s.after E e).Returns c) :
    s.Returns c ∨ Submitted E e c ∨ ∃ envelope client, GrantedBy E s e envelope client ∧
      c = ⟨envelope.body.domain, client.key, e.token⟩ := by
  obtain ⟨answer, s', ho, heq⟩ := exists_change E s e
  rw [heq] at h
  cases ho with
  | idle _ _ => exact Or.inl h
  | probed _ _ =>
    obtain ⟨g, hg, hid⟩ := h
    obtain ⟨g₀, hg₀, rfl⟩ := lookup_probed_eq_some.mp hg
    refine Or.inl ⟨g₀, hg₀, ?_⟩
    rw [← hid, Registration.claimId, Registration.claimId, Registration.refreshed_clientKey,
      Registration.refreshed_token]
  | @published envelope _ client g₀ _ _ held own =>
    obtain ⟨g, hg, hid⟩ := h
    rw [lookup_published held own] at hg
    split at hg
    · rename_i hd
      obtain rfl := Option.some.inj hg
      refine Or.inl ⟨g₀, ?_, hid⟩
      rw [hd]
      exact held
    · exact Or.inl ⟨g, hg, hid⟩
  | @adopted r op valid =>
    have hoff : ∀ d w, d ≠ r.domain → ((s.claimsWith r).settle E e.now).lookup d = some w →
        s.Returns w.claimId ∨ ∃ g, s.lookup d = some g ∧
          negotiateLocally g.token w.token ≠ w.token := by
      intro d w hd hw
      by_cases hret : s.Returns w.claimId
      · exact Or.inl hret
      · exact Or.inr (hf.adopts r op valid d w hd hw hret)
    rcases returns_filed hs hoff h with rfl | hret | hret
    · exact Or.inr (Or.inl ⟨r, op, valid, rfl⟩)
    · exact Or.inl hret
    · exact Or.inl hret
  | reclaimed _ hrec => exact Or.inl ((midway_reclaimStale hs (hf.reclaims hrec) _).old c h)
  | @panicked envelope client hg _ =>
    have hmid := midway_reclaimStale hs (hf.reclaims (reclaims_of_granted hg)) e.env.order
    rcases returns_granted h with hc | hret
    · exact Or.inr (Or.inr ⟨envelope, client, hg, hc⟩)
    · exact Or.inl (hmid.old c hret)
  | @leased envelope client evidence hg _ =>
    rcases hf.returns_leased hs hg h with hret | hc
    · exact Or.inl hret
    · exact Or.inr (Or.inr ⟨envelope, client, hg, hc⟩)

/-- **What a firm event rejects is not returned after it.** -/
theorem Firm.not_returns_of_turn {rejected : Set ClaimId} (hf : Firm E s rejected e)
    (hs : Consistent E s) (hturn : Turn E s e t q) (hrej : Rejects E t q e.now c) :
    ¬ (s.after E e).Returns c := by
  cases hturn with
  | reclaimed hrec turn =>
    have hheld := hf.reclaims hrec
    obtain ⟨hnot, g, hg, hst⟩ :=
      (midway_of_turn hs hheld (Midway.start hs) turn).rejects hheld hrej
    intro h
    rcases hf.returns hs h with hret | ⟨r, op, _⟩ | ⟨envelope, client, hgr, rfl⟩
    · exact hnot hret
    · exact not_reclaims_of_op op (by simp) (by simp) hrec
    · -- the domain of a steady registration is not free
      obtain ⟨g', hg', _⟩ := (midway_reclaimStale hs hheld e.env.order).steady _ g hg hst
      have hfree : (s.reclaimStale E e.env.order e.now).lookup envelope.body.domain = none :=
        hgr.grants.free
      rw [hfree] at hg'
      cases hg'
  | @adopted r op valid =>
    have hafter : s.after E e = s.filed E r e.now := by
      rw [after, op]
      exact adoptRumor_snd_of_valid valid
    rw [hafter, filed]
    refine not_returns_of_rejects (filed_submit r) (hs.submit valid.1) (fun _ hu => hu) ?_ hrej
    rw [claims_submit, if_pos rfl]
    exact hf.roomy r op valid
  | @leased envelope client evidence hg found =>
    have hcons : Consistent E ((s.reclaimStale E e.env.order e.now).granted client
        envelope.body.domain e.token) :=
      (hs.reclaimStale _).granted (isLive_reclaimStale hg.grants.live)
    have hauth : (leaseFor envelope client e.token evidence).isAuthorized E = true :=
      isAuthorized_leaseFor hs hg.authentic found
    rw [(step_of_leased hg found).2, filed]
    refine not_returns_of_rejects (filed_submit _) (hcons.submit hauth) (fun _ hu => hu) ?_ hrej
    rw [claims_submit, if_pos rfl]
    exact (midway_reclaimStale hs (hf.reclaims (reclaims_of_granted hg))
      e.env.order).noLeftover_granted (hf.leases envelope client evidence hg found)
      (hf.within envelope client evidence hg found)

/-- **In a firm run no rejected claim is returned until it is adopted again.** -/
theorem rejected_stay_out {v : Verdicts}
    (h : Verdicts.Runs E (fun v e => Firm E v.clocked.store v.rejected e) Verdicts.start v) :
    ∀ c ∈ v.rejected, ¬ v.clocked.store.Returns c := by
  have hinv : Consistent E v.clocked.store ∧ ∀ c ∈ v.rejected, ¬ v.clocked.store.Returns c := by
    refine Run.Reaches.invariant (I := fun v => Consistent E v.clocked.store ∧
      ∀ c ∈ v.rejected, ¬ v.clocked.store.Returns c) h
        ⟨consistent_new, fun c hc => absurd hc (Set.notMem_empty c)⟩ ?_
    rintro a e ⟨_, hf⟩ ⟨hs, hout⟩
    refine ⟨hs.after e, ?_⟩
    rintro c (⟨hc, hsub⟩ | ⟨t, q, hturn, hrej⟩)
    · intro hret
      rcases hf.returns hs hret with hret | hsub' | ⟨envelope, client, hg, rfl⟩
      · exact hout c hc hret
      · exact hsub hsub'
      · exact hf.fresh envelope client hg hc
    · exact hf.not_returns_of_turn hs hturn hrej
  exact hinv.2

/-! ### Two rivals -/

/-- The first claim of a host. -/
theorem firm_of_first {rejected : Set ClaimId} (op : e.op = .adoptRumor r)
    (hnone : s.claims (quotaKey r.rdns) = ClaimTable.empty) : Firm E s rejected e := by
  have hclaims : s.claimsWith r = ClaimTable.empty.insert r := by rw [claimsWith, hnone]
  have hgranted : ∀ envelope client, ¬ GrantedBy E s e envelope client := by
    intro envelope client h
    have hop := h.op
    rw [op] at hop
    cases hop
  refine ⟨fun h => absurd h (not_reclaims_of_op op (by simp) (by simp)), ?_, ?_,
    fun envelope client _ h => absurd h (hgranted envelope client),
    fun envelope client _ h => absurd h (hgranted envelope client),
    fun envelope client h => absurd h (hgranted envelope client)⟩
  · intro r' op' _ d w hd hw
    obtain rfl := Operation.adoptRumor.inj (op'.symm.trans op)
    have hw' := (ClaimTable.lookup_settle.mp hw).1
    rw [hclaims, ClaimTable.lookup_insert, if_neg hd] at hw'
    cases hw'
  · intro r' op' _ w hw hv hplace
    obtain rfl := Operation.adoptRumor.inj (op'.symm.trans op)
    have hlt := ClaimTable.place_lt_size hw hv
    have hsize : (s.claimsWith r').size ≤ 1 := by
      rw [hclaims]
      exact Table.size_insert_le _ _ _
    have hfive : maxRegistrationsPerClient = 5 := rfl
    omega

/-- A claim on a name. -/
def holder : RegistrationRumor :=
  (sampleClient 2 "b").lease ⟨"name"⟩ (sampleToken 1000 2) 1000 1000

/-- A claim that loses to it, and is probed later. -/
def contender : RegistrationRumor :=
  (sampleClient 1 "a").lease ⟨"name"⟩ (sampleToken 1000 1) 50000 50000

/-- The rivals are adopted. -/
def contested : Verdicts :=
  (Verdicts.start.next Ed25519.sample (adopts 1000 holder)).next Ed25519.sample
    (adopts 50000 contender)

theorem rejected_contender : contender.claimId ∈ contested.rejected := by
  refine Or.inr ⟨_, _, Turn.adopted rfl (by decide +kernel), Rejects.lost (r := contender)
    (g := registrationFromRumor holder "b") ?_ ?_ ?_⟩
  · decide +kernel
  · decide +kernel
  · decide +kernel

/-- The run of the rivals is firm. -/
theorem rejected_stay_out_contested :
    contender.claimId ∈ contested.rejected ∧
      ∀ c ∈ contested.rejected, ¬ contested.clocked.store.Returns c := by
  have hfirst : Firm Ed25519.sample Verdicts.start.clocked.store Verdicts.start.rejected
      (adopts 1000 holder) := firm_of_first rfl rfl
  have hempty : (Verdicts.start.next Ed25519.sample (adopts 1000 holder)).clocked.store.claims
      (quotaKey contender.rdns) = ClaimTable.empty := by
    have hv : ClaimTable.Valid Ed25519.sample 1000 holder :=
      ⟨isAuthorized_lease _ _ _ _ _, withinWindow_self 1000⟩
    calc (Verdicts.start.next Ed25519.sample (adopts 1000 holder)).clocked.store.claims
          (quotaKey contender.rdns)
        = (new.adoptRumor Ed25519.sample holder 1000).2.claims (quotaKey contender.rdns) := rfl
      _ = (new.filed Ed25519.sample holder 1000).claims (quotaKey contender.rdns) := by
          rw [adoptRumor_snd_of_valid hv]
      _ = ClaimTable.empty := claims_filed_new (by decide)
  have hsecond : Firm Ed25519.sample
      (Verdicts.start.next Ed25519.sample (adopts 1000 holder)).clocked.store
      (Verdicts.start.next Ed25519.sample (adopts 1000 holder)).rejected (adopts 50000 contender) :=
    firm_of_first rfl hempty
  have hrun : Verdicts.Runs Ed25519.sample
      (fun v e => Firm Ed25519.sample v.clocked.store v.rejected e) Verdicts.start contested :=
    (Run.Reaches.refl _).tail ⟨by decide, hfirst⟩ |>.tail ⟨by decide, hsecond⟩
  exact ⟨rejected_contender, rejected_stay_out hrun⟩

/-- **A rejected claim is promoted.**  The holder's lease expires, and the contender's does
not. -/
theorem rejected_is_promoted :
    ¬ ∀ v, Verdicts.Runs Ed25519.sample (fun _ _ => True) Verdicts.start v →
      ∀ c ∈ v.rejected, ¬ v.clocked.store.Returns c := by
  intro h
  have hrun : Verdicts.Runs Ed25519.sample (fun _ _ => True) Verdicts.start
      ((contested.next Ed25519.sample (reclaims 70000)).next Ed25519.sample (reclaims 70000)) :=
    Run.Reaches.tail (Run.Reaches.tail (Run.Reaches.tail (Run.Reaches.tail (Run.Reaches.refl _)
      ⟨by decide, trivial⟩) ⟨by decide, trivial⟩) ⟨by decide, trivial⟩) ⟨by decide, trivial⟩
  have hsub : ∀ c, ¬ Submitted Ed25519.sample (reclaims 70000) c := by
    rintro c ⟨r, op, _⟩
    cases op
  have hrej : contender.claimId ∈ ((contested.next Ed25519.sample (reclaims 70000)).next
      Ed25519.sample (reclaims 70000)).rejected :=
    Or.inl ⟨Or.inl ⟨rejected_contender, hsub _⟩, hsub _⟩
  exact h _ hrun _ hrej ⟨registrationFromRumor contender "a", by decide +kernel, rfl⟩

end RegistryStore

end Binda
