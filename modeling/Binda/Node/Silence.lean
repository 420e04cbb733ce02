import Binda.Node.Network
import Binda.Registry.Expiry

/-!
# Silent clients

A client is silent from some time on if no datagram that arrives anywhere in the run has a probe
or a registration which it has signed for a later time (`SilentSince`).  What it has signed before
is still around, and may be sent again by anyone, to any node.

* `Dated`: then no claim of the client and none of its evidence at any node is of a later time
  (`dated_past`).
* `Kept`: what a store does with the names of one client is to keep some of them.  Once the
  client has been silent for longer than the window, every event is of this kind (`kept_after`).
* `replay_renews_nothing`: so no node gets a name of the client any more, whatever is sent
  again, delayed or forged without its key, and a node that reclaims has no lease of it left.
-/

namespace Binda

/-! ### What is signed -/

/-- A request that has a probe or a registration of the client for later than `t`. -/
def ClientRequest.Renews (E : Ed25519) (client : ClientIdentity) (t : UInt64) :
    ClientRequest → Prop
  | .probe envelope => t.toNat < envelope.timestampMillis.toNat ∧
    client.Signed E (probeMessage envelope.timestampMillis) envelope.signature
  | .register envelope => t.toNat < envelope.timestampMillis.toNat ∧
    client.Signed E (registerMessage envelope.body.domain envelope.timestampMillis)
      envelope.signature
  | .setRecords _ => False

/-- A rumor that has a probe of the client for later than `t`. -/
def RegistrationRumor.Renews (E : Ed25519) (client : ClientIdentity) (t : UInt64)
    (r : RegistrationRumor) : Prop :=
  t.toNat < r.probeTimestampMillis.toNat ∧
    client.Signed E (probeMessage r.probeTimestampMillis) r.probeSignature

/-- What a store is handed has one. -/
def Operation.Renews (E : Ed25519) (client : ClientIdentity) (t : UInt64) : Operation → Prop
  | .request req _ => req.Renews E client t
  | .adoptRumor r => r.Renews E client t
  | .reclaimStale => False

namespace RegistryStore

variable {E : Ed25519} {s s' s'' : RegistryStore} {now t : UInt64} {d : DomainName} {q : String}
  {r : RegistrationRumor} {client other : ClientIdentity}

/-! ### Dates -/

/-- The claims of the client, and its evidence, have probes of up to `t`. -/
structure Dated (client : ClientIdentity) (t : UInt64) (s : RegistryStore) : Prop where
  claimed : ∀ q d w, (s.claims q).lookup d = some w → w.clientKey = client.key →
    w.probeTimestampMillis.toNat ≤ t.toNat
  evidence : ∀ ts sig, s.probeEvidence.lookup client.key = some (ts, sig) → ts.toNat ≤ t.toNat

theorem dated_new : Dated client t new where
  claimed q d w h := by cases h
  evidence ts sig h := by cases h

theorem Dated.submit (h : Dated client t s)
    (hr : r.clientKey = client.key → r.probeTimestampMillis.toNat ≤ t.toNat) :
    Dated client t (s.submit q r) where
  claimed q' d w hw := by
    rw [claims_submit] at hw
    split at hw
    · rw [ClaimTable.lookup_insert] at hw
      split at hw
      · obtain rfl := Option.some.inj hw
        exact hr
      · exact h.claimed q d w hw
    · exact h.claimed q' d w hw
  evidence := h.evidence

theorem Dated.reconcileQuota (h : Dated client t s) :
    Dated client t (s.reconcileQuota E q now) where
  claimed q' d w hw := by
    rw [claims_reconcileQuota] at hw
    split at hw
    · exact h.claimed q d w (ClaimTable.lookup_settle.mp hw).1
    · exact h.claimed q' d w hw
  evidence ts sig hev := by
    rw [probeEvidence_reconcileQuota] at hev
    exact h.evidence ts sig hev

theorem Dated.filed (h : Dated client t s)
    (hr : r.clientKey = client.key → r.probeTimestampMillis.toNat ≤ t.toNat) :
    Dated client t (s.filed E r now) :=
  (h.submit hr).reconcileQuota

theorem Dated.dropExpired (h : Dated client t s) : Dated client t (s.dropExpired now) where
  claimed := h.claimed
  evidence := h.evidence

theorem Dated.reclaimStale (h : Dated client t s) (order : VisitOrder String) :
    Dated client t (s.reclaimStale E order now) :=
  reclaimStale_induction h.dropExpired fun _ _ _ hu => hu.reconcileQuota

/-- A probe of the client is for `t` at the latest. -/
theorem Dated.probed {ts : UInt64} {sig : List UInt8} (h : Dated client t s)
    (hts : other = client → ts.toNat ≤ t.toNat) : Dated client t (s.probed other now ts sig) where
  claimed q d w hw hk := by
    obtain ⟨w₀, hw₀, rfl⟩ := lookup_claims_probed_eq_some.mp hw
    have hold := h.claimed q d w₀ hw₀
    rw [RegistrationRumor.refreshed] at hk ⊢
    split at hk
    · rename_i hother
      rw [if_pos hother]
      exact hts (ClientIdentity.key_injective (hother.symm.trans hk))
    · rename_i hother
      rw [if_neg hother]
      exact hold hk
  evidence ts' sig' hev := by
    rw [probeEvidence_probed] at hev
    split at hev
    · rename_i hk
      rw [← (Prod.mk.inj (Option.some.inj hev)).1]
      exact hts (ClientIdentity.key_injective hk).symm
    · exact h.evidence ts' sig' hev

theorem Dated.published {records : List Record} {ts : UInt64} {sig : List UInt8}
    {g : Registration} (h : Dated client t s) (hg : s.lookup d = some g)
    (hown : g.clientKey = other.key) : Dated client t (s.published other d records ts sig) where
  claimed q d' w hw hk := by
    obtain ⟨w₀, hw₀, rfl | rfl⟩ := exists_claim_of_published hg hown hw
    · exact h.claimed q d' w hw₀ hk
    · have hold := h.claimed q d' w₀ hw₀
      rw [RegistrationRumor.recordsSigned] at hk ⊢
      split at hk
      · rename_i hother
        rw [if_pos hother]
        exact hold hk
      · rename_i hother
        rw [if_neg hother]
        exact hold hk
  evidence ts' sig' hev := by
    rw [probeEvidence_published] at hev
    exact h.evidence ts' sig' hev

theorem Dated.granted {token : RegistrationToken} (h : Dated client t s) :
    Dated client t (s.granted other d token) where
  claimed := h.claimed
  evidence := h.evidence

/-- A rumor that is authorized and does not renew the client is dated. -/
theorem dated_of_valid (hr : ¬ r.Renews E client t) (hv : ClaimTable.Valid E now r)
    (hk : r.clientKey = client.key) : r.probeTimestampMillis.toNat ≤ t.toNat := by
  obtain ⟨owner, howner⟩ := RegistrationRumor.isAuthorized_iff.mp hv.1
  obtain rfl := ClientIdentity.key_injective (howner.clientKey.symm.trans hk)
  exact Nat.not_lt.mp fun hlt => hr ⟨hlt, howner.probed⟩

theorem Dated.adoptAll {l : List RegistrationRumor} (h : Dated client t s)
    (hl : ∀ r ∈ l, ¬ r.Renews E client t) : Dated client t (s.adoptAll E now l) :=
  adoptAll_induction h fun _ r hr hv hu => hu.filed (dated_of_valid (hl r hr) hv)

/-- **An event that does not renew the client leaves the dates as they are.** -/
theorem Dated.after {e : Event} (h : Dated client t s) (hrenews : ¬ e.op.Renews E client t) :
    Dated client t (s.after E e) := by
  obtain ⟨answer, s', ho, heq⟩ := exists_change E s e
  rw [heq]
  cases ho with
  | idle _ _ => exact h
  | probed op ha =>
    refine h.probed fun hother => Nat.not_lt.mp fun hlt => ?_
    rw [op] at hrenews
    exact hrenews ⟨hlt, hother ▸ (authenticate_eq_ok.mp ha).2.2.2⟩
  | published _ _ hg hk => exact h.published hg hk
  | adopted op hv =>
    rw [op] at hrenews
    exact h.filed (dated_of_valid hrenews hv)
  | reclaimed _ _ => exact h.reclaimStale _
  | panicked _ _ => exact (h.reclaimStale _).granted
  | @leased envelope other evidence _ found =>
    refine (h.reclaimStale _).granted.filed fun hk => ?_
    -- the lease has the probe that the evidence is of
    refine h.evidence evidence.1 evidence.2 ?_
    rw [← hk]
    exact found

/-! ### What is kept -/

/-- A name of the client in `s'` is one in `s`, with the same token, and has a lease only if it
had one. -/
def Kept (client : ClientIdentity) (s s' : RegistryStore) : Prop :=
  ∀ d g, s'.lookup d = some g → g.clientKey = client.key →
    ∃ g₀, s.lookup d = some g₀ ∧ g₀.clientKey = client.key ∧ g₀.token = g.token ∧
      (g₀.rumor = none → g.rumor = none)

/-- No name of the client has a lease. -/
def Lapsed (client : ClientIdentity) (s : RegistryStore) : Prop :=
  ∀ d g, s.lookup d = some g → g.clientKey = client.key → g.rumor = none

theorem Kept.refl (s : RegistryStore) : Kept client s s :=
  fun _ g hg hk => ⟨g, hg, hk, rfl, id⟩

theorem Kept.trans (h : Kept client s s') (h' : Kept client s' s'') : Kept client s s'' := by
  intro d g hg hk
  obtain ⟨g₁, hg₁, hk₁, ht₁, hr₁⟩ := h' d g hg hk
  obtain ⟨g₀, hg₀, hk₀, ht₀, hr₀⟩ := h d g₁ hg₁ hk₁
  exact ⟨g₀, hg₀, hk₀, ht₀.trans ht₁, hr₁ ∘ hr₀⟩

theorem Kept.lapsed (h : Kept client s s') (hs : Lapsed client s) : Lapsed client s' := by
  intro d g hg hk
  obtain ⟨g₀, hg₀, hk₀, -, hr⟩ := h d g hg hk
  exact hr (hs d g₀ hg₀ hk₀)

/-- A live lease is not dated so early. -/
theorem clientKey_ne_of_live (hlate : t.toNat + 60000 < now.toNat)
    (hdated : r.clientKey = client.key → r.probeTimestampMillis.toNat ≤ t.toNat)
    (hlive : withinWindow r.probeTimestampMillis now = true) : r.clientKey ≠ client.key := by
  intro hk
  have hle := hdated hk
  have hnow := withinWindow_iff.mp hlive
  omega

/-- A reconciliation installs valid claims only. -/
theorem Kept.reconcileQuota (h : Dated client t s) (hlate : t.toNat + 60000 < now.toNat)
    (hq : s.Filed q) : Kept client s (s.reconcileQuota E q now) := by
  intro d g hg hk
  rcases lookup_reconcileQuota_cases hq hg with ⟨r, hr, rfl⟩ | ⟨hg₀, -⟩
  · obtain ⟨hr, hv, -⟩ := ClaimTable.lookup_settle.mp hr
    exact absurd hk (clientKey_ne_of_live hlate (h.claimed q d r hr) hv.2)
  · exact ⟨g, hg₀, hk, rfl, id⟩

theorem Kept.filed (h : Dated client t s) (hlate : t.toNat + 60000 < now.toNat)
    (hr : r.clientKey = client.key → r.probeTimestampMillis.toNat ≤ t.toNat) :
    Kept client s (s.filed E r now) := by
  have hsubmit : Kept client s (s.submit (quotaKey r.rdns) r) := Kept.refl s
  exact hsubmit.trans (Kept.reconcileQuota (h.submit hr) hlate (filed_submit r))

theorem Kept.reclaimStale (h : Dated client t s) (hlate : t.toNat + 60000 < now.toNat)
    (order : VisitOrder String) : Kept client s (s.reclaimStale E order now) := by
  refine (reclaimStale_induction (P := fun u => Dated client t u ∧ Kept client s u)
    ⟨h.dropExpired, ?_⟩ ?_).2
  · intro d g hg hk
    exact ⟨g, (lookup_dropExpired_eq_some.mp hg).1, hk, rfl, id⟩
  · rintro u q hq ⟨hdated, hkept⟩
    exact ⟨hdated.reconcileQuota, hkept.trans (Kept.reconcileQuota hdated hlate hq)⟩

theorem Kept.probed {ts : UInt64} {sig : List UInt8} :
    Kept client s (s.probed other now ts sig) := by
  intro d g hg hk
  obtain ⟨g₀, hg₀, rfl⟩ := lookup_probed_eq_some.mp hg
  rw [Registration.refreshed_clientKey] at hk
  exact ⟨g₀, hg₀, hk, by rw [Registration.refreshed_token],
    Registration.refreshed_rumor_eq_none.mpr⟩

theorem Kept.published {records : List Record} {ts : UInt64} {sig : List UInt8}
    {g₀ : Registration} (hg₀ : s.lookup d = some g₀) (hown : g₀.clientKey = other.key) :
    Kept client s (s.published other d records ts sig) := by
  intro d' g hg hk
  rw [lookup_published hg₀ hown] at hg
  split at hg
  · rename_i hd
    obtain rfl := Option.some.inj hg
    rw [hd]
    exact ⟨g₀, hg₀, hk, rfl, Option.map_eq_none_iff.mpr⟩
  · exact ⟨g, hg, hk, rfl, id⟩

/-- A registration is granted to another client. -/
theorem Kept.granted {token : RegistrationToken} (hne : other ≠ client) :
    Kept client s (s.granted other d token) := by
  intro d' g hg hk
  rw [lookup_granted] at hg
  split at hg
  · obtain rfl := Option.some.inj hg
    exact absurd (ClientIdentity.key_injective hk) hne
  · exact ⟨g, hg, hk, rfl, id⟩

/-- A request of the client itself would have to be fresh. -/
theorem GrantedBy.ne_of_silent {e : Event} {envelope : SignedEnvelope RegisterBody}
    (hrenews : ¬ e.op.Renews E client t) (hlate : t.toNat + 60000 < e.now.toNat)
    (h : GrantedBy E s e envelope other) : other ≠ client := by
  rintro rfl
  obtain ⟨hfresh, -, -, hsigned⟩ := authenticate_eq_ok.mp h.authentic
  have hnow := isFresh_iff.mp hfresh
  rw [h.op] at hrenews
  exact hrenews ⟨by omega, hsigned⟩

/-- **No event gives anything to a client that has been silent for the window.** -/
theorem kept_after {e : Event} (h : Dated client t s) (hrenews : ¬ e.op.Renews E client t)
    (hlate : t.toNat + 60000 < e.now.toNat) : Kept client s (s.after E e) := by
  obtain ⟨answer, s', ho, heq⟩ := exists_change E s e
  rw [heq]
  cases ho with
  | idle _ _ => exact Kept.refl s
  | probed _ _ => exact Kept.probed
  | published _ _ hg hk => exact Kept.published hg hk
  | adopted op hv =>
    rw [op] at hrenews
    exact Kept.filed h hlate (dated_of_valid hrenews hv)
  | reclaimed _ _ => exact Kept.reclaimStale h hlate _
  | panicked hg _ =>
    exact (Kept.reclaimStale h hlate _).trans (Kept.granted (hg.ne_of_silent hrenews hlate))
  | leased hg _ =>
    have hne := hg.ne_of_silent hrenews hlate
    refine ((Kept.reclaimStale h hlate _).trans (Kept.granted hne)).trans
      (Kept.filed (h.reclaimStale _).granted hlate fun hk => ?_)
    exact absurd (ClientIdentity.key_injective hk) hne

/-- Reclaiming leaves no lease of such a client. -/
theorem lapsed_reclaimStale (hc : Consistent E s) (h : Dated client t s)
    (hlate : t.toNat + 60000 < now.toNat) (order : VisitOrder String) :
    Lapsed client (s.reclaimStale E order now) := by
  intro d g hg hk
  cases hr : g.rumor with
  | none => rfl
  | some r =>
    have hlive := hc.allLive_reclaimStale order d g hg
    rw [provenLive_of_rumor hr] at hlive
    have hleased := (hc.reclaimStale order).leased d g r hg hr not_false
    -- the lease is a copy of a claim
    obtain ⟨records, hcopy⟩ := hleased.copy
    have hdated := (h.reclaimStale order).claimed _ d _ hcopy
    rw [hleased.clientKey] at hk
    exact absurd hk (clientKey_ne_of_live hlate hdated hlive)

/-- **An event that reclaims leaves no lease of such a client.** -/
theorem lapsed_after {e : Event} (hc : Consistent E s) (h : Dated client t s)
    (hrenews : ¬ e.op.Renews E client t) (hlate : t.toNat + 60000 < e.now.toNat)
    (hreclaims : Reclaims E s e) : Lapsed client (s.after E e) := by
  obtain ⟨answer, s', ho, heq⟩ := exists_change E s e
  rw [heq]
  have hlapsed := lapsed_reclaimStale hc h hlate e.env.order
  cases ho with
  | idle _ h => exact absurd hreclaims h
  | probed op _ =>
    exact absurd hreclaims (not_reclaims_of_op op (fun _ h => by cases h) fun h => by cases h)
  | published op _ _ _ =>
    exact absurd hreclaims (not_reclaims_of_op op (fun _ h => by cases h) fun h => by cases h)
  | adopted op _ =>
    exact absurd hreclaims (not_reclaims_of_op op (fun _ h => by cases h) fun h => by cases h)
  | reclaimed _ _ => exact hlapsed
  | panicked hg _ => exact (Kept.granted (hg.ne_of_silent hrenews hlate)).lapsed hlapsed
  | leased hg _ =>
    have hne := hg.ne_of_silent hrenews hlate
    refine (Kept.filed (h.reclaimStale _).granted hlate fun hk => ?_).lapsed
      ((Kept.granted hne).lapsed hlapsed)
    exact absurd (ClientIdentity.key_injective hk) hne

theorem Kept.adoptAll {l : List RegistrationRumor} (h : Dated client t s)
    (hl : ∀ r ∈ l, ¬ r.Renews E client t) (hlate : t.toNat + 60000 < now.toNat) :
    Kept client s (s.adoptAll E now l) := by
  refine (adoptAll_induction (P := fun u => Dated client t u ∧ Kept client s u)
    ⟨h, Kept.refl s⟩ ?_).2
  rintro u r hr hv ⟨hdated, hkept⟩
  have hdate := dated_of_valid (hl r hr) hv
  exact ⟨hdated.filed hdate, hkept.trans (Kept.filed hdated hlate hdate)⟩

end RegistryStore

/-! ### Nodes -/

namespace DaemonEvent

variable {Address : Type}

/-- The clock at which the round changes the store, if it can. -/
def clock? : DaemonEvent Address → Option UInt64
  | .gossip _ env => some env.now
  | .api _ env _ => some env.now
  | .resolver _ | .dns _ | .push _ _ | .maintenance _ => none

/-- A datagram arrives that has a probe or a registration of the client for later than `t`. -/
def Renews (E : Ed25519) (parse : ByteArray → Option Json) (client : ClientIdentity) (t : UInt64) :
    DaemonEvent Address → Prop
  | .gossip r _ => ∃ rumors answer,
    decode parse GossipMessage.deserialize r.received = .ok (.rumors rumors answer) ∧
      ∃ w ∈ rumors, w.Renews E client t
  | .api r _ _ => ∃ request,
    decode parse ClientRequest.deserialize r.received = .ok request ∧ request.Renews E client t
  | .resolver _ | .dns _ | .push _ _ | .maintenance _ => False

end DaemonEvent

namespace Daemon

open RegistryStore

variable {Address : Type} [DecidableEq Address] {E : Ed25519}
  {parse : ByteArray → Option Json} {ip : Address → Fcrdns.IpAddr} {d : Daemon Address}
  {e : DaemonEvent Address} {client : ClientIdentity} {t : UInt64} {initial : List Address}
  {verifier : RdnsVerifier} {es : List (DaemonEvent Address)}

/-- In the round a registration is asked for, by a client that is verified and live: then the
stale registrations are reclaimed, whether it is granted or not. -/
def Reclaims (E : Ed25519) (parse : ByteArray → Option Json) (ip : Address → Fcrdns.IpAddr)
    (d : Daemon Address) (e : DaemonEvent Address) : Prop :=
  ∃ r env lookups envelope, e = .api r env lookups ∧ d.apiRunning = true ∧
    d.allows .api r = true ∧
    decode parse ClientRequest.deserialize r.received = .ok (.register envelope) ∧
    d.verifier.verify lookups (ip r.sender) envelope.rdns = true ∧
    RegistryStore.Reclaims E d.node.store { env, op := .request (.register envelope) true }

/-- The rumors that are handed to the store are those of the datagram. -/
theorem not_renews_of_handed {r : Receipt Address} {env : GossipAmbient Address}
    {message : GossipMessage} (hrenews : ¬ (DaemonEvent.gossip r env).Renews E parse client t)
    (hdecode : decode parse GossipMessage.deserialize r.received = .ok message) :
    ∀ w ∈ d.node.handed r.sender message, ¬ w.Renews E client t := by
  intro w hw hrenewed
  obtain ⟨_, rumors, _, rfl, hhanded, _⟩ := Node.mem_handed hw
  rw [hhanded] at hw
  exact hrenews ⟨rumors, _, hdecode, w, hw, hrenewed⟩

theorem dated_round (h : Dated client t d.node.store) (hrenews : ¬ e.Renews E parse client t) :
    Dated client t (d.after E parse ip e).node.store := by
  rcases store_after_cases E parse ip d e with heq | ⟨r, env, message, rfl, hdecode, heq⟩ |
    ⟨r, env, lookups, request, rfl, -, hdecode, heq⟩
  · rw [heq]
    exact h
  · rw [heq]
    exact h.adoptAll (not_renews_of_handed hrenews hdecode)
  · rw [heq]
    exact h.after fun hrenewed => hrenews ⟨request, hdecode, hrenewed⟩

/-- **What no datagram renews stays dated.** -/
theorem dated_past (hrenews : ∀ e ∈ es, ¬ e.Renews E parse client t) :
    Dated client t (past E parse ip initial verifier es).node.store := by
  induction es using List.reverseRecOn with
  | nil => exact dated_new
  | append_singleton es e ih =>
    rw [past_concat]
    exact dated_round (ih fun e' he' => hrenews e' (List.mem_append_left _ he'))
      (hrenews e (List.mem_append_right _ (List.mem_singleton_self e)))

/-- **No round gives anything to a client that has been silent for the window**, whatever is
received. -/
theorem kept_round (h : Dated client t d.node.store) (hrenews : ¬ e.Renews E parse client t)
    (hlate : ∀ now, e.clock? = some now → t.toNat + 60000 < now.toNat) :
    Kept client d.node.store (d.after E parse ip e).node.store := by
  rcases store_after_cases E parse ip d e with heq | ⟨r, env, message, rfl, hdecode, heq⟩ |
    ⟨r, env, lookups, request, rfl, -, hdecode, heq⟩
  · rw [heq]
    exact Kept.refl _
  · rw [heq]
    exact Kept.adoptAll h (not_renews_of_handed hrenews hdecode) (hlate env.now rfl)
  · rw [heq]
    exact kept_after h (fun hrenewed => hrenews ⟨request, hdecode, hrenewed⟩) (hlate env.now rfl)

theorem kept_past {later : List (DaemonEvent Address)}
    (hrenews : ∀ e ∈ es ++ later, ¬ e.Renews E parse client t)
    (hlate : ∀ e ∈ later, ∀ now, e.clock? = some now → t.toNat + 60000 < now.toNat) :
    Kept client (past E parse ip initial verifier es).node.store
      (past E parse ip initial verifier (es ++ later)).node.store := by
  induction later using List.reverseRecOn with
  | nil =>
    rw [List.append_nil]
    exact Kept.refl _
  | append_singleton later e ih =>
    rw [← List.append_assoc] at hrenews ⊢
    have hbefore : ∀ e' ∈ es ++ later, ¬ e'.Renews E parse client t :=
      fun e' he' => hrenews e' (List.mem_append_left _ he')
    have hlast : e ∈ later ++ [e] := List.mem_append_right _ (List.mem_singleton_self e)
    rw [past_concat]
    exact (ih hbefore fun e' he' => hlate e' (List.mem_append_left _ he')).trans
      (kept_round (dated_past hbefore)
        (hrenews e (List.mem_append_right _ (List.mem_singleton_self e))) (hlate e hlast))

/-- **A round that reclaims leaves no lease of such a client.** -/
theorem lapsed_round (hc : Consistent E d.node.store) (h : Dated client t d.node.store)
    (hrenews : ¬ e.Renews E parse client t)
    (hlate : ∀ now, e.clock? = some now → t.toNat + 60000 < now.toNat)
    (hreclaims : d.Reclaims E parse ip e) :
    Lapsed client (d.after E parse ip e).node.store := by
  obtain ⟨r, env, lookups, envelope, rfl, hrunning, hallows, hdecode, hverified, hstore⟩ :=
    hreclaims
  rw [node_after, arrival, if_pos ⟨hrunning, hallows⟩]
  dsimp only
  rw [Node.arrive, Arrival.event, hdecode]
  have hrdns : d.rdnsVerified ip lookups r.sender (.register envelope) = true := hverified
  dsimp only
  rw [hrdns]
  exact lapsed_after (e := { env, op := .request (.register envelope) true }) hc h
    (fun hrenewed => hrenews ⟨_, hdecode, hrenewed⟩) (hlate env.now rfl) hstore

end Daemon

/-! ### Networks -/

namespace Network

open RegistryStore

variable {Host Address : Type} [DecidableEq Host] [DecidableEq Address] {E : Ed25519}
  {parse : ByteArray → Option Json} {ip : Address → Fcrdns.IpAddr} {net : Network Host Address}
  {peers : Host → List Address} {verifier : Host → RdnsVerifier} {client : ClientIdentity}
  {t : UInt64} {events : List (Host × DaemonEvent Address)}

/-- No datagram that arrives at some node has a probe or a registration of the client for later
than `t`. -/
def SilentSince (E : Ed25519) (parse : ByteArray → Option Json) (client : ClientIdentity)
    (t : UInt64) (events : List (Host × DaemonEvent Address)) : Prop :=
  ∀ event ∈ events, ¬ event.2.Renews E parse client t

/-- The rounds that can change a store are all at clocks later than the window after `t`. -/
def AllLate (t : UInt64) (events : List (Host × DaemonEvent Address)) : Prop :=
  ∀ event ∈ events, ∀ now, event.2.clock? = some now → t.toNat + 60000 < now.toNat

/-- **Replay renews nothing.**  Where no datagram has anything of a client for later than `t`, no
node gets a name of it once the window after `t` is over, and none of its names gets a lease,
whatever datagrams are lost, repeated, delayed, redirected or forged; and a node at which a
registration makes it as far as reclaiming has no lease of it from then on. -/
theorem replay_renews_nothing (E : Ed25519) (parse : ByteArray → Option Json)
    (ip : Address → Fcrdns.IpAddr) (peers : Host → List Address)
    (verifier : Host → RdnsVerifier) {client : ClientIdentity} {t : UInt64}
    {before after : List (Host × DaemonEvent Address)}
    (hsilent : SilentSince E parse client t (before ++ after)) (hlate : AllLate t after)
    (host : Host) :
    Kept client ((run E parse ip peers verifier before).daemon host).node.store
        ((run E parse ip peers verifier (before ++ after)).daemon host).node.store ∧
      ∀ l e m, after = l ++ (host, e) :: m →
        ((run E parse ip peers verifier (before ++ l)).daemon host).Reclaims E parse ip e →
        Lapsed client
          ((run E parse ip peers verifier (before ++ after)).daemon host).node.store := by
  have hrenews : ∀ e ∈ rounds host (before ++ after), ¬ e.Renews E parse client t :=
    fun e he => hsilent _ (mem_rounds.mp he)
  have hclocks : ∀ e ∈ rounds host after, ∀ now, e.clock? = some now →
      t.toNat + 60000 < now.toNat := fun e he => hlate _ (mem_rounds.mp he)
  rw [daemon_run, daemon_run, rounds_append]
  rw [rounds_append] at hrenews
  refine ⟨Daemon.kept_past hrenews hclocks, ?_⟩
  rintro l e m rfl hreclaims
  rw [daemon_run, rounds_append] at hreclaims
  rw [rounds_append, rounds_cons_self] at hrenews hclocks ⊢
  rw [List.append_cons, ← List.append_assoc, ← List.append_assoc] at hrenews ⊢
  have hbefore : ∀ e' ∈ rounds host before ++ rounds host l, ¬ e'.Renews E parse client t :=
    fun e' he' => hrenews e' (List.mem_append_left _ (List.mem_append_left _ he'))
  have hround := hrenews e (List.mem_append_left _
    (List.mem_append_right _ (List.mem_singleton_self e)))
  have hlapsed := Daemon.lapsed_round (Daemon.consistent_past _) (Daemon.dated_past hbefore) hround
    (hclocks e (List.mem_append_right _ List.mem_cons_self)) hreclaims
  rw [← Daemon.past_concat] at hlapsed
  exact (Daemon.kept_past hrenews fun e' he' =>
    hclocks e' (List.mem_append_right _ (List.mem_cons_of_mem _ he'))).lapsed hlapsed

/-! ### A run with replays -/

section Sample

open Daemon

/-- Another client of the host. -/
def neighbour : ClientIdentity := sampleClient 2 "h.net."

/-- A request arrives once the window is over. -/
def requesting (request : ClientRequest) : DaemonEvent Bool :=
  .api (requestFrom false request) (sampleAmbient 61001 0) confirming

/-- The reply is sent again. -/
def replaying : DaemonEvent Bool :=
  .gossip (atOnce.receipt true (gossipText tenantReply)) (Node.sampleGossip 61001)

/-- The requests of the client are sent again to the one node, and the reply to the other, where
another client registers a name. -/
def replayed : List (Bool × DaemonEvent Bool) :=
  [(true, requesting (tenant.probeRequest 1000)),
    (true, requesting (tenant.registerRequest 1000 ⟨"name"⟩)), (false, replaying),
    (false, requesting (neighbour.probeRequest 61001)),
    (false, requesting (neighbour.registerRequest 61001 ⟨"other"⟩))]

theorem request_of_renews {request : ClientRequest} {sender : Bool} {env : Ambient}
    {lookups : Lookups} {client : ClientIdentity} {t : UInt64}
    (hsize : (ClientRequest.serialize request).size ≤ maxDatagramBytes)
    (h : (DaemonEvent.api (requestFrom sender request) env lookups).Renews Ed25519.sample readText
      client t) : request.Renews Ed25519.sample client t := by
  obtain ⟨request', hdecode, hrenews⟩ := h
  have hread : decode readText ClientRequest.deserialize (requestFrom sender request).received =
      .ok request :=
    decode_of_encode (readsWritten_readText plain_request) readsBack_request
      (encode_requestFrom hsize)
  rw [hread] at hdecode
  obtain rfl := Except.ok.inj hdecode
  exact hrenews

theorem rumors_of_renews {message : GossipMessage} {sender : Bool} {env : GossipAmbient Bool}
    {client : ClientIdentity} {t : UInt64}
    (hsize : (GossipMessage.serialize message).size ≤ maxDatagramBytes)
    (h : (DaemonEvent.gossip (atOnce.receipt sender (gossipText message)) env).Renews
      Ed25519.sample readText client t) :
    ∃ rumors answer, message = .rumors rumors answer ∧
      ∃ w ∈ rumors, w.Renews Ed25519.sample client t := by
  obtain ⟨rumors, answer, hdecode, hrenews⟩ := h
  have hread : decode readText GossipMessage.deserialize
      (atOnce.receipt sender (gossipText message)).received = .ok message :=
    decode_of_encode (readsWritten_readText plain_gossip) readsBack_gossip
      (encode_of_size_le hsize)
  rw [hread] at hdecode
  exact ⟨rumors, answer, Except.ok.inj hdecode, hrenews⟩

/-- A stamp is that of one key. -/
theorem not_signed_neighbour {m m' : ByteArray} :
    ¬ tenant.Signed Ed25519.sample m (stamp neighbour.verifyingKey m') := by
  rintro ⟨-, s, hs, hverifies⟩
  have hneighbour : stamp neighbour.verifyingKey m' = s.toList := Vector.ofBytes?_eq_some.mp hs
  have htenant : s.toList = stampBytes tenant.verifyingKey m.data.toList :=
    of_decide_eq_true hverifies
  have hfirst := (List.cons.inj (hneighbour.trans htenant)).1
  exact absurd hfirst (by decide)

/-- The client has signed for one instant only. -/
theorem silentSince_replayed :
    SilentSince Ed25519.sample readText tenant 1000 (tenancy ++ replayed) := by
  have hprobe : ¬ (tenant.probeRequest 1000).Renews Ed25519.sample tenant 1000 :=
    fun h => Nat.lt_irrefl _ h.1
  have hregister : ¬ (tenant.registerRequest 1000 ⟨"name"⟩).Renews Ed25519.sample tenant 1000 :=
    fun h => Nat.lt_irrefl _ h.1
  have hreply : ∀ env, ¬ (DaemonEvent.gossip (atOnce.receipt true (gossipText tenantReply))
      env).Renews Ed25519.sample readText tenant 1000 := by
    intro env h
    obtain ⟨rumors, answer, heq, w, hw, hrenews⟩ := rumors_of_renews (by decide +kernel) h
    obtain ⟨rfl, -⟩ := GossipMessage.rumors.inj heq
    rw [List.mem_singleton.mp hw] at hrenews
    exact Nat.lt_irrefl _ hrenews.1
  intro event hevent
  simp only [tenancy, letting, renting, replayed, List.map_cons, List.map_nil, List.cons_append,
    List.nil_append, List.mem_cons, List.not_mem_nil, or_false] at hevent
  rcases hevent with rfl | rfl | rfl | rfl | rfl | rfl | rfl | rfl | rfl | rfl | rfl
  · exact fun h => hprobe (request_of_renews (by decide +kernel) h)
  · exact fun h => hregister (request_of_renews (by decide +kernel) h)
  · exact id
  · intro h
    obtain ⟨_, _, heq, _⟩ := rumors_of_renews (by decide +kernel) h
    cases heq
  · intro h
    obtain ⟨_, _, heq, _⟩ := rumors_of_renews (by decide +kernel) h
    cases heq
  · exact hreply _
  · exact fun h => hprobe (request_of_renews (by decide +kernel) h)
  · exact fun h => hregister (request_of_renews (by decide +kernel) h)
  · exact hreply _
  · exact fun h => not_signed_neighbour (request_of_renews (by decide +kernel) h).2
  · exact fun h => not_signed_neighbour (request_of_renews (by decide +kernel) h).2

theorem allLate_replayed : AllLate 1000 replayed := by
  intro event hevent now hnow
  simp only [replayed, List.mem_cons, List.not_mem_nil, or_false] at hevent
  rcases hevent with rfl | rfl | rfl | rfl | rfl <;>
  · obtain rfl := Option.some.inj hnow
    decide

/-- A node that only gossips goes on to listen to clients, and its limiter has not been asked. -/
theorem api_gossiped {es : List (DaemonEvent Bool)} (hes : ∀ e ∈ es, ∃ r env, e = .gossip r env) :
    (past Ed25519.sample readText atHost [] .fcrdns es).apiRunning = true ∧
      (past Ed25519.sample readText atHost [] .fcrdns es).limiter .api =
        RateLimiter.newRateLimiter := by
  induction es using List.reverseRecOn with
  | nil => exact ⟨rfl, rfl⟩
  | append_singleton es e ih =>
    obtain ⟨hrunning, hlimiter⟩ := ih fun e' he' => hes e' (List.mem_append_left _ he')
    obtain ⟨r, env, rfl⟩ := hes e (List.mem_append_right _ (List.mem_singleton_self e))
    rw [past_concat]
    constructor
    · exact (serve_keeps apiRunning rfl fun _ => apiRunning_heardGossip).trans hrunning
    · rw [limiter_after]
      exact hlimiter

/-- Once it has accepted the probe of the other client, a node that listens reclaims when that
client registers a name. -/
theorem reclaims_of_neighbour {d : Daemon Bool} (hverifier : d.verifier = .fcrdns)
    (hrunning : d.apiRunning = true) (hlimiter : d.limiter .api = RateLimiter.newRateLimiter) :
    (d.after Ed25519.sample readText atHost
        (requesting (neighbour.probeRequest 61001))).Reclaims Ed25519.sample readText atHost
      (requesting (neighbour.registerRequest 61001 ⟨"other"⟩)) := by
  have hallows : d.allows .api (requestFrom false (neighbour.probeRequest 61001)) = true := by
    rw [allows, hlimiter]
    exact TokenBucket.visit_fst_none RateLimiter.one_le_burst
  have hfresh : isFresh 61001 61001 = true := by decide
  have hprobed := step_of_probed (E := Ed25519.sample) (s := d.node.store)
    (e := { env := sampleAmbient 61001 0, op := .request (neighbour.probeRequest 61001) true }) rfl
    (authenticate_eq_ok.mpr ⟨hfresh, rfl, rfl, signed_stamp _ _⟩)
  have hresult : d.node.store.handleClientRequest Ed25519.sample (sampleAmbient 61001 0)
      (neighbour.probeRequest 61001) (d.rdnsVerified atHost confirming false
        (neighbour.probeRequest 61001)) = (.ok .probeAck, d.node.store.probed neighbour 61001 61001
          (stamp neighbour.verifyingKey (probeMessage 61001))) :=
    Prod.ext (Option.some.inj hprobed.1) hprobed.2
  have hround : d.after Ed25519.sample readText atHost (requesting (neighbour.probeRequest 61001)) =
      { d.asked .api (requestFrom false (neighbour.probeRequest 61001)) with
        node := { d.node with
          store := d.node.store.probed neighbour 61001 61001
            (stamp neighbour.verifyingKey (probeMessage 61001)) } } := by
    rw [Daemon.after, requesting, round_of_request (readsWritten_readText plain_request)
      (encode_requestFrom (by decide +kernel)) hrunning hallows hresult]
  rw [hround]
  refine ⟨_, _, _, neighbour.envelope 61001 ⟨⟨"other"⟩⟩ (registerMessage ⟨"other"⟩ 61001), rfl,
    hrunning, allows_second (r := requestFrom false (neighbour.probeRequest 61001)) ?_, ?_, ?_,
    Or.inr ⟨_, neighbour, rfl, authenticate_eq_ok.mpr ⟨hfresh, rfl, rfl, signed_stamp _ _⟩, ?_⟩⟩
  · rw [← hlimiter]
    rfl
  · exact decode_of_encode (readsWritten_readText plain_request) readsBack_request
      (encode_requestFrom (by decide +kernel))
  · show d.verifier.verify confirming (atHost false) "h.net." = true
    rw [hverifier]
    exact Fcrdns.isForwardConfirmed_of_confirms Fcrdns.honest_samples Fcrdns.available_samples
      Fcrdns.spells_sampleHost Fcrdns.confirms_sampleZone
  · refine LivenessTracker.isLive_iff.mpr ⟨61001, lastSeen_probed.trans (if_pos rfl), ?_⟩
    exact withinWindow_self _

theorem reclaims_replayed :
    ((run Ed25519.sample readText atHost pushesTo (fun _ => .fcrdns)
        (tenancy ++ replayed.take 4)).daemon false).Reclaims Ed25519.sample readText atHost
      (requesting (neighbour.registerRequest 61001 ⟨"other"⟩)) := by
  have hgossip : ∀ e ∈ [hearing true tenantDigest, hearing true tenantReply, replaying],
      ∃ r env, e = .gossip r env := by
    intro e he
    simp only [List.mem_cons, List.not_mem_nil, or_false] at he
    rcases he with rfl | rfl | rfl <;> exact ⟨_, _, rfl⟩
  obtain ⟨hrunning, hlimiter⟩ := api_gossiped hgossip
  have hrounds : rounds false (tenancy ++ replayed.take 4) =
      [hearing true tenantDigest, hearing true tenantReply, replaying] ++
        [requesting (neighbour.probeRequest 61001)] := rfl
  rw [daemon_run, hrounds, past_concat]
  exact reclaims_of_neighbour (verifier_past _) hrunning hlimiter

end Sample

theorem replay_renews_nothing_tenancy :
    ((run Ed25519.sample readText atHost pushesTo (fun _ => .fcrdns) tenancy).daemon
        false).node.store.lookup ⟨"name"⟩ = some (registrationFromRumor tenantLease "h.net") ∧
      Kept tenant
        ((run Ed25519.sample readText atHost pushesTo (fun _ => .fcrdns) tenancy).daemon
          false).node.store
        ((run Ed25519.sample readText atHost pushesTo (fun _ => .fcrdns)
          (tenancy ++ replayed)).daemon false).node.store ∧
      Lapsed tenant ((run Ed25519.sample readText atHost pushesTo (fun _ => .fcrdns)
        (tenancy ++ replayed)).daemon false).node.store := by
  obtain ⟨hkept, hlapsed⟩ := replay_renews_nothing Ed25519.sample readText atHost pushesTo
    (fun _ => .fcrdns) silentSince_replayed allLate_replayed false
  exact ⟨lookup_tenancy, hkept, hlapsed (replayed.take 4) _ [] rfl reclaims_replayed⟩

end Network

end Binda
