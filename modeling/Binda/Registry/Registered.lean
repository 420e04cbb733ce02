import Binda.Registry.Evidence

/-!
# What an acknowledged registration is worth

A registration is granted by one set of rules and its lease filed by another.
`register` asks whether the client's host was heard of within the window and
whether the host's counter has a slot; the reconciliation that follows asks
whether the client's own probe was signed within the window and whether the new
token is among the first five of the host's claims.  If the second says no the
client is told `Registered` all the same, and holds a name without a lease.

`registered_iff` says when the two agree.
-/

namespace Binda

namespace RegistryStore

variable {E : Ed25519} {s : RegistryStore} {now : UInt64} {d : DomainName}

/-- `d` is registered to the owner under the token, by an authorized and live lease
that says the same. -/
def LeasedTo (E : Ed25519) (s : RegistryStore) (now : UInt64) (d : DomainName)
    (clientKey : String) (token : RegistrationToken) : Prop :=
  ∃ g r, s.lookup d = some g ∧ g.clientKey = clientKey ∧ g.token = token ∧ g.rumor = some r ∧
    r.clientKey = clientKey ∧ r.token = token ∧ r.isAuthorized E = true ∧
    leaseIsLive r now = true

/-- The probe the lease carries was signed within the window, and fewer than five
valid claims of its host come before it. -/
structure Leasable (E : Ed25519) (s : RegistryStore) (now : UInt64) (lease : RegistrationRumor) :
    Prop where
  probed : withinWindow lease.probeTimestampMillis now = true
  early : (s.claimsWith lease).place E now lease < maxRegistrationsPerClient

/-- The lease of a granted registration is authorized, so that nothing else can keep
it out. -/
theorem Consistent.retained_leaseFor_iff (h : Consistent E s)
    {envelope : SignedEnvelope RegisterBody} {client : ClientIdentity} {token : RegistrationToken}
    {evidence : UInt64 × List UInt8}
    (ha : authenticate E envelope (registerMessage envelope.body.domain envelope.timestampMillis)
      now = .ok client)
    (hev : s.lastProbeEvidence client = some evidence) :
    Retained E s now (leaseFor envelope client token evidence) ↔
      Leasable E s now (leaseFor envelope client token evidence) :=
  ⟨fun ⟨hv, hp⟩ => ⟨hv.2, hp⟩,
    fun ⟨hw, hp⟩ => ⟨⟨isAuthorized_leaseFor h ha hev, hw⟩, hp⟩⟩

/-- The token of a registration without a lease is not leased to anyone. -/
theorem not_leasedTo_of_leaseless {g : Registration} (hg : s.lookup d = some g)
    (hr : g.rumor = none) {k : String} {token : RegistrationToken} :
    ¬ LeasedTo E s now d k token := by
  rintro ⟨g', r, hg', _, _, hr', _⟩
  rw [hg] at hg'
  obtain rfl := Option.some.inj hg'
  rw [hr] at hr'
  cases hr'

/-- **A granted registration is leased** exactly if its lease is kept. -/
theorem Consistent.leasedTo_iff (h : Consistent E s) {e : Event}
    {envelope : SignedEnvelope RegisterBody} {client : ClientIdentity}
    {evidence : UInt64 × List UInt8} (hg : GrantedBy E s e envelope client)
    (hev : s.lastProbeEvidence client = some evidence) :
    LeasedTo E (s.after E e) e.now envelope.body.domain client.key e.token ↔
      Leasable E s e.now (leaseFor envelope client e.token evidence) := by
  have hlookup := lookup_leased (E := E) (s.reclaimStale E e.env.order e.now) e.now envelope client
    e.token evidence
  rw [← (step_of_leased hg hev).2] at hlookup
  rw [← h.retained_leaseFor_iff hg.authentic hev, ← h.retained_reclaimStale e.env.order]
  by_cases hr : Retained E (s.reclaimStale E e.env.order e.now) e.now
      (leaseFor envelope client e.token evidence)
  · rw [if_pos hr] at hlookup
    exact iff_of_true ⟨_, _, hlookup, rfl, rfl, rfl, rfl, rfl, hr.1⟩ hr
  · rw [if_neg hr] at hlookup
    exact iff_of_false (not_leasedTo_of_leaseless hlookup rfl) hr

/-- Only a granted registration with evidence is acknowledged. -/
theorem grantedBy_of_registered {e : Event} {envelope : SignedEnvelope RegisterBody} {v : Bool}
    {token : RegistrationToken} (op : e.op = .request (.register envelope) v)
    (ha : s.answer E e = some (.ok (.registered token))) :
    ∃ client evidence, GrantedBy E s e envelope client ∧
      s.lastProbeEvidence client = some evidence ∧ token = e.token := by
  have ho := outcome E s e
  rw [ha] at ho
  generalize s.after E e = t at ho
  cases ho with
  | idle hr _ =>
    rcases hr with hr | ⟨_, hr⟩ <;> cases hr
  | reclaimed hr _ =>
    rcases hr with hr | ⟨_, hr⟩ <;> cases hr
  | leased hg hev =>
    have hop := hg.op
    rw [op] at hop
    injection hop with hop _
    injection hop with hop
    subst hop
    exact ⟨_, _, hg, hev, rfl⟩

/-- **When an acknowledged registration is leased**: exactly if the requester's last
probe was signed within the window and fewer than five valid claims of its host come
before the new one. -/
theorem registered_iff {c : Clocked} (hc : Reachable E c) {e : Event}
    {envelope : SignedEnvelope RegisterBody} {v : Bool} {token : RegistrationToken}
    (op : e.op = .request (.register envelope) v)
    (ha : c.store.answer E e = some (.ok (.registered token))) :
    ∃ client evidence,
      authenticate E envelope (registerMessage envelope.body.domain envelope.timestampMillis)
        e.now = .ok client ∧
      c.store.lastProbeEvidence client = some evidence ∧
      (LeasedTo E (c.store.after E e) e.now envelope.body.domain client.key token ↔
        Leasable E c.store e.now (leaseFor envelope client token evidence)) := by
  obtain ⟨client, evidence, hg, hev, rfl⟩ := grantedBy_of_registered op ha
  exact ⟨client, evidence, hg.authentic, hev,
    (consistent_of_reachable hc).leasedTo_iff hg hev⟩

/-- A client probes, and more than a minute later another client of its host does. -/
def hostKeptLive : List Event :=
  [(sampleClient 1 "host").probes 1000, (sampleClient 2 "host").probes 70000]

/-- The first client's envelope around a name. -/
def lateEnvelope : SignedEnvelope RegisterBody :=
  (sampleClient 1 "host").envelope 70000 { domain := ⟨"name"⟩ } (registerMessage ⟨"name"⟩ 70000)

/-- The first client registers the name. -/
def lateRegistration : Event :=
  { env := sampleAmbient 70000 0, op := .request (.register lateEnvelope) true }

theorem answer_lateRegistration :
    (storeAfter Ed25519.sample hostKeptLive).answer Ed25519.sample lateRegistration =
      some (.ok (.registered (sampleToken 70000 0))) := by
  decide +kernel

theorem registered_iff_lateRegistration :
    ∃ client evidence,
      authenticate Ed25519.sample lateEnvelope (registerMessage ⟨"name"⟩ 70000) 70000 =
        .ok client ∧
      (storeAfter Ed25519.sample hostKeptLive).lastProbeEvidence client = some evidence ∧
      (LeasedTo Ed25519.sample ((storeAfter Ed25519.sample hostKeptLive).after Ed25519.sample
          lateRegistration) 70000 ⟨"name"⟩ client.key (sampleToken 70000 0) ↔
        Leasable Ed25519.sample (storeAfter Ed25519.sample hostKeptLive) 70000
          (leaseFor lateEnvelope client (sampleToken 70000 0) evidence)) :=
  registered_iff (reachable_of_events Ed25519.sample hostKeptLive (by decide))
    (e := lateRegistration) rfl answer_lateRegistration

/-- **A client is told it has registered a name that no peer can learn of.** -/
theorem registered_without_lease :
    ¬ ∀ (E : Ed25519) (c : Clocked) (e : Event) (envelope : SignedEnvelope RegisterBody)
        (v : Bool) (token : RegistrationToken) (client : ClientIdentity), Reachable E c →
      c.clock ≤ e.now → e.op = .request (.register envelope) v →
      c.store.answer E e = some (.ok (.registered token)) →
      authenticate E envelope (registerMessage envelope.body.domain envelope.timestampMillis)
        e.now = .ok client →
      LeasedTo E (c.store.after E e) e.now envelope.body.domain client.key token := by
  intro h
  have hleased := h Ed25519.sample _ lateRegistration _ true _ (sampleClient 1 "host")
    (reachable_of_events Ed25519.sample hostKeptLive (by decide)) (by decide) rfl
    answer_lateRegistration (by decide +kernel)
  have hrun : (((storeAfter Ed25519.sample hostKeptLive).after Ed25519.sample
      lateRegistration).lookup ⟨"name"⟩).any (fun g => g.rumor.isNone) = true := by
    decide +kernel
  obtain ⟨g, hg, hr⟩ := (Option.any_eq_true _ _).mp hrun
  exact not_leasedTo_of_leaseless hg (Option.isNone_iff_eq_none.mp hr) hleased

end RegistryStore

end Binda
