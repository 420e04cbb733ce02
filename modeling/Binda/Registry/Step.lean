import Binda.Registry.System
import Binda.Registry.Reconcile

/-!
# What one event can do

`outcome` is the inversion lemma for an event: `Change E s e answer s'` lists
everything that can come of `e` in the store `s`, with the conditions under
which it does, the answer the client gets, and the store it leaves.  No later
proof unfolds a handler.

The other lemmas say what the accepted requests leave on each domain and among
each host's claims.
-/

namespace Binda

/-! ### Accepted requests -/

/-- The token an event issues. -/
def Event.token (e : Event) : RegistrationToken :=
  RegistrationToken.issue e.now e.env.nonce

/-- `client_key`'s own lease gets the new evidence. -/
def Registration.refreshed (clientKey : String) (timestamp : UInt64) (signature : List UInt8)
    (reg : Registration) : Registration :=
  if reg.clientKey = clientKey then
    { reg with rumor := reg.rumor.map fun rumor =>
        { rumor with probeTimestampMillis := timestamp, probeSignature := signature } }
  else reg

/-- The registration takes over records and, if it is a lease, their evidence. -/
def Registration.published (records : List Record) (timestamp : UInt64)
    (signature : List UInt8) (reg : Registration) : Registration :=
  { reg with
    records
    rumor := reg.rumor.map fun rumor =>
      { rumor with
        records
        recordsTimestampMillis := some timestamp
        recordsSignature := some signature } }

namespace Registration

variable {g : Registration} {k : String} {t : UInt64} {sig : List UInt8}

/-- A probe changes nothing but the evidence in the lease. -/
theorem refreshed_eq : g.refreshed k t sig = { g with rumor := (g.refreshed k t sig).rumor } := by
  rw [refreshed]
  split <;> rfl

@[simp] theorem refreshed_clientKey : (g.refreshed k t sig).clientKey = g.clientKey := by
  rw [refreshed_eq]

@[simp] theorem refreshed_quotaKey : (g.refreshed k t sig).quotaKey = g.quotaKey := by
  rw [refreshed_eq]

@[simp] theorem refreshed_token : (g.refreshed k t sig).token = g.token := by
  rw [refreshed_eq]

@[simp] theorem refreshed_records : (g.refreshed k t sig).records = g.records := by
  rw [refreshed_eq]

@[simp] theorem refreshed_rumor_eq_none :
    (g.refreshed k t sig).rumor = none ↔ g.rumor = none := by
  rw [refreshed]
  split
  · exact Option.map_eq_none_iff
  · rfl

/-- A lease with its rumor's key carries what the rumor becomes. -/
theorem refreshed_rumor_of_key {r : RegistrationRumor} (hr : g.rumor = some r)
    (hk : g.clientKey = r.clientKey) :
    (g.refreshed k t sig).rumor = some (r.refreshed k t sig) := by
  rw [refreshed, RegistrationRumor.refreshed, hk]
  split
  · exact congrArg (Option.map _) hr
  · exact hr

end Registration

namespace RegistryStore

variable {E : Ed25519} {s : RegistryStore} {now : UInt64} {q : String} {d d' : DomainName}

/-- An accepted probe. -/
def probed (s : RegistryStore) (client : ClientIdentity) (now timestamp : UInt64)
    (signature : List UInt8) : RegistryStore :=
  (s.probeWithEvidence client now timestamp signature).refreshProbeEvidence client.key timestamp
    signature

/-- Accepted records. -/
def published (s : RegistryStore) (client : ClientIdentity) (domain : DomainName)
    (records : List Record) (timestamp : UInt64) (signature : List UInt8) : RegistryStore :=
  (s.setRecords domain client records).2.attachRecordEvidence domain client.key timestamp signature

/-- A granted registration, before its lease is attached. -/
def granted (s : RegistryStore) (client : ClientIdentity) (domain : DomainName)
    (token : RegistrationToken) : RegistryStore :=
  { s with
    registrations := AList.insert domain
      { clientKey := client.key
        quotaKey := client.quotaKey
        token
        records := []
        rumor := none } s.registrations
    liveness := s.liveness.incrementRegistration client }

/-- A claim filed under its host, and the host reconciled. -/
def filed (E : Ed25519) (s : RegistryStore) (r : RegistrationRumor) (now : UInt64) :
    RegistryStore :=
  (s.submit (quotaKey r.rdns) r).reconcileQuota E (quotaKey r.rdns) now

theorem lookup_probed {client : ClientIdentity} {t : UInt64} {sig : List UInt8} :
    (s.probed client now t sig).lookup d =
      (s.lookup d).map (Registration.refreshed client.key t sig) :=
  Table.lookup_mapValues _ _ _

theorem lookup_probed_eq_some {client : ClientIdentity} {t : UInt64} {sig : List UInt8}
    {g : Registration} :
    (s.probed client now t sig).lookup d = some g ↔
      ∃ g₀, s.lookup d = some g₀ ∧ g₀.refreshed client.key t sig = g := by
  rw [lookup_probed, Option.map_eq_some_iff]

theorem claims_of_mapValues {s' : RegistryStore} {f : ClaimTable → ClaimTable}
    (h : s'.quotaClaims = s.quotaClaims.mapValues fun _ c => f c)
    (hf : f ClaimTable.empty = ClaimTable.empty) : s'.claims q = f (s.claims q) := by
  rw [claims, h, Table.lookup_mapValues, claims]
  cases s.quotaClaims.lookup q with
  | none => exact hf.symm
  | some c => rfl

theorem claims_probed {client : ClientIdentity} {t : UInt64} {sig : List UInt8} :
    (s.probed client now t sig).claims q =
      (s.claims q).mapValues (RegistrationRumor.refreshed client.key t sig) (by simp) :=
  claims_of_mapValues (f := fun c => c.mapValues _ (by simp)) rfl rfl

theorem lookup_claims_probed {client : ClientIdentity} {t : UInt64} {sig : List UInt8} :
    ((s.probed client now t sig).claims q).lookup d =
      ((s.claims q).lookup d).map (RegistrationRumor.refreshed client.key t sig) := by
  rw [claims_probed, ClaimTable.lookup_mapValues]

theorem lookup_claims_probed_eq_some {client : ClientIdentity} {t : UInt64} {sig : List UInt8}
    {r : RegistrationRumor} :
    ((s.probed client now t sig).claims q).lookup d = some r ↔
      ∃ r₀, (s.claims q).lookup d = some r₀ ∧ r₀.refreshed client.key t sig = r := by
  rw [lookup_claims_probed, Option.map_eq_some_iff]

theorem lastSeen_probed {client : ClientIdentity} {t : UInt64} {sig : List UInt8} :
    (s.probed client now t sig).liveness.lastSeenMillis.lookup q =
      if q = client.quotaKey then some now else s.liveness.lastSeenMillis.lookup q :=
  Table.lookup_insert_eq _ _ _ _

theorem probeEvidence_probed {client : ClientIdentity} {t : UInt64} {sig : List UInt8}
    {k : String} :
    (s.probed client now t sig).probeEvidence.lookup k =
      if k = client.key then some (t, sig) else s.probeEvidence.lookup k :=
  Table.lookup_insert_eq _ _ _ _

section Published

variable {client : ClientIdentity} {records : List Record} {t : UInt64} {sig : List UInt8}
  {g : Registration}

private theorem setRecords_eq (records : List Record) (hg : s.lookup d = some g)
    (hk : g.clientKey = client.key) :
    s.setRecords d client records = (true,
      { s with registrations := AList.insert d { g with records } s.registrations }) := by
  have hl : s.registrations.lookup d = some g := hg
  rw [setRecords, hl]
  exact if_pos hk

theorem lookup_published (hg : s.lookup d = some g) (hk : g.clientKey = client.key) :
    (s.published client d records t sig).lookup d' =
      if d' = d then some (g.published records t sig) else s.lookup d' := by
  rw [published, setRecords_eq records hg hk, lookup, attachRecordEvidence, Table.lookup_modify,
    AList.lookup_insert]
  split
  · rw [Option.map_some, if_pos hk]
    rfl
  · rename_i hd
    exact AList.lookup_insert_ne hd

theorem claims_published (hg : s.lookup d = some g) (hk : g.clientKey = client.key) :
    (s.published client d records t sig).claims q =
      (s.claims q).modify d (RegistrationRumor.recordsSigned client.key t sig) (by simp) := by
  refine claims_of_mapValues (f := fun c => c.modify d _ (by simp)) ?_ rfl
  rw [published, setRecords_eq records hg hk]
  rfl

/-- A claim after new records is the one before them, or that one with the new evidence. -/
theorem exists_claim_of_published (hg : s.lookup d = some g) (hk : g.clientKey = client.key)
    {r : RegistrationRumor}
    (hr : ((s.published client d records t sig).claims q).lookup d' = some r) :
    ∃ r₀, (s.claims q).lookup d' = some r₀ ∧
      (r = r₀ ∨ r = r₀.recordsSigned client.key t sig) := by
  rw [claims_published hg hk, ClaimTable.lookup_modify] at hr
  split at hr
  · rename_i hd
    obtain ⟨r₀, hr₀, rfl⟩ := Option.map_eq_some_iff.mp hr
    exact ⟨r₀, hd ▸ hr₀, Or.inr rfl⟩
  · exact ⟨r, hr, Or.inl rfl⟩

theorem liveness_published : (s.published client d records t sig).liveness = s.liveness := by
  rw [published, setRecords]
  split
  · split <;> rfl
  · rfl

theorem probeEvidence_published :
    (s.published client d records t sig).probeEvidence = s.probeEvidence := by
  rw [published, setRecords]
  split
  · split <;> rfl
  · rfl

end Published

theorem lookup_granted {client : ClientIdentity} {token : RegistrationToken} :
    (s.granted client d token).lookup d' =
      if d' = d then some ⟨client.key, client.quotaKey, token, [], none⟩ else s.lookup d' :=
  Table.lookup_insert_eq _ _ _ _

@[simp] theorem claims_granted {client : ClientIdentity} {token : RegistrationToken} :
    (s.granted client d token).claims q = s.claims q := rfl

theorem lastSeen_granted {client : ClientIdentity} {token : RegistrationToken} :
    (s.granted client d token).liveness.lastSeenMillis = s.liveness.lastSeenMillis := rfl

@[simp] theorem liveness_filed {r : RegistrationRumor} :
    (s.filed E r now).liveness = s.liveness := by
  rw [filed, liveness_reconcileQuota]
  rfl

theorem claims_filed {r : RegistrationRumor} :
    (s.filed E r now).claims q =
      if q = quotaKey r.rdns then ((s.claims q).insert r).settle E now else s.claims q := by
  rw [filed, claims_reconcileQuota, claims_submit, claims_submit, if_pos rfl]
  split
  · rename_i h
    rw [h]
  · rfl

/-- The claim of one host leaves the others without claims. -/
theorem claims_filed_new {r : RegistrationRumor} (hq : q ≠ quotaKey r.rdns) :
    (new.filed E r now).claims q = ClaimTable.empty := by
  rw [claims_filed, if_neg hq]
  rfl

/-- **What filing a claim leaves on a domain.** -/
theorem lookup_filed {r : RegistrationRumor} :
    (s.filed E r now).lookup d =
      match (((s.claims (quotaKey r.rdns)).insert r).settle E now).lookup d with
      | none => s.standing (quotaKey r.rdns) d
      | some w => some (contest (quotaKey r.rdns) (s.standing (quotaKey r.rdns) d) w) := by
  rw [filed, lookup_reconcileQuota (filed_submit r), claims_submit, if_pos rfl]
  rfl

/-- What no lease of the host stands for stays standing. -/
theorem standing_of_other (hother : ∀ g, s.lookup d = some g → g.quotaKey ≠ q) :
    s.standing q d = s.lookup d := by
  rw [standing]
  cases hg : s.lookup d with
  | none => rfl
  | some g => rw [Option.filter_some, if_pos (by simp [hother g hg])]

/-- **The first claim of a host meets what stands on its domain.** -/
theorem lookup_filed_first {r : RegistrationRumor}
    (hnone : s.claims (quotaKey r.rdns) = ClaimTable.empty)
    (hv : ClaimTable.Valid E now r)
    (hother : ∀ g, s.lookup r.domain = some g → g.quotaKey ≠ quotaKey r.rdns) :
    (s.filed E r now).lookup r.domain =
      some (contest (quotaKey r.rdns) (s.lookup r.domain) r) := by
  rw [lookup_filed, hnone, ClaimTable.lookup_settle_single hv, standing_of_other hother]

/-- The host's claims, the new claim `r` among them. -/
def claimsWith (s : RegistryStore) (r : RegistrationRumor) : ClaimTable :=
  (s.claims (quotaKey r.rdns)).insert r

/-- The new claim `r` is valid and among the first five of its host. -/
def Retained (E : Ed25519) (s : RegistryStore) (now : UInt64) (r : RegistrationRumor) : Prop :=
  ClaimTable.Valid E now r ∧ (s.claimsWith r).place E now r < maxRegistrationsPerClient

instance (r : RegistrationRumor) : Decidable (Retained E s now r) :=
  inferInstanceAs (Decidable (_ ∧ _))

/-- **A lease takes the place of the registration it was issued for**, if it is kept. -/
theorem lookup_granted_filed {client : ClientIdentity} {token : RegistrationToken}
    {r : RegistrationRumor} (hd : r.domain = d) (ht : r.token = token) :
    ((s.granted client d token).filed E r now).lookup d =
      some (if Retained E s now r then registrationFromRumor r (quotaKey r.rdns)
        else ⟨client.key, client.quotaKey, token, [], none⟩) := by
  have hstand : (s.granted client d token).standing (quotaKey r.rdns) d =
      some ⟨client.key, client.quotaKey, token, [], none⟩ :=
    standing_eq_some.mpr ⟨lookup_granted.trans (if_pos rfl), Or.inr rfl⟩
  have hmem : ((s.claims (quotaKey r.rdns)).insert r).lookup d = some r :=
    ClaimTable.lookup_insert.trans (if_pos hd.symm)
  rw [lookup_filed, claims_granted, hstand]
  by_cases hr : Retained E s now r
  · rw [if_pos hr, ClaimTable.lookup_settle.mpr ⟨hmem, hr⟩]
    simp only [contest, ht, negotiateLocally_self, if_true]
  · have hnone : (((s.claims (quotaKey r.rdns)).insert r).settle E now).lookup d = none := by
      rw [Option.eq_none_iff_forall_ne_some]
      intro w hw
      obtain ⟨hw', hk⟩ := ClaimTable.lookup_settle.mp hw
      rw [hmem] at hw'
      obtain rfl := Option.some.inj hw'
      exact hr hk
    rw [if_neg hr, hnone]

/-- The same for the lease that is built for a registration. -/
theorem lookup_leased (s : RegistryStore) (now : UInt64) (envelope : SignedEnvelope RegisterBody)
    (client : ClientIdentity) (token : RegistrationToken) (evidence : UInt64 × List UInt8) :
    ((s.granted client envelope.body.domain token).filed E
        (leaseFor envelope client token evidence) now).lookup envelope.body.domain =
      some (if Retained E s now (leaseFor envelope client token evidence) then
          registrationFromRumor (leaseFor envelope client token evidence) (quotaKey envelope.rdns)
        else ⟨client.key, client.quotaKey, token, [], none⟩) :=
  lookup_granted_filed (r := leaseFor envelope client token evidence) rfl rfl

/-! ### Registering -/

/-- A registration of `d` by `client` is granted. -/
structure Grants (E : Ed25519) (s : RegistryStore) (env : Ambient) (d : DomainName)
    (client : ClientIdentity) : Prop where
  live : s.liveness.isLive client env.now = true
  free : (s.reclaimStale E env.order env.now).lookup d = none
  slot : s.liveness.registrationCount client < maxRegistrationsPerClient

variable {env : Ambient} {client : ClientIdentity}

/-- A live client's counter outlasts the reclaiming. -/
theorem registrationCount_reclaimStale {order : VisitOrder String}
    (h : s.liveness.isLive client now = true) :
    (s.reclaimStale E order now).liveness.registrationCount client =
      s.liveness.registrationCount client := by
  obtain ⟨last, hlast, hw⟩ := LivenessTracker.isLive_iff.mp h
  rw [LivenessTracker.registrationCount, liveness_reclaimStale,
    LivenessTracker.foldl_forget_counts, if_neg, LivenessTracker.registrationCount]
  rw [LivenessTracker.mem_expiredClients]
  rintro ⟨last', hlast', hw'⟩
  rw [hlast] at hlast'
  rw [← Option.some.inj hlast', hw] at hw'
  cases hw'

theorem register_of_grants (h : s.Grants E env d client) :
    s.register E env d client =
      (.ok (RegistrationToken.issue env.now env.nonce),
        (s.reclaimStale E env.order env.now).granted client d
          (RegistrationToken.issue env.now env.nonce)) := by
  have hfree : (s.reclaimStale E env.order env.now).registrations.lookup d = none := h.free
  have hcan : (s.reclaimStale E env.order env.now).liveness.canRegister client env.now = true := by
    rw [LivenessTracker.canRegister, isLive_reclaimStale h.live,
      registrationCount_reclaimStale h.live]
    simpa using h.slot
  rw [register, h.live]
  simp only [hfree, hcan]
  rfl

/-- A registration that is refused leaves the store as it was, or reclaimed. -/
theorem register_of_not_grants (h : ¬ s.Grants E env d client) :
    ∃ err, (s.liveness.isLive client env.now = false ∧
        s.register E env d client = (.error err, s)) ∨
      (s.liveness.isLive client env.now = true ∧
        s.register E env d client = (.error err, s.reclaimStale E env.order env.now)) := by
  rw [register]
  by_cases hlive : s.liveness.isLive client env.now = true
  · refine ⟨.registrationLimitReached, Or.inr ⟨hlive, ?_⟩⟩
    rw [hlive]
    simp only [Bool.not_true, Bool.false_eq_true, if_false]
    split
    · rfl
    · rename_i hfree
      have hslot : ¬ s.liveness.registrationCount client < maxRegistrationsPerClient :=
        fun hslot => h ⟨hlive, by simpa [lookup] using hfree, hslot⟩
      have hcan : (s.reclaimStale E env.order env.now).liveness.canRegister client env.now =
          false := by
        rw [LivenessTracker.canRegister, registrationCount_reclaimStale hlive]
        simp [hslot]
      rw [hcan]
      rfl
  · rw [Bool.not_eq_true] at hlive
    refine ⟨.notLive, Or.inl ⟨hlive, ?_⟩⟩
    rw [hlive]
    rfl

/-! ### The outcome of an event -/

/-- The event gets as far as reclaiming: it is a reclaiming of its own, or a
registration by a verified and live client. -/
def Reclaims (E : Ed25519) (s : RegistryStore) (e : Event) : Prop :=
  e.op = .reclaimStale ∨ ∃ envelope client,
    e.op = .request (.register envelope) true ∧
    authenticate E envelope (registerMessage envelope.body.domain envelope.timestampMillis) e.now =
      .ok client ∧
    s.liveness.isLive client e.now = true

/-- What the client is told, if the event is a request. -/
def answer (E : Ed25519) (s : RegistryStore) (e : Event) : Option (Except Panic ClientResponse) :=
  match e.op with
  | .request request rdnsVerified =>
    some (s.handleClientRequest E e.env request rdnsVerified).1
  | _ => none

/-- The answer grants nothing. -/
def Refused (answer : Option (Except Panic ClientResponse)) : Prop :=
  answer = none ∨ ∃ message, answer = some (.ok (.error message))

/-- `e` registers `d` for `client`, and the registration is granted. -/
structure GrantedBy (E : Ed25519) (s : RegistryStore) (e : Event)
    (envelope : SignedEnvelope RegisterBody) (client : ClientIdentity) : Prop where
  op : e.op = .request (.register envelope) true
  authentic : authenticate E envelope
    (registerMessage envelope.body.domain envelope.timestampMillis) e.now = .ok client
  grants : s.Grants E e.env envelope.body.domain client

/-- The lease of a granted registration is filed under the client's host. -/
theorem GrantedBy.quotaKey_leaseFor {e : Event} {envelope : SignedEnvelope RegisterBody}
    {client : ClientIdentity} (h : GrantedBy E s e envelope client) (token : RegistrationToken)
    (evidence : UInt64 × List UInt8) :
    quotaKey (leaseFor envelope client token evidence).rdns = client.quotaKey := by
  rw [leaseFor, (authenticate_eq_ok.mp h.authentic).2.2.1]
  rfl

/-- **Everything an event can do.** -/
inductive Change (E : Ed25519) (s : RegistryStore) (e : Event) :
    Option (Except Panic ClientResponse) → RegistryStore → Prop
  /-- Nothing happens. -/
  | idle {answer} (ha : Refused answer) (h : ¬ Reclaims E s e) : Change E s e answer s
  /-- A probe is accepted. -/
  | probed {envelope rdnsVerified} {client : ClientIdentity}
      (op : e.op = .request (.probe envelope) rdnsVerified)
      (authentic : authenticate E envelope (probeMessage envelope.timestampMillis) e.now =
        .ok client) :
      Change E s e (some (.ok .probeAck))
        (s.probed client e.now envelope.timestampMillis envelope.signature)
  /-- Records are accepted. -/
  | published {envelope rdnsVerified} {client : ClientIdentity} {g}
      (op : e.op = .request (.setRecords envelope) rdnsVerified)
      (authentic : authenticate E envelope (setRecordsMessage envelope.body.domain
        envelope.body.records envelope.timestampMillis) e.now = .ok client)
      (held : s.lookup envelope.body.domain = some g)
      (own : g.clientKey = client.key) :
      Change E s e (some (.ok .recordsSet))
        (s.published client envelope.body.domain envelope.body.records envelope.timestampMillis
          envelope.signature)
  /-- A rumor is adopted. -/
  | adopted {r} (op : e.op = .adoptRumor r) (valid : ClaimTable.Valid E e.now r) :
      Change E s e none (s.filed E r e.now)
  /-- The stale registrations are reclaimed, and that is all. -/
  | reclaimed {answer} (ha : Refused answer) (h : Reclaims E s e) :
      Change E s e answer (s.reclaimStale E e.env.order e.now)
  /-- A registration is granted and then found to have no probe evidence. -/
  | panicked {envelope client} (h : GrantedBy E s e envelope client)
      (missing : s.lastProbeEvidence client = none) :
      Change E s e (some (.error ⟨"live registrations have a signed probe"⟩))
        ((s.reclaimStale E e.env.order e.now).granted client envelope.body.domain e.token)
  /-- A registration is granted and its lease filed. -/
  | leased {envelope client evidence} (h : GrantedBy E s e envelope client)
      (found : s.lastProbeEvidence client = some evidence) :
      Change E s e (some (.ok (.registered e.token)))
        (((s.reclaimStale E e.env.order e.now).granted client envelope.body.domain e.token).filed E
          (leaseFor envelope client e.token evidence) e.now)

variable {e : Event}

private theorem after_of_op {op : Operation} (h : e.op = op) :
    s.after E e = s.after E { env := e.env, op } ∧
      s.answer E e = s.answer E { env := e.env, op } := by
  subst h
  exact ⟨rfl, rfl⟩

theorem attachRumor_of_granted (t : RegistryStore) (d : DomainName) (token : RegistrationToken)
    {r : RegistrationRumor} (hd : r.domain = d) (hk : r.clientKey = client.key)
    (ht : r.token = token) :
    ((t.granted client d token).attachRumor E r now).2 =
      (t.granted client d token).filed E r now := by
  have hl : (t.granted client d token).registrations.lookup r.domain = some _ :=
    lookup_granted.trans (if_pos hd)
  rw [attachRumor, hl]
  simp only [hk, ht, and_self, if_true]
  rfl

/-- Only a registration or a reclaiming gets as far as reclaiming. -/
theorem not_reclaims_of_op {op : Operation} (h : e.op = op) (hreg : ∀ envelope,
    op ≠ .request (.register envelope) true) (hrec : op ≠ .reclaimStale) : ¬ Reclaims E s e := by
  rintro (h' | ⟨envelope, _, h', _⟩)
  · exact hrec (h.symm.trans h')
  · exact hreg envelope (h.symm.trans h')

theorem not_reclaims_of_register {envelope : SignedEnvelope RegisterBody}
    (op : e.op = .request (.register envelope) true)
    (h : ∀ client, authenticate E envelope (registerMessage envelope.body.domain
      envelope.timestampMillis) e.now = .ok client → s.liveness.isLive client e.now = false) :
    ¬ Reclaims E s e := by
  rintro (h' | ⟨envelope', client, h', ha, hlive⟩)
  · rw [op] at h'
    cases h'
  · rw [op] at h'
    injection h' with h' _
    injection h' with h'
    subst h'
    rw [h client ha] at hlive
    cases hlive

/-- **An accepted probe.** -/
theorem step_of_probed {envelope : SignedEnvelope ProbeBody} {v : Bool}
    (op : e.op = .request (.probe envelope) v)
    (ha : authenticate E envelope (probeMessage envelope.timestampMillis) e.now = .ok client) :
    s.answer E e = some (.ok .probeAck) ∧
      s.after E e = s.probed client e.now envelope.timestampMillis envelope.signature := by
  have ha' : authenticate E envelope (probeMessage envelope.timestampMillis) e.env.now =
    .ok client := ha
  rw [(after_of_op op).1, (after_of_op op).2]
  simp only [after, answer, handleClientRequest, handleProbe, ha']
  exact ⟨trivial, rfl⟩

/-- **Accepted records.** -/
theorem step_of_published {envelope : SignedEnvelope SetRecordsBody} {v : Bool} {g : Registration}
    (op : e.op = .request (.setRecords envelope) v)
    (ha : authenticate E envelope (setRecordsMessage envelope.body.domain envelope.body.records
      envelope.timestampMillis) e.now = .ok client)
    (hg : s.lookup envelope.body.domain = some g) (hk : g.clientKey = client.key) :
    s.answer E e = some (.ok .recordsSet) ∧
      s.after E e = s.published client envelope.body.domain envelope.body.records
        envelope.timestampMillis envelope.signature := by
  have ha' : authenticate E envelope (setRecordsMessage envelope.body.domain
    envelope.body.records envelope.timestampMillis) e.env.now = .ok client := ha
  have hs := setRecords_eq envelope.body.records hg hk
  rw [(after_of_op op).1, (after_of_op op).2, published]
  simp only [after, answer, handleClientRequest, handleSetRecords, ha', hs, and_self]

theorem outcome_probe {envelope : SignedEnvelope ProbeBody} {v : Bool}
    (op : e.op = .request (.probe envelope) v) : Change E s e (s.answer E e) (s.after E e) := by
  have hno : ¬ Reclaims E s e := not_reclaims_of_op op (by simp) (by simp)
  cases ha : authenticate E envelope (probeMessage envelope.timestampMillis) e.now with
  | error err =>
    have ha' : authenticate E envelope (probeMessage envelope.timestampMillis) e.env.now =
      .error err := ha
    rw [(after_of_op op).1, (after_of_op op).2]
    simp only [after, answer, handleClientRequest, handleProbe, ha']
    exact .idle (Or.inr ⟨_, rfl⟩) hno
  | ok client =>
    rw [(step_of_probed op ha).1, (step_of_probed op ha).2]
    exact .probed op ha

theorem outcome_setRecords {envelope : SignedEnvelope SetRecordsBody} {v : Bool}
    (op : e.op = .request (.setRecords envelope) v) :
    Change E s e (s.answer E e) (s.after E e) := by
  have hno : ¬ Reclaims E s e := not_reclaims_of_op op (by simp) (by simp)
  cases ha : authenticate E envelope (setRecordsMessage envelope.body.domain
      envelope.body.records envelope.timestampMillis) e.now with
  | error err =>
    have ha' : authenticate E envelope (setRecordsMessage envelope.body.domain
      envelope.body.records envelope.timestampMillis) e.env.now = .error err := ha
    rw [(after_of_op op).1, (after_of_op op).2]
    simp only [after, answer, handleClientRequest, handleSetRecords, ha']
    exact .idle (Or.inr ⟨_, rfl⟩) hno
  | ok client =>
    by_cases hown : ∃ g, s.lookup envelope.body.domain = some g ∧ g.clientKey = client.key
    · obtain ⟨g, hg, hk⟩ := hown
      rw [(step_of_published op ha hg hk).1, (step_of_published op ha hg hk).2]
      exact .published op ha hg hk
    · have ha' : authenticate E envelope (setRecordsMessage envelope.body.domain
        envelope.body.records envelope.timestampMillis) e.env.now = .ok client := ha
      have hs : s.setRecords envelope.body.domain client envelope.body.records = (false, s) := by
        rw [setRecords]
        cases hg : s.registrations.lookup envelope.body.domain with
        | none => rfl
        | some g => exact if_neg fun hk => hown ⟨g, hg, hk⟩
      rw [(after_of_op op).1, (after_of_op op).2]
      simp only [after, answer, handleClientRequest, handleSetRecords, ha', hs]
      exact .idle (Or.inr ⟨_, rfl⟩) hno

private theorem handleRegister_of_granted {envelope : SignedEnvelope RegisterBody}
    (h : GrantedBy E s e envelope client) :
    s.handleRegister E e.env envelope true =
      match s.lastProbeEvidence client with
      | none => (.error ⟨"live registrations have a signed probe"⟩,
          (s.reclaimStale E e.env.order e.now).granted client envelope.body.domain e.token)
      | some evidence => (.ok (.registered e.token),
          (((s.reclaimStale E e.env.order e.now).granted client envelope.body.domain
            e.token).attachRumor E (leaseFor envelope client e.token evidence) e.now).2) := by
  have ha : authenticate E envelope (registerMessage envelope.body.domain
      envelope.timestampMillis) e.env.now = .ok client := h.authentic
  have hev : ((s.reclaimStale E e.env.order e.env.now).granted client envelope.body.domain
      (RegistrationToken.issue e.env.now e.env.nonce)).lastProbeEvidence client =
        s.lastProbeEvidence client := by
    rw [lastProbeEvidence, granted, probeEvidence_reclaimStale, lastProbeEvidence]
  rw [handleRegister]
  simp only [ha, Bool.not_true, Bool.false_eq_true, if_false, register_of_grants h.grants, hev]
  rfl

/-- **A registration granted without evidence.** -/
theorem step_of_panicked {envelope : SignedEnvelope RegisterBody}
    (h : GrantedBy E s e envelope client) (hn : s.lastProbeEvidence client = none) :
    s.answer E e = some (.error ⟨"live registrations have a signed probe"⟩) ∧
      s.after E e =
        (s.reclaimStale E e.env.order e.now).granted client envelope.body.domain e.token := by
  have hr := handleRegister_of_granted h
  rw [hn] at hr
  rw [answer, after, h.op]
  simp only [handleClientRequest, hr, and_self]

/-- **A registration granted with evidence.** -/
theorem step_of_leased {envelope : SignedEnvelope RegisterBody} {evidence : UInt64 × List UInt8}
    (h : GrantedBy E s e envelope client) (hn : s.lastProbeEvidence client = some evidence) :
    s.answer E e = some (.ok (.registered e.token)) ∧
      s.after E e =
        ((s.reclaimStale E e.env.order e.now).granted client envelope.body.domain e.token).filed E
          (leaseFor envelope client e.token evidence) e.now := by
  have hr := handleRegister_of_granted h
  rw [hn] at hr
  dsimp only at hr
  rw [attachRumor_of_granted _ envelope.body.domain e.token rfl rfl rfl] at hr
  rw [answer, after, h.op]
  simp only [handleClientRequest, hr, and_self]

theorem outcome_register {envelope : SignedEnvelope RegisterBody} {v : Bool}
    (op : e.op = .request (.register envelope) v) :
    Change E s e (s.answer E e) (s.after E e) := by
  cases ha : authenticate E envelope (registerMessage envelope.body.domain
      envelope.timestampMillis) e.now with
  | error err =>
    have ha' : authenticate E envelope (registerMessage envelope.body.domain
      envelope.timestampMillis) e.env.now = .error err := ha
    have hno : ¬ Reclaims E s e := by
      cases v with
      | false => exact not_reclaims_of_op op (by simp) (by simp)
      | true => exact not_reclaims_of_register op fun client h => by rw [ha] at h; cases h
    rw [(after_of_op op).1, (after_of_op op).2]
    simp only [after, answer, handleClientRequest, handleRegister, ha']
    exact .idle (Or.inr ⟨_, rfl⟩) hno
  | ok client =>
    have ha' : authenticate E envelope (registerMessage envelope.body.domain
      envelope.timestampMillis) e.env.now = .ok client := ha
    cases v with
    | false =>
      rw [(after_of_op op).1, (after_of_op op).2]
      simp only [after, answer, handleClientRequest, handleRegister, ha']
      exact .idle (Or.inr ⟨_, rfl⟩) (not_reclaims_of_op op (by simp) (by simp))
    | true =>
      by_cases hg : s.Grants E e.env envelope.body.domain client
      · have hgb : GrantedBy E s e envelope client := ⟨op, ha, hg⟩
        cases hl : s.lastProbeEvidence client with
        | none =>
          rw [(step_of_panicked hgb hl).1, (step_of_panicked hgb hl).2]
          exact .panicked hgb hl
        | some evidence =>
          rw [(step_of_leased hgb hl).1, (step_of_leased hgb hl).2]
          exact .leased hgb hl
      · rw [(after_of_op op).1, (after_of_op op).2]
        simp only [after, answer, handleClientRequest, handleRegister, ha', Bool.not_true,
          Bool.false_eq_true, if_false]
        obtain ⟨err, ⟨hdead, hr⟩ | ⟨hlive, hr⟩⟩ := register_of_not_grants hg
        · rw [hr]
          refine .idle (Or.inr ⟨_, rfl⟩) (not_reclaims_of_register op fun client' h => ?_)
          rw [ha] at h
          rwa [← Except.ok.inj h]
        · rw [hr]
          exact .reclaimed (Or.inr ⟨_, rfl⟩) (Or.inr ⟨envelope, client, op, ha, hlive⟩)

theorem adoptRumor_of_valid {r : RegistrationRumor} (hv : ClaimTable.Valid E now r) :
    s.adoptRumor E r now = (true, s.filed E r now) := by
  rw [adoptRumor, hv.1, hv.2, filed]
  rfl

/-- The store an accepted rumor leaves. -/
theorem adoptRumor_snd_of_valid {r : RegistrationRumor} (hv : ClaimTable.Valid E now r) :
    (s.adoptRumor E r now).2 = s.filed E r now := by
  rw [adoptRumor_of_valid hv]

theorem adoptRumor_of_not_valid {r : RegistrationRumor} (hv : ¬ ClaimTable.Valid E now r) :
    s.adoptRumor E r now = (false, s) := by
  have hv' : (!r.isAuthorized E || !leaseIsLive r now) = true := by
    simpa [ClaimTable.Valid, imp_iff_not_or] using hv
  rw [adoptRumor, hv']
  rfl

theorem outcome_adoptRumor {r : RegistrationRumor} (op : e.op = .adoptRumor r) :
    Change E s e (s.answer E e) (s.after E e) := by
  have ha : s.answer E e = none := by rw [answer, op]
  have hs : s.after E e = (s.adoptRumor E r e.now).2 := by rw [after, op]
  rw [ha, hs]
  by_cases hv : ClaimTable.Valid E e.now r
  · rw [adoptRumor_snd_of_valid hv]
    exact .adopted op hv
  · rw [adoptRumor_of_not_valid hv]
    exact .idle (Or.inl rfl) (not_reclaims_of_op op (by simp) (by simp))

/-- **The inversion lemma.** -/
theorem outcome (E : Ed25519) (s : RegistryStore) (e : Event) :
    Change E s e (s.answer E e) (s.after E e) := by
  cases op : e.op with
  | request request v =>
    cases request with
    | probe envelope => exact outcome_probe op
    | register envelope => exact outcome_register op
    | setRecords envelope => exact outcome_setRecords op
  | adoptRumor r => exact outcome_adoptRumor op
  | reclaimStale =>
    have ha : s.answer E e = none := by rw [answer, op]
    have hs : s.after E e = s.reclaimStale E e.env.order e.now := by rw [after, op]
    rw [ha, hs]
    exact .reclaimed (Or.inl rfl) (Or.inl op)

/-- The change an event makes, with names for the answer and the store it leaves. -/
theorem exists_change (E : Ed25519) (s : RegistryStore) (e : Event) :
    ∃ answer t, Change E s e answer t ∧ s.after E e = t := ⟨_, _, outcome E s e, rfl⟩

end RegistryStore

end Binda
