import Binda.Registry.Local
import Binda.Registry.Sample

/-!
# How long a domain stays with its owner

A client that was registered for a domain and keeps probing is promised the
domain and the records it last set.  `Ledger` is what the client can tell of the
promise from the answers it got, and `Watched` is a run together with the ledger
of one client for one domain.

`retained_of_keeps` says that the promise is kept in every run without gossip
whose reclaiming steps find the domain's claim in order (`Keeps`): it has the
records of the registration, its probe is within the window, and fewer than five
claims of the host rank before it.  The first condition is one the code itself
breaks: records that are set reach the registration and not the claim, so the
next reclaiming drops both (`records_lose_the_domain`).
-/

namespace Binda

/-! ### The ledger of a client -/

/-- When the client's last probe was accepted, and the token and the records it was
last told it has. -/
structure Ledger where
  heard : Option UInt64
  held : Option (RegistrationToken × List Record)

/-- The client was heard within the window. -/
def Ledger.Recent (l : Ledger) (now : UInt64) : Prop :=
  ∃ h, l.heard = some h ∧ withinWindow h now = true

/-- The envelope names the client. -/
def SignedEnvelope.IsFrom {τ : Type} (envelope : SignedEnvelope τ) (client : ClientIdentity) :
    Prop :=
  envelope.verifyingKey = client.verifyingKey.toList ∧ envelope.rdns = client.rdns

instance {τ : Type} (envelope : SignedEnvelope τ) (client : ClientIdentity) :
    Decidable (envelope.IsFrom client) := inferInstanceAs (Decidable (_ ∧ _))

/-- The entry `client` makes about `d` when the event `e` is answered. -/
def Ledger.after (client : ClientIdentity) (d : DomainName) (l : Ledger) (e : Event)
    (answer : Option (Except Panic ClientResponse)) : Ledger :=
  match e.op, answer with
  | .request (.probe envelope) _, some (.ok .probeAck) =>
    if envelope.IsFrom client then { l with heard := some e.now } else l
  | .request (.register envelope) _, some (.ok (.registered token)) =>
    if envelope.IsFrom client ∧ envelope.body.domain = d then { l with held := some (token, []) }
    else l
  | .request (.setRecords envelope) _, some (.ok .recordsSet) =>
    if envelope.body.domain = d then
      { l with held := l.held.map fun h => (h.1, envelope.body.records) }
    else l
  | _, _ => l

/-- A store, the clock reading of the last event, and the ledger of a client. -/
structure Watched where
  clock : UInt64
  store : RegistryStore
  ledger : Ledger

namespace Watched

/-- A fresh node, and a client that knows nothing yet. -/
def start : Watched :=
  { clock := 0, store := RegistryStore.new, ledger := { heard := none, held := none } }

/-- The next event. -/
def next (E : Ed25519) (client : ClientIdentity) (d : DomainName) (w : Watched) (e : Event) :
    Watched :=
  { clock := e.now
    store := w.store.after E e
    ledger := w.ledger.after client d e (w.store.answer E e) }

/-- The clock does not go back, nothing is adopted, and while the client has the
domain its last probe was received within the window. -/
structure Attended (E : Ed25519) (client : ClientIdentity) (d : DomainName) (w : Watched)
    (e : Event) : Prop where
  clock : w.clock ≤ e.now
  noGossip : ∀ r, e.op ≠ .adoptRumor r
  recent : (w.next E client d e).ledger.held ≠ none → (w.next E client d e).ledger.Recent e.now

/-- The domain is registered to the client under the token and with the records in
its ledger. -/
def Retained (client : ClientIdentity) (d : DomainName) (w : Watched) : Prop :=
  ∀ token records, w.ledger.held = some (token, records) →
    ∃ g, w.store.lookup d = some g ∧ g.clientKey = client.key ∧ g.token = token ∧
      g.records = records

end Watched

namespace RegistryStore

open RegistrationRumor Watched

variable {E : Ed25519} {s t : RegistryStore} {now : UInt64} {q : String} {d d' : DomainName}
  {g : Registration} {r w : RegistrationRumor} {client owner : ClientIdentity}
  {token : RegistrationToken} {l : Ledger} {e : Event}

/-- If the event reclaims and `d` is held by a lease, its claim has the records of
the registration and a probe within the window, and fewer than five claims of the
host rank before it, a claim newly filed by the event among them. -/
def Keeps (E : Ed25519) (s : RegistryStore) (d : DomainName) (e : Event) : Prop :=
  ∀ g, s.lookup d = some g → g.rumor ≠ none → Reclaims E s e →
    ∃ w, (s.claims g.quotaKey).lookup d = some w ∧ w.records = g.records ∧
      leaseIsLive w e.now = true ∧
      ∀ envelope client evidence, GrantedBy E s e envelope client →
        s.lastProbeEvidence client = some evidence → client.quotaKey = g.quotaKey →
        ((s.claims g.quotaKey).insert (leaseFor envelope client e.token evidence)).place E e.now
          w < maxRegistrationsPerClient

/-! ### The ledger follows the answers -/

theorem ledger_of_refused {answer : Option (Except Panic ClientResponse)} (h : Refused answer) :
    l.after client d e answer = l := by
  unfold Ledger.after
  rcases h with rfl | ⟨message, rfl⟩ <;> split <;> simp_all

theorem ledger_of_panicked {p : Panic} : l.after client d e (some (.error p)) = l := by
  unfold Ledger.after
  split <;> simp_all

theorem ledger_of_probed {envelope : SignedEnvelope ProbeBody} {v : Bool}
    (op : e.op = .request (.probe envelope) v) :
    l.after client d e (some (.ok .probeAck)) =
      if envelope.IsFrom client then { l with heard := some e.now } else l := by
  unfold Ledger.after
  rw [op]

theorem ledger_of_published {envelope : SignedEnvelope SetRecordsBody} {v : Bool}
    (op : e.op = .request (.setRecords envelope) v) :
    l.after client d e (some (.ok .recordsSet)) =
      if envelope.body.domain = d then
        { l with held := l.held.map fun h => (h.1, envelope.body.records) }
      else l := by
  unfold Ledger.after
  rw [op]

theorem ledger_of_registered {envelope : SignedEnvelope RegisterBody} {v : Bool}
    (op : e.op = .request (.register envelope) v) :
    l.after client d e (some (.ok (.registered token))) =
      if envelope.IsFrom client ∧ envelope.body.domain = d then { l with held := some (token, []) }
      else l := by
  unfold Ledger.after
  rw [op]

/-- An authenticated envelope is from the client it names. -/
theorem isFrom_iff {τ : Type} {envelope : SignedEnvelope τ} {message : ByteArray}
    (ha : authenticate E envelope message now = .ok owner) :
    envelope.IsFrom client ↔ owner = client := by
  obtain ⟨_, hkey, hrdns, _⟩ := authenticate_eq_ok.mp ha
  rw [SignedEnvelope.IsFrom, hkey, hrdns, Vector.toList_inj]
  constructor
  · rintro ⟨hk, hr⟩
    cases owner
    cases client
    congr
  · rintro rfl
    exact ⟨rfl, rfl⟩

/-! ### One step -/

/-- `g` is the client's registration with the token and the records. -/
structure IsOf (client : ClientIdentity) (token : RegistrationToken) (records : List Record)
    (g : Registration) : Prop where
  clientKey : g.clientKey = client.key
  quotaKey : g.quotaKey = client.quotaKey
  token : g.token = token
  records : g.records = records

theorem IsOf.refreshed {records : List Record} {k : String} {ts : UInt64} {sig : List UInt8}
    (h : IsOf client token records g) : IsOf client token records (g.refreshed k ts sig) :=
  ⟨Registration.refreshed_clientKey.trans h.clientKey, Registration.refreshed_quotaKey.trans
    h.quotaKey, Registration.refreshed_token.trans h.token, Registration.refreshed_records.trans
    h.records⟩

/-- **Reclaiming keeps a lease whose claim is in order.** -/
theorem lookup_reclaimStale_of_keeps (order : VisitOrder String) (hc : Consistent E s)
    (ht : s.Tied) (hg : s.lookup d = some g) (hr : g.rumor = some r)
    (hw : (s.claims g.quotaKey).lookup d = some w) (hrec : w.records = g.records)
    (hlive : leaseIsLive w now = true) :
    ClaimTable.Valid E now w ∧ (s.reclaimStale E order now).lookup d =
      some (registrationFromRumor w g.quotaKey) ∧
        registrationFromRumor w g.quotaKey = { g with rumor := some w } := by
  have hl := hc.leased d g r hg hr not_false
  obtain ⟨records, hcopy⟩ := hl.copy
  rw [hw] at hcopy
  have hwr : w = r := by
    rw [Option.some.inj hcopy] at hrec ⊢
    have : records = r.records := hrec.trans hl.records
    rw [this]
  subst hwr
  have hv : ClaimTable.Valid E now w := ⟨hl.authorized, hlive⟩
  have hsole := ht.soleHost hc hg hr
  refine ⟨hv, lookup_reclaimStale_of_sole (ClaimTable.lookup_settle_of_few
    (hc.few _ not_false) hw hv) hsole.others fun g' hg' hor => ?_, ?_⟩
  · obtain ⟨hq, hrum⟩ := hsole.held g' hg'
    exact (hor.elim (absurd hq) hrum).elim
  · rw [registrationFromRumor, ← hl.clientKey, ← hl.token, ← hl.records]

/-- **An event that reclaims keeps the client's domain.** -/
theorem exists_reclaimStale {records : List Record} (hc : Consistent E s) (ht : s.Tied)
    (hk : Keeps E s d e) (hre : Reclaims E s e) (hg : s.lookup d = some g)
    (hi : IsOf client token records g)
    (hlive : client.quotaKey ∉ s.liveness.expiredClients e.now) :
    ∃ g', (s.reclaimStale E e.env.order e.now).lookup d = some g' ∧
      IsOf client token records g' := by
  cases hr : g.rumor with
  | none =>
    rw [← hi.quotaKey] at hlive
    exact ⟨g, lookup_reclaimStale_of_leaseless hg hr (ht.claims_eq_none_of_leaseless hg hr) hlive,
      hi⟩
  | some r =>
    obtain ⟨w, hw, hrec, hwlive, _⟩ := hk g hg (by simp [hr]) hre
    obtain ⟨_, hl, hg'⟩ := lookup_reclaimStale_of_keeps e.env.order hc ht hg hr hw hrec
      hwlive
    rw [hg'] at hl
    exact ⟨_, hl, hi.clientKey, hi.quotaKey, hi.token, hi.records⟩

/-- A registration on another domain passes by one without a lease. -/
theorem lookup_leased_of_leaseless (hg : t.lookup d = some g) (hr : g.rumor = none)
    (hnone : ∀ q, (t.claims q).lookup d = none) (hne : d ≠ r.domain) :
    ((t.granted owner r.domain token).filed E r now).lookup d = some g := by
  have hsettled : (((t.claims (quotaKey r.rdns)).insert r).settle E now).lookup d = none :=
    ClaimTable.lookup_settle_eq_none
      (ClaimTable.lookup_insert.trans ((if_neg hne).trans (hnone _)))
  rw [lookup_filed, claims_granted, hsettled]
  exact standing_eq_some.mpr ⟨lookup_granted.trans ((if_neg hne).trans hg), Or.inr hr⟩

/-- And by a lease whose claim is still among the first five. -/
theorem lookup_leased_of_sole (hs : t.SoleHost d q)
    (hl : t.lookup d = some (registrationFromRumor w q)) (hw : (t.claims q).lookup d = some w)
    (hv : ClaimTable.Valid E now w) (hne : d ≠ r.domain)
    (hplace : quotaKey r.rdns = q →
      ((t.claims q).insert r).place E now w < maxRegistrationsPerClient) :
    ((t.granted owner r.domain token).filed E r now).lookup d =
      some (registrationFromRumor w q) := by
  have hs' : (t.granted owner r.domain token).SoleHost d q := hs.granted hne
  by_cases hq : quotaKey r.rdns = q
  · have hsettled : (((t.claims q).insert r).settle E now).lookup d = some w :=
      ClaimTable.lookup_settle.mpr
        ⟨ClaimTable.lookup_insert.trans ((if_neg hne).trans hw), hv, hplace hq⟩
    rw [hs'.lookup_filed_of_own hq, claims_filed, if_pos hq.symm, claims_granted, hsettled]
    rfl
  · rw [hs'.lookup_filed_of_other (Ne.symm hne) hq, lookup_granted, if_neg hne, hl]

/-- **A registration on another domain keeps the client's.** -/
theorem exists_leased {envelope : SignedEnvelope RegisterBody} {evidence : UInt64 × List UInt8}
    {records : List Record} (hc : Consistent E s) (ht : s.Tied) (hk : Keeps E s d e)
    (hgr : GrantedBy E s e envelope owner) (hev : s.lastProbeEvidence owner = some evidence)
    (hg : s.lookup d = some g) (hi : IsOf client token records g)
    (hlive : client.quotaKey ∉ s.liveness.expiredClients e.now)
    (hne : d ≠ envelope.body.domain) :
    ∃ g', (((s.reclaimStale E e.env.order e.now).granted owner envelope.body.domain e.token).filed
        E (leaseFor envelope owner e.token evidence) e.now).lookup d = some g' ∧
      IsOf client token records g' := by
  have hre : Reclaims E s e :=
    Or.inr ⟨envelope, owner, hgr.op, hgr.authentic, hgr.grants.live⟩
  cases hr : g.rumor with
  | none =>
    rw [← hi.quotaKey] at hlive
    have hnone := ht.claims_eq_none_of_leaseless hg hr
    have hl : (s.reclaimStale E e.env.order e.now).lookup d = some g :=
      lookup_reclaimStale_of_leaseless hg hr hnone hlive
    refine ⟨g, ?_, hi⟩
    refine lookup_leased_of_leaseless (r := leaseFor envelope owner e.token evidence) hl hr
      (fun q => ?_) hne
    rw [claims_reclaimStale]
    exact ClaimTable.lookup_settle_eq_none (hnone q)
  | some r =>
    obtain ⟨w, hw, hrec, hwlive, hfew⟩ := hk g hg (by simp [hr]) hre
    obtain ⟨hv, hl, hg'⟩ := lookup_reclaimStale_of_keeps e.env.order hc ht hg hr hw hrec
      hwlive
    have hi' : IsOf client token records (registrationFromRumor w g.quotaKey) := by
      rw [hg']
      exact ⟨hi.clientKey, hi.quotaKey, hi.token, hi.records⟩
    refine ⟨_, ?_, hi'⟩
    have hsole : (s.reclaimStale E e.env.order e.now).SoleHost d g.quotaKey :=
      (ht.reclaimStale e.env.order).soleHost (g := registrationFromRumor w g.quotaKey)
        (hc.reclaimStale e.env.order) hl rfl
    have hplace : (s.claims g.quotaKey).place E e.now w < maxRegistrationsPerClient :=
      lt_of_lt_of_le (ClaimTable.place_lt_size hw hv) (hc.few _ not_false)
    have hsettled : ((s.claims g.quotaKey).settle E e.now).lookup d = some w :=
      ClaimTable.lookup_settle.mpr ⟨hw, hv, hplace⟩
    refine lookup_leased_of_sole (r := leaseFor envelope owner e.token evidence) hsole hl ?_ hv hne
      fun hq => ?_
    · rw [claims_reclaimStale]
      exact hsettled
    · have howner : owner.quotaKey = g.quotaKey :=
        (hgr.quotaKey_leaseFor e.token evidence).symm.trans hq
      -- settling first does not change the place of a settled claim
      have hsame := ClaimTable.place_settle_insertAll
        (l := [leaseFor envelope owner e.token evidence]) (by simp) hplace
      rw [claims_reclaimStale]
      exact hsame.trans_lt (hfew envelope owner evidence hgr hev howner)

/-! ### When the client was heard -/

/-- The client was heard no later than its host was last seen. -/
def HeardBy (client : ClientIdentity) (clock : UInt64) (s : RegistryStore) (l : Ledger) : Prop :=
  ∀ h, l.heard = some h → h ≤ clock ∧
    ∀ last, s.liveness.lastSeenMillis.lookup client.quotaKey = some last → h ≤ last

/-- A client that was heard within the window is not expired. -/
theorem HeardBy.not_expired {clock h : UInt64} (hh : HeardBy client clock s l)
    (hl : l.heard = some h) (hw : withinWindow h now = true) :
    client.quotaKey ∉ s.liveness.expiredClients now := by
  rw [LivenessTracker.mem_expiredClients]
  rintro ⟨last, hlast, hout⟩
  have hle := UInt64.le_iff_toNat_le.mp ((hh h hl).2 last hlast)
  have hin : withinWindow last now = true := by
    rw [withinWindow_iff] at hw ⊢
    omega
  rw [hin] at hout
  cases hout

/-- Where no host is seen anew, nothing is heard too early. -/
theorem HeardBy.mono {clock : UInt64} {l' : Ledger} (hh : HeardBy client clock s l)
    (hle : clock ≤ now) (hl : l'.heard = l.heard)
    (hs : ∀ last, t.liveness.lastSeenMillis.lookup client.quotaKey = some last →
      s.liveness.lastSeenMillis.lookup client.quotaKey = some last) : HeardBy client now t l' := by
  intro h hh'
  obtain ⟨hclock, hseen⟩ := hh h (hl ▸ hh')
  exact ⟨UInt64.le_trans hclock hle, fun last hlast => hseen last (hs last hlast)⟩

/-- Reclaiming sees nobody. -/
theorem lastSeen_of_reclaimStale {order : VisitOrder String} {last : UInt64}
    (h : (s.reclaimStale E order now).liveness.lastSeenMillis.lookup q = some last) :
    s.liveness.lastSeenMillis.lookup q = some last := by
  rw [lastSeen_reclaimStale] at h
  split at h
  · cases h
  · exact h

/-- **Every event keeps what is heard in step with what is seen.** -/
theorem HeardBy.step {clock : UInt64} {answer : Option (Except Panic ClientResponse)}
    (hh : HeardBy client clock s l) (hle : clock ≤ e.now) (ho : Change E s e answer t) :
    HeardBy client e.now t (l.after client d e answer) := by
  cases ho with
  | idle ha _ =>
    rw [ledger_of_refused ha]
    exact hh.mono hle rfl fun _ h => h
  | @probed envelope _ owner op ha =>
    rw [ledger_of_probed op]
    split
    · rename_i hfrom
      obtain rfl := (isFrom_iff ha).mp hfrom
      intro h hh'
      obtain rfl := Option.some.inj hh'
      refine ⟨UInt64.le_refl _, fun last hlast => ?_⟩
      rw [lastSeen_probed, if_pos rfl] at hlast
      exact UInt64.le_of_eq (Option.some.inj hlast)
    · intro h hh'
      obtain ⟨hclock, hseen⟩ := hh h hh'
      have hnow : h ≤ e.now := UInt64.le_trans hclock hle
      refine ⟨hnow, fun last hlast => ?_⟩
      rw [lastSeen_probed] at hlast
      split at hlast
      · exact UInt64.le_trans hnow (UInt64.le_of_eq (Option.some.inj hlast))
      · exact hseen last hlast
  | published op _ _ _ =>
    rw [ledger_of_published op]
    refine hh.mono hle (by split <;> rfl) fun last hlast => ?_
    rwa [liveness_published] at hlast
  | adopted _ _ =>
    rw [ledger_of_refused (Or.inl rfl)]
    refine hh.mono hle rfl fun last hlast => ?_
    rwa [liveness_filed] at hlast
  | reclaimed ha _ =>
    rw [ledger_of_refused ha]
    exact hh.mono hle rfl fun _ => lastSeen_of_reclaimStale
  | panicked _ _ =>
    rw [ledger_of_panicked]
    exact hh.mono hle rfl fun _ => lastSeen_of_reclaimStale
  | leased hgr _ =>
    rw [ledger_of_registered hgr.op]
    refine hh.mono hle (by split <;> rfl) fun last hlast => ?_
    rw [liveness_filed, lastSeen_granted] at hlast
    exact lastSeen_of_reclaimStale hlast

/-! ### What the client holds -/

/-- The host was seen, and the domain is the client's, with what is in the ledger. -/
def HeldBy (client : ClientIdentity) (d : DomainName) (s : RegistryStore) (l : Ledger) : Prop :=
  ∀ token records, l.held = some (token, records) →
    (∃ last, s.liveness.lastSeenMillis.lookup client.quotaKey = some last) ∧
      ∃ g, s.lookup d = some g ∧ IsOf client token records g

theorem HeldBy.probed {ts : UInt64} {sig : List UInt8} (h : HeldBy client d s l) :
    HeldBy client d (s.probed owner now ts sig) l := by
  intro token records hl
  obtain ⟨⟨last, hlast⟩, g, hg, hi⟩ := h token records hl
  refine ⟨?_, g.refreshed owner.key ts sig, ?_, hi.refreshed⟩
  · rw [lastSeen_probed]
    split
    · exact ⟨_, rfl⟩
    · exact ⟨last, hlast⟩
  · rw [lookup_probed, hg]
    rfl

theorem HeldBy.published_other {records : List Record} {ts : UInt64} {sig : List UInt8}
    (h : HeldBy client d s l) (hg : s.lookup d' = some g) (hk : g.clientKey = owner.key)
    (hne : d' ≠ d) : HeldBy client d (s.published owner d' records ts sig) l := by
  intro token records' hl
  rw [liveness_published, lookup_published hg hk, if_neg (Ne.symm hne)]
  exact h token records' hl

/-- Records that are set are the registration's records. -/
theorem HeldBy.published_own {records : List Record} {ts : UInt64} {sig : List UInt8}
    (h : HeldBy client d s l) (hg : s.lookup d = some g) (hk : g.clientKey = owner.key) :
    HeldBy client d (s.published owner d records ts sig)
      { l with held := l.held.map fun h => (h.1, records) } := by
  intro token records' hl
  obtain ⟨⟨token₀, records₀⟩, hl₀, heq⟩ := Option.map_eq_some_iff.mp hl
  obtain ⟨rfl, rfl⟩ := Prod.mk.inj heq
  obtain ⟨hseen, g₀, hg₀, hi⟩ := h token₀ records₀ hl₀
  rw [hg] at hg₀
  obtain rfl := Option.some.inj hg₀
  rw [liveness_published, lookup_published hg hk, if_pos rfl]
  exact ⟨hseen, _, rfl, hi.clientKey, hi.quotaKey, hi.token, rfl⟩

/-- Reclaiming keeps what a client heard of recently holds. -/
theorem HeldBy.reclaimStale {clock : UInt64} (h : HeldBy client d s l)
    (hh : HeardBy client clock s l) (hc : Consistent E s) (ht : s.Tied)
    (hk : l.held ≠ none → Keeps E s d e) (hre : Reclaims E s e)
    (hrecent : l.held ≠ none → l.Recent e.now) :
    HeldBy client d (s.reclaimStale E e.env.order e.now) l := by
  intro token records hl
  have hsome : l.held ≠ none := by simp [hl]
  obtain ⟨⟨last, hlast⟩, g, hg, hi⟩ := h token records hl
  obtain ⟨t, hheard, hw⟩ := hrecent hsome
  have hlive := hh.not_expired hheard hw
  refine ⟨⟨last, ?_⟩, exists_reclaimStale hc ht (hk hsome) hre hg hi hlive⟩
  rw [lastSeen_reclaimStale, if_neg hlive, hlast]

theorem HeldBy.ne_of_free (h : HeldBy client d s l) (hl : l.held ≠ none)
    (hfree : s.lookup d' = none) : d ≠ d' := by
  rintro rfl
  obtain ⟨⟨token, records⟩, hl⟩ := Option.ne_none_iff_exists'.mp hl
  obtain ⟨_, g, hg, _⟩ := h token records hl
  rw [hfree] at hg
  cases hg

/-- A registration that is granted keeps what the client holds elsewhere. -/
theorem HeldBy.granted (h : HeldBy client d s l) (hfree : s.lookup d' = none) :
    HeldBy client d (s.granted owner d' token) l := by
  intro token' records hl
  have hne : d ≠ d' := h.ne_of_free (by simp [hl]) hfree
  rw [lastSeen_granted, lookup_granted, if_neg hne]
  exact h token' records hl

/-- **A registration that is granted and filed keeps what the client holds, and
brings it what it is told it has.** -/
theorem HeldBy.leased {clock : UInt64} {envelope : SignedEnvelope RegisterBody}
    {evidence : UInt64 × List UInt8} (h : HeldBy client d s l) (hh : HeardBy client clock s l)
    (hc : Consistent E s) (ht : s.Tied) (hk : l.held ≠ none → Keeps E s d e)
    (hgr : GrantedBy E s e envelope owner) (hev : s.lastProbeEvidence owner = some evidence)
    (hrecent : l.held ≠ none → l.Recent e.now) :
    HeldBy client d
      (((s.reclaimStale E e.env.order e.now).granted owner envelope.body.domain e.token).filed E
        (leaseFor envelope owner e.token evidence) e.now)
      (if envelope.IsFrom client ∧ envelope.body.domain = d then
        { l with held := some (e.token, []) } else l) := by
  have hre : Reclaims E s e :=
    Or.inr ⟨envelope, owner, hgr.op, hgr.authentic, hgr.grants.live⟩
  have hreclaimed := h.reclaimStale hh hc ht hk hre hrecent
  have hfree : (s.reclaimStale E e.env.order e.now).lookup envelope.body.domain = none :=
    hgr.grants.free
  split
  · rename_i hown
    obtain ⟨hfrom, rfl⟩ := hown
    obtain rfl := (isFrom_iff hgr.authentic).mp hfrom
    intro token records hl
    obtain ⟨rfl, rfl⟩ := Prod.mk.inj (Option.some.inj hl)
    obtain ⟨last, hlast, _⟩ :=
      LivenessTracker.isLive_iff.mp (isLive_reclaimStale (E := E) hgr.grants.live)
    refine ⟨⟨last, ?_⟩, _, lookup_leased _ _ _ _ _ _, ?_⟩
    · rw [liveness_filed, lastSeen_granted]
      exact hlast
    · -- the registration is the client's, with or without its lease
      split
      · exact ⟨rfl, hgr.quotaKey_leaseFor e.token evidence, rfl, rfl⟩
      · exact ⟨rfl, rfl, rfl, rfl⟩
  · intro token records hl
    have hsome : l.held ≠ none := by simp [hl]
    have hne : d ≠ envelope.body.domain := hreclaimed.ne_of_free hsome hfree
    obtain ⟨_, g, hg, hi⟩ := h token records hl
    obtain ⟨t, hheard, hw⟩ := hrecent hsome
    refine ⟨?_, exists_leased hc ht (hk hsome) hgr hev hg hi (hh.not_expired hheard hw) hne⟩
    rw [liveness_filed, lastSeen_granted]
    exact (hreclaimed token records hl).1

/-- **Every event without gossip keeps what the client holds.** -/
theorem HeldBy.step {clock : UInt64} {answer : Option (Except Panic ClientResponse)}
    (h : HeldBy client d s l) (hh : HeardBy client clock s l) (hc : Consistent E s) (ht : s.Tied)
    (hk : l.held ≠ none → Keeps E s d e) (ho : Change E s e answer t)
    (hno : ∀ r, e.op ≠ .adoptRumor r)
    (hrecent : (l.after client d e answer).held ≠ none →
      (l.after client d e answer).Recent e.now) :
    HeldBy client d t (l.after client d e answer) := by
  cases ho with
  | idle ha _ =>
    rw [ledger_of_refused ha]
    exact h
  | probed op _ =>
    rw [ledger_of_probed op]
    split
    · exact h.probed
    · exact h.probed
  | published op _ hg hown =>
    rw [ledger_of_published op]
    split
    · rename_i hd
      subst hd
      exact h.published_own hg hown
    · rename_i hd
      exact h.published_other hg hown hd
  | adopted op _ => exact absurd op (hno _)
  | reclaimed ha hre =>
    rw [ledger_of_refused ha] at hrecent ⊢
    exact h.reclaimStale hh hc ht hk hre hrecent
  | panicked hgr _ =>
    rw [ledger_of_panicked] at hrecent ⊢
    have hre : Reclaims E s e := Or.inr ⟨_, _, hgr.op, hgr.authentic, hgr.grants.live⟩
    exact (h.reclaimStale hh hc ht hk hre hrecent).granted hgr.grants.free
  | leased hgr hev =>
    rw [ledger_of_registered hgr.op] at hrecent ⊢
    refine h.leased hh hc ht hk hgr hev fun hsome => ?_
    split at hrecent
    · exact hrecent (by simp)
    · exact hrecent hsome

/-! ### Every run -/

/-- What an attended run keeps. -/
structure Keeping (E : Ed25519) (client : ClientIdentity) (d : DomainName) (w : Watched) :
    Prop where
  consistent : Consistent E w.store
  tied : w.store.Tied
  heard : HeardBy client w.clock w.store w.ledger
  held : HeldBy client d w.store w.ledger

theorem keeping_start : Keeping E client d Watched.start where
  consistent := consistent_new
  tied := tied_new
  heard _ h := by cases h
  held _ _ h := by cases h

theorem Keeping.next {w : Watched} (h : Keeping E client d w) (ha : Attended E client d w e)
    (hk : w.ledger.held ≠ none → Keeps E w.store d e) :
    Keeping E client d (w.next E client d e) where
  consistent := h.consistent.after e
  tied := h.tied.after ha.noGossip
  heard := h.heard.step ha.clock (outcome E w.store e)
  held := h.held.step h.heard h.consistent h.tied hk (outcome E w.store e) ha.noGossip ha.recent

/-- **A client keeps its domain, its token and its records** in every attended run
whose reclaiming events find the domain's claim in order. -/
theorem retained_of_keeps (E : Ed25519) (client : ClientIdentity) (d : DomainName) (w : Watched)
    (h : Run.Reaches (Watched.next E client d)
      (fun w e => Attended E client d w e ∧ (w.ledger.held ≠ none → Keeps E w.store d e))
      Watched.start w) : Watched.Retained client d w := by
  have hkeeping : Keeping E client d w :=
    Run.Reaches.invariant h keeping_start fun _ _ he hw => hw.next he.1 he.2
  intro token records hl
  obtain ⟨_, g, hg, hi⟩ := hkeeping.held token records hl
  exact ⟨g, hg, hi.clientKey, hi.token, hi.records⟩

/-! ### Two runs -/

/-- What a client sees of the events. -/
def watchedAfter (E : Ed25519) (client : ClientIdentity) (d : DomainName) (events : List Event) :
    Watched :=
  events.foldl (Watched.next E client d) Watched.start

theorem attended_of_heard {w : Watched} {h : UInt64} (hclock : w.clock ≤ e.now)
    (hno : ∀ r, e.op ≠ .adoptRumor r) (hh : (w.next E client d e).ledger.heard = some h)
    (hw : withinWindow h e.now = true) : Attended E client d w e :=
  ⟨hclock, hno, fun _ => ⟨h, hh, hw⟩⟩

/-- The client probes, registers, and the node reclaims. -/
def kept : List Event :=
  [(sampleClient 1 "host").probes 1000, (sampleClient 1 "host").registers 1000 ⟨"name"⟩ 0,
    reclaims 2000]

theorem lookup_registered :
    (watchedAfter Ed25519.sample (sampleClient 1 "host") ⟨"name"⟩ (kept.take 2)).store.lookup
      ⟨"name"⟩ = some (registrationFromRumor (nameLease 1000) "host") := by
  decide +kernel

theorem retained_kept :
    Run.Reaches (Watched.next Ed25519.sample (sampleClient 1 "host") ⟨"name"⟩)
        (fun w e => Attended Ed25519.sample (sampleClient 1 "host") ⟨"name"⟩ w e ∧
          (w.ledger.held ≠ none → Keeps Ed25519.sample w.store ⟨"name"⟩ e))
        Watched.start (watchedAfter Ed25519.sample (sampleClient 1 "host") ⟨"name"⟩ kept) ∧
      Watched.Retained (sampleClient 1 "host") ⟨"name"⟩
        (watchedAfter Ed25519.sample (sampleClient 1 "host") ⟨"name"⟩ kept) := by
  have hrun : Run.Reaches (Watched.next Ed25519.sample (sampleClient 1 "host") ⟨"name"⟩)
      (fun w e => Attended Ed25519.sample (sampleClient 1 "host") ⟨"name"⟩ w e ∧
        (w.ledger.held ≠ none → Keeps Ed25519.sample w.store ⟨"name"⟩ e))
      Watched.start (watchedAfter Ed25519.sample (sampleClient 1 "host") ⟨"name"⟩ kept) := by
    refine Run.Along.reaches ⟨⟨?_, ?_⟩, ⟨?_, ?_⟩, ⟨?_, ?_⟩, trivial⟩
    · exact attended_of_heard (h := 1000) (by decide) (by rintro r h; cases h) (by decide +kernel)
        (by decide)
    · exact fun h => absurd rfl h
    · exact attended_of_heard (h := 1000) (by decide) (by rintro r h; cases h) (by decide +kernel)
        (by decide)
    · exact fun h => absurd (by decide +kernel) h
    · exact attended_of_heard (h := 1000) (by decide) (by rintro r h; cases h) (by decide +kernel)
        (by decide)
    · -- the claim repeats the registration, and reclaiming files nothing
      rintro - g hg - -
      obtain rfl := Option.some.inj (lookup_registered.symm.trans hg)
      refine ⟨nameLease 1000, by decide +kernel, rfl, by decide, fun envelope owner _ hgr _ _ => ?_⟩
      cases hgr.op
  exact ⟨hrun, retained_of_keeps _ _ _ _ hrun⟩

/-- The client sets its records before the node reclaims. -/
def recordsSet : List Event := recordSet ++ [reclaims 3000]

/-- **Records lose the domain**: the next reclaiming finds the claim's signature to
be on other records. -/
theorem records_lose_the_domain :
    ¬ ∀ (E : Ed25519) (client : ClientIdentity) (d : DomainName) (w : Watched),
      Run.Reaches (Watched.next E client d) (Attended E client d) Watched.start w →
        Watched.Retained client d w := by
  intro h
  have hrun : Run.Reaches (Watched.next Ed25519.sample (sampleClient 1 "host") ⟨"name"⟩)
      (Attended Ed25519.sample (sampleClient 1 "host") ⟨"name"⟩) Watched.start
      (watchedAfter Ed25519.sample (sampleClient 1 "host") ⟨"name"⟩ recordsSet) := by
    refine Run.Along.reaches ⟨?_, ?_, ?_, ?_, trivial⟩ <;>
      exact attended_of_heard (h := 1000) (by decide +kernel) (by rintro r h; cases h)
        (by decide +kernel) (by decide)
  obtain ⟨g, hg, _⟩ := h _ _ _ _ hrun (sampleToken 1000 0) [sampleRecord] (by decide +kernel)
  have hnone : (watchedAfter Ed25519.sample (sampleClient 1 "host") ⟨"name"⟩
      recordsSet).store.lookup ⟨"name"⟩ = none := by decide +kernel
  rw [hnone] at hg
  cases hg

end RegistryStore

end Binda
