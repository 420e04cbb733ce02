import Binda.Registry.Sample
import Binda.Registry.Invariant

/-!
# What a node serves is signed

A registration with a lease is backed by its rumor.  One without a lease is
backed by nothing it carries: it was signed when it came, and the store keeps
neither the signature on the registration nor that on the records.  `Attested`
is what remains true of it, and `attested_of_reachable` says that every
registration of a reachable store is attested, whatever requests and rumors led
there.
-/

namespace Binda

namespace RegistryStore

open RegistrationRumor

variable {E : Ed25519} {s t : RegistryStore} {now : UInt64} {d : DomainName} {g g' : Registration}
  {r : RegistrationRumor}

/-- The owner named by the client key signed the registration of `d`, and the
records if there are any. -/
def Attested (E : Ed25519) (d : DomainName) (g : Registration) : Prop :=
  ∃ owner : ClientIdentity, g.clientKey = owner.key ∧
    (∃ t sig, owner.Signed E (registerMessage d t) sig) ∧
      (g.records ≠ [] → ∃ t sig, owner.Signed E (setRecordsMessage d g.records t) sig)

/-- Attestation goes by the client key and the records. -/
theorem Attested.of_eq (h : Attested E d g) (hk : g'.clientKey = g.clientKey)
    (hr : g'.records = g.records) : Attested E d g' := by
  rwa [Attested, hk, hr]

/-- **A lease attests its registration.** -/
theorem Leased.attested (h : Leased E s d g r) : Attested E d g := by
  obtain ⟨owner, ho⟩ := isAuthorized_iff.mp h.authorized
  refine ⟨owner, h.clientKey.trans ho.clientKey, ⟨_, _, h.domain ▸ ho.registered⟩, fun hne => ?_⟩
  rcases ho.published with ⟨_, _, hr⟩ | ⟨t, sig, _, _, hsig⟩
  · exact absurd (h.records.trans hr) hne
  · rw [h.records, ← h.domain]
    exact ⟨t, sig, hsig⟩

/-- Every registration without a lease is attested. -/
def LeaselessAttested (E : Ed25519) (s : RegistryStore) : Prop :=
  ∀ d g, s.lookup d = some g → g.rumor = none → Attested E d g

theorem Consistent.attested (hc : Consistent E s) (h : LeaselessAttested E s)
    (hg : s.lookup d = some g) : Attested E d g := by
  cases hr : g.rumor with
  | none => exact h d g hg hr
  | some r => exact (hc.leased d g r hg hr not_false).attested

/-! ### One step -/

/-- Where no registration without a lease is new, nothing has to be shown. -/
theorem LeaselessAttested.of_old (h : LeaselessAttested E s)
    (hold : ∀ d g, t.lookup d = some g → g.rumor = none → s.lookup d = some g) :
    LeaselessAttested E t :=
  fun d g hg hr => h d g (hold d g hg hr) hr

theorem LeaselessAttested.filed (h : LeaselessAttested E s) :
    LeaselessAttested E (s.filed E r now) :=
  h.of_old fun _ _ hg hr => lookup_of_filed hg hr

theorem LeaselessAttested.reclaimStale (h : LeaselessAttested E s) (order : VisitOrder String) :
    LeaselessAttested E (s.reclaimStale E order now) :=
  h.of_old fun _ _ hg hr => (lookup_of_reclaimStale hg hr).1

theorem LeaselessAttested.probed {client : ClientIdentity} {ts : UInt64} {sig : List UInt8}
    (h : LeaselessAttested E s) : LeaselessAttested E (s.probed client now ts sig) := by
  intro d g hg hr
  rw [lookup_probed_eq_some] at hg
  obtain ⟨g₀, hg₀, rfl⟩ := hg
  exact (h d g₀ hg₀ (Registration.refreshed_rumor_eq_none.mp hr)).of_eq
    Registration.refreshed_clientKey Registration.refreshed_records

/-- Records are signed by the client that registered the domain. -/
theorem LeaselessAttested.published {client : ClientIdentity} {records : List Record} {ts : UInt64}
    {sig : List UInt8} (h : LeaselessAttested E s) (hg : s.lookup d = some g)
    (hk : g.clientKey = client.key) (hs : client.Signed E (setRecordsMessage d records ts) sig) :
    LeaselessAttested E (s.published client d records ts sig) := by
  intro d' g' hg' hr
  rw [lookup_published hg hk] at hg'
  split at hg'
  · rename_i hd
    subst hd
    obtain rfl := Option.some.inj hg'
    obtain ⟨owner, hown, hreg, _⟩ := h d' g hg (Option.map_eq_none_iff.mp hr)
    obtain rfl := ClientIdentity.key_injective (hown.symm.trans hk)
    exact ⟨owner, hown, hreg, fun _ => ⟨ts, sig, hs⟩⟩
  · exact h d' g' hg' hr

theorem LeaselessAttested.granted {client : ClientIdentity} {token : RegistrationToken}
    {ts : UInt64} {sig : List UInt8} (h : LeaselessAttested E s)
    (hs : client.Signed E (registerMessage d ts) sig) :
    LeaselessAttested E (s.granted client d token) := by
  intro d' g' hg' hr
  rw [lookup_granted] at hg'
  split at hg'
  · rename_i hd
    subst hd
    obtain rfl := Option.some.inj hg'
    exact ⟨client, rfl, ⟨ts, sig, hs⟩, fun hne => absurd rfl hne⟩
  · exact h d' g' hg' hr

/-- **Every event keeps what has no lease attested.** -/
theorem LeaselessAttested.after (h : LeaselessAttested E s) (e : Event) :
    LeaselessAttested E (s.after E e) := by
  obtain ⟨answer, s', ho, heq⟩ := exists_change E s e
  rw [heq]
  cases ho with
  | idle _ _ => exact h
  | probed _ _ => exact h.probed
  | published _ ha hg hk => exact h.published hg hk (authenticate_eq_ok.mp ha).2.2.2
  | adopted _ _ => exact h.filed
  | reclaimed _ _ => exact h.reclaimStale _
  | panicked hg _ =>
    exact (h.reclaimStale _).granted (authenticate_eq_ok.mp hg.authentic).2.2.2
  | leased hg _ =>
    exact ((h.reclaimStale _).granted (authenticate_eq_ok.mp hg.authentic).2.2.2).filed

/-- **Every registration of a reachable store is signed by the owner it names**, and
so are its records. -/
theorem attested_of_reachable (E : Ed25519) (c : Clocked) (hc : Reachable E c) (d : DomainName)
    (g : Registration) (hg : c.store.lookup d = some g) : Attested E d g := by
  have hleaseless : LeaselessAttested E c.store := by
    refine Run.Reaches.invariant (I := fun c => LeaselessAttested E c.store) hc ?_
      fun _ e _ h => h.after e
    intro d g hg
    cases hg
  exact (consistent_of_reachable hc).attested hleaseless hg

/-- A registration that came by gossip is attested. -/
theorem attested_adopted :
    ∃ g, (storeAfter Ed25519.sample
        [adopts 1000 ((sampleClient 1 "host").lease ⟨"name"⟩ (sampleToken 1000 1) 1000 1000)]).lookup
          ⟨"name"⟩ = some g ∧ Attested Ed25519.sample ⟨"name"⟩ g := by
  have hr := reachable_of_events Ed25519.sample
    [adopts 1000 ((sampleClient 1 "host").lease ⟨"name"⟩ (sampleToken 1000 1) 1000 1000)] (by decide)
  have hg : (storeAfter Ed25519.sample
      [adopts 1000 ((sampleClient 1 "host").lease ⟨"name"⟩ (sampleToken 1000 1) 1000 1000)]).lookup
        ⟨"name"⟩ = some (registrationFromRumor
          ((sampleClient 1 "host").lease ⟨"name"⟩ (sampleToken 1000 1) 1000 1000) "host") := by
    decide +kernel
  exact ⟨_, hg, attested_of_reachable _ _ hr _ _ hg⟩

end RegistryStore

end Binda
