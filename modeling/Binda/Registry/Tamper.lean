import Binda.Registry.Sample

/-!
# What a relaying peer can change in a lease

Two leases that carry one owner's key and the same three signatures agree on
everything the signatures cover: the domain, the time of the registration and
of the probe, the records and their time.  The token and the RDNS name are
covered by none of the three messages, and with the RDNS name the client key and
the host's quota are free.

`sameLease_iff` says that this is all: under the assumption that a signature
verifies for one message only, the leases agree if and only if they agree on the
token and the RDNS name.
-/

namespace Binda

namespace RegistrationRumor

variable {E : Ed25519} {r r' : RegistrationRumor}

/-- The leases agree on what they say, the signatures left aside. -/
structure SameLease (r r' : RegistrationRumor) : Prop where
  domain : r.domain = r'.domain
  token : r.token = r'.token
  rdns : r.rdns = r'.rdns
  clientKey : r.clientKey = r'.clientKey
  registrationTimestamp : r.registrationTimestampMillis = r'.registrationTimestampMillis
  probeTimestamp : r.probeTimestampMillis = r'.probeTimestampMillis
  records : r.records = r'.records
  recordsTimestamp : r.recordsTimestampMillis = r'.recordsTimestampMillis

/-- The leases carry the same key and the same signatures. -/
structure SameEvidence (r r' : RegistrationRumor) : Prop where
  ownerKey : r.ownerKey = r'.ownerKey
  registration : r.registrationSignature = r'.registrationSignature
  probe : r.probeSignature = r'.probeSignature
  records : r.recordsSignature = r'.recordsSignature

/-- Two messages with one signature are one message. -/
theorem Signed.message_eq (hE : E.Binding) {owner owner' : ClientIdentity} {m m' : ByteArray}
    {sig : List UInt8} (h : owner.Signed E m sig) (h' : owner'.Signed E m' sig)
    (hk : owner.verifyingKey = owner'.verifyingKey) : m = m' := by
  obtain ⟨_, s, hs, hv⟩ := h
  obtain ⟨_, s', hs', hv'⟩ := h'
  rw [hs] at hs'
  obtain rfl := Option.some.inj hs'
  rw [← hk] at hv'
  exact hE _ _ _ _ hv hv'

/-- **The signatures bind everything but the token and the RDNS name.** -/
theorem sameLease_iff (hE : E.Binding) (ha : r.isAuthorized E = true)
    (ha' : r'.isAuthorized E = true) (he : SameEvidence r r') :
    SameLease r r' ↔ r.token = r'.token ∧ r.rdns = r'.rdns := by
  constructor
  · intro h
    exact ⟨h.token, h.rdns⟩
  · rintro ⟨htoken, hrdns⟩
    obtain ⟨owner, ho⟩ := isAuthorized_iff.mp ha
    obtain ⟨owner', ho'⟩ := isAuthorized_iff.mp ha'
    have hk : owner.verifyingKey = owner'.verifyingKey := by
      rw [← Vector.toList_inj, ← ho.ownerKey, ← ho'.ownerKey, he.ownerKey]
    have hown : owner = owner' := by
      have hr : owner.rdns = owner'.rdns := by rw [← ho.rdns, ← ho'.rdns, hrdns]
      cases owner
      cases owner'
      congr
    obtain ⟨hdomain, hregistered⟩ := registerMessage_injective
      (Signed.message_eq hE ho.registered (he.registration ▸ ho'.registered) hk)
    have hprobed : r.probeTimestampMillis = r'.probeTimestampMillis := probeMessage_injective
      (Signed.message_eq hE ho.probed (he.probe ▸ ho'.probed) hk)
    have hrecords : r.records = r'.records ∧
        r.recordsTimestampMillis = r'.recordsTimestampMillis := by
      rcases ho.published with ⟨ht, hs, hr⟩ | ⟨t, s, ht, hs, hsig⟩
      · rcases ho'.published with ⟨ht', _, hr'⟩ | ⟨_, _, _, hs', _⟩
        · rw [hr, hr', ht, ht']
          exact ⟨rfl, rfl⟩
        · rw [← he.records, hs] at hs'
          cases hs'
      · rcases ho'.published with ⟨_, hs', _⟩ | ⟨t', s', ht', hs', hsig'⟩
        · rw [← he.records, hs] at hs'
          cases hs'
        · rw [← he.records, hs] at hs'
          obtain rfl := Option.some.inj hs'
          rw [← hdomain] at hsig'
          obtain ⟨hr, htt⟩ := setRecordsMessage_injective (Signed.message_eq hE hsig hsig' hk)
          rw [hr, ht, ht', htt]
          exact ⟨rfl, rfl⟩
    refine ⟨hdomain, htoken, hrdns, ?_, hregistered, hprobed, hrecords.1, hrecords.2⟩
    rw [ho.clientKey, ho'.clientKey, hown]

/-- A lease, and the same lease with another token. -/
def relayed : RegistrationRumor :=
  (sampleClient 1 "host").lease ⟨"name"⟩ (sampleToken 1000 1) 1000 1000

theorem sameLease_relayed_iff :
    SameLease relayed { relayed with token := sampleToken 1 1 } ↔
      relayed.token = sampleToken 1 1 ∧ relayed.rdns = relayed.rdns :=
  sameLease_iff Ed25519.short_binding (by decide +kernel) (by decide +kernel) ⟨rfl, rfl, rfl, rfl⟩

/-- **A peer can relay a lease with another token.** -/
theorem token_not_covered :
    ¬ ∀ (E : Ed25519), E.Binding → ∀ r r' : RegistrationRumor, r.isAuthorized E = true →
      r'.isAuthorized E = true → SameEvidence r r' → SameLease r r' := by
  intro h
  have hsame := h _ Ed25519.short_binding relayed { relayed with token := sampleToken 1 1 }
    (by decide +kernel) (by decide +kernel) ⟨rfl, rfl, rfl, rfl⟩
  exact absurd hsame.token (by decide)

end RegistrationRumor

end Binda
