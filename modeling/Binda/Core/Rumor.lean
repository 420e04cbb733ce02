import Binda.Core.ClientApi

/-!
# Rumors

The first half of `gossip.rs`: a registration as it is replicated, with the
owner's signatures on the registration, on the latest probe and on the records,
and `is_authorized`, which checks them all.

`isAuthorized_iff` turns the chain of early returns into one statement,
`Authorization`: there is one owner who made every signature the rumor carries.
-/

namespace Binda

/-- `RegistrationRumor`. -/
structure RegistrationRumor where
  domain : DomainName
  token : RegistrationToken
  clientKey : String
  ownerKey : List UInt8
  rdns : String
  registrationTimestampMillis : UInt64
  registrationSignature : List UInt8
  probeTimestampMillis : UInt64
  probeSignature : List UInt8
  records : List Record
  recordsTimestampMillis : Option UInt64
  recordsSignature : Option (List UInt8)
  deriving DecidableEq

namespace RegistrationRumor

/-- `RegistrationRumor::is_authorized`. -/
def isAuthorized (E : Ed25519) (r : RegistrationRumor) : Bool :=
  match Vector.ofBytes? 32 r.ownerKey with
  | none => false
  | some bytes =>
    if !E.isKey bytes then false
    else
      let owner : ClientIdentity := { verifyingKey := bytes, rdns := r.rdns }
      if owner.key ≠ r.clientKey then false
      else
        match Vector.ofBytes? 64 r.registrationSignature, Vector.ofBytes? 64 r.probeSignature with
        | some registerSignature, some probeSignature =>
          if !E.verifies bytes (registerMessage r.domain r.registrationTimestampMillis)
                registerSignature
              || !E.verifies bytes (probeMessage r.probeTimestampMillis) probeSignature then
            false
          else
            match r.recordsTimestampMillis, r.recordsSignature with
            | none, none => r.records.isEmpty
            | some timestamp, some signature =>
              match Vector.ofBytes? 64 signature with
              | none => false
              | some signature =>
                E.verifies bytes (setRecordsMessage r.domain r.records timestamp) signature
            | _, _ => false
        | _, _ => false

/-- The records are signed by `owner`, or there are none and no signature. -/
def Published (E : Ed25519) (owner : ClientIdentity) (r : RegistrationRumor) : Prop :=
  (r.recordsTimestampMillis = none ∧ r.recordsSignature = none ∧ r.records = []) ∨
    ∃ t s, r.recordsTimestampMillis = some t ∧ r.recordsSignature = some s ∧
      owner.Signed E (setRecordsMessage r.domain r.records t) s

/-- `owner` made every signature `r` carries. -/
structure Authorization (E : Ed25519) (owner : ClientIdentity) (r : RegistrationRumor) : Prop where
  ownerKey : r.ownerKey = owner.verifyingKey.toList
  rdns : r.rdns = owner.rdns
  clientKey : r.clientKey = owner.key
  registered : owner.Signed E (registerMessage r.domain r.registrationTimestampMillis)
    r.registrationSignature
  probed : owner.Signed E (probeMessage r.probeTimestampMillis) r.probeSignature
  published : Published E owner r

/-- **An authorized rumor is one owner's.** -/
theorem isAuthorized_iff {E : Ed25519} {r : RegistrationRumor} :
    r.isAuthorized E = true ↔ ∃ owner, Authorization E owner r := by
  rw [isAuthorized]
  constructor
  · intro h
    split at h
    · cases h
    rename_i bytes hbytes
    split at h
    · cases h
    rename_i hvalid
    have hvalid' : E.isKey bytes = true := by simpa using hvalid
    simp only at h
    split at h
    · cases h
    rename_i hkey
    split at h
    · rename_i rs ps hrs hps
      split at h
      · cases h
      rename_i hver
      simp only [Bool.or_eq_true, Bool.not_eq_true', not_or, Bool.not_eq_false] at hver
      refine ⟨⟨bytes, r.rdns⟩, Vector.ofBytes?_eq_some.mp hbytes, rfl,
        (not_not.mp hkey).symm, ⟨hvalid', rs, hrs, hver.1⟩, ⟨hvalid', ps, hps, hver.2⟩, ?_⟩
      split at h
      · rename_i ht hs
        exact Or.inl ⟨ht, hs, List.isEmpty_iff.mp h⟩
      · rename_i t s ht hs
        split at h
        · cases h
        rename_i s' hs'
        exact Or.inr ⟨t, s, ht, hs, hvalid', s', hs', h⟩
      · cases h
    · cases h
  · rintro ⟨owner, hbytes, hrdns, hkey, ⟨hvalid, rs, hrs, hrv⟩, ⟨_, ps, hps, hpv⟩, hpub⟩
    have ho : ({ verifyingKey := owner.verifyingKey, rdns := r.rdns } : ClientIdentity) = owner := by
      rw [hrdns]
    have hb : Vector.ofBytes? 32 r.ownerKey = some owner.verifyingKey :=
      Vector.ofBytes?_eq_some.mpr hbytes
    simp only [hb, hvalid, ho, hkey, hrs, hps, hrv, hpv]
    rcases hpub with ⟨ht, hs, hr⟩ | ⟨t, s, ht, hs, _, s', hs', hsv⟩
    · simp [ht, hs, hr]
    · simp [ht, hs, hs', hsv]

/-- The host whose slot the rumor's registration takes is its owner's. -/
theorem Authorization.quotaKey {E : Ed25519} {owner : ClientIdentity} {r : RegistrationRumor}
    (h : Authorization E owner r) : Binda.quotaKey r.rdns = owner.quotaKey := by
  rw [h.rdns]
  rfl

end RegistrationRumor

end Binda
