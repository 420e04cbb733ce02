import Binda.Lib.Bytes
import Binda.Lib.Text

/-!
# Clients

`client.rs`.  Ed25519 itself is not part of the repository, so it is a
parameter: `Ed25519` says which 32 bytes are a verifying key and which
signatures verify.  Nothing is assumed of it here.

`ClientIdentity.key_injective`: the public key and the RDNS name are both read
off the client key, since the hexadecimal part has a fixed length.
-/

namespace Binda

/-- What the node uses of `ed25519_dalek`.  A verifying key keeps the bytes it
was read from, and a signature is any 64 bytes. -/
structure Ed25519 where
  /-- `VerifyingKey::from_bytes` accepts these bytes. -/
  isKey : Vector UInt8 32 → Bool
  /-- `VerifyingKey::verify` accepts the signature on the message. -/
  verifies : Vector UInt8 32 → ByteArray → Vector UInt8 64 → Bool

/-- `quota_key` of `store.rs`, the canonical FCrDNS host of an RDNS name: trimmed,
without trailing dots, in lower case. -/
def quotaKey (rdns : String) : String :=
  toAsciiLowercase (trimEndMatches '.' (trim rdns))

/-- `ClientAuthError`. -/
inductive ClientAuthError
  | invalidSignature
  deriving DecidableEq, Repr

/-- The text `thiserror` gives it. -/
def ClientAuthError.text : ClientAuthError → String
  | .invalidSignature => "signature does not verify against the supplied public key"

/-- `ClientIdentity`. -/
structure ClientIdentity where
  verifyingKey : Vector UInt8 32
  rdns : String
  deriving DecidableEq

namespace ClientIdentity

/-- `ClientIdentity::key`: the hexadecimal public key, `@`, and the RDNS name. -/
def key (client : ClientIdentity) : String :=
  String.ofList (hexEncode client.verifyingKey.toList ++ '@' :: client.rdns.toList)

/-- `ClientIdentity::quota_key`. -/
def quotaKey (client : ClientIdentity) : String := Binda.quotaKey client.rdns

/-- `ClientIdentity::verify`. -/
def verify (E : Ed25519) (client : ClientIdentity) (message : ByteArray)
    (signature : Vector UInt8 64) : Except ClientAuthError Unit :=
  if E.verifies client.verifyingKey message signature then .ok () else .error .invalidSignature

/-- **A client key names one public key and one RDNS name.** -/
theorem key_injective : Function.Injective key := by
  intro a b h
  obtain ⟨h1, h2⟩ := List.append_inj (String.ofList_injective h) (by simp [hexEncode_length])
  have hk : a.verifyingKey = b.verifyingKey := Vector.toList_inj.mp (hexEncode_injective h1)
  have hr : a.rdns = b.rdns := String.toList_injective (List.cons.inj h2).2
  cases a
  cases b
  congr

/-- `client`'s key is well formed and `signature` is its signature on `message`. -/
def Signed (E : Ed25519) (client : ClientIdentity) (message : ByteArray)
    (signature : List UInt8) : Prop :=
  E.isKey client.verifyingKey = true ∧
    ∃ s, Vector.ofBytes? 64 signature = some s ∧ E.verifies client.verifyingKey message s = true

theorem verify_eq_ok {E : Ed25519} {client : ClientIdentity} {message : ByteArray}
    {s : Vector UInt8 64} {u : Unit} :
    client.verify E message s = .ok u ↔ E.verifies client.verifyingKey message s = true := by
  rw [verify]
  split <;> simp_all

end ClientIdentity

end Binda
