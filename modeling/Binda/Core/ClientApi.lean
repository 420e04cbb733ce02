import Binda.Core.Token
import Binda.Core.Zone
import Binda.Core.Client

/-!
# The client API

`client_api.rs`: the canonical messages, the signed envelope, and
`authenticate`, which turns an envelope into the identity that signed it.

The messages are injective (`probeMessage_injective`, `registerMessage_injective`,
`setRecordsMessage_injective`): the time stamp is decimal, so the last `:` of a
registration message, and the `:` after the time stamp in a message about
records, are found whatever the domain contains.
-/

namespace Binda

/-- `REQUEST_FRESHNESS_WINDOW_MILLIS`. -/
def requestFreshnessWindowMillis : UInt64 := 10000

/-! ### Requests -/

/-- `SignedEnvelope<T>`. -/
structure SignedEnvelope (τ : Type) where
  verifyingKey : List UInt8
  rdns : String
  timestampMillis : UInt64
  signature : List UInt8
  body : τ

/-- `ProbeBody`. -/
structure ProbeBody where

/-- `RegisterBody`. -/
structure RegisterBody where
  domain : DomainName

/-- `SetRecordsBody`. -/
structure SetRecordsBody where
  domain : DomainName
  records : List Record

/-- `ClientRequest`. -/
inductive ClientRequest
  | probe (envelope : SignedEnvelope ProbeBody)
  | register (envelope : SignedEnvelope RegisterBody)
  | setRecords (envelope : SignedEnvelope SetRecordsBody)

/-- `ClientResponse`. -/
inductive ClientResponse
  | probeAck
  | registered (token : RegistrationToken)
  | recordsSet
  | error (message : String)
  deriving DecidableEq

/-- `RequestAuthError`. -/
inductive RequestAuthError
  | malformedKey
  | malformedSignature
  | signature (err : ClientAuthError)
  | stale
  deriving DecidableEq

/-- The text `thiserror` gives it. -/
def RequestAuthError.text : RequestAuthError → String
  | .malformedKey => "malformed public key"
  | .malformedSignature => "malformed signature"
  | .signature err => err.text
  | .stale => "request timestamp is outside the freshness window"

/-! ### Canonical messages -/

/-- `probe_message`. -/
def probeMessage (timestampMillis : UInt64) : ByteArray :=
  s!"binda-probe:{timestampMillis}".toUTF8

/-- `register_message`. -/
def registerMessage (domain : DomainName) (timestampMillis : UInt64) : ByteArray :=
  s!"binda-register:{domain.raw}:{timestampMillis}".toUTF8

/-- `set_records_message`; writing a list of records as JSON cannot fail. -/
def setRecordsMessage (domain : DomainName) (records : List Record) (timestampMillis : UInt64) :
    ByteArray :=
  s!"binda-set-records:{domain.raw}:{timestampMillis}:".toUTF8 ++
    (String.ofList (recordsJson records)).toUTF8

theorem toList_toString (n : UInt64) : (toString n).toList = Nat.toDigits 10 n.toNat := by
  rw [show toString n = n.toNat.repr from rfl, Nat.toList_repr]

theorem toUTF8_inj {s t : String} (h : s.toUTF8 = t.toUTF8) : s = t := String.toByteArray_inj.mp h

theorem toDigits_toNat_inj {m n : UInt64} (h : Nat.toDigits 10 m.toNat = Nat.toDigits 10 n.toNat) :
    m = n := UInt64.toNat_inj.mp (toDigits_ten_injective h)

theorem probeMessage_injective : Function.Injective probeMessage := by
  intro s t h
  have hl : ("binda-probe:" ++ toString s).toList = ("binda-probe:" ++ toString t).toList :=
    congrArg String.toList (toUTF8_inj h)
  rw [String.toList_append, String.toList_append, List.append_cancel_left_eq, toList_toString,
    toList_toString] at hl
  exact toDigits_toNat_inj hl

theorem registerMessage_injective {d d' : DomainName} {t t' : UInt64}
    (h : registerMessage d t = registerMessage d' t') : d = d' ∧ t = t' := by
  have hl : ("binda-register:" ++ d.raw ++ ":" ++ toString t).toList =
      ("binda-register:" ++ d'.raw ++ ":" ++ toString t').toList :=
    congrArg String.toList (toUTF8_inj h)
  simp only [String.toList_append, List.append_assoc, List.append_cancel_left_eq,
    toList_toString] at hl
  -- the time stamp has no `:`, so both sides split at their last one
  have hdigit : (':').isDigit = false := by decide
  obtain ⟨hd, ht⟩ := split_at_last (x := ':') (notMem_toDigits_ten hdigit t.toNat)
    (notMem_toDigits_ten hdigit t'.toNat) hl
  cases d
  cases d'
  exact ⟨congrArg _ (String.toList_injective hd), toDigits_toNat_inj ht⟩

/-- For one domain a message about records names the records and the time. -/
theorem setRecordsMessage_injective {d : DomainName} {rs rs' : List Record} {t t' : UInt64}
    (h : setRecordsMessage d rs t = setRecordsMessage d rs' t') : rs = rs' ∧ t = t' := by
  rw [setRecordsMessage, setRecordsMessage, String.toUTF8, String.toUTF8, String.toUTF8,
    String.toUTF8, ← String.toByteArray_append, ← String.toByteArray_append] at h
  have hl : ("binda-set-records:" ++ d.raw ++ ":" ++ toString t ++ ":" ++
        String.ofList (recordsJson rs)).toList =
      ("binda-set-records:" ++ d.raw ++ ":" ++ toString t' ++ ":" ++
        String.ofList (recordsJson rs')).toList :=
    congrArg String.toList (toUTF8_inj h)
  simp only [String.toList_append, List.append_assoc, List.append_cancel_left_eq,
    toList_toString, String.toList_ofList] at hl
  have hdigit : (':').isDigit = false := by decide
  obtain ⟨ht, hr⟩ := split_at_first (x := ':') (notMem_toDigits_ten hdigit t.toNat)
    (notMem_toDigits_ten hdigit t'.toNat) hl
  exact ⟨recordsJson_prefixCode.injective hr, toDigits_toNat_inj ht⟩

/-! ### Authentication -/

/-- `is_fresh`. -/
def isFresh (timestampMillis nowMillis : UInt64) : Bool :=
  UInt64.absDiff nowMillis timestampMillis ≤ requestFreshnessWindowMillis

/-- `authenticate`. -/
def authenticate (E : Ed25519) {τ : Type} (envelope : SignedEnvelope τ) (message : ByteArray)
    (nowMillis : UInt64) : Except RequestAuthError ClientIdentity :=
  if !isFresh envelope.timestampMillis nowMillis then .error .stale
  else
    match Vector.ofBytes? 32 envelope.verifyingKey with
    | none => .error .malformedKey
    | some keyBytes =>
      if !E.isKey keyBytes then .error .malformedKey
      else
        match Vector.ofBytes? 64 envelope.signature with
        | none => .error .malformedSignature
        | some signature =>
          let identity : ClientIdentity := { verifyingKey := keyBytes, rdns := envelope.rdns }
          match identity.verify E message signature with
          | .error err => .error (.signature err)
          | .ok () => .ok identity

/-- **What an accepted envelope proves.** -/
theorem authenticate_eq_ok {E : Ed25519} {τ : Type} {envelope : SignedEnvelope τ}
    {message : ByteArray} {now : UInt64} {client : ClientIdentity} :
    authenticate E envelope message now = .ok client ↔
      isFresh envelope.timestampMillis now = true ∧
        envelope.verifyingKey = client.verifyingKey.toList ∧ envelope.rdns = client.rdns ∧
        client.Signed E message envelope.signature := by
  rw [authenticate]
  constructor
  · intro h
    split at h
    · cases h
    rename_i hfresh
    split at h
    · cases h
    rename_i keyBytes hkey
    split at h
    · cases h
    rename_i hvalid
    split at h
    · cases h
    rename_i signature hsig
    dsimp only at h
    split at h
    · cases h
    rename_i hver
    obtain rfl := Except.ok.inj h
    exact ⟨by simpa using hfresh, Vector.ofBytes?_eq_some.mp hkey, rfl, by simpa using hvalid,
      signature, hsig, ClientIdentity.verify_eq_ok.mp hver⟩
  · rintro ⟨hfresh, hkey, hrdns, hvalid, signature, hsig, hver⟩
    have hk : Vector.ofBytes? 32 envelope.verifyingKey = some client.verifyingKey :=
      Vector.ofBytes?_eq_some.mpr hkey
    have hv : client.verify E message signature = .ok () := ClientIdentity.verify_eq_ok.mpr hver
    simp only [hfresh, hk, hvalid, hsig, hrdns, hv, Bool.not_true, Bool.false_eq_true, if_false]

/-- An accepted envelope's time stamp is at most ten seconds from the clock. -/
theorem isFresh_iff {t now : UInt64} :
    isFresh t now = true ↔ now.toNat ≤ t.toNat + 10000 ∧ t.toNat ≤ now.toNat + 10000 := by
  rw [isFresh, decide_eq_true_eq, UInt64.le_iff_toNat_le, UInt64.toNat_absDiff,
    show requestFreshnessWindowMillis.toNat = 10000 from rfl]
  omega

end Binda
