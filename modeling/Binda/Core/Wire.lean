import Binda.Lib.Compact
import Binda.Core.Domain
import Binda.Core.Gossip

/-!
# Messages on the wire

`wire.rs`, the code `derive(Deserialize)` makes for the three messages a node
receives, and the code `derive(Serialize)` makes for gossip.  The reader of
`serde_json` is a parameter: it turns bytes into a document, or refuses them.

A domain name is read from a string, and the string is not looked at.
`select_domains` says, of each message, that its names are the strings that stand
in certain places of the document (`domainPaths`); so they are valid exactly when
those strings are (`NamesPass`).
-/

namespace Binda

/-- `MAX_DATAGRAM_BYTES`. -/
def maxDatagramBytes : Nat := 65507

/-- `WireError`, without what `serde_json` reports. -/
inductive WireError
  | encode
  | decode
  | tooLarge (actual max : Nat)
  deriving DecidableEq, Repr

/-- `decode`. -/
def decode {τ : Type} (parse : ByteArray → Option Json) (deserialize : Json → Option τ)
    (bytes : ByteArray) : Except WireError τ :=
  if maxDatagramBytes < bytes.size then .error (.tooLarge bytes.size maxDatagramBytes)
  else
    match (parse bytes).bind deserialize with
    | none => .error .decode
    | some message => .ok message

theorem decode_eq_ok {τ : Type} {parse : ByteArray → Option Json} {deserialize : Json → Option τ}
    {bytes : ByteArray} {message : τ} (h : decode parse deserialize bytes = .ok message) :
    ∃ document, parse bytes = some document ∧ deserialize document = some message := by
  rw [decode] at h
  split at h
  · cases h
  split at h
  · cases h
  rename_i message' hm
  obtain rfl := Except.ok.inj h
  exact Option.bind_eq_some_iff.mp hm

/-! ### Derived readers -/

open Json

def deserializeU8 (j : Json) : Option UInt8 := (j.readNat (2 ^ 8)).map UInt8.ofNat

def deserializeU32 (j : Json) : Option UInt32 := (j.readNat (2 ^ 32)).map UInt32.ofNat

def deserializeU64 (j : Json) : Option UInt64 := (j.readNat (2 ^ 64)).map UInt64.ofNat

/-- `Vec<u8>`. -/
def deserializeBytes : Json → Option (List UInt8) := readList deserializeU8

/-- `()` as the content of a variant. -/
def deserializeUnit : Option Json → Option Unit
  | none => some ()
  | some content => content.readNull

/-- A newtype: the text, whatever it is. -/
def DomainName.deserialize (j : Json) : Option DomainName := j.readString.map DomainName.mk

def RegistrationToken.deserialize (j : Json) : Option RegistrationToken := do
  let fields ← j.fields ["issued_at_millis", "nonce"]
  let issuedAtMillis ← required fields "issued_at_millis" deserializeU64
  let nonce ← required fields "nonce" fun j => (deserializeBytes j).bind (Vector.ofBytes? 8)
  return { issuedAtMillis, nonce }

def WinCondition.deserialize (j : Json) : Option WinCondition := do
  let (name, content) ← j.variant
  let _ ← deserializeUnit content
  match name with
  | "HigherWins" => some .higherWins
  | "LowerWins" => some .lowerWins
  | _ => none

def RecordType.deserialize (j : Json) : Option RecordType := do
  let (name, content) ← j.variant
  let _ ← deserializeUnit content
  [RecordType.a, .aaaa, .cname, .mx, .txt, .ns].find? fun recordType => recordType.name == name

def Record.deserialize (j : Json) : Option Record := do
  let fields ← j.fields ["name", "type", "ttl_secs", "value"]
  let name ← required fields "name" readString
  let recordType ← required fields "type" RecordType.deserialize
  let ttlSecs ← required fields "ttl_secs" deserializeU32
  let value ← required fields "value" readString
  return { name, recordType, ttlSecs, value }

def rumorFields : List String :=
  ["domain", "token", "client_key", "owner_key", "rdns", "registration_timestamp_millis",
    "registration_signature", "probe_timestamp_millis", "probe_signature", "records",
    "records_timestamp_millis", "records_signature"]

def RegistrationRumor.deserialize (j : Json) : Option RegistrationRumor := do
  let fields ← j.fields rumorFields
  let domain ← required fields "domain" DomainName.deserialize
  let token ← required fields "token" RegistrationToken.deserialize
  let clientKey ← required fields "client_key" readString
  let ownerKey ← required fields "owner_key" deserializeBytes
  let rdns ← required fields "rdns" readString
  let registrationTimestampMillis ← required fields "registration_timestamp_millis" deserializeU64
  let registrationSignature ← required fields "registration_signature" deserializeBytes
  let probeTimestampMillis ← required fields "probe_timestamp_millis" deserializeU64
  let probeSignature ← required fields "probe_signature" deserializeBytes
  let records ← required fields "records" (readList Record.deserialize)
  let recordsTimestampMillis ← optional fields "records_timestamp_millis" deserializeU64
  let recordsSignature ← optional fields "records_signature" deserializeBytes
  return {
    domain, token, clientKey, ownerKey, rdns, registrationTimestampMillis, registrationSignature,
    probeTimestampMillis, probeSignature, records, recordsTimestampMillis, recordsSignature }

def ConformanceChallenge.deserialize (j : Json) : Option ConformanceChallenge := do
  let fields ← j.fields ["token_a", "token_b", "condition"]
  let tokenA ← required fields "token_a" RegistrationToken.deserialize
  let tokenB ← required fields "token_b" RegistrationToken.deserialize
  let condition ← required fields "condition" WinCondition.deserialize
  return { tokenA, tokenB, condition }

def DigestEntry.deserialize (j : Json) : Option DigestEntry := do
  let fields ← j.fields ["domain", "issued_at_millis"]
  let domain ← required fields "domain" DomainName.deserialize
  let issuedAtMillis ← required fields "issued_at_millis" deserializeU64
  return { domain, issuedAtMillis }

def GossipMessage.deserialize (j : Json) : Option GossipMessage := do
  let (name, content) ← j.variant
  let content ← content
  match name with
  | "Digest" =>
    let fields ← content.fields ["rumors"]
    let rumors ← required fields "rumors" (readList DigestEntry.deserialize)
    return .digest rumors
  | "Request" =>
    let fields ← content.fields ["domains", "challenge"]
    let domains ← required fields "domains" (readList DomainName.deserialize)
    let challenge ← required fields "challenge" ConformanceChallenge.deserialize
    return .request domains challenge
  | "Rumors" =>
    let fields ← content.fields ["rumors", "challenge_answer"]
    let rumors ← required fields "rumors" (readList RegistrationRumor.deserialize)
    let challengeAnswer ← required fields "challenge_answer" RegistrationToken.deserialize
    return .rumors rumors challengeAnswer
  | _ => none

def envelopeFields : List String :=
  ["verifying_key", "rdns", "timestamp_millis", "signature", "body"]

def SignedEnvelope.deserialize {τ : Type} (deserialize : Json → Option τ) (j : Json) :
    Option (SignedEnvelope τ) := do
  let fields ← j.fields envelopeFields
  let verifyingKey ← required fields "verifying_key" deserializeBytes
  let rdns ← required fields "rdns" readString
  let timestampMillis ← required fields "timestamp_millis" deserializeU64
  let signature ← required fields "signature" deserializeBytes
  let body ← required fields "body" deserialize
  return { verifyingKey, rdns, timestampMillis, signature, body }

def ProbeBody.deserialize (j : Json) : Option ProbeBody := j.readNull.map fun _ => {}

def RegisterBody.deserialize (j : Json) : Option RegisterBody := do
  let fields ← j.fields ["domain"]
  let domain ← required fields "domain" DomainName.deserialize
  return { domain }

def SetRecordsBody.deserialize (j : Json) : Option SetRecordsBody := do
  let fields ← j.fields ["domain", "records"]
  let domain ← required fields "domain" DomainName.deserialize
  let records ← required fields "records" (readList Record.deserialize)
  return { domain, records }

def ClientRequest.deserialize (j : Json) : Option ClientRequest := do
  let (name, content) ← j.variant
  let content ← content
  match name with
  | "Probe" => return .probe (← SignedEnvelope.deserialize ProbeBody.deserialize content)
  | "Register" => return .register (← SignedEnvelope.deserialize RegisterBody.deserialize content)
  | "SetRecords" =>
    return .setRecords (← SignedEnvelope.deserialize SetRecordsBody.deserialize content)
  | _ => none

/-- `ResolveQuery`. -/
structure ResolveQuery where
  domain : DomainName
  deriving DecidableEq

def ResolveQuery.deserialize (j : Json) : Option ResolveQuery := do
  let fields ← j.fields ["domain"]
  let domain ← required fields "domain" DomainName.deserialize
  return { domain }

/-! ### Derived writers -/

def serializeBytes (bytes : List UInt8) : Json := .array (bytes.map fun b => .nat b.toNat)

def serializeOption {τ : Type} (serialize : τ → Json) : Option τ → Json
  | none => .null
  | some x => serialize x

def DomainName.serialize (d : DomainName) : Json := .string d.raw

def RegistrationToken.serialize (t : RegistrationToken) : Json :=
  .object [("issued_at_millis", .nat t.issuedAtMillis.toNat),
    ("nonce", serializeBytes t.nonce.toList)]

def WinCondition.serialize : WinCondition → Json
  | .higherWins => .string "HigherWins"
  | .lowerWins => .string "LowerWins"

def RecordType.serialize (t : RecordType) : Json := .string t.name

def Record.serialize (r : Record) : Json :=
  .object [("name", .string r.name), ("type", r.recordType.serialize),
    ("ttl_secs", .nat r.ttlSecs.toNat), ("value", .string r.value)]

def RegistrationRumor.serialize (r : RegistrationRumor) : Json :=
  .object [("domain", r.domain.serialize), ("token", r.token.serialize),
    ("client_key", .string r.clientKey), ("owner_key", serializeBytes r.ownerKey),
    ("rdns", .string r.rdns),
    ("registration_timestamp_millis", .nat r.registrationTimestampMillis.toNat),
    ("registration_signature", serializeBytes r.registrationSignature),
    ("probe_timestamp_millis", .nat r.probeTimestampMillis.toNat),
    ("probe_signature", serializeBytes r.probeSignature),
    ("records", .array (r.records.map Record.serialize)),
    ("records_timestamp_millis",
      serializeOption (fun t : UInt64 => .nat t.toNat) r.recordsTimestampMillis),
    ("records_signature", serializeOption serializeBytes r.recordsSignature)]

def ConformanceChallenge.serialize (c : ConformanceChallenge) : Json :=
  .object [("token_a", c.tokenA.serialize), ("token_b", c.tokenB.serialize),
    ("condition", c.condition.serialize)]

def DigestEntry.serialize (entry : DigestEntry) : Json :=
  .object [("domain", entry.domain.serialize),
    ("issued_at_millis", .nat entry.issuedAtMillis.toNat)]

def GossipMessage.serialize : GossipMessage → Json
  | .digest entries =>
    .object [("Digest", .object [("rumors", .array (entries.map DigestEntry.serialize))])]
  | .request domains challenge =>
    .object [("Request", .object [("domains", .array (domains.map DomainName.serialize)),
      ("challenge", challenge.serialize)])]
  | .rumors leases challengeAnswer =>
    .object [("Rumors", .object [("rumors", .array (leases.map RegistrationRumor.serialize)),
      ("challenge_answer", challengeAnswer.serialize)])]

/-- `encode`; writing these messages as JSON cannot fail. -/
def encode {τ : Type} (serialize : τ → Json) (message : τ) : Except WireError ByteArray :=
  let bytes := (String.ofList (serialize message).compact).toUTF8
  if maxDatagramBytes < bytes.size then .error (.tooLarge bytes.size maxDatagramBytes)
  else .ok bytes

/-- The size of what is written is that of the JSON text. -/
theorem size_text (j : Json) : (String.ofList j.compact).toUTF8.size = j.size :=
  String.utf8ByteSize_ofList _

/-- What is small enough is encoded. -/
theorem encode_of_size_le {τ : Type} {serialize : τ → Json} {message : τ}
    (h : (serialize message).size ≤ maxDatagramBytes) :
    encode serialize message = .ok (String.ofList (serialize message).compact).toUTF8 := by
  simp only [encode, size_text]
  exact if_neg (Nat.not_lt.mpr h)

theorem encode_eq_ok_iff {τ : Type} {serialize : τ → Json} {message : τ} :
    (∃ bytes, encode serialize message = .ok bytes) ↔
      (serialize message).size ≤ maxDatagramBytes := by
  refine ⟨?_, fun h => ⟨_, encode_of_size_le h⟩⟩
  rintro ⟨bytes, hbytes⟩
  simp only [encode, size_text] at hbytes
  split at hbytes
  · cases hbytes
  · rename_i h
    exact Nat.not_lt.mp h

/-! ### Where names come from -/

theorem DomainName.deserialize_eq_some {j : Json} {d : DomainName} :
    DomainName.deserialize j = some d ↔ j = d.serialize := by
  cases j with
  | string s =>
    rw [DomainName.deserialize, readString, Option.map_some, Option.some.injEq]
    constructor
    · rintro rfl
      rfl
    · intro h
      rw [Json.string.inj h]
  | _ =>
    refine ⟨fun h => ?_, fun h => ?_⟩
    · cases h
    · cases h

/-- The names in a message. -/
def ClientRequest.domains : ClientRequest → List DomainName
  | .probe _ => []
  | .register envelope => [envelope.body.domain]
  | .setRecords envelope => [envelope.body.domain]

/-- The names in a message. -/
def GossipMessage.domains : GossipMessage → List DomainName
  | .digest entries => entries.map fun entry => entry.domain
  | .request domains _ => domains
  | .rumors leases _ => leases.map fun r => r.domain

/-- The places of a request's names. -/
def ClientRequest.domainPaths : List (List Step) :=
  [[.content "Register", .field envelopeFields "body", .field ["domain"] "domain"],
    [.content "SetRecords", .field envelopeFields "body", .field ["domain", "records"] "domain"]]

/-- The places of a gossip message's names. -/
def GossipMessage.domainPaths : List (List Step) :=
  [[.content "Digest", .field ["rumors"] "rumors", .element,
      .field ["domain", "issued_at_millis"] "domain"],
    [.content "Request", .field ["domains", "challenge"] "domains", .element],
    [.content "Rumors", .field ["rumors", "challenge_answer"] "rumors", .element,
      .field rumorFields "domain"]]

/-- The place of a query's name. -/
def ResolveQuery.domainPaths : List (List Step) := [[.field ["domain"] "domain"]]

theorem select_domain {names : List String} {fs : List (String × Json)} {j : Json} {d : DomainName}
    (hfields : j.fields names = some fs)
    (hread : required fs "domain" DomainName.deserialize = some d) :
    j.select [.field names "domain"] = [d.serialize] := by
  obtain ⟨j', hj', hselect⟩ := select_field [] hfields hread
  rw [hselect, DomainName.deserialize_eq_some.mp hj', select]

theorem select_body {τ : Type} {deserialize : Json → Option τ} {j : Json} {path : List Step}
    {envelope : SignedEnvelope τ} {l : List Json}
    (h : SignedEnvelope.deserialize deserialize j = some envelope)
    (hbody : ∀ j', deserialize j' = some envelope.body → j'.select path = l) :
    j.select (.field envelopeFields "body" :: path) = l := by
  simp only [SignedEnvelope.deserialize, Option.bind_eq_bind, Option.bind_eq_some_iff] at h
  obtain ⟨fs, hfields, _, _, _, _, _, _, _, _, body, hread, h⟩ := h
  obtain rfl := Option.some.inj h
  obtain ⟨j', hj', hselect⟩ := select_field path hfields hread
  rw [hselect]
  exact hbody j' hj'

theorem select_registerBody {j : Json} {body : RegisterBody}
    (h : RegisterBody.deserialize j = some body) :
    j.select [.field ["domain"] "domain"] = [body.domain.serialize] := by
  simp only [RegisterBody.deserialize, Option.bind_eq_bind, Option.bind_eq_some_iff] at h
  obtain ⟨fs, hfields, d, hd, h⟩ := h
  obtain rfl := Option.some.inj h
  exact select_domain hfields hd

theorem select_setRecordsBody {j : Json} {body : SetRecordsBody}
    (h : SetRecordsBody.deserialize j = some body) :
    j.select [.field ["domain", "records"] "domain"] = [body.domain.serialize] := by
  simp only [SetRecordsBody.deserialize, Option.bind_eq_bind, Option.bind_eq_some_iff] at h
  obtain ⟨fs, hfields, d, hd, _, _, h⟩ := h
  obtain rfl := Option.some.inj h
  exact select_domain hfields hd

theorem select_digestEntry {j : Json} {entry : DigestEntry}
    (h : DigestEntry.deserialize j = some entry) :
    j.select [.field ["domain", "issued_at_millis"] "domain"] = [entry.domain.serialize] := by
  simp only [DigestEntry.deserialize, Option.bind_eq_bind, Option.bind_eq_some_iff] at h
  obtain ⟨fs, hfields, d, hd, _, _, h⟩ := h
  obtain rfl := Option.some.inj h
  exact select_domain hfields hd

theorem select_rumor {j : Json} {r : RegistrationRumor}
    (h : RegistrationRumor.deserialize j = some r) :
    j.select [.field rumorFields "domain"] = [r.domain.serialize] := by
  rw [RegistrationRumor.deserialize] at h
  obtain ⟨fs, hfields, h⟩ := Option.bind_eq_some_iff.mp h
  obtain ⟨d, hd, h⟩ := Option.bind_eq_some_iff.mp h
  -- the other eleven fields
  iterate 11 obtain ⟨_, _, h⟩ := Option.bind_eq_some_iff.mp h
  obtain rfl := Option.some.inj h
  exact select_domain hfields hd

/-- **The names of a request are the strings in their places.** -/
theorem ClientRequest.select_domains {j : Json} {m : ClientRequest}
    (h : ClientRequest.deserialize j = some m) :
    ClientRequest.domainPaths.flatMap j.select = m.domains.map DomainName.serialize := by
  simp only [ClientRequest.deserialize, Option.bind_eq_bind, Option.bind_eq_some_iff] at h
  obtain ⟨⟨name, content⟩, hvariant, content, rfl, h⟩ := h
  simp only [domainPaths, List.flatMap_cons, List.flatMap_nil, select_content _ _ hvariant]
  split at h <;> rename_i hname <;> dsimp only at hname
  · obtain ⟨envelope, _, h⟩ := Option.bind_eq_some_iff.mp h
    obtain rfl := Option.some.inj h
    rw [hname]
    rfl
  · obtain ⟨envelope, henv, h⟩ := Option.bind_eq_some_iff.mp h
    obtain rfl := Option.some.inj h
    rw [hname, select_body henv fun j' => select_registerBody]
    rfl
  · obtain ⟨envelope, henv, h⟩ := Option.bind_eq_some_iff.mp h
    obtain rfl := Option.some.inj h
    rw [hname, select_body henv fun j' => select_setRecordsBody]
    rfl
  · cases h

/-- **The names of a gossip message are the strings in their places.** -/
theorem GossipMessage.select_domains {j : Json} {m : GossipMessage}
    (h : GossipMessage.deserialize j = some m) :
    GossipMessage.domainPaths.flatMap j.select = m.domains.map DomainName.serialize := by
  simp only [GossipMessage.deserialize, Option.bind_eq_bind, Option.bind_eq_some_iff] at h
  obtain ⟨⟨name, content⟩, hvariant, content, rfl, h⟩ := h
  simp only [domainPaths, List.flatMap_cons, List.flatMap_nil, select_content _ _ hvariant]
  split at h <;> rename_i hname <;> dsimp only at hname
  · obtain ⟨fs, hfields, h⟩ := Option.bind_eq_some_iff.mp h
    obtain ⟨entries, hread, h⟩ := Option.bind_eq_some_iff.mp h
    obtain rfl := Option.some.inj h
    obtain ⟨j', hj', hselect⟩ := select_field _ hfields hread
    rw [hname, hselect, select_element hj' fun _ _ => select_digestEntry]
    simp [domains]
  · obtain ⟨fs, hfields, h⟩ := Option.bind_eq_some_iff.mp h
    obtain ⟨names, hread, h⟩ := Option.bind_eq_some_iff.mp h
    obtain ⟨challenge, _, h⟩ := Option.bind_eq_some_iff.mp h
    obtain rfl := Option.some.inj h
    obtain ⟨j', hj', hselect⟩ := select_field _ hfields hread
    rw [hname, hselect, select_element (f := DomainName.serialize) hj' fun j d hd => by
      rw [DomainName.deserialize_eq_some.mp hd, select]]
    simp [domains]
  · obtain ⟨fs, hfields, h⟩ := Option.bind_eq_some_iff.mp h
    obtain ⟨leases, hread, h⟩ := Option.bind_eq_some_iff.mp h
    obtain ⟨answer, _, h⟩ := Option.bind_eq_some_iff.mp h
    obtain rfl := Option.some.inj h
    obtain ⟨j', hj', hselect⟩ := select_field _ hfields hread
    rw [hname, hselect, select_element hj' fun _ _ => select_rumor]
    simp [domains]
  · cases h

theorem ResolveQuery.select_domains {j : Json} {m : ResolveQuery}
    (h : ResolveQuery.deserialize j = some m) :
    ResolveQuery.domainPaths.flatMap j.select = [m.domain.serialize] := by
  simp only [ResolveQuery.deserialize, Option.bind_eq_bind, Option.bind_eq_some_iff] at h
  obtain ⟨fs, hfields, d, hd, h⟩ := h
  obtain rfl := Option.some.inj h
  rw [domainPaths, List.flatMap_singleton]
  exact select_domain hfields hd

/-- `DomainName::new` accepts every string in the places. -/
def NamesPass (paths : List (List Step)) (document : Json) : Prop :=
  ∀ s, Json.string s ∈ paths.flatMap document.select → ∃ d, DomainName.new s = .ok d

theorem valid_iff_namesPass {paths : List (List Step)} {document : Json} {names : List DomainName}
    (h : paths.flatMap document.select = names.map DomainName.serialize) :
    (∀ d ∈ names, d.Valid) ↔ NamesPass paths document := by
  rw [NamesPass, h]
  constructor
  · intro hv s hs
    obtain ⟨d, hd, hds⟩ := List.mem_map.mp hs
    rw [← Json.string.inj hds]
    exact ⟨d, hv d hd⟩
  · intro hp d hd
    obtain ⟨d', hnew⟩ := hp d.raw (List.mem_map.mpr ⟨d, hd, rfl⟩)
    rw [DomainName.Valid, hnew, DomainName.eq_of_new hnew]

end Binda
