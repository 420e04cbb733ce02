import Binda.Lib.ReadBack
import Binda.Lib.Readable
import Binda.Core.Wire

/-!
# Messages survive the wire

The writers that `Wire` does not have, those of the messages of clients and of the resolver,
and what holds of all five messages together: every message is read back as it was written
(`readsBack_message`), in whatever order the members of its objects stand
(`respects_message`).
-/

namespace Binda

open Json

/-- `ResolveAnswer`. -/
structure ResolveAnswer where
  ownerClientKey : Option String
  records : List Record
  deriving DecidableEq

/-! ### The other writers -/

def SignedEnvelope.serialize {τ : Type} (serialize : τ → Json) (envelope : SignedEnvelope τ) :
    Json :=
  .object [("verifying_key", serializeBytes envelope.verifyingKey), ("rdns", .string envelope.rdns),
    ("timestamp_millis", .nat envelope.timestampMillis.toNat),
    ("signature", serializeBytes envelope.signature), ("body", serialize envelope.body)]

/-- A unit structure. -/
def ProbeBody.serialize (_ : ProbeBody) : Json := .null

def RegisterBody.serialize (body : RegisterBody) : Json :=
  .object [("domain", body.domain.serialize)]

def SetRecordsBody.serialize (body : SetRecordsBody) : Json :=
  .object [("domain", body.domain.serialize),
    ("records", .array (body.records.map Record.serialize))]

def ClientRequest.serialize : ClientRequest → Json
  | .probe envelope => .object [("Probe", envelope.serialize ProbeBody.serialize)]
  | .register envelope => .object [("Register", envelope.serialize RegisterBody.serialize)]
  | .setRecords envelope => .object [("SetRecords", envelope.serialize SetRecordsBody.serialize)]

def ClientResponse.serialize : ClientResponse → Json
  | .probeAck => .string "ProbeAck"
  | .registered token => .object [("Registered", .object [("token", token.serialize)])]
  | .recordsSet => .string "RecordsSet"
  | .error message => .object [("Error", .object [("message", .string message)])]

def ResolveQuery.serialize (query : ResolveQuery) : Json :=
  .object [("domain", query.domain.serialize)]

def ResolveAnswer.serialize (answer : ResolveAnswer) : Json :=
  .object [("owner_client_key", serializeOption Json.string answer.ownerClientKey),
    ("records", .array (answer.records.map Record.serialize))]

/-! ### The other readers -/

def ClientResponse.deserialize (j : Json) : Option ClientResponse := do
  let (name, content) ← j.variant
  match name with
  | "ProbeAck" => (deserializeUnit content).map fun _ => .probeAck
  | "Registered" =>
    let fields ← (← content).fields ["token"]
    let token ← required fields "token" RegistrationToken.deserialize
    return .registered token
  | "RecordsSet" => (deserializeUnit content).map fun _ => .recordsSet
  | "Error" =>
    let fields ← (← content).fields ["message"]
    let message ← required fields "message" readString
    return .error message
  | _ => none

def ResolveAnswer.deserialize (j : Json) : Option ResolveAnswer := do
  let fields ← j.fields ["owner_client_key", "records"]
  let ownerClientKey ← optional fields "owner_client_key" readString
  let records ← required fields "records" (readList Record.deserialize)
  return { ownerClientKey, records }

/-! ### Parts are read back -/

theorem readsBack_u8 : ReadsBack (fun b : UInt8 => .nat b.toNat) deserializeU8 := by
  intro b
  rw [deserializeU8, readNat_nat b.toNat_lt, Option.map_some, UInt8.ofNat_toNat]

theorem readsBack_u32 : ReadsBack (fun b : UInt32 => .nat b.toNat) deserializeU32 := by
  intro b
  rw [deserializeU32, readNat_nat b.toNat_lt, Option.map_some, UInt32.ofNat_toNat]

theorem readsBack_u64 : ReadsBack (fun b : UInt64 => .nat b.toNat) deserializeU64 := by
  intro b
  rw [deserializeU64, readNat_nat b.toNat_lt, Option.map_some, UInt64.ofNat_toNat]

theorem readsBack_bytes : ReadsBack serializeBytes deserializeBytes := readsBack_u8.list

theorem readsBack_string : ReadsBack Json.string readString := fun _ => rfl

theorem readsBack_domain : ReadsBack DomainName.serialize DomainName.deserialize :=
  fun _ => DomainName.deserialize_eq_some.mpr rfl

/-- What may be missing is read back, unless it is written as `null`. -/
theorem readsBack_option {τ : Type} {write : τ → Json} {read : Json → Option τ}
    (h : ReadsBack write read) (hne : ∀ x, write x ≠ .null) :
    ReadsBack (serializeOption write) (readOption read) := by
  intro o
  cases o with
  | none => rfl
  | some x => exact readOption_of_ne_null (hne x) (h x)

theorem readsBack_nonce {n : Nat} (v : Vector UInt8 n) :
    (deserializeBytes (serializeBytes v.toList)).bind (Vector.ofBytes? n) = some v := by
  rw [readsBack_bytes, Option.bind_some, Vector.ofBytes?_eq_some]

theorem readsBack_token : ReadsBack RegistrationToken.serialize RegistrationToken.deserialize := by
  intro t
  rw [RegistrationToken.serialize, RegistrationToken.deserialize]
  simp [fields_object, readsBack_u64 t.issuedAtMillis, readsBack_nonce t.nonce]

theorem readsBack_condition : ReadsBack WinCondition.serialize WinCondition.deserialize := by
  intro c
  cases c <;> rfl

theorem readsBack_recordType : ReadsBack RecordType.serialize RecordType.deserialize := by
  intro t
  cases t <;> rfl

theorem readsBack_record : ReadsBack Record.serialize Record.deserialize := by
  intro r
  rw [Record.serialize, Record.deserialize]
  simp [fields_object, readsBack_u32 r.ttlSecs, readsBack_recordType r.recordType, readString]

theorem nodup_rumorFields : rumorFields.Nodup := by decide

theorem readsBack_rumor : ReadsBack RegistrationRumor.serialize RegistrationRumor.deserialize := by
  intro r
  have htimestamp := readsBack_option readsBack_u64 (fun x hx => (by cases hx))
    r.recordsTimestampMillis
  have hsignature := readsBack_option readsBack_bytes (fun x hx => (by cases hx))
    r.recordsSignature
  rw [RegistrationRumor.serialize, RegistrationRumor.deserialize,
    fields_object (by rfl) nodup_rumorFields, Option.bind_eq_bind, Option.bind_some]
  -- the fields in the order they are declared
  refine Eq.trans (bind_required (by rfl) (readsBack_domain r.domain)) ?_
  refine Eq.trans (bind_required (by rfl) (readsBack_token r.token)) ?_
  refine Eq.trans (bind_required (by rfl) (readsBack_string r.clientKey)) ?_
  refine Eq.trans (bind_required (by rfl) (readsBack_bytes r.ownerKey)) ?_
  refine Eq.trans (bind_required (by rfl) (readsBack_string r.rdns)) ?_
  refine Eq.trans (bind_required (by rfl) (readsBack_u64 r.registrationTimestampMillis)) ?_
  refine Eq.trans (bind_required (by rfl) (readsBack_bytes r.registrationSignature)) ?_
  refine Eq.trans (bind_required (by rfl) (readsBack_u64 r.probeTimestampMillis)) ?_
  refine Eq.trans (bind_required (by rfl) (readsBack_bytes r.probeSignature)) ?_
  refine Eq.trans (bind_required (by rfl) (readsBack_record.list r.records)) ?_
  refine Eq.trans (bind_optional (by rfl) htimestamp) ?_
  exact bind_optional (by rfl) hsignature

theorem readsBack_challenge :
    ReadsBack ConformanceChallenge.serialize ConformanceChallenge.deserialize := by
  intro c
  rw [ConformanceChallenge.serialize, ConformanceChallenge.deserialize]
  simp [fields_object, readsBack_token c.tokenA, readsBack_token c.tokenB,
    readsBack_condition c.condition]

theorem readsBack_digestEntry : ReadsBack DigestEntry.serialize DigestEntry.deserialize := by
  intro entry
  rw [DigestEntry.serialize, DigestEntry.deserialize]
  simp [fields_object, readsBack_domain entry.domain, readsBack_u64 entry.issuedAtMillis]

theorem readsBack_envelope {τ : Type} {write : τ → Json} {read : Json → Option τ}
    (h : ReadsBack write read) :
    ReadsBack (SignedEnvelope.serialize write) (SignedEnvelope.deserialize read) := by
  intro envelope
  rw [SignedEnvelope.serialize, SignedEnvelope.deserialize, envelopeFields]
  simp [fields_object, readsBack_bytes envelope.verifyingKey,
    readsBack_u64 envelope.timestampMillis, readsBack_bytes envelope.signature, h envelope.body,
    readString]

/-! ### Messages are read back -/

theorem readsBack_gossip : ReadsBack GossipMessage.serialize GossipMessage.deserialize := by
  intro message
  cases message with
  | digest entries =>
    simp [GossipMessage.serialize, GossipMessage.deserialize, variant, fields_object,
      readsBack_digestEntry.list entries]
  | request domains challenge =>
    simp [GossipMessage.serialize, GossipMessage.deserialize, variant, fields_object,
      readsBack_domain.list domains, readsBack_challenge challenge]
  | rumors leases answer =>
    simp [GossipMessage.serialize, GossipMessage.deserialize, variant, fields_object,
      readsBack_rumor.list leases, readsBack_token answer]

theorem readsBack_probeBody : ReadsBack ProbeBody.serialize ProbeBody.deserialize := fun _ => rfl

theorem readsBack_registerBody : ReadsBack RegisterBody.serialize RegisterBody.deserialize := by
  intro body
  simp [RegisterBody.serialize, RegisterBody.deserialize, fields_object,
    readsBack_domain body.domain]

theorem readsBack_setRecordsBody :
    ReadsBack SetRecordsBody.serialize SetRecordsBody.deserialize := by
  intro body
  simp [SetRecordsBody.serialize, SetRecordsBody.deserialize, fields_object,
    readsBack_domain body.domain, readsBack_record.list body.records]

theorem readsBack_request : ReadsBack ClientRequest.serialize ClientRequest.deserialize := by
  intro request
  cases request with
  | probe envelope =>
    simp [ClientRequest.serialize, ClientRequest.deserialize, variant,
      readsBack_envelope readsBack_probeBody envelope]
  | register envelope =>
    simp [ClientRequest.serialize, ClientRequest.deserialize, variant,
      readsBack_envelope readsBack_registerBody envelope]
  | setRecords envelope =>
    simp [ClientRequest.serialize, ClientRequest.deserialize, variant,
      readsBack_envelope readsBack_setRecordsBody envelope]

theorem readsBack_response : ReadsBack ClientResponse.serialize ClientResponse.deserialize := by
  intro response
  cases response with
  | probeAck => rfl
  | registered token =>
    simp [ClientResponse.serialize, ClientResponse.deserialize, variant, fields_object,
      readsBack_token token]
  | recordsSet => rfl
  | error message =>
    simp [ClientResponse.serialize, ClientResponse.deserialize, variant, fields_object,
      readString]

theorem readsBack_query : ReadsBack ResolveQuery.serialize ResolveQuery.deserialize := by
  intro query
  simp [ResolveQuery.serialize, ResolveQuery.deserialize, fields_object,
    readsBack_domain query.domain]

theorem readsBack_answer : ReadsBack ResolveAnswer.serialize ResolveAnswer.deserialize := by
  intro answer
  have hkey := readsBack_option readsBack_string (fun x hx => (by cases hx)) answer.ownerClientKey
  simp [ResolveAnswer.serialize, ResolveAnswer.deserialize, fields_object, hkey,
    readsBack_record.list answer.records]

/-! ### The order of members is not seen -/

theorem respects_u8 : Respects deserializeU8 := (respects_readNat _).map _

theorem respects_u32 : Respects deserializeU32 := (respects_readNat _).map _

theorem respects_u64 : Respects deserializeU64 := (respects_readNat _).map _

theorem respects_bytes : Respects deserializeBytes := respects_readList respects_u8

theorem respects_domain : Respects DomainName.deserialize := respects_readString.map _

theorem respects_token : Respects RegistrationToken.deserialize := by
  intro j j' h
  refine bind_fields_congr h fun fs fs' hfs => ?_
  rw [required_congr hfs respects_u64, required_congr hfs (respects_bytes.bind _)]

/-- The content of a variant without any. -/
theorem deserializeUnit_congr {o o' : Option Json} (h : Option.Rel Reordered o o') :
    deserializeUnit o = deserializeUnit o' := by
  cases h with
  | none => rfl
  | some hj => exact respects_readNull _ _ hj

theorem respects_condition : Respects WinCondition.deserialize := by
  intro j j' h
  refine bind_variant_congr h fun v v' hv => ?_
  obtain ⟨name, content⟩ := v
  obtain ⟨name', content'⟩ := v'
  obtain ⟨rfl, hcontent⟩ := hv
  dsimp only
  rw [deserializeUnit_congr hcontent]

theorem respects_recordType : Respects RecordType.deserialize := by
  intro j j' h
  refine bind_variant_congr h fun v v' hv => ?_
  obtain ⟨name, content⟩ := v
  obtain ⟨name', content'⟩ := v'
  obtain ⟨rfl, hcontent⟩ := hv
  dsimp only
  rw [deserializeUnit_congr hcontent]

theorem respects_record : Respects Record.deserialize := by
  intro j j' h
  refine bind_fields_congr h fun fs fs' hfs => ?_
  rw [required_congr hfs respects_u32, required_congr hfs respects_recordType]
  simp only [required_congr hfs respects_readString]

theorem respects_rumor : Respects RegistrationRumor.deserialize := by
  intro j j' h
  refine bind_fields_congr h fun fs fs' hfs => ?_
  simp only [required_congr hfs respects_domain, required_congr hfs respects_token,
    required_congr hfs respects_readString, required_congr hfs respects_bytes,
    required_congr hfs respects_u64, required_congr hfs (respects_readList respects_record),
    optional_congr hfs respects_u64, optional_congr hfs respects_bytes]

theorem respects_challenge : Respects ConformanceChallenge.deserialize := by
  intro j j' h
  refine bind_fields_congr h fun fs fs' hfs => ?_
  simp only [required_congr hfs respects_token, required_congr hfs respects_condition]

theorem respects_digestEntry : Respects DigestEntry.deserialize := by
  intro j j' h
  refine bind_fields_congr h fun fs fs' hfs => ?_
  rw [required_congr hfs respects_domain, required_congr hfs respects_u64]

theorem respects_envelope {τ : Type} {read : Json → Option τ} (hread : Respects read) :
    Respects (SignedEnvelope.deserialize read) := by
  intro j j' h
  refine bind_fields_congr h fun fs fs' hfs => ?_
  simp only [required_congr hfs respects_readString, required_congr hfs respects_bytes,
    required_congr hfs respects_u64, required_congr hfs hread]

theorem respects_gossip : Respects GossipMessage.deserialize := by
  intro j j' h
  refine bind_variant_congr h fun v v' hv => ?_
  obtain ⟨name, content⟩ := v
  obtain ⟨name', content'⟩ := v'
  obtain ⟨rfl, hcontent⟩ := hv
  refine bind_rel hcontent fun c c' hc => ?_
  dsimp only
  split
  · refine bind_fields_congr hc fun fs fs' hfs => ?_
    rw [required_congr hfs (respects_readList respects_digestEntry)]
  · refine bind_fields_congr hc fun fs fs' hfs => ?_
    rw [required_congr hfs (respects_readList respects_domain),
      required_congr hfs respects_challenge]
  · refine bind_fields_congr hc fun fs fs' hfs => ?_
    rw [required_congr hfs (respects_readList respects_rumor), required_congr hfs respects_token]
  · rfl

theorem respects_probeBody : Respects ProbeBody.deserialize := respects_readNull.map _

theorem respects_registerBody : Respects RegisterBody.deserialize := by
  intro j j' h
  refine bind_fields_congr h fun fs fs' hfs => ?_
  rw [required_congr hfs respects_domain]

theorem respects_setRecordsBody : Respects SetRecordsBody.deserialize := by
  intro j j' h
  refine bind_fields_congr h fun fs fs' hfs => ?_
  rw [required_congr hfs respects_domain, required_congr hfs (respects_readList respects_record)]

theorem respects_request : Respects ClientRequest.deserialize := by
  intro j j' h
  refine bind_variant_congr h fun v v' hv => ?_
  obtain ⟨name, content⟩ := v
  obtain ⟨name', content'⟩ := v'
  obtain ⟨rfl, hcontent⟩ := hv
  refine bind_rel hcontent fun c c' hc => ?_
  dsimp only
  split
  · rw [respects_envelope respects_probeBody _ _ hc]
  · rw [respects_envelope respects_registerBody _ _ hc]
  · rw [respects_envelope respects_setRecordsBody _ _ hc]
  · rfl

theorem respects_response : Respects ClientResponse.deserialize := by
  intro j j' h
  refine bind_variant_congr h fun v v' hv => ?_
  obtain ⟨name, content⟩ := v
  obtain ⟨name', content'⟩ := v'
  obtain ⟨rfl, hcontent⟩ := hv
  dsimp only
  split
  · rw [deserializeUnit_congr hcontent]
  · refine bind_rel hcontent fun c c' hc => ?_
    refine bind_fields_congr hc fun fs fs' hfs => ?_
    rw [required_congr hfs respects_token]
  · rw [deserializeUnit_congr hcontent]
  · refine bind_rel hcontent fun c c' hc => ?_
    refine bind_fields_congr hc fun fs fs' hfs => ?_
    rw [required_congr hfs respects_readString]
  · rfl

theorem respects_query : Respects ResolveQuery.deserialize := by
  intro j j' h
  refine bind_fields_congr h fun fs fs' hfs => ?_
  rw [required_congr hfs respects_domain]

theorem respects_answer : Respects ResolveAnswer.deserialize := by
  intro j j' h
  refine bind_fields_congr h fun fs fs' hfs => ?_
  rw [optional_congr hfs respects_readString,
    required_congr hfs (respects_readList respects_record)]

/-! ### What is written is plain -/

theorem plain_list {τ : Type} {write : τ → Json} (h : ∀ a, (write a).Plain) (l : List τ) :
    (Json.array (l.map write)).Plain := by
  refine plainElements_iff.mpr fun j hj => ?_
  obtain ⟨a, _, rfl⟩ := List.mem_map.mp hj
  exact h a

theorem plain_nat (n : Nat) : (Json.nat n).Plain := trivial

theorem plain_string (s : String) : (Json.string s).Plain := trivial

theorem plain_bytes (bytes : List UInt8) : (serializeBytes bytes).Plain :=
  plain_list (fun b : UInt8 => plain_nat b.toNat) bytes

theorem plain_option {τ : Type} {write : τ → Json} (h : ∀ a, (write a).Plain) (o : Option τ) :
    (serializeOption write o).Plain := by
  cases o with
  | none => trivial
  | some a => exact h a

theorem plain_domain (d : DomainName) : d.serialize.Plain := plain_string d.raw

theorem plain_token (t : RegistrationToken) : t.serialize.Plain :=
  ⟨trivial, plain_bytes _, trivial⟩

theorem plain_record (r : Record) : r.serialize.Plain :=
  ⟨trivial, trivial, trivial, trivial, trivial⟩

theorem plain_rumor (r : RegistrationRumor) : r.serialize.Plain :=
  ⟨trivial, plain_token _, trivial, plain_bytes _, trivial, trivial, plain_bytes _, trivial,
    plain_bytes _, plain_list plain_record _,
    plain_option (fun t : UInt64 => plain_nat t.toNat) _, plain_option plain_bytes _, trivial⟩

theorem plain_challenge (c : ConformanceChallenge) : c.serialize.Plain := by
  refine ⟨plain_token _, plain_token _, ?_, trivial⟩
  cases c.condition <;> trivial

theorem plain_digestEntry (entry : DigestEntry) : entry.serialize.Plain :=
  ⟨plain_domain entry.domain, trivial, trivial⟩

theorem plain_gossip (message : GossipMessage) : message.serialize.Plain := by
  cases message with
  | digest entries =>
    exact ⟨⟨plain_list plain_digestEntry entries, trivial⟩, trivial⟩
  | request domains challenge =>
    exact ⟨⟨plain_list plain_domain domains, plain_challenge challenge, trivial⟩, trivial⟩
  | rumors leases answer =>
    exact ⟨⟨plain_list plain_rumor leases, plain_token answer, trivial⟩, trivial⟩

theorem plain_envelope {τ : Type} {write : τ → Json} (h : ∀ a, (write a).Plain)
    (envelope : SignedEnvelope τ) : (envelope.serialize write).Plain :=
  ⟨plain_bytes _, trivial, trivial, plain_bytes _, h envelope.body, trivial⟩

theorem plain_probeBody (body : ProbeBody) : body.serialize.Plain := trivial

theorem plain_registerBody (body : RegisterBody) : body.serialize.Plain :=
  ⟨plain_domain body.domain, trivial⟩

theorem plain_setRecordsBody (body : SetRecordsBody) : body.serialize.Plain :=
  ⟨plain_domain body.domain, plain_list plain_record body.records, trivial⟩

theorem plain_request (request : ClientRequest) : request.serialize.Plain := by
  cases request with
  | probe envelope => exact ⟨plain_envelope plain_probeBody envelope, trivial⟩
  | register envelope => exact ⟨plain_envelope plain_registerBody envelope, trivial⟩
  | setRecords envelope => exact ⟨plain_envelope plain_setRecordsBody envelope, trivial⟩

theorem plain_response (response : ClientResponse) : response.serialize.Plain := by
  cases response with
  | probeAck => trivial
  | registered token => exact ⟨⟨plain_token token, trivial⟩, trivial⟩
  | recordsSet => trivial
  | error message => exact ⟨⟨trivial, trivial⟩, trivial⟩

theorem plain_query (query : ResolveQuery) : query.serialize.Plain := ⟨trivial, trivial⟩

theorem plain_answer (answer : ResolveAnswer) : answer.serialize.Plain :=
  ⟨plain_option plain_string _, plain_list plain_record _, trivial⟩

/-! ### Datagrams -/

section Datagrams

variable {τ : Type} {write : τ → Json} {read : Json → Option τ}

/-- What `encode` writes is decoded to the message, and so is every document that differs from
it in the order of members at most. -/
structure RoundTrips (write : τ → Json) (read : Json → Option τ) : Prop where
  encoded : ∀ (parse : ByteArray → Option Json) (message : τ) (bytes : ByteArray),
    encode write message = .ok bytes → parse bytes = some (write message) →
      decode parse read bytes = .ok message
  reordered : ∀ (parse : ByteArray → Option Json) (message : τ) (document : Json)
    (bytes : ByteArray), bytes.size ≤ maxDatagramBytes → parse bytes = some document →
      Reordered (write message) document → decode parse read bytes = .ok message

theorem decode_of_parse {parse : ByteArray → Option Json} {document : Json} {bytes : ByteArray}
    {message : τ} (hsize : bytes.size ≤ maxDatagramBytes) (hparse : parse bytes = some document)
    (hread : read document = some message) : decode parse read bytes = .ok message := by
  rw [decode, if_neg (Nat.not_lt.mpr hsize), hparse, Option.bind_some, hread]

/-- The bytes of a message are the text of its document, and not too many. -/
theorem encode_eq_ok {message : τ} {bytes : ByteArray} (h : encode write message = .ok bytes) :
    bytes = (String.ofList (write message).compact).toUTF8 ∧ bytes.size ≤ maxDatagramBytes := by
  rw [encode] at h
  split at h
  · cases h
  · rename_i hsize
    obtain rfl := Except.ok.inj h
    exact ⟨rfl, Nat.not_lt.mp hsize⟩

theorem roundTrips (hback : ReadsBack write read) (hrespects : Respects read) :
    RoundTrips write read where
  encoded := by
    intro parse message bytes hencode hparse
    exact decode_of_parse (encode_eq_ok hencode).2 hparse (hback message)
  reordered := by
    intro parse message document bytes hsize hparse hreordered
    refine decode_of_parse hsize hparse ?_
    rw [← hrespects _ _ hreordered, hback]

/-- Nothing of what is encoded is cut off. -/
theorem extract_of_encode {message : τ} {bytes : ByteArray} (h : encode write message = .ok bytes) :
    bytes.extract 0 maxDatagramBytes = bytes := by
  rw [← max_eq_left (encode_eq_ok h).2]
  exact ByteArray.extract_zero_max_size

/-- The texts of these messages are read as what was written. -/
def ReadsWritten (parse : ByteArray → Option Json) (write : τ → Json) : Prop :=
  ∀ message bytes, encode write message = .ok bytes → parse bytes = some (write message)

/-- What was encoded arrives. -/
theorem decode_of_encode {parse : ByteArray → Option Json} {message : τ} {bytes : ByteArray}
    (hparse : ReadsWritten parse write) (hback : ReadsBack write read)
    (hencode : encode write message = .ok bytes) :
    decode parse read (bytes.extract 0 maxDatagramBytes) = .ok message := by
  rw [extract_of_encode hencode]
  exact decode_of_parse (encode_eq_ok hencode).2 (hparse _ _ hencode) (hback message)

open Classical in
/-- A reader of the texts that `encode` writes. -/
noncomputable def readText (bytes : ByteArray) : Option Json :=
  if h : ∃ document : Json, document.Plain ∧ (String.ofList document.compact).toUTF8 = bytes then
    some h.choose
  else none

theorem readsWritten_readText (hplain : ∀ a, (write a).Plain) : ReadsWritten readText write := by
  intro message bytes hencode
  have htext := (encode_eq_ok hencode).1
  have hex : ∃ document : Json, document.Plain ∧
      (String.ofList document.compact).toUTF8 = bytes := ⟨_, hplain message, htext.symm⟩
  rw [readText, dif_pos hex]
  obtain ⟨hdocument, hbytes⟩ := hex.choose_spec
  have hcompact := String.ofList_injective (toUTF8_inj (hbytes.trans htext))
  exact congrArg some (compact_injective hdocument (hplain message) hcompact)

/-- The bytes of a message. -/
def written (write : τ → Json) (message : τ) : ByteArray :=
  (String.ofList (write message).compact).toUTF8

theorem readText_written (hplain : ∀ a, (write a).Plain) {message : τ}
    (hsize : (write message).size ≤ maxDatagramBytes) :
    readText (written write message) = some (write message) :=
  readsWritten_readText hplain _ _ (encode_of_size_le hsize)

theorem decode_written (hplain : ∀ a, (write a).Plain) (hback : ReadsBack write read) {message : τ}
    (hsize : (write message).size ≤ maxDatagramBytes) :
    decode readText read (written write message) = .ok message := by
  refine decode_of_parse ?_ (readText_written hplain hsize) (hback message)
  exact (size_text _).trans_le hsize

/-- The bytes name the message. -/
theorem encode_cancel (hback : ReadsBack write read) (hplain : ∀ a, (write a).Plain)
    {a b : τ} {bytes : ByteArray} (ha : encode write a = .ok bytes)
    (hb : encode write b = .ok bytes) : a = b := by
  have htext := (encode_eq_ok ha).1.symm.trans (encode_eq_ok hb).1
  have hcompact := String.ofList_injective (toUTF8_inj htext)
  have hdocument := compact_injective (hplain a) (hplain b) hcompact
  have hread := congrArg read hdocument
  rw [hback, hback] at hread
  exact Option.some.inj hread

end Datagrams

/-- **Every message survives the wire**, in whatever order the members of its objects are sent:
gossip, requests of clients and their responses, queries and answers. -/
theorem messages_survive :
    RoundTrips GossipMessage.serialize GossipMessage.deserialize ∧
      RoundTrips ClientRequest.serialize ClientRequest.deserialize ∧
      RoundTrips ClientResponse.serialize ClientResponse.deserialize ∧
      RoundTrips ResolveQuery.serialize ResolveQuery.deserialize ∧
      RoundTrips ResolveAnswer.serialize ResolveAnswer.deserialize :=
  ⟨roundTrips readsBack_gossip respects_gossip, roundTrips readsBack_request respects_request,
    roundTrips readsBack_response respects_response, roundTrips readsBack_query respects_query,
    roundTrips readsBack_answer respects_answer⟩

/-- The text of an answer with its members the other way round. -/
def swappedText : ByteArray :=
  "\x7b\"records\":[],\"owner_client_key\":\"00@host\"\x7d".toUTF8

/-- An answer whose members are sent the other way round. -/
theorem messages_survive_swapped :
    decode (fun bytes => if bytes.data = swappedText.data then
        some (.object [("records", .array []), ("owner_client_key", .string "00@host")]) else none)
      ResolveAnswer.deserialize swappedText =
        .ok { ownerClientKey := some "00@host", records := [] } := by
  refine messages_survive.2.2.2.2.reordered _ _
    (.object [("records", .array []), ("owner_client_key", .string "00@host")]) _
    (by decide +kernel) (if_pos rfl) ?_
  have hperm : [("owner_client_key", Json.string "00@host"), ("records", Json.array [])].Perm
      [("records", Json.array []), ("owner_client_key", Json.string "00@host")] :=
    List.Perm.swap _ _ _
  exact Reordered.object hperm
    (.cons (Reordered.refl _) (.cons (Reordered.refl _) .nil))

/-! ### One reading -/

/-- What a listener for gossip accepts. -/
theorem variant_of_gossip {j : Json} {m : GossipMessage}
    (h : GossipMessage.deserialize j = some m) : ∃ name content, j.variant = some (name, some content) ∧
      name ∈ ["Digest", "Request", "Rumors"] := by
  obtain ⟨⟨name, content⟩, hvariant, h⟩ := Option.bind_eq_some_iff.mp h
  obtain ⟨content, rfl, h⟩ := Option.bind_eq_some_iff.mp h
  refine ⟨name, content, hvariant, ?_⟩
  dsimp only at h
  split at h
  · simp
  · simp
  · simp
  · cases h

/-- What a listener for clients accepts. -/
theorem variant_of_request {j : Json} {m : ClientRequest}
    (h : ClientRequest.deserialize j = some m) : ∃ name content, j.variant = some (name, some content) ∧
      name ∈ ["Probe", "Register", "SetRecords"] := by
  obtain ⟨⟨name, content⟩, hvariant, h⟩ := Option.bind_eq_some_iff.mp h
  obtain ⟨content, rfl, h⟩ := Option.bind_eq_some_iff.mp h
  refine ⟨name, content, hvariant, ?_⟩
  dsimp only at h
  split at h
  · simp
  · simp
  · simp
  · cases h

/-- What a resolver accepts is no variant of another name. -/
theorem variant_of_query {j : Json} {m : ResolveQuery} (h : ResolveQuery.deserialize j = some m)
    {name : String} {content : Json} (hvariant : j.variant = some (name, some content)) :
    name = "domain" := by
  obtain ⟨fs, hfields, h⟩ := Option.bind_eq_some_iff.mp h
  obtain ⟨d, hd, _⟩ := Option.bind_eq_some_iff.mp h
  obtain ⟨j', hlookup, _⟩ := Option.bind_eq_some_iff.mp hd
  match j, hvariant with
  | .object [(name', content')], hvariant =>
    obtain ⟨rfl, _⟩ := Prod.mk.inj (Option.some.inj hvariant)
    by_contra hne
    have hnone : (object [(name', content')]).fields ["domain"] = some [] := by
      simp [fields, hne]
    rw [hnone] at hfields
    obtain rfl := Option.some.inj hfields
    cases hlookup

/-- **A datagram has one reading.**  What `encode` writes is written for one message only, and no
datagram is accepted by two of the three listeners that read JSON. -/
theorem one_reading :
    (∀ a b bytes, encode GossipMessage.serialize a = .ok bytes →
        encode GossipMessage.serialize b = .ok bytes → a = b) ∧
      (∀ a b bytes, encode ClientRequest.serialize a = .ok bytes →
        encode ClientRequest.serialize b = .ok bytes → a = b) ∧
      (∀ a b bytes, encode ClientResponse.serialize a = .ok bytes →
        encode ClientResponse.serialize b = .ok bytes → a = b) ∧
      (∀ a b bytes, encode ResolveQuery.serialize a = .ok bytes →
        encode ResolveQuery.serialize b = .ok bytes → a = b) ∧
      (∀ a b bytes, encode ResolveAnswer.serialize a = .ok bytes →
        encode ResolveAnswer.serialize b = .ok bytes → a = b) ∧
      ∀ (parse : ByteArray → Option Json) (bytes : ByteArray) (m : GossipMessage)
        (r : ClientRequest) (q : ResolveQuery),
        ¬ (decode parse GossipMessage.deserialize bytes = .ok m ∧
            decode parse ClientRequest.deserialize bytes = .ok r) ∧
          ¬ (decode parse GossipMessage.deserialize bytes = .ok m ∧
            decode parse ResolveQuery.deserialize bytes = .ok q) ∧
          ¬ (decode parse ClientRequest.deserialize bytes = .ok r ∧
            decode parse ResolveQuery.deserialize bytes = .ok q) := by
  refine ⟨?_, ?_, ?_, ?_, ?_, fun parse bytes m r q => ⟨?_, ?_, ?_⟩⟩
  · exact fun a b bytes => encode_cancel readsBack_gossip plain_gossip
  · exact fun a b bytes => encode_cancel readsBack_request plain_request
  · exact fun a b bytes => encode_cancel readsBack_response plain_response
  · exact fun a b bytes => encode_cancel readsBack_query plain_query
  · exact fun a b bytes => encode_cancel readsBack_answer plain_answer
  · rintro ⟨hm, hr⟩
    obtain ⟨j, hj, hm⟩ := decode_eq_ok hm
    obtain ⟨j', hj', hr⟩ := decode_eq_ok hr
    obtain rfl := Option.some.inj (hj.symm.trans hj')
    obtain ⟨name, content, hvariant, hname⟩ := variant_of_gossip hm
    obtain ⟨name', content', hvariant', hname'⟩ := variant_of_request hr
    obtain ⟨rfl, _⟩ := Prod.mk.inj (Option.some.inj (hvariant.symm.trans hvariant'))
    simp only [List.mem_cons, List.not_mem_nil, or_false] at hname hname'
    rcases hname with rfl | rfl | rfl <;> simp at hname'
  · rintro ⟨hm, hq⟩
    obtain ⟨j, hj, hm⟩ := decode_eq_ok hm
    obtain ⟨j', hj', hq⟩ := decode_eq_ok hq
    obtain rfl := Option.some.inj (hj.symm.trans hj')
    obtain ⟨name, content, hvariant, hname⟩ := variant_of_gossip hm
    rw [variant_of_query hq hvariant] at hname
    simp at hname
  · rintro ⟨hr, hq⟩
    obtain ⟨j, hj, hr⟩ := decode_eq_ok hr
    obtain ⟨j', hj', hq⟩ := decode_eq_ok hq
    obtain rfl := Option.some.inj (hj.symm.trans hj')
    obtain ⟨name, content, hvariant, hname⟩ := variant_of_request hr
    rw [variant_of_query hq hvariant] at hname
    simp at hname

end Binda
