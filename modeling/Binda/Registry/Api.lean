import Binda.Registry.Store

/-!
# Requests against the store

`api.rs`: each client request is authenticated and applied.  A handler that can
panic returns `Except Panic`, together with the store as the panic leaves it:
the mutex around the store is not poisoned and the other tasks go on with it.
-/

namespace Binda

/-- A Rust panic and its message. -/
structure Panic where
  message : String
  deriving DecidableEq

namespace RegistryStore

variable (E : Ed25519) (s : RegistryStore)

/-- `handle_probe`. -/
def handleProbe (now : UInt64) (envelope : SignedEnvelope ProbeBody) :
    ClientResponse × RegistryStore :=
  match authenticate E envelope (probeMessage envelope.timestampMillis) now with
  | .ok identity =>
    let s := s.probeWithEvidence identity now envelope.timestampMillis envelope.signature
    (.probeAck, s.refreshProbeEvidence identity.key envelope.timestampMillis envelope.signature)
  | .error err => (.error err.text, s)

/-- The lease `handle_register` builds for a token just issued. -/
def leaseFor (envelope : SignedEnvelope RegisterBody) (identity : ClientIdentity)
    (token : RegistrationToken) (evidence : UInt64 × List UInt8) : RegistrationRumor :=
  { domain := envelope.body.domain
    token
    clientKey := identity.key
    ownerKey := envelope.verifyingKey
    rdns := envelope.rdns
    registrationTimestampMillis := envelope.timestampMillis
    registrationSignature := envelope.signature
    probeTimestampMillis := evidence.1
    probeSignature := evidence.2
    records := []
    recordsTimestampMillis := none
    recordsSignature := none }

/-- `handle_register`. -/
def handleRegister (env : Ambient) (envelope : SignedEnvelope RegisterBody) (rdnsVerified : Bool) :
    Except Panic ClientResponse × RegistryStore :=
  let message := registerMessage envelope.body.domain envelope.timestampMillis
  match authenticate E envelope message env.now with
  | .ok identity =>
    if !rdnsVerified then
      (.ok (.error ("claimed rdns hostname does not forward-confirm against the request's " ++
        "source address")), s)
    else
      match s.register E env envelope.body.domain identity with
      | (.ok token, s) =>
        match s.lastProbeEvidence identity with
        | none => (.error ⟨"live registrations have a signed probe"⟩, s)
        | some evidence =>
          -- the answer of `attach_rumor` is thrown away
          let s := (s.attachRumor E (leaseFor envelope identity token evidence) env.now).2
          (.ok (.registered token), s)
      | (.error err, s) => (.ok (.error err.text), s)
  | .error err => (.ok (.error err.text), s)

/-- `handle_set_records`. -/
def handleSetRecords (now : UInt64) (envelope : SignedEnvelope SetRecordsBody) :
    ClientResponse × RegistryStore :=
  let message := setRecordsMessage envelope.body.domain envelope.body.records
    envelope.timestampMillis
  match authenticate E envelope message now with
  | .ok identity =>
    match s.setRecords envelope.body.domain identity envelope.body.records with
    | (true, s) =>
      (.recordsSet, s.attachRecordEvidence envelope.body.domain identity.key
        envelope.timestampMillis envelope.signature)
    | (false, s) => (.error "client does not own this domain", s)
  | .error err => (.error err.text, s)

/-- `handle_client_request`. -/
def handleClientRequest (env : Ambient) (request : ClientRequest) (rdnsVerified : Bool) :
    Except Panic ClientResponse × RegistryStore :=
  match request with
  | .probe envelope =>
    let (response, s) := s.handleProbe E env.now envelope
    (.ok response, s)
  | .register envelope => s.handleRegister E env envelope rdnsVerified
  | .setRecords envelope =>
    let (response, s) := s.handleSetRecords E env.now envelope
    (.ok response, s)

end RegistryStore

end Binda
