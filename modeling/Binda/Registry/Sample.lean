import Binda.Registry.System

/-!
# A signature scheme to compute with

`Ed25519.sample` stands in for Ed25519 where a run has to be evaluated: every 32
bytes are a key, and the one signature of a message is its `stamp`, the first
byte of the key, the length and the first 62 bytes of the message.  It is no
secure scheme, but restricted to messages of up to 62 bytes it has the property
for which a signature is trusted: `short_binding` says that one signature under
one key verifies for one message only.
-/

namespace Binda

/-- One signature under one key verifies for at most one message. -/
def Ed25519.Binding (E : Ed25519) : Prop :=
  ∀ key m m' s, E.verifies key m s = true → E.verifies key m' s = true → m = m'

/-- The key's first byte, the length of the message, and its first 62 bytes. -/
def stampBytes (key : Vector UInt8 32) (m : List UInt8) : List UInt8 :=
  key[0] :: UInt8.ofNat m.length :: (m.take 62 ++ List.replicate (62 - m.length) 0)

/-- The signature of a message under a key. -/
def stamp (key : Vector UInt8 32) (m : ByteArray) : List UInt8 := stampBytes key m.data.toList

/-- The scheme whose signatures are stamps. -/
def Ed25519.sample : Ed25519 where
  isKey _ := true
  verifies key m s := decide (s.toList = stampBytes key m.data.toList)

/-- The scheme for messages that a stamp holds whole. -/
def Ed25519.short : Ed25519 where
  isKey _ := true
  verifies key m s :=
    decide (m.data.toList.length ≤ 62) && decide (s.toList = stampBytes key m.data.toList)

theorem stampBytes_injective {key : Vector UInt8 32} {m m' : List UInt8} (hm : m.length ≤ 62)
    (hm' : m'.length ≤ 62) (h : stampBytes key m = stampBytes key m') : m = m' := by
  injection h with _ h
  injection h with hlen hbytes
  have hl : m.length = m'.length := by
    have := congrArg UInt8.toNat hlen
    rw [UInt8.toNat_ofNat', UInt8.toNat_ofNat'] at this
    omega
  rw [List.take_of_length_le hm, List.take_of_length_le hm'] at hbytes
  exact (List.append_inj hbytes hl).1

/-- **A short message is read off its stamp.** -/
theorem Ed25519.short_binding : Ed25519.short.Binding := by
  intro key m m' s h h'
  simp only [short, Bool.and_eq_true, decide_eq_true_eq] at h h'
  have hb : stampBytes key m.data.toList = stampBytes key m'.data.toList := h.2.symm.trans h'.2
  exact ByteArray.ext (Array.toList_inj.mp (stampBytes_injective h.1 h'.1 hb))

/-! ### Signed requests and rumors -/

/-- A client with a key of thirty-two equal bytes. -/
def sampleClient (byte : UInt8) (rdns : String) : ClientIdentity :=
  { verifyingKey := Vector.replicate 32 byte, rdns }

/-- The client's envelope around a body, with its stamp on the message. -/
def ClientIdentity.envelope {τ : Type} (client : ClientIdentity) (timestamp : UInt64) (body : τ)
    (message : ByteArray) : SignedEnvelope τ :=
  { verifyingKey := client.verifyingKey.toList
    rdns := client.rdns
    timestampMillis := timestamp
    signature := stamp client.verifyingKey message
    body }

/-- The client's probe. -/
def ClientIdentity.probeRequest (client : ClientIdentity) (timestamp : UInt64) : ClientRequest :=
  .probe (client.envelope timestamp {} (probeMessage timestamp))

/-- The client's registration of a domain. -/
def ClientIdentity.registerRequest (client : ClientIdentity) (timestamp : UInt64)
    (domain : DomainName) : ClientRequest :=
  .register (client.envelope timestamp { domain } (registerMessage domain timestamp))

/-- The client's records for a domain. -/
def ClientIdentity.setRecordsRequest (client : ClientIdentity) (timestamp : UInt64)
    (domain : DomainName) (records : List Record) : ClientRequest :=
  .setRecords (client.envelope timestamp { domain, records }
    (setRecordsMessage domain records timestamp))

/-- The client's lease of a domain, registered and probed at the given times and
without records. -/
def ClientIdentity.lease (client : ClientIdentity) (domain : DomainName) (token : RegistrationToken)
    (registered probed : UInt64) : RegistrationRumor :=
  { domain
    token
    clientKey := client.key
    ownerKey := client.verifyingKey.toList
    rdns := client.rdns
    registrationTimestampMillis := registered
    registrationSignature := stamp client.verifyingKey (registerMessage domain registered)
    probeTimestampMillis := probed
    probeSignature := stamp client.verifyingKey (probeMessage probed)
    records := []
    recordsTimestampMillis := none
    recordsSignature := none }

/-- A token issued at a time, with a nonce of eight equal bytes. -/
def sampleToken (issuedAt : UInt64) (byte : UInt8) : RegistrationToken :=
  { issuedAtMillis := issuedAt, nonce := Vector.replicate 8 byte }

/-- A client's lease of a name it registered at one second, with a probe signed at the given
time. -/
def nameLease (probed : UInt64) : RegistrationRumor :=
  (sampleClient 1 "host").lease ⟨"name"⟩ (sampleToken 1000 0) 1000 probed

theorem stampBytes_length (key : Vector UInt8 32) (m : List UInt8) :
    (stampBytes key m).length = 64 := by
  simp only [stampBytes, List.length_cons, List.length_append, List.length_take,
    List.length_replicate]
  omega

theorem signed_stamp (client : ClientIdentity) (m : ByteArray) :
    client.Signed Ed25519.sample m (stamp client.verifyingKey m) := by
  refine ⟨rfl, ⟨(stamp client.verifyingKey m).toArray, stampBytes_length _ _⟩, ?_, ?_⟩
  · exact Vector.ofBytes?_eq_some.mpr rfl
  · exact decide_eq_true rfl

/-- A stamped lease is authorized. -/
theorem isAuthorized_lease (client : ClientIdentity) (domain : DomainName)
    (token : RegistrationToken) (registered probed : UInt64) :
    (client.lease domain token registered probed).isAuthorized Ed25519.sample = true :=
  RegistrationRumor.isAuthorized_iff.mpr ⟨client, rfl, rfl, rfl, signed_stamp client _,
    signed_stamp client _, Or.inl ⟨rfl, rfl, rfl⟩⟩

/-! ### Events -/

/-- A clock reading, a nonce of eight equal bytes, and tables visited as listed. -/
def sampleAmbient (now : UInt64) (byte : UInt8) : Ambient :=
  { now, nonce := Vector.replicate 8 byte, order := VisitOrder.listed }

/-- The client probes, and its clock is the node's. -/
def ClientIdentity.probes (client : ClientIdentity) (now : UInt64) : Event :=
  { env := sampleAmbient now 0, op := .request (client.probeRequest now) true }

/-- The client registers a domain, and the nonce is eight times `byte`. -/
def ClientIdentity.registers (client : ClientIdentity) (now : UInt64) (domain : DomainName)
    (byte : UInt8) : Event :=
  { env := sampleAmbient now byte, op := .request (client.registerRequest now domain) true }

/-- The client sets the records of a domain. -/
def ClientIdentity.setsRecords (client : ClientIdentity) (now : UInt64) (domain : DomainName)
    (records : List Record) : Event :=
  { env := sampleAmbient now 0, op := .request (client.setRecordsRequest now domain records) true }

/-- An address record. -/
def sampleRecord : Record := { name := "@", recordType := .a, ttlSecs := 60, value := "1" }

/-- A client registers a name and sets a record. -/
def recordSet : List Event :=
  [(sampleClient 1 "host").probes 1000, (sampleClient 1 "host").registers 1000 ⟨"name"⟩ 0,
    (sampleClient 1 "host").setsRecords 2000 ⟨"name"⟩ [sampleRecord]]

/-- A client probes and registers a name at one second, and probes once more. -/
def probedTwice (later : UInt64) : List Event :=
  [(sampleClient 1 "host").probes 1000, (sampleClient 1 "host").registers 1000 ⟨"name"⟩ 0,
    (sampleClient 1 "host").probes later]

/-- A rumor is adopted. -/
def adopts (now : UInt64) (rumor : RegistrationRumor) : Event :=
  { env := sampleAmbient now 0, op := .adoptRumor rumor }

/-- The node reclaims. -/
def reclaims (now : UInt64) : Event := { env := sampleAmbient now 0, op := .reclaimStale }

/-- The store after the events. -/
def storeAfter (E : Ed25519) (events : List Event) : RegistryStore :=
  events.foldl (RegistryStore.after E) RegistryStore.new

/-- The clock reading of the last event. -/
def clockAfter (events : List Event) : UInt64 := events.foldl (fun _ e => e.now) 0

/-- Events at readings that do not go back make a run. -/
theorem reachable_of_events (E : Ed25519) (events : List Event)
    (h : (events.map Event.now).Pairwise (· ≤ ·)) :
    Reachable E { clock := clockAfter events, store := storeAfter E events } := by
  have key : ∀ (events : List Event) (c : Clocked),
      (∀ e ∈ events, c.clock ≤ e.now) → (events.map Event.now).Pairwise (· ≤ ·) →
      Run.Along (Clocked.next E) (Clocked.May fun _ _ => True) c events := by
    intro events
    induction events with
    | nil => intro c _ _; exact trivial
    | cons e events ih =>
      intro c hc hp
      rw [List.map_cons, List.pairwise_cons] at hp
      exact ⟨⟨hc e List.mem_cons_self, trivial⟩,
        ih _ (fun e' he' => hp.1 _ (List.mem_map.mpr ⟨e', he', rfl⟩)) hp.2⟩
  have hrun := (key events Clocked.start (fun e _ => by
    rw [UInt64.le_iff_toNat_le]; exact Nat.zero_le _) h).reaches
  have hfold : ∀ (events : List Event) (c : Clocked),
      events.foldl (Clocked.next E) c =
        ⟨events.foldl (fun _ e => e.now) c.clock, events.foldl (RegistryStore.after E) c.store⟩ := by
    intro events
    induction events with
    | nil => intro c; rfl
    | cons e events ih => intro c; exact ih _
  rw [hfold] at hrun
  exact hrun

end Binda
