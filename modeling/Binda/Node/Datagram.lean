import Binda.Core.Codec
import Binda.Node.Challenge
import Binda.Registry.Names
import Binda.Registry.Sample

/-!
# Names that arrive

A node turns datagrams into messages with `decode`, and no reader of a name runs
`DomainName::new`.  `decoded_names_valid` says when the names of an accepted
message are valid all the same, and that a node which accepts only such messages
holds no other names.  `accepts_empty_name` is a message with a name that is not
valid.
-/

namespace Binda

/-- What arrives at a node: a datagram at the socket for gossip or at the one for
clients, or the time to prune the pending challenges. -/
inductive Arrival (Address : Type)
  | gossip (env : GossipAmbient Address) (sender : Address) (bytes : ByteArray)
  | client (env : Ambient) (bytes : ByteArray) (rdnsVerified : Bool)
  | prune (instant : Nat)

namespace Arrival

variable {Address : Type} (parse : ByteArray → Option Json)

/-- What the receiving loops make of it: `gossip_recv_loop`, `run_client_api` and the
maintenance task. -/
def event : Arrival Address → Option (NodeEvent Address)
  | gossip env sender bytes =>
    match decode parse GossipMessage.deserialize bytes with
    | .error _ => none
    | .ok message => if isWellFormed message then some (.received env sender message) else none
  | client env bytes rdnsVerified =>
    match decode parse ClientRequest.deserialize bytes with
    | .error _ => none
    | .ok request => some (.request env request rdnsVerified)
  | prune instant => some (.prune instant)

/-- If the bytes are accepted, every string in the place of a name is a name. -/
def Sound {τ : Type} (deserialize : Json → Option τ) (paths : List (List Json.Step))
    (bytes : ByteArray) : Prop :=
  ∀ document, parse bytes = some document → (∃ m, decode parse deserialize bytes = .ok m) →
    NamesPass paths document

/-- The same for what arrives. -/
def NamesSound : Arrival Address → Prop
  | gossip _ _ bytes => Sound parse GossipMessage.deserialize GossipMessage.domainPaths bytes
  | client _ bytes _ => Sound parse ClientRequest.deserialize ClientRequest.domainPaths bytes
  | prune _ => True

end Arrival

/-- The names in what happens to a node. -/
def NodeEvent.domains {Address : Type} : NodeEvent Address → List DomainName
  | .received _ _ message => message.domains
  | .request _ body _ => body.domains
  | .prune _ => []

namespace Node

open RegistryStore

variable {Address : Type} [DecidableEq Address] {E : Ed25519} {parse : ByteArray → Option Json}
  {n : Node Address} {P : DomainName → Prop}

/-- The node after an arrival. -/
def arrive (E : Ed25519) (parse : ByteArray → Option Json) (n : Node Address)
    (a : Arrival Address) : Node Address :=
  match a.event parse with
  | none => n
  | some e => n.after E e

/-- A node with a history of arrivals. -/
def arrived (E : Ed25519) (parse : ByteArray → Option Json) (as : List (Arrival Address)) :
    Node Address :=
  as.foldl (arrive E parse) new

/-! ### The names a node holds -/

theorem named_after (h : n.store.Named P) (e : NodeEvent Address) (he : ∀ d ∈ e.domains, P d) :
    (n.after E e).store.Named P := by
  cases e with
  | received env sender message =>
    rw [after, store_handleGossipMessage]
    refine adoptAll_induction h fun t r hr _ ht => ht.filed (he _ ?_)
    obtain ⟨_, rumors, _, rfl, hhanded, _⟩ := mem_handed hr
    rw [hhanded] at hr
    exact List.mem_map.mpr ⟨r, hr, rfl⟩
  | request env request v =>
    refine h.after ⟨env, .request request v⟩ fun d hd => he d ?_
    cases request with
    | register envelope => exact hd
    | _ => cases hd
  | prune instant => exact h

section Decoded

variable {τ : Type} {deserialize : Json → Option τ} {paths : List (List Json.Step)}
  {domains : List DomainName} {bytes : ByteArray} {m : τ}

/-- The names of a message that was decoded are valid if the document's are. -/
theorem valid_iff_of_decode {document : Json}
    (hselect : ∀ j, deserialize j = some m →
      paths.flatMap j.select = domains.map DomainName.serialize)
    (hparse : parse bytes = some document) (hm : decode parse deserialize bytes = .ok m) :
    (∀ d ∈ domains, d.Valid) ↔ NamesPass paths document := by
  obtain ⟨document', hparse', hread⟩ := decode_eq_ok hm
  obtain rfl := Option.some.inj (hparse.symm.trans hparse')
  exact valid_iff_namesPass (hselect document hread)

theorem valid_of_sound
    (hselect : ∀ j, deserialize j = some m →
      paths.flatMap j.select = domains.map DomainName.serialize)
    (hsound : Arrival.Sound parse deserialize paths bytes)
    (hm : decode parse deserialize bytes = .ok m) : ∀ d ∈ domains, d.Valid := by
  obtain ⟨document, hparse, _⟩ := decode_eq_ok hm
  exact (valid_iff_of_decode hselect hparse hm).mpr (hsound document hparse ⟨m, hm⟩)

end Decoded

omit [DecidableEq Address] in
/-- The names of a sound arrival are valid. -/
theorem valid_of_namesSound {a : Arrival Address} {e : NodeEvent Address}
    (ha : a.NamesSound parse) (he : a.event parse = some e) : ∀ d ∈ e.domains, d.Valid := by
  cases a with
  | gossip env sender bytes =>
    rw [Arrival.event] at he
    split at he
    · cases he
    rename_i message hm
    split at he
    · obtain rfl := Option.some.inj he
      exact valid_of_sound (fun _ => GossipMessage.select_domains) ha hm
    · cases he
  | client env bytes v =>
    rw [Arrival.event] at he
    split at he
    · cases he
    rename_i request hm
    obtain rfl := Option.some.inj he
    exact valid_of_sound (fun _ => ClientRequest.select_domains) ha hm
  | prune instant =>
    obtain rfl := Option.some.inj he
    intro d hd
    cases hd

theorem named_arrived {as : List (Arrival Address)} (h : ∀ a ∈ as, a.NamesSound parse) :
    (arrived E parse as).store.Named DomainName.Valid := by
  induction as using List.reverseRecOn with
  | nil => exact named_new
  | append_singleton as a ih =>
    rw [List.forall_mem_append, List.forall_mem_singleton] at h
    rw [arrived, List.foldl_append, List.foldl_cons, List.foldl_nil, ← arrived, arrive]
    split
    · exact ih h.1
    · rename_i e he
      exact named_after (ih h.1) e (valid_of_namesSound h.2 he)

/-- **When the names in a message are valid, and the names in a store.**  The names of
an accepted message are valid if and only if `DomainName::new` accepts every string
that stands in the place of a name; if that is so of all that arrives, every
registered name is valid. -/
theorem decoded_names_valid (E : Ed25519) (parse : ByteArray → Option Json) :
    (∀ bytes document request, parse bytes = some document →
        decode parse ClientRequest.deserialize bytes = .ok request →
        ((∀ d ∈ request.domains, d.Valid) ↔ NamesPass ClientRequest.domainPaths document)) ∧
      (∀ bytes document message, parse bytes = some document →
        decode parse GossipMessage.deserialize bytes = .ok message →
        ((∀ d ∈ message.domains, d.Valid) ↔ NamesPass GossipMessage.domainPaths document)) ∧
      (∀ bytes document query, parse bytes = some document →
        decode parse ResolveQuery.deserialize bytes = .ok query →
        (query.domain.Valid ↔ NamesPass ResolveQuery.domainPaths document)) ∧
      ∀ as : List (Arrival Address), (∀ a ∈ as, a.NamesSound parse) →
        ∀ d g, (arrived E parse as).store.lookup d = some g → d.Valid := by
  refine ⟨?_, ?_, ?_, fun as h => (named_arrived h).registered⟩
  · intro bytes document request hparse hm
    exact valid_iff_of_decode (fun _ => ClientRequest.select_domains) hparse hm
  · intro bytes document message hparse hm
    exact valid_iff_of_decode (fun _ => GossipMessage.select_domains) hparse hm
  · intro bytes document query hparse hm
    have hnames : (∀ d ∈ [query.domain], d.Valid) ↔ NamesPass ResolveQuery.domainPaths document :=
      valid_iff_of_decode (fun _ => ResolveQuery.select_domains) hparse hm
    rwa [List.forall_mem_singleton] at hnames

/-! ### Two readers -/

section Sample

variable {τ : Type} {n : Node Address}

omit [DecidableEq Address] in
/-- A request that was written has valid names if the client chose such names. -/
theorem namesSound_written {env : Ambient} {request : ClientRequest} {v : Bool}
    (hsize : (ClientRequest.serialize request).size ≤ maxDatagramBytes)
    (hvalid : ∀ d ∈ request.domains, d.Valid) :
    (Arrival.client env (written ClientRequest.serialize request) v : Arrival Address).NamesSound
      readText := by
  intro document hparse _
  have hm := decode_written plain_request readsBack_request hsize
  exact (valid_iff_of_decode (fun _ => ClientRequest.select_domains) hparse hm).mp hvalid

theorem arrive_written {env : Ambient} {request : ClientRequest} {v : Bool}
    (hsize : (ClientRequest.serialize request).size ≤ maxDatagramBytes) :
    n.arrive E readText (.client env (written ClientRequest.serialize request) v) =
      n.after E (.request env request v) := by
  rw [arrive, Arrival.event, decode_written plain_request readsBack_request hsize]

/-- A client's datagrams: it probes and registers a name. -/
def registering : List (Arrival Bool) :=
  [.client (sampleAmbient 1000 0)
      (written ClientRequest.serialize ((sampleClient 1 "host").probeRequest 1000)) true,
    .client (sampleAmbient 1000 0)
      (written ClientRequest.serialize ((sampleClient 1 "host").registerRequest 1000 ⟨"name"⟩))
      true]

theorem lookup_registering :
    (arrived Ed25519.sample readText registering).store.lookup ⟨"name"⟩ =
      some (registrationFromRumor (nameLease 1000) "host") := by
  rw [arrived, registering, List.foldl_cons, List.foldl_cons, List.foldl_nil,
    arrive_written (by decide +kernel), arrive_written (by decide +kernel)]
  decide +kernel

/-- A query with a valid name, and a node where a valid name is registered. -/
theorem decoded_names_valid_name :
    ((⟨"name"⟩ : DomainName).Valid ↔
        NamesPass ResolveQuery.domainPaths (ResolveQuery.serialize ⟨⟨"name"⟩⟩)) ∧
      (arrived Ed25519.sample readText registering).store.lookup ⟨"name"⟩ =
        some (registrationFromRumor (nameLease 1000) "host") ∧
      ∀ d g, (arrived Ed25519.sample readText registering).store.lookup d = some g → d.Valid := by
  obtain ⟨_, _, hquery, hrun⟩ := @decoded_names_valid Bool _ Ed25519.sample readText
  have hsize : (ResolveQuery.serialize ⟨⟨"name"⟩⟩).size ≤ maxDatagramBytes := by decide +kernel
  refine ⟨hquery (written ResolveQuery.serialize ⟨⟨"name"⟩⟩) _ ⟨⟨"name"⟩⟩
    (readText_written plain_query hsize) (decode_written plain_query readsBack_query hsize),
    lookup_registering, hrun _ ?_⟩
  intro a ha
  simp only [registering, List.mem_cons, List.not_mem_nil, or_false] at ha
  rcases ha with rfl | rfl
  · exact namesSound_written (by decide +kernel) fun d hd => by cases hd
  · refine namesSound_written (by decide +kernel) fun d hd => ?_
    obtain rfl := List.mem_singleton.mp hd
    decide

end Sample

/-- A query for the empty name. -/
def emptyQuery : ByteArray := "\x7b\"domain\":\"\"\x7d".toUTF8

/-- A reader that knows it. -/
def sampleParse (bytes : ByteArray) : Option Json :=
  if bytes.data = emptyQuery.data then some (.object [("domain", .string "")]) else none

/-- **A message with an empty name is accepted.** -/
theorem accepts_empty_name :
    ¬ ∀ (parse : ByteArray → Option Json) (bytes : ByteArray) (query : ResolveQuery),
      decode parse ResolveQuery.deserialize bytes = .ok query → query.domain.Valid := by
  intro h
  have hm : decode sampleParse ResolveQuery.deserialize emptyQuery = .ok ⟨⟨""⟩⟩ := by
    decide +kernel
  exact absurd (h _ _ _ hm) (by decide)

end Node

end Binda
