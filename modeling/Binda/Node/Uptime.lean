import Binda.Lib.Part
import Binda.Node.Admission
import Binda.Node.Daemon

/-!
# What a node keeps

Runs of a whole node: any rounds of its loops, in any order, on any datagrams from anyone.

The store with the challenges, each limiter and the book of peers are parts of the node
(`isPart_node`, `isPart_limiter`, `isPart_peers`): each goes on by what reaches it and by nothing
else, so what is known of them alone holds of the node.

* `past_bounds`: the store stays consistent, and the limiters, the challenges and the claims of
  each host stay within their bounds.
* `peers_past`: who is in the book of peers, and in what order.
* `peers_unbounded`: the book has no bound, and every address that sends one digest stays.
-/

namespace Binda

namespace Daemon

variable {Address : Type} [DecidableEq Address] {E : Ed25519}
  {parse : ByteArray → Option Json} {ip : Address → Fcrdns.IpAddr} {initial : List Address}
  {verifier : RdnsVerifier}

/-- The node some rounds after it was started. -/
def past (E : Ed25519) (parse : ByteArray → Option Json) (ip : Address → Fcrdns.IpAddr)
    (initial : List Address) (verifier : RdnsVerifier) (es : List (DaemonEvent Address)) :
    Daemon Address :=
  es.foldl (after E parse ip) (new initial verifier)

theorem past_concat (es : List (DaemonEvent Address)) (e : DaemonEvent Address) :
    past E parse ip initial verifier (es ++ [e]) =
      (past E parse ip initial verifier es).after E parse ip e := by
  rw [past, List.foldl_append]
  rfl

/-! ### A request that is answered -/

omit [DecidableEq Address] in
theorem heardRequest_of_ok {d : Daemon Address} {env : Ambient} {lookups : Lookups}
    {sender : Address}
    {bytes : ByteArray} {request : ClientRequest} {response : ClientResponse} {s : RegistryStore}
    (hdecode : decode parse ClientRequest.deserialize bytes = .ok request)
    (hresult : d.node.store.handleClientRequest E env request
      (d.rdnsVerified ip lookups sender request) = (.ok response, s)) :
    d.heardRequest E parse ip env lookups sender bytes =
      ({ d with node := { d.node with store := s } },
        sendEncoded .api sender ClientResponse.serialize response) := by
  rw [heardRequest, hdecode]
  dsimp only
  rw [hresult]

/-- **A request that is sent, let through and answered.** -/
theorem round_of_request {d : Daemon Address} {r : Receipt Address} {env : Ambient}
    {lookups : Lookups} {request : ClientRequest} {response : ClientResponse} {s : RegistryStore}
    (hparse : ReadsWritten parse ClientRequest.serialize)
    (hencode : encode ClientRequest.serialize request = .ok r.bytes)
    (hrunning : d.apiRunning = true) (hallows : d.allows .api r = true)
    (hresult : d.node.store.handleClientRequest E env request
      (d.rdnsVerified ip lookups r.sender request) = (.ok response, s)) :
    d.round E parse ip (.api r env lookups) =
      ({ d.asked .api r with node := { d.node with store := s } },
        sendEncoded .api r.sender ClientResponse.serialize response) := by
  have hdecode := decode_of_encode hparse readsBack_request hencode
  rw [round, if_pos hrunning, serve_of_allowed hallows]
  exact heardRequest_of_ok hdecode hresult

/-! ### The parts -/

theorem isPart_node : Run.IsPart (after E parse ip) Daemon.node (Node.arrive E parse)
    (arrival parse ip) := by
  intro d e
  rw [node_after]
  cases d.arrival parse ip e <;> rfl

theorem isPart_limiter (listener : Listener) :
    Run.IsPart (after E parse ip) (fun d => d.limiter listener) RateLimiter.event
      fun d e => d.limiterEvent listener e := by
  intro d e
  show (d.after E parse ip e).limiter listener =
    (d.limiterEvent listener e).toList.foldl RateLimiter.event (d.limiter listener)
  rw [limiter_after]
  cases d.limiterEvent listener e <;> rfl

theorem isPart_peers : Run.IsPart (after E parse ip) Daemon.peers PeerBook.learn
    (introduced parse) := by
  intro d e
  rw [peers_after]
  cases d.introduced parse e <;> rfl

/-- What reaches the store and the challenges. -/
def arrivals (E : Ed25519) (parse : ByteArray → Option Json) (ip : Address → Fcrdns.IpAddr)
    (d : Daemon Address) (es : List (DaemonEvent Address)) : List (Arrival Address) :=
  Run.script (after E parse ip) (arrival parse ip) d es

theorem node_past (es : List (DaemonEvent Address)) :
    (past E parse ip initial verifier es).node =
      Node.arrived E parse (arrivals E parse ip (new initial verifier) es) :=
  isPart_node.foldl es (new initial verifier)

theorem reaches_limiter (listener : Listener) (es : List (DaemonEvent Address)) :
    Run.Reaches RateLimiter.event (fun _ _ => True) RateLimiter.newRateLimiter
      ((past E parse ip initial verifier es).limiter listener) :=
  (isPart_limiter listener).reaches (new initial verifier) es

/-- The verifier is the one the node was started with. -/
theorem verifier_after {d : Daemon Address} {e : DaemonEvent Address} :
    (d.after E parse ip e).verifier = d.verifier := by
  cases e with
  | gossip r env =>
    refine serve_keeps Daemon.verifier rfl fun d => ?_
    rw [heardGossip]
    split
    · rfl
    · split <;> rfl
  | resolver r => exact serve_keeps Daemon.verifier rfl fun d => by rw [heardQuery_fst]
  | api r env lookups =>
    rw [after, round]
    split
    · refine serve_keeps Daemon.verifier rfl fun d => ?_
      rw [heardRequest]
      split
      · rfl
      · dsimp only
        split <;> rfl
    · rfl
  | dns r => exact serve_keeps Daemon.verifier rfl fun d => by rw [heardLookup_fst]
  | push draw order => rw [after, round, gossipPush_fst]
  | maintenance instant => rfl

theorem verifier_past (es : List (DaemonEvent Address)) :
    (past E parse ip initial verifier es).verifier = verifier := by
  induction es using List.reverseRecOn with
  | nil => rfl
  | append_singleton es e ih =>
    rw [past_concat, verifier_after]
    exact ih

/-! ### Bounds -/

/-- An arrival keeps the store consistent. -/
theorem consistent_arrive {n : Node Address} (a : Arrival Address)
    (h : RegistryStore.Consistent E n.store) :
    RegistryStore.Consistent E (n.arrive E parse a).store := by
  rw [Node.arrive]
  split
  · exact h
  · rename_i e he
    cases e with
    | received env sender message =>
      rw [Node.after, Node.store_handleGossipMessage]
      exact h.adoptAll
    | request env request v => exact h.after ⟨env, .request request v⟩
    | prune instant => exact h

theorem consistent_after {d : Daemon Address} {e : DaemonEvent Address}
    (h : RegistryStore.Consistent E d.node.store) :
    RegistryStore.Consistent E (d.after E parse ip e).node.store := by
  rw [node_after]
  split
  · exact consistent_arrive _ h
  · exact h

theorem consistent_past (es : List (DaemonEvent Address)) :
    RegistryStore.Consistent E (past E parse ip initial verifier es).node.store :=
  isPart_node.invariant (I := fun n : Node Address => RegistryStore.Consistent E n.store)
    RegistryStore.consistent_new fun _ a h => consistent_arrive a h

/-- An arrival keeps the challenges within their bound. -/
theorem size_arrive_le {n : Node Address} (a : Arrival Address)
    (h : n.pendingChallenges.size ≤ maxPendingChallenges) :
    (n.arrive E parse a).pendingChallenges.size ≤ maxPendingChallenges := by
  rw [Node.arrive]
  split
  · exact h
  · exact Node.size_after_le h

/-- **What stays within bounds.**  However the rounds lie and whatever is received, the store is
consistent, and the limiters, the challenges and the claims of each host stay within their
bounds. -/
theorem past_bounds (E : Ed25519) (parse : ByteArray → Option Json)
    (ip : Address → Fcrdns.IpAddr) (initial : List Address) (verifier : RdnsVerifier)
    (es : List (DaemonEvent Address)) :
    (past E parse ip initial verifier es).node =
        Node.arrived E parse (arrivals E parse ip (new initial verifier) es) ∧
      RegistryStore.Consistent E (past E parse ip initial verifier es).node.store ∧
      (∀ quota, ((past E parse ip initial verifier es).node.store.claims quota).size ≤
        maxRegistrationsPerClient) ∧
      (past E parse ip initial verifier es).node.pendingChallenges.size ≤
        maxPendingChallenges ∧
      ∀ listener, ((past E parse ip initial verifier es).limiter listener).buckets.size ≤
        RateLimiter.RATE_LIMIT_MAX_TRACKED_KEYS := by
  have hpending : (past E parse ip initial verifier es).node.pendingChallenges.size ≤
      maxPendingChallenges :=
    isPart_node.invariant
      (I := fun n : Node Address => n.pendingChallenges.size ≤ maxPendingChallenges)
      (Nat.zero_le _) fun _ a h => size_arrive_le a h
  have hc : RegistryStore.Consistent E (past E parse ip initial verifier es).node.store :=
    consistent_past es
  refine ⟨node_past es, hc, fun quota => hc.few quota not_false, hpending, ?_⟩
  intro listener
  exact RateLimiter.size_le_of_reaches (by decide) (reaches_limiter listener es)

/-! ### The book of peers -/

end Daemon

namespace PeerBook

variable {Address : Type} [DecidableEq Address] {book : PeerBook Address} {addr a : Address}

theorem peers_learn :
    (book.learn addr).peers = book.peers ++ if addr ∈ book.peers then [] else [addr] := by
  rw [learn]
  split_ifs
  · rw [List.append_nil]
  · rfl

/-- What the book has learned of some addresses. -/
def learned (book : PeerBook Address) (addrs : List Address) : List Address :=
  (addrs.foldl learn book).peers.drop book.peers.length

/-- **The book after some addresses**: what it had, and then those that are new, each once. -/
theorem peers_foldl_learn (book : PeerBook Address) (addrs : List Address) :
    (addrs.foldl learn book).peers = book.peers ++ book.learned addrs ∧
      (book.learned addrs).Nodup ∧ (∀ a ∈ book.learned addrs, a ∉ book.peers) ∧
      ∀ a, a ∈ (addrs.foldl learn book).peers ↔ a ∈ book.peers ∨ a ∈ addrs := by
  suffices h : ∃ l, (addrs.foldl learn book).peers = book.peers ++ l ∧ l.Nodup ∧
      (∀ a ∈ l, a ∉ book.peers) ∧
      ∀ a, a ∈ (addrs.foldl learn book).peers ↔ a ∈ book.peers ∨ a ∈ addrs by
    obtain ⟨l, hl, hrest⟩ := h
    have hlearned : book.learned addrs = l := by rw [learned, hl, List.drop_left]
    rw [hlearned]
    exact ⟨hl, hrest⟩
  induction addrs using List.reverseRecOn with
  | nil =>
    refine ⟨[], (List.append_nil _).symm, List.nodup_nil, fun a ha => (by cases ha), fun a => ?_⟩
    rw [List.foldl_nil]
    simp
  | append_singleton addrs addr ih =>
    obtain ⟨l, hl, hnodup, hnew, hmem⟩ := ih
    rw [List.foldl_append, List.foldl_cons, List.foldl_nil, peers_learn]
    by_cases hin : addr ∈ (addrs.foldl learn book).peers
    · rw [if_pos hin, List.append_nil]
      refine ⟨l, hl, hnodup, hnew, fun a => ?_⟩
      rw [hmem a, List.mem_append, List.mem_singleton, ← or_assoc]
      refine ⟨Or.inl, ?_⟩
      rintro (h | rfl)
      · exact h
      · exact (hmem a).mp hin
    · rw [if_neg hin]
      have hold : addr ∉ book.peers ∧ addr ∉ l := by
        rw [hl, List.mem_append, not_or] at hin
        exact hin
      refine ⟨l ++ [addr], by rw [hl, List.append_assoc], ?_, fun a ha => ?_, fun a => ?_⟩
      · exact List.nodup_append_comm.mp (List.nodup_cons.mpr ⟨hold.2, hnodup⟩)
      · rcases List.mem_append.mp ha with ha | ha
        · exact hnew a ha
        · rw [List.mem_singleton.mp ha]
          exact hold.1
      · rw [List.mem_append, hmem a, List.mem_append, List.mem_singleton, or_assoc]

end PeerBook

namespace Daemon

variable {Address : Type} [DecidableEq Address] {E : Ed25519}
  {parse : ByteArray → Option Json} {ip : Address → Fcrdns.IpAddr} {initial : List Address}
  {verifier : RdnsVerifier}

/-- In the round a gossip message of the address is let through. -/
def Introduces (parse : ByteArray → Option Json) (d : Daemon Address) (e : DaemonEvent Address)
    (addr : Address) : Prop :=
  ∃ r env message, e = .gossip r env ∧ r.sender = addr ∧ d.allows .gossip r = true ∧
    decode parse GossipMessage.deserialize r.received = .ok message ∧ isWellFormed message = true

theorem introduced_eq_some {d : Daemon Address} {e : DaemonEvent Address} {addr : Address} :
    d.introduced parse e = some addr ↔ d.Introduces parse e addr := by
  constructor
  · intro h
    cases e with
    | gossip r env =>
      rw [introduced] at h
      split at h
      · rename_i hallows
        split at h
        · rename_i message hmessage
          split at h
          · rename_i hwell
            exact ⟨r, env, message, rfl, Option.some.inj h, hallows, hmessage, hwell⟩
          · cases h
        · cases h
      · cases h
    | resolver r => cases h
    | api r env lookups => cases h
    | dns r => cases h
    | push draw order => cases h
    | maintenance instant => cases h
  · rintro ⟨r, env, message, rfl, rfl, hallows, hmessage, hwell⟩
    rw [introduced, if_pos hallows, hmessage]
    exact if_pos hwell

/-- What is in the book stays, in its place. -/
theorem peers_past_append {es : List (DaemonEvent Address)} (later : List (DaemonEvent Address)) :
    (past E parse ip initial verifier es).peers.peers <+:
      (past E parse ip initial verifier (es ++ later)).peers.peers := by
  have hlater := (past E parse ip initial verifier es).peers.peers_foldl_learn
    (Run.script (after E parse ip) (introduced parse) (past E parse ip initial verifier es) later)
  have hpart : Run.IsPart (after E parse ip) Daemon.peers PeerBook.learn (introduced parse) :=
    isPart_peers
  have hpast : past E parse ip initial verifier (es ++ later) =
      later.foldl (after E parse ip) (past E parse ip initial verifier es) := List.foldl_append
  rw [← hpart.foldl later _] at hlater
  rw [hpast]
  exact ⟨_, hlater.1.symm⟩

/-- **Who is in the book of peers.**  After any rounds it has the peers the node was started with
and then, each once, the senders of the gossip messages that were let through, and no one else.
What it had after some of the rounds it begins with after all of them, so the senders are in the
order of their first messages.  A push goes to one of them. -/
theorem peers_past (E : Ed25519) (parse : ByteArray → Option Json)
    (ip : Address → Fcrdns.IpAddr) (initial : List Address) (verifier : RdnsVerifier)
    (es : List (DaemonEvent Address)) :
    ∃ learned, (past E parse ip initial verifier es).peers.snapshot = initial ++ learned ∧
      learned.Nodup ∧ (∀ addr ∈ learned, addr ∉ initial) ∧
      (∀ addr, addr ∈ initial ++ learned ↔ addr ∈ initial ∨ ∃ l e m, es = l ++ e :: m ∧
        (past E parse ip initial verifier l).Introduces parse e addr) ∧
      (∀ l, l <+: es → (past E parse ip initial verifier l).peers.snapshot <+:
        (past E parse ip initial verifier es).peers.snapshot) ∧
      ∀ draw order, ∀ m ∈ (past E parse ip initial verifier es).sent E parse ip
        (.push draw order), m.destination ∈ initial ++ learned := by
  obtain ⟨hpeers, hnodup, hnew, hmem⟩ := (new initial verifier).peers.peers_foldl_learn
    (Run.script (after E parse ip) (introduced parse) (new initial verifier) es)
  have hpart : Run.IsPart (after E parse ip) Daemon.peers PeerBook.learn (introduced parse) :=
    isPart_peers
  rw [← hpart.foldl es (new initial verifier)] at hpeers hmem
  refine ⟨_, hpeers, hnodup, hnew, fun addr => ?_, fun l hl => ?_, fun draw order m hm => ?_⟩
  · have hall := hmem addr
    rw [hpeers, Run.mem_script] at hall
    simp only [introduced_eq_some] at hall
    exact hall
  · obtain ⟨later, rfl⟩ := hl
    exact peers_past_append later
  · have hpush := @oneTo_push _ _ E parse ip (past E parse ip initial verifier es) draw order
    rcases hpush with hnone | ⟨peer, hpeer, hone⟩
    · rw [hnone] at hm
      cases hm
    · rw [(hone.2 m hm).2]
      exact hpeers ▸ hpeer

/-- A datagram arrives at the gossip socket. -/
def greeting (greeter : Receipt Address × GossipAmbient Address) : DaemonEvent Address :=
  .gossip greeter.1 greeter.2

/-- A limiter that does not track a key lets it through. -/
theorem allows_of_untracked {d : Daemon Address} {listener : Listener} {r : Receipt Address}
    (hcapacity : 1 ≤ (d.limiter listener).capacity)
    (hnew : (d.limiter listener).buckets.lookup r.sender = none) :
    d.allows listener r = true := by
  rw [allows, RateLimiter.allowAt_fst, RateLimiter.visitOf, hnew]
  exact TokenBucket.visit_fst_none hcapacity

/-- A digest of no registrations from an address that the limiter does not track is let
through. -/
theorem introduced_greeting {d : Daemon Address} {g : Receipt Address × GossipAmbient Address}
    (hparse : ReadsWritten parse GossipMessage.serialize)
    (hbytes : encode GossipMessage.serialize (.digest []) = .ok g.1.bytes)
    (hcapacity : 1 ≤ (d.limiter .gossip).capacity)
    (hnew : (d.limiter .gossip).buckets.lookup g.1.sender = none) :
    d.introduced parse (greeting g) = some g.1.sender := by
  have hallows : d.allows .gossip g.1 = true := allows_of_untracked hcapacity hnew
  have hdecode := decode_of_encode hparse readsBack_gossip hbytes
  exact introduced_eq_some.mpr ⟨_, g.2, .digest [], rfl, rfl, hallows, hdecode, rfl⟩

/-- After it the limiter tracks one address more. -/
theorem tracksOnly_greeting {d : Daemon Address} {keys : List Address}
    (g : Receipt Address × GossipAmbient Address)
    (h : RateLimiter.TracksOnly keys (d.limiter .gossip)) :
    RateLimiter.TracksOnly (keys ++ [g.1.sender])
      ((d.after E parse ip (greeting g)).limiter .gossip) := by
  have hevent : d.limiterEvent .gossip (greeting g) = some (.call g.1.call) := by
    show (if Listener.gossip = Listener.gossip ∧ d.listens .gossip then _ else none) = _
    exact if_pos ⟨rfl, fun h => by cases h⟩
  have hwider : RateLimiter.TracksOnly (keys ++ [g.1.sender]) (d.limiter .gossip) :=
    fun key hkey => List.mem_append_left _ (h key hkey)
  rw [limiter_after, hevent]
  refine hwider.event fun c hc => ?_
  rw [← LimiterEvent.call.inj hc]
  exact List.mem_append_right _ (List.mem_singleton_self _)

/-- **The book has no bound.**  Whatever addresses send a node one digest each, at whatever times,
are in its book from then on, however many they are. -/
theorem peers_unbounded (E : Ed25519) {parse : ByteArray → Option Json}
    (ip : Address → Fcrdns.IpAddr) {initial : List Address} (verifier : RdnsVerifier)
    {greeters : List (Receipt Address × GossipAmbient Address)}
    (hparse : ReadsWritten parse GossipMessage.serialize)
    (hbytes : ∀ g ∈ greeters, encode GossipMessage.serialize (.digest []) = .ok g.1.bytes)
    (hnodup : (greeters.map fun g => g.1.sender).Nodup)
    (hnew : ∀ g ∈ greeters, g.1.sender ∉ initial) (es : List (DaemonEvent Address)) :
    initial ++ greeters.map (fun g => g.1.sender) <+:
      (past E parse ip initial verifier (greeters.map greeting ++ es)).peers.snapshot := by
  suffices h : (past E parse ip initial verifier (greeters.map greeting)).peers.peers =
        initial ++ greeters.map (fun g => g.1.sender) ∧
      RateLimiter.TracksOnly (greeters.map fun g => g.1.sender)
        ((past E parse ip initial verifier (greeters.map greeting)).limiter .gossip) by
    rw [← h.1]
    exact peers_past_append es
  induction greeters using List.reverseRecOn with
  | nil =>
    refine ⟨(List.append_nil _).symm, fun key hkey => ?_⟩
    cases hkey
  | append_singleton greeters g ih =>
    rw [List.map_append, List.map_singleton, List.nodup_append] at hnodup
    obtain ⟨hpeers, htracks⟩ := ih (fun g hg => hbytes g (List.mem_append_left _ hg)) hnodup.1
      fun g hg => hnew g (List.mem_append_left _ hg)
    rw [List.map_append, List.map_append, List.map_singleton, List.map_singleton, past_concat]
    set d := past E parse ip initial verifier (greeters.map greeting) with hd
    have hlast : g ∈ greeters ++ [g] := List.mem_append_right _ (List.mem_singleton_self _)
    have haddr : g.1.sender ∉ greeters.map fun g => g.1.sender :=
      fun h => hnodup.2.2 _ h _ (List.mem_singleton_self _) rfl
    have huntracked : (d.limiter .gossip).buckets.lookup g.1.sender = none := by
      rw [Option.eq_none_iff_forall_ne_some]
      intro bucket hbucket
      exact haddr (htracks _ (Table.mem_keys_iff.mpr ⟨bucket, hbucket⟩))
    have hcapacity : 1 ≤ (d.limiter .gossip).capacity := by
      rw [(RateLimiter.sound_of_reaches (reaches_limiter .gossip _)).capacity]
      decide +kernel
    have hintroduced : d.introduced parse (greeting g) = some g.1.sender :=
      introduced_greeting hparse (hbytes g hlast) hcapacity huntracked
    refine ⟨?_, tracksOnly_greeting g htracks⟩
    have hout : g.1.sender ∉ initial ++ greeters.map fun g => g.1.sender :=
      List.not_mem_append (hnew g hlast) haddr
    rw [peers_after, hintroduced]
    show (d.peers.learn g.1.sender).peers = _
    rw [PeerBook.peers_learn, hpeers, if_neg hout, List.append_assoc]

/-- A client's request as it is sent, at the start of the monotonic clock. -/
def requestFrom (sender : Bool) (request : ClientRequest) : Receipt Bool where
  sender := sender
  bytes := written ClientRequest.serialize request
  instant := 0
  order := .listed

theorem encode_requestFrom {sender : Bool} {request : ClientRequest}
    (h : (ClientRequest.serialize request).size ≤ maxDatagramBytes) :
    encode ClientRequest.serialize request = .ok (requestFrom sender request).bytes :=
  encode_of_size_le h

/-- A digest of no registrations. -/
def emptyDigestText : ByteArray := "\x7b\"Digest\":\x7b\"rumors\":[]\x7d\x7d".toUTF8

/-- The loopback address, wherever a datagram comes from. -/
def loopback (_ : Bool) : Fcrdns.IpAddr := .v4 ⟨#v[127, 0, 0, 1]⟩

/-- Two addresses that greet a node, the one five seconds after the other. -/
def greeters : List (Receipt Bool × GossipAmbient Bool) :=
  [({ sender := true, bytes := emptyDigestText, instant := 0, order := .listed },
      Node.sampleGossip 1000),
    ({ sender := false, bytes := emptyDigestText, instant := 5000000000, order := .listed },
      Node.sampleGossip 6000)]

/-- They are learned by a node that was started with no peers. -/
theorem peers_unbounded_two : [] ++ greeters.map (fun g => g.1.sender) <+:
    (past Ed25519.sample readText loopback [] .fcrdns
      (greeters.map greeting ++ [.maintenance 0])).peers.snapshot := by
  refine peers_unbounded Ed25519.sample loopback .fcrdns (readsWritten_readText plain_gossip) ?_
    (by decide) (by simp) [.maintenance 0]
  intro g hg
  simp only [greeters, List.mem_cons, List.not_mem_nil, or_false] at hg
  rcases hg with rfl | rfl <;> rfl

end Daemon

end Binda
