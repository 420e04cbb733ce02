import Binda.Core.Codec
import Binda.Core.Fcrdns
import Binda.Node.Datagram
import Binda.Node.Lookup
import Binda.Node.Pruning

/-!
# The whole node

`node.rs` and `peers.rs`: the four listeners, each behind a rate limiter of its own, the task that
pushes digests to a peer, and the maintenance.  One event is one round of one of these loops; it
yields the datagrams that are handed to a socket.

The socket of a listener is read into a buffer of `MAX_DATAGRAM_BYTES`, so no listener sees more
of a datagram.  A panic under the clients' listener ends that task and no other.

* `node_after`: the store and the challenges go from one state to the next as in `Node`, by what
  the listeners let through (`arrival`).
* `limiter_after`: each limiter goes its own way, by the datagrams of its listener and the
  maintenance (`limiterEvent`).
* `peers_after`: the book grows by the sender of a gossip message that is let through.
* `oneTo_sent`, `oneTo_push`: what is sent answers the datagram that was let through, or is a
  push.
-/

namespace Binda

/-! ### The book of peers -/

/-- `PeerBook`. -/
structure PeerBook (Address : Type) where
  peers : List Address

namespace PeerBook

variable {Address : Type} [DecidableEq Address]

/-- `PeerBook::new`. -/
def new (initial : List Address) : PeerBook Address := { peers := initial }

/-- `random_peer`; `draw` is what the random generator yields. -/
def randomPeer (book : PeerBook Address) (draw : Nat) : Option Address :=
  book.peers[draw % book.peers.length]?

/-- `learn`. -/
def learn (book : PeerBook Address) (addr : Address) : PeerBook Address :=
  if addr ∈ book.peers then book else { peers := book.peers ++ [addr] }

/-- `snapshot`. -/
def snapshot (book : PeerBook Address) : List Address := book.peers

end PeerBook

/-! ### Verification -/

/-- `RdnsVerifier`: the two there are. -/
inductive RdnsVerifier
  | fcrdns
  | allowAll
  deriving DecidableEq

/-- What a verification takes from outside: the identifiers it draws, and the resolvers. -/
structure Lookups where
  id : UInt16
  idA : UInt16
  idAaaa : UInt16
  resolvers : List Fcrdns.Resolver

/-- `verify`. -/
def RdnsVerifier.verify (lookups : Lookups) (sourceIp : Fcrdns.IpAddr) (claimedRdns : String) :
    RdnsVerifier → Bool
  | .fcrdns =>
    Fcrdns.isForwardConfirmed lookups.id lookups.idA lookups.idAaaa sourceIp claimedRdns
      lookups.resolvers
  | .allowAll => true

/-! ### Datagrams -/

/-- The four listeners. -/
inductive Listener
  | gossip
  | resolver
  | api
  | dns
  deriving DecidableEq

/-- A datagram at the socket of a listener, and when its limiter is asked. -/
structure Receipt (Address : Type) where
  sender : Address
  bytes : ByteArray
  instant : Nat
  order : VisitOrder Address

/-- What of it is in the buffer. -/
def Receipt.received {Address : Type} (r : Receipt Address) : ByteArray :=
  r.bytes.extract 0 maxDatagramBytes

/-- An `Instant` in seconds. -/
def seconds (instant : Nat) : Rat := instant / 1000000000

/-- The question a limiter is asked. -/
def Receipt.call {Address : Type} (r : Receipt Address) : Call Address where
  order := r.order
  key := r.sender
  now := seconds r.instant

/-- A datagram that is handed to a socket. -/
structure Sent (Address : Type) where
  listener : Listener
  destination : Address
  bytes : ByteArray

/-- `wire::encode` and `send_to`; what cannot be encoded is not sent. -/
def sendEncoded {Address τ : Type} (listener : Listener) (destination : Address)
    (serialize : τ → Json) (message : τ) : List (Sent Address) :=
  match encode serialize message with
  | .ok bytes => [{ listener, destination, bytes }]
  | .error _ => []

/-- One round of a loop. -/
inductive DaemonEvent (Address : Type)
  | gossip (r : Receipt Address) (env : GossipAmbient Address)
  | resolver (r : Receipt Address)
  | api (r : Receipt Address) (env : Ambient) (lookups : Lookups)
  | dns (r : Receipt Address)
  | push (draw : Nat) (order : VisitOrder DomainName)
  | maintenance (instant : Nat)

namespace DaemonEvent

variable {Address : Type}

/-- The datagram a listener receives in the round. -/
def receipt : DaemonEvent Address → Option (Listener × Receipt Address)
  | gossip r _ => some (.gossip, r)
  | resolver r => some (.resolver, r)
  | api r _ _ => some (.api, r)
  | dns r => some (.dns, r)
  | push _ _ => none
  | maintenance _ => none

end DaemonEvent

/-- The answer `run_resolver` gives. -/
def RegistryStore.resolveQuery (s : RegistryStore) (query : ResolveQuery) : ResolveAnswer :=
  match s.lookup query.domain with
  | some reg => { ownerClientKey := some reg.clientKey, records := reg.records }
  | none => { ownerClientKey := none, records := [] }

/-! ### The node -/

/-- `Node`: the store and the challenges, the book of peers, the verifier, the limiter of each
listener, and whether the task of the clients' listener is still there. -/
structure Daemon (Address : Type) where
  node : Node Address
  peers : PeerBook Address
  verifier : RdnsVerifier
  limiter : Listener → RateLimiter Address
  apiRunning : Bool

namespace Daemon

variable {Address : Type} [DecidableEq Address]

/-- `Node::new` and `Node::new_allowing_any_rdns`. -/
def new (peers : List Address) (verifier : RdnsVerifier) : Daemon Address where
  node := Node.new
  peers := PeerBook.new peers
  verifier := verifier
  limiter := fun _ => RateLimiter.newRateLimiter
  apiRunning := true

section Rounds

variable (E : Ed25519) (parse : ByteArray → Option Json) (ip : Address → Fcrdns.IpAddr)
  (d : Daemon Address)

/-- The listener lets the datagram through. -/
def allows (listener : Listener) (r : Receipt Address) : Bool :=
  ((d.limiter listener).allowAt r.order r.sender (seconds r.instant)).1

/-- The limiter has been asked. -/
def asked (listener : Listener) (r : Receipt Address) : Daemon Address :=
  { d with limiter := Function.update d.limiter listener ((d.limiter listener).call r.call) }

/-- The head of every listener's loop: ask the limiter, and go on if it allows. -/
def serve (listener : Listener) (r : Receipt Address)
    (handle : Daemon Address → Daemon Address × List (Sent Address)) :
    Daemon Address × List (Sent Address) :=
  if d.allows listener r then handle (d.asked listener r) else (d.asked listener r, [])

/-- `gossip_recv_loop`, once its limiter has allowed a datagram. -/
def heardGossip (env : GossipAmbient Address) (sender : Address) (bytes : ByteArray) :
    Daemon Address × List (Sent Address) :=
  match decode parse GossipMessage.deserialize bytes with
  | .error _ => (d, [])
  | .ok message =>
    if !isWellFormed message then (d, [])
    else
      let (reply, node) := d.node.handleGossipMessage E env sender message
      ({ d with node, peers := d.peers.learn sender },
        reply.toList.flatMap (sendEncoded .gossip sender GossipMessage.serialize))

/-- The same for `run_resolver`. -/
def heardQuery (sender : Address) (bytes : ByteArray) : Daemon Address × List (Sent Address) :=
  match decode parse ResolveQuery.deserialize bytes with
  | .error _ => (d, [])
  | .ok query =>
    (d, sendEncoded .resolver sender ResolveAnswer.serialize (d.node.store.resolveQuery query))

/-- Whether the name that a request claims is verified; only a registration has one. -/
def rdnsVerified (lookups : Lookups) (sender : Address) : ClientRequest → Bool
  | .register envelope => d.verifier.verify lookups (ip sender) envelope.rdns
  | _ => true

/-- The same for `run_client_api`.  The task does not survive a panic. -/
def heardRequest (env : Ambient) (lookups : Lookups) (sender : Address) (bytes : ByteArray) :
    Daemon Address × List (Sent Address) :=
  match decode parse ClientRequest.deserialize bytes with
  | .error _ => (d, [])
  | .ok request =>
    let (result, store) := d.node.store.handleClientRequest E env request
      (d.rdnsVerified ip lookups sender request)
    let d := { d with node := { d.node with store } }
    match result with
    | .ok response => (d, sendEncoded .api sender ClientResponse.serialize response)
    | .error _ => ({ d with apiRunning := false }, [])

/-- The same for `run_dns`. -/
def heardLookup (sender : Address) (bytes : ByteArray) : Daemon Address × List (Sent Address) :=
  match reply d.node.store bytes.data.toList with
  | none => (d, [])
  | some response =>
    (d, [{ listener := .dns, destination := sender, bytes := ⟨response.toArray⟩ }])

/-- One round of `gossip_push_loop`. -/
def gossipPush (draw : Nat) (order : VisitOrder DomainName) :
    Daemon Address × List (Sent Address) :=
  match d.peers.randomPeer draw with
  | none => (d, [])
  | some peer => (d, sendEncoded .gossip peer GossipMessage.serialize (d.node.digest order))

/-- One round of the task that `spawn_rate_limiter_maintenance` starts. -/
def maintain (instant : Nat) : Daemon Address :=
  { d with
    node := d.node.prune instant
    limiter := fun listener =>
      (d.limiter listener).pruneOlderThan RateLimiter.RATE_LIMIT_PRUNE_AGE (seconds instant) }

/-- One round: the node after it, and what is sent. -/
def round : DaemonEvent Address → Daemon Address × List (Sent Address)
  | .gossip r env => d.serve .gossip r fun d => d.heardGossip E parse env r.sender r.received
  | .resolver r => d.serve .resolver r fun d => d.heardQuery parse r.sender r.received
  | .api r env lookups =>
    -- nobody reads the socket of a task that is gone
    if d.apiRunning then
      d.serve .api r fun d => d.heardRequest E parse ip env lookups r.sender r.received
    else (d, [])
  | .dns r => d.serve .dns r fun d => d.heardLookup r.sender r.received
  | .push draw order => d.gossipPush draw order
  | .maintenance instant => (d.maintain instant, [])

/-- The node after a round. -/
def after (e : DaemonEvent Address) : Daemon Address := (d.round E parse ip e).1

/-- What is sent in a round. -/
def sent (e : DaemonEvent Address) : List (Sent Address) := (d.round E parse ip e).2

end Rounds

/-! ### What the handlers do -/

section Handlers

variable {E : Ed25519} {parse : ByteArray → Option Json} {ip : Address → Fcrdns.IpAddr}
  {d : Daemon Address} {listener : Listener} {r : Receipt Address}
  {handle : Daemon Address → Daemon Address × List (Sent Address)}

theorem serve_of_allowed (h : d.allows listener r = true) :
    d.serve listener r handle = handle (d.asked listener r) := by
  rw [serve, if_pos h]

theorem serve_of_refused (h : d.allows listener r = false) :
    d.serve listener r handle = (d.asked listener r, []) := by
  rw [serve, h]
  rfl

/-- What a part of the node is after a listener's round. -/
theorem serve_part {α : Type} (part : Daemon Address → α)
    (hasked : part (d.asked listener r) = part d) :
    part (d.serve listener r handle).1 =
      if d.allows listener r = true then part (handle (d.asked listener r)).1 else part d := by
  by_cases h : d.allows listener r = true
  · rw [serve_of_allowed h, if_pos h]
  · rw [serve_of_refused (Bool.eq_false_iff.mpr h), if_neg h, hasked]

/-- A part that neither the limiter nor the handler touches stays as it was. -/
theorem serve_keeps {α : Type} (part : Daemon Address → α)
    (hasked : part (d.asked listener r) = part d) (hhandle : ∀ d, part (handle d).1 = part d) :
    part (d.serve listener r handle).1 = part d := by
  rw [serve_part part hasked, hhandle, hasked]
  exact ite_self _

variable {env : GossipAmbient Address} {env' : Ambient} {lookups : Lookups} {sender : Address}
  {bytes : ByteArray}

theorem node_heardGossip : (d.heardGossip E parse env sender bytes).1.node =
    d.node.arrive E parse (.gossip env sender bytes) := by
  rw [heardGossip, Node.arrive, Arrival.event]
  cases decode parse GossipMessage.deserialize bytes with
  | error _ => rfl
  | ok message =>
    dsimp only
    cases isWellFormed message <;> rfl

theorem node_heardRequest : (d.heardRequest E parse ip env' lookups sender bytes).1.node =
    d.node.arrive E parse (.client env' bytes
      (match decode parse ClientRequest.deserialize bytes with
      | .ok request => d.rdnsVerified ip lookups sender request
      | .error _ => true)) := by
  rw [heardRequest, Node.arrive, Arrival.event]
  cases decode parse ClientRequest.deserialize bytes with
  | error _ => rfl
  | ok request =>
    dsimp only
    rw [Node.after]
    split <;> rfl

omit [DecidableEq Address] in
theorem heardQuery_fst : (d.heardQuery parse sender bytes).1 = d := by
  rw [heardQuery]
  split <;> rfl

omit [DecidableEq Address] in
theorem heardLookup_fst : (d.heardLookup sender bytes).1 = d := by
  rw [heardLookup]
  split <;> rfl

omit [DecidableEq Address] in
theorem gossipPush_fst (draw : Nat) (order : VisitOrder DomainName) :
    (d.gossipPush draw order).1 = d := by
  rw [gossipPush]
  split <;> rfl

theorem limiter_heardGossip : (d.heardGossip E parse env sender bytes).1.limiter = d.limiter := by
  rw [heardGossip]
  split
  · rfl
  · split <;> rfl

omit [DecidableEq Address] in
theorem limiter_heardRequest :
    (d.heardRequest E parse ip env' lookups sender bytes).1.limiter = d.limiter := by
  rw [heardRequest]
  split
  · rfl
  · dsimp only
    split <;> rfl

theorem peers_heardGossip : (d.heardGossip E parse env sender bytes).1.peers =
    match decode parse GossipMessage.deserialize bytes with
    | .ok message => if isWellFormed message then d.peers.learn sender else d.peers
    | .error _ => d.peers := by
  rw [heardGossip]
  cases decode parse GossipMessage.deserialize bytes with
  | error _ => rfl
  | ok message =>
    dsimp only
    cases isWellFormed message <;> rfl

omit [DecidableEq Address] in
theorem peers_heardRequest :
    (d.heardRequest E parse ip env' lookups sender bytes).1.peers = d.peers := by
  rw [heardRequest]
  split
  · rfl
  · dsimp only
    split <;> rfl

end Handlers

/-! ### What a round does to each part -/

section Parts

variable (parse : ByteArray → Option Json) (ip : Address → Fcrdns.IpAddr)

/-- What a listener lets through to the store and the challenges, or the maintenance does. -/
def arrival (d : Daemon Address) : DaemonEvent Address → Option (Arrival Address)
  | .gossip r env =>
    if d.allows .gossip r = true then some (.gossip env r.sender r.received) else none
  | .api r env lookups =>
    if d.apiRunning = true ∧ d.allows .api r = true then
      some (.client env r.received
        (match decode parse ClientRequest.deserialize r.received with
        | .ok request => d.rdnsVerified ip lookups r.sender request
        | .error _ => true))
    else none
  | .maintenance instant => some (.prune instant)
  | .resolver _ | .dns _ | .push _ _ => none

/-- The listener of the datagram still runs. -/
def listens (d : Daemon Address) (listener : Listener) : Prop :=
  listener = .api → d.apiRunning = true

instance (d : Daemon Address) (listener : Listener) : Decidable (d.listens listener) :=
  inferInstanceAs (Decidable (_ → _))

/-- What happens to the limiter of a listener. -/
def limiterEvent (d : Daemon Address) (listener : Listener) (e : DaemonEvent Address) :
    Option (LimiterEvent Address) :=
  match e.receipt with
  | some (l, r) => if l = listener ∧ d.listens l then some (.call r.call) else none
  | none =>
    match e with
    | .maintenance instant =>
      some (.prune RateLimiter.RATE_LIMIT_PRUNE_AGE (seconds instant))
    | _ => none

/-- Who is put into the book: the sender of a gossip message that is let through. -/
def introduced (d : Daemon Address) : DaemonEvent Address → Option Address
  | .gossip r _ =>
    if d.allows .gossip r = true then
      match decode parse GossipMessage.deserialize r.received with
      | .ok message => if isWellFormed message then some r.sender else none
      | .error _ => none
    else none
  | .resolver _ | .api _ _ _ | .dns _ | .push _ _ | .maintenance _ => none

variable {parse ip} {E : Ed25519} {d : Daemon Address} {e : DaemonEvent Address}

/-- **The store and the challenges.** -/
theorem node_after : (d.after E parse ip e).node =
    match d.arrival parse ip e with
    | some a => d.node.arrive E parse a
    | none => d.node := by
  cases e with
  | gossip r env =>
    rw [after, round, serve_part Daemon.node rfl, node_heardGossip, arrival]
    split <;> rfl
  | resolver r =>
    rw [after, round, serve_keeps Daemon.node rfl fun _ => by rw [heardQuery_fst], arrival]
  | api r env lookups =>
    rw [after, round, arrival]
    by_cases hrunning : d.apiRunning = true
    · rw [if_pos hrunning, serve_part Daemon.node rfl, node_heardRequest]
      by_cases hallows : d.allows .api r = true
      · rw [if_pos hallows, if_pos ⟨hrunning, hallows⟩]
        rfl
      · rw [if_neg hallows, if_neg fun h => hallows h.2]
    · rw [if_neg hrunning, if_neg fun h => hrunning h.1]
  | dns r =>
    rw [after, round, serve_keeps Daemon.node rfl fun _ => by rw [heardLookup_fst], arrival]
  | push draw order => rw [after, round, gossipPush_fst, arrival]
  | maintenance instant => rfl

theorem limiter_asked (listener l : Listener) (r : Receipt Address) :
    (d.asked l r).limiter listener =
      if l = listener then (d.limiter listener).call r.call else d.limiter listener := by
  show Function.update d.limiter l ((d.limiter l).call r.call) listener = _
  rw [Function.update_apply]
  by_cases h : l = listener
  · subst h
    rw [if_pos rfl]
  · rw [if_neg (Ne.symm h), if_neg h]

/-- A listener's round asks its limiter. -/
theorem limiter_serve (l : Listener) (r : Receipt Address)
    {handle : Daemon Address → Daemon Address × List (Sent Address)}
    (h : ∀ d, (handle d).1.limiter = d.limiter) :
    (d.serve l r handle).1.limiter = (d.asked l r).limiter := by
  by_cases hallows : d.allows l r = true
  · rw [serve_of_allowed hallows, h]
  · rw [serve_of_refused (Bool.eq_false_iff.mpr hallows)]

/-- **The limiters.** -/
theorem limiter_after (listener : Listener) : (d.after E parse ip e).limiter listener =
    match d.limiterEvent listener e with
    | some event => (d.limiter listener).event event
    | none => d.limiter listener := by
  have hcall : ∀ l r, d.listens l → (d.asked l r).limiter listener =
      match (if l = listener ∧ d.listens l then some (LimiterEvent.call r.call) else none) with
      | some event => (d.limiter listener).event event
      | none => d.limiter listener := by
    intro l r hlistens
    rw [limiter_asked]
    by_cases hl : l = listener
    · rw [if_pos hl, if_pos ⟨hl, hlistens⟩]
      rfl
    · rw [if_neg hl, if_neg fun h => hl h.1]
  cases e with
  | gossip r env =>
    rw [after, round, limiter_serve _ _ fun d => limiter_heardGossip]
    exact hcall .gossip r fun h => by cases h
  | resolver r =>
    rw [after, round, limiter_serve _ _ fun d => by rw [heardQuery_fst]]
    exact hcall .resolver r fun h => by cases h
  | api r env lookups =>
    rw [after, round]
    by_cases hrunning : d.apiRunning = true
    · rw [if_pos hrunning, limiter_serve _ _ fun d => limiter_heardRequest]
      exact hcall .api r fun _ => hrunning
    · have hgone : d.limiterEvent listener (.api r env lookups) = none :=
        if_neg fun h => hrunning (h.2 rfl)
      rw [if_neg hrunning, hgone]
  | dns r =>
    rw [after, round, limiter_serve _ _ fun d => by rw [heardLookup_fst]]
    exact hcall .dns r fun h => by cases h
  | push draw order => rw [after, round, gossipPush_fst]; rfl
  | maintenance instant => rfl

/-- **The book of peers.** -/
theorem peers_after : (d.after E parse ip e).peers =
    match d.introduced parse e with
    | some addr => d.peers.learn addr
    | none => d.peers := by
  cases e with
  | gossip r env =>
    rw [after, round, serve_part Daemon.peers rfl, peers_heardGossip, introduced]
    split
    · split
      · split <;> rfl
      · rfl
    · rfl
  | resolver r =>
    rw [after, round, serve_keeps Daemon.peers rfl fun _ => by rw [heardQuery_fst], introduced]
  | api r env lookups =>
    rw [after, round, introduced]
    split
    · rw [serve_keeps Daemon.peers rfl fun _ => peers_heardRequest]
    · rfl
  | dns r =>
    rw [after, round, serve_keeps Daemon.peers rfl fun _ => by rw [heardLookup_fst], introduced]
  | push draw order => rw [after, round, gossipPush_fst, introduced]
  | maintenance instant => rfl

end Parts

/-! ### What is sent -/

section Replies

variable {E : Ed25519} {parse : ByteArray → Option Json} {ip : Address → Fcrdns.IpAddr}
  {d : Daemon Address} {e : DaemonEvent Address}

/-- At most one datagram, from the listener to the address. -/
def OneTo (listener : Listener) (destination : Address) (l : List (Sent Address)) : Prop :=
  l.length ≤ 1 ∧ ∀ m ∈ l, m.listener = listener ∧ m.destination = destination

omit [DecidableEq Address] in
theorem oneTo_nil (listener : Listener) (destination : Address) :
    OneTo listener destination [] :=
  ⟨Nat.zero_le _, fun m hm => by cases hm⟩

omit [DecidableEq Address] in
theorem oneTo_sendEncoded {τ : Type} (listener : Listener) (destination : Address)
    (serialize : τ → Json) (message : τ) :
    OneTo listener destination (sendEncoded listener destination serialize message) := by
  rw [sendEncoded]
  split
  · refine ⟨Nat.le_refl _, fun m hm => ?_⟩
    rw [List.mem_singleton.mp hm]
    exact ⟨rfl, rfl⟩
  · exact oneTo_nil _ _

theorem oneTo_heardGossip (env : GossipAmbient Address) (sender : Address) (bytes : ByteArray) :
    OneTo .gossip sender (d.heardGossip E parse env sender bytes).2 := by
  rw [heardGossip]
  split
  · exact oneTo_nil _ _
  · split
    · exact oneTo_nil _ _
    · dsimp only
      cases (d.node.handleGossipMessage E env sender _).1 with
      | none => exact oneTo_nil _ _
      | some reply =>
        rw [Option.toList_some, List.flatMap_singleton]
        exact oneTo_sendEncoded _ _ _ _

omit [DecidableEq Address] in
theorem oneTo_heardQuery (sender : Address) (bytes : ByteArray) :
    OneTo .resolver sender (d.heardQuery parse sender bytes).2 := by
  rw [heardQuery]
  split
  · exact oneTo_nil _ _
  · exact oneTo_sendEncoded _ _ _ _

omit [DecidableEq Address] in
theorem oneTo_heardRequest (env : Ambient) (lookups : Lookups) (sender : Address)
    (bytes : ByteArray) :
    OneTo .api sender (d.heardRequest E parse ip env lookups sender bytes).2 := by
  rw [heardRequest]
  split
  · exact oneTo_nil _ _
  · dsimp only
    split
    · exact oneTo_sendEncoded _ _ _ _
    · exact oneTo_nil _ _

omit [DecidableEq Address] in
theorem oneTo_heardLookup (sender : Address) (bytes : ByteArray) :
    OneTo .dns sender (d.heardLookup sender bytes).2 := by
  rw [heardLookup]
  split
  · exact oneTo_nil _ _
  · refine ⟨Nat.le_refl _, fun m hm => ?_⟩
    rw [List.mem_singleton.mp hm]
    exact ⟨rfl, rfl⟩

/-- **A listener sends nothing, or one datagram to the sender of the one it lets through.** -/
theorem oneTo_sent {listener : Listener} {r : Receipt Address}
    (he : e.receipt = some (listener, r)) : OneTo listener r.sender (d.sent E parse ip e) ∧
      (d.sent E parse ip e ≠ [] → d.listens listener ∧ d.allows listener r = true) := by
  have hserve : ∀ {l : Listener} {r : Receipt Address}
      {handle : Daemon Address → Daemon Address × List (Sent Address)}, d.listens l →
      (∀ d, OneTo l r.sender (handle d).2) → OneTo l r.sender (d.serve l r handle).2 ∧
        ((d.serve l r handle).2 ≠ [] → d.listens l ∧ d.allows l r = true) := by
    intro l r handle hlistens hhandle
    by_cases hallows : d.allows l r = true
    · rw [serve_of_allowed hallows]
      exact ⟨hhandle _, fun _ => ⟨hlistens, hallows⟩⟩
    · rw [serve_of_refused (Bool.eq_false_iff.mpr hallows)]
      exact ⟨oneTo_nil _ _, fun h => absurd rfl h⟩
  cases e with
  | gossip r' env =>
    obtain ⟨rfl, rfl⟩ := Prod.mk.inj (Option.some.inj he)
    exact hserve (fun h => by cases h) fun d => oneTo_heardGossip _ _ _
  | resolver r' =>
    obtain ⟨rfl, rfl⟩ := Prod.mk.inj (Option.some.inj he)
    exact hserve (fun h => by cases h) fun d => oneTo_heardQuery _ _
  | api r' env lookups =>
    obtain ⟨rfl, rfl⟩ := Prod.mk.inj (Option.some.inj he)
    rw [sent, round]
    by_cases hrunning : d.apiRunning = true
    · rw [if_pos hrunning]
      exact hserve (fun _ => hrunning) fun d => oneTo_heardRequest _ _ _ _
    · rw [if_neg hrunning]
      exact ⟨oneTo_nil _ _, fun h => absurd rfl h⟩
  | dns r' =>
    obtain ⟨rfl, rfl⟩ := Prod.mk.inj (Option.some.inj he)
    exact hserve (fun h => by cases h) fun d => oneTo_heardLookup _ _
  | push draw order => cases he
  | maintenance instant => cases he

/-- **A push goes to one peer of the book.** -/
theorem oneTo_push (draw : Nat) (order : VisitOrder DomainName) :
    d.sent E parse ip (.push draw order) = [] ∨
      ∃ peer ∈ d.peers.peers, OneTo .gossip peer (d.sent E parse ip (.push draw order)) := by
  rw [sent, round, gossipPush]
  cases hpeer : d.peers.randomPeer draw with
  | none => exact Or.inl rfl
  | some peer => exact Or.inr ⟨peer, List.mem_of_getElem? hpeer, oneTo_sendEncoded _ _ _ _⟩

end Replies

end Daemon

end Binda
