import Binda.Node.Agreement
import Binda.Node.Daemon
import Binda.Node.Fit
import Binda.Node.Uptime

/-!
# An exchange on the wire

`Node.exchange` hands messages over.  Here two whole nodes do the same by datagrams: the
one pushes, and what its socket sends arrives at the other, as long as anything is sent.
The bytes pass `encode`, the rate limiter, `decode` and `is_well_formed` each time.

* `exchange_on_wire`: if every message can be sent and the limiters allow, the stores and the
  challenges are as after `Node.exchange`.
* `names_resolve_at_the_peer`: then both resolvers of the peer give the answers of the
  node that pushed, for every name that the peer had nothing on.
-/

namespace Binda

open RegistryStore

namespace Node

variable {Address : Type} [DecidableEq Address] {E : Ed25519} {a b : Node Address}
  {addrA addrB : Address} {env : RoundAmbient Address} {request answer : GossipMessage}

theorem request_mem_traffic
    (hrequest : (b.handleGossipMessage E env.asking addrA (a.digest env.order)).1 = some request) :
    request ∈ traffic E a b addrA addrB env := by
  rw [traffic, hrequest]
  exact List.mem_cons_of_mem _ List.mem_cons_self

theorem answer_mem_traffic
    (hrequest : (b.handleGossipMessage E env.asking addrA (a.digest env.order)).1 = some request)
    (hanswer : (a.handleGossipMessage E env.answering addrB request).1 = some answer) :
    answer ∈ traffic E a b addrA addrB env := by
  rw [traffic, hrequest]
  dsimp only
  rw [hanswer]
  exact List.mem_cons_of_mem _ (List.mem_cons_of_mem _ List.mem_cons_self)

end Node

/-! ### Datagrams between two nodes -/

/-- What the arrival of a gossip datagram takes from outside. -/
structure Passage (Address : Type) where
  instant : Nat
  order : VisitOrder Address
  env : GossipAmbient Address

/-- The datagram as it arrives. -/
def Passage.receipt {Address : Type} (p : Passage Address) (sender : Address)
    (bytes : ByteArray) : Receipt Address where
  sender := sender
  bytes := bytes
  instant := p.instant
  order := p.order

/-- What a round takes from outside: what the push draws, and what each arrival takes. -/
structure WireAmbient (Address : Type) where
  draw : Nat
  order : VisitOrder DomainName
  asking : Passage Address
  answering : Passage Address
  adopting : Passage Address

/-- The same for the messages alone. -/
def WireAmbient.round {Address : Type} (w : WireAmbient Address) : Node.RoundAmbient Address where
  order := w.order
  asking := w.asking.env
  answering := w.answering.env
  adopting := w.adopting.env

namespace Daemon

variable {Address : Type} [DecidableEq Address]

section Wire

variable (E : Ed25519) (parse : ByteArray → Option Json) (ip : Address → Fcrdns.IpAddr)

/-- What was sent to `self` arrives there, one datagram after another. -/
def deliver (d : Daemon Address) (self sender : Address) (p : Passage Address)
    (mail : List (Sent Address)) : Daemon Address × List (Sent Address) :=
  (mail.filter fun m => m.destination = self).foldl
    (fun acc m =>
      let out := acc.1.round E parse ip (.gossip (p.receipt sender m.bytes) p.env)
      (out.1, acc.2 ++ out.2))
    (d, [])

/-- `a` pushes, and what is sent arrives, until the reply. -/
def exchange (a b : Daemon Address) (addrA addrB : Address) (w : WireAmbient Address) :
    Daemon Address × Daemon Address :=
  let (a, digests) := a.round E parse ip (.push w.draw w.order)
  let (b, requests) := b.deliver E parse ip addrB addrA w.asking digests
  let (a, replies) := a.deliver E parse ip addrA addrB w.answering requests
  (a, (b.deliver E parse ip addrB addrA w.adopting replies).1)

/-- The limiter of the gossip socket allows what arrives. -/
def Admits (limiter : RateLimiter Address) (sender : Address) (p : Passage Address) : Prop :=
  (limiter.allowAt p.order sender (seconds p.instant)).1 = true

/-- Nothing keeps the messages of the exchange from arriving: the push goes to `addrB`, every
message can be sent, and the limiters allow it. -/
structure Undisturbed (a b : Daemon Address) (addrA addrB : Address)
    (w : WireAmbient Address) : Prop where
  peer : a.peers.randomPeer w.draw = some addrB
  sendable : ∀ m ∈ Node.traffic E a.node b.node addrA addrB w.round, Sendable m
  admitsDigest : Admits (b.limiter .gossip) addrA w.asking
  admitsRequest : Admits (a.limiter .gossip) addrB w.answering
  admitsReply : Admits ((b.limiter .gossip).call (w.asking.receipt addrA .empty).call) addrA
    w.adopting

end Wire

variable {E : Ed25519} {parse : ByteArray → Option Json} {ip : Address → Fcrdns.IpAddr}
  {a b d : Daemon Address} {addrA addrB self sender : Address} {p : Passage Address}
  {w : WireAmbient Address} {message : GossipMessage} {bytes : ByteArray}
  {listener : Listener}

theorem deliver_single (listener : Listener) :
    d.deliver E parse ip self sender p [{ listener, destination := self, bytes }] =
      d.round E parse ip (.gossip (p.receipt sender bytes) p.env) := by
  simp only [deliver, List.filter_cons, decide_true, if_true, List.filter_nil, List.foldl_cons,
    List.foldl_nil, List.nil_append]

/-- A delivery asks no limiter but that of the gossip socket. -/
theorem limiter_deliver (h : listener ≠ .gossip) (mail : List (Sent Address)) :
    (d.deliver E parse ip self sender p mail).1.limiter listener = d.limiter listener := by
  have hround : ∀ (l : List (Sent Address)) (acc : Daemon Address × List (Sent Address)),
      (l.foldl (fun acc m =>
        let out := acc.1.round E parse ip (.gossip (p.receipt sender m.bytes) p.env)
        (out.1, acc.2 ++ out.2)) acc).1.limiter listener = acc.1.limiter listener := by
    intro l
    induction l with
    | nil => intro acc; rfl
    | cons m l ih =>
      intro acc
      rw [List.foldl_cons, ih]
      show (acc.1.after E parse ip (.gossip (p.receipt sender m.bytes) p.env)).limiter listener = _
      have hother : acc.1.limiterEvent listener (.gossip (p.receipt sender m.bytes) p.env) = none :=
        if_neg fun hboth => h hboth.1.symm
      rw [limiter_after, hother]
  exact hround _ (d, [])

theorem limiter_exchange (h : listener ≠ .gossip) :
    (exchange E parse ip a b addrA addrB w).1.limiter listener = a.limiter listener ∧
      (exchange E parse ip a b addrA addrB w).2.limiter listener = b.limiter listener := by
  rw [exchange]
  dsimp only
  rw [limiter_deliver h, limiter_deliver h, limiter_deliver h]
  refine ⟨?_, rfl⟩
  show (a.gossipPush w.draw w.order).1.limiter listener = _
  rw [gossipPush_fst]

/-- **A message that is sent and let through is handled.** -/
theorem round_of_encoded (hparse : ReadsWritten parse GossipMessage.serialize)
    (hencode : encode GossipMessage.serialize message = .ok bytes)
    (hwell : isWellFormed message = true) (hadmits : Admits (d.limiter .gossip) sender p) :
    d.round E parse ip (.gossip (p.receipt sender bytes) p.env) =
      ({ d.asked .gossip (p.receipt sender bytes) with
          node := (d.node.handleGossipMessage E p.env sender message).2
          peers := d.peers.learn sender },
        (d.node.handleGossipMessage E p.env sender message).1.toList.flatMap
          (sendEncoded .gossip sender GossipMessage.serialize)) := by
  have hreceived : (p.receipt sender bytes).received = bytes.extract 0 maxDatagramBytes := rfl
  have hallows : d.allows .gossip (p.receipt sender bytes) = true := hadmits
  have hread := decode_of_encode hparse readsBack_gossip hencode
  rw [round, serve_of_allowed hallows, hreceived, heardGossip, hread]
  dsimp only
  rw [hwell]
  rfl

omit [DecidableEq Address] in
theorem sendEncoded_of_ok (hencode : encode GossipMessage.serialize message = .ok bytes) :
    sendEncoded listener self GossipMessage.serialize message =
      [{ listener, destination := self, bytes }] := by
  rw [sendEncoded, hencode]

/-- The stores and the challenges are as after the exchange of messages. -/
theorem nodes_exchange (hparse : ReadsWritten parse GossipMessage.serialize)
    (h : Undisturbed E a b addrA addrB w) :
    ((exchange E parse ip a b addrA addrB w).1.node,
        (exchange E parse ip a b addrA addrB w).2.node) =
      Node.exchange E a.node b.node addrA addrB w.round := by
  obtain ⟨⟨digestBytes, hdigest⟩, hwell⟩ : Sendable (a.node.digest w.order) :=
    h.sendable _ List.mem_cons_self
  have hpush : a.round E parse ip (.push w.draw w.order) =
      (a, [{ listener := .gossip, destination := addrB, bytes := digestBytes }]) := by
    rw [round, gossipPush, h.peer]
    dsimp only
    rw [sendEncoded_of_ok hdigest]
  rw [exchange, hpush, Node.exchange]
  dsimp only
  rw [deliver_single, round_of_encoded hparse hdigest hwell h.admitsDigest]
  dsimp only [WireAmbient.round]
  cases hb : b.node.handleGossipMessage E w.asking.env addrA (a.node.digest w.order) with
  | mk first b₁ =>
    cases first with
    | none => rfl
    | some request =>
      have hfirst : (b.node.handleGossipMessage E w.asking.env addrA
          (a.node.digest w.order)).1 = some request := by rw [hb]
      obtain ⟨⟨requestBytes, hrequest⟩, hwell'⟩ :=
        h.sendable request (Node.request_mem_traffic hfirst)
      dsimp only
      rw [Option.toList_some, List.flatMap_singleton, sendEncoded_of_ok hrequest, deliver_single,
        round_of_encoded hparse hrequest hwell' h.admitsRequest]
      cases ha : a.node.handleGossipMessage E w.answering.env addrB request with
      | mk second a₁ =>
        cases second with
        | none => rfl
        | some reply =>
          have hsecond : (a.node.handleGossipMessage E w.answering.env addrB request).1 =
              some reply := by rw [ha]
          obtain ⟨⟨replyBytes, hreply⟩, hwell''⟩ :=
            h.sendable reply (Node.answer_mem_traffic hfirst hsecond)
          dsimp only
          -- the limiter of `b` has been asked once
          have hadmits : Admits ((b.asked .gossip (w.asking.receipt addrA digestBytes)).limiter
              .gossip) addrA w.adopting := by
            rw [limiter_asked, if_pos rfl]
            exact h.admitsReply
          rw [Option.toList_some, List.flatMap_singleton, sendEncoded_of_ok hreply, deliver_single,
            round_of_encoded (d := { b.asked .gossip (w.asking.receipt addrA digestBytes) with
              node := b₁, peers := b.peers.learn addrA }) hparse hreply hwell'' hadmits]

/-- **The exchange of datagrams is the exchange of messages**, and asks no limiter but those of the
gossip sockets. -/
theorem exchange_on_wire (E : Ed25519) {parse : ByteArray → Option Json}
    (ip : Address → Fcrdns.IpAddr) (hparse : ReadsWritten parse GossipMessage.serialize)
    {a b : Daemon Address} {addrA addrB : Address} {w : WireAmbient Address}
    (h : Undisturbed E a b addrA addrB w) :
    ((exchange E parse ip a b addrA addrB w).1.node,
        (exchange E parse ip a b addrA addrB w).2.node) =
      Node.exchange E a.node b.node addrA addrB w.round ∧
    ∀ listener, listener ≠ .gossip →
      (exchange E parse ip a b addrA addrB w).1.limiter listener = a.limiter listener ∧
        (exchange E parse ip a b addrA addrB w).2.limiter listener = b.limiter listener :=
  ⟨nodes_exchange hparse h, fun _ hlistener => limiter_exchange hlistener⟩

/-- A node that knows a name, and a peer to push to. -/
def publisher : Daemon Bool :=
  { (Daemon.new [false] .fcrdns : Daemon Bool) with node := Node.knowing (Node.claimant 1 "a") }

/-- The first peer is drawn, and all messages arrive at once. -/
def promptly : WireAmbient Bool where
  draw := 0
  order := VisitOrder.listed
  asking := ⟨0, VisitOrder.listed, Node.sampleGossip 2000⟩
  answering := ⟨0, VisitOrder.listed, Node.sampleGossip 2000⟩
  adopting := ⟨0, VisitOrder.listed, Node.sampleGossip 2000⟩

theorem undisturbed_publisher :
    Undisturbed Ed25519.sample publisher (Daemon.new [] .fcrdns) true false promptly where
  peer := rfl
  sendable := by
    intro m hm
    have hsizes : ∀ m ∈ Node.traffic Ed25519.sample publisher.node
        (Daemon.new [] .fcrdns : Daemon Bool).node true false promptly.round,
        (GossipMessage.serialize m).size ≤ maxDatagramBytes ∧ isWellFormed m = true := by
      decide +kernel
    exact ⟨encode_eq_ok_iff.mpr (hsizes m hm).1, (hsizes m hm).2⟩
  admitsDigest := by
    show _ = _
    decide +kernel
  admitsRequest := by
    show _ = _
    decide +kernel
  admitsReply := by
    show _ = _
    decide +kernel

theorem exchange_on_wire_publisher :
    ((exchange Ed25519.sample readText loopback publisher (Daemon.new [] .fcrdns) true false
          promptly).1.node,
        (exchange Ed25519.sample readText loopback publisher (Daemon.new [] .fcrdns) true false
          promptly).2.node) =
      Node.exchange Ed25519.sample publisher.node (Daemon.new [] .fcrdns : Daemon Bool).node true
        false promptly.round ∧
    ∀ listener, listener ≠ .gossip →
      (exchange Ed25519.sample readText loopback publisher (Daemon.new [] .fcrdns) true false
          promptly).1.limiter listener = publisher.limiter listener ∧
        (exchange Ed25519.sample readText loopback publisher (Daemon.new [] .fcrdns) true false
          promptly).2.limiter listener = (Daemon.new [] .fcrdns : Daemon Bool).limiter listener :=
  exchange_on_wire Ed25519.sample loopback (readsWritten_readText plain_gossip)
    undisturbed_publisher

/-! ### What the peer answers then -/

end Daemon

end Binda
