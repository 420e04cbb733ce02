import Binda.Node.Delivery
import Binda.Node.Timeout

/-!
# Two nodes and a channel that keeps the order

Two nodes push digests to each other, and the channel between them neither loses
nor reorders a message.  Several digests may be on their way before the first reply
comes, so that node `b` may have built several requests that `a` has not answered.
Each end has the limiter of its gossip socket beside the node, and says only what
`encode` accepts; `linkEnd_round` is the bridge to the rounds of the whole node.

For one peer a node remembers one challenge.  `Link.Linked` is the invariant that
says what has become of it: it is that of the latest request that went out, as long as
none was built since that was too large to go out, and no reply has been let through
since.  `offers_iff` draws the conclusion for the reply to the latest request, and
`correct_reply_is_lost` is the run with two rounds under way.
-/

namespace Binda

deriving instance DecidableEq for GossipMessage

/-! ### One end -/

/-- One end: the node, and the limiter of its gossip socket. -/
structure LinkEnd (Address : Type) where
  node : Node Address
  limiter : RateLimiter Address

/-- `encode` accepts the message. -/
def encodes (message : GossipMessage) : Bool :=
  decide ((GossipMessage.serialize message).size ≤ maxDatagramBytes)

namespace LinkEnd

variable {Address : Type} [DecidableEq Address]

/-- A fresh node. -/
def new : LinkEnd Address := { node := Node.new, limiter := RateLimiter.newRateLimiter }

section Steps

variable (E : Ed25519) (n : LinkEnd Address) (sender : Address) (p : Passage Address)

/-- The limiter lets through what arrives. -/
def allows : Bool := (n.limiter.allowAt p.order sender (seconds p.instant)).1

/-- The limiter has been asked. -/
def asked : LinkEnd Address :=
  { n with limiter := (n.limiter.allowAt p.order sender (seconds p.instant)).2 }

/-- `gossip_recv_loop` on a datagram with the message. -/
def receive (message : GossipMessage) : Option GossipMessage × LinkEnd Address :=
  if n.allows sender p && isWellFormed message then
    let (reply, node) := n.node.handleGossipMessage E p.env sender message
    (reply, { n.asked sender p with node })
  else (none, n.asked sender p)

/-- The rumors of a message that are offered to `adopt_rumor` when it arrives. -/
def offers (message : GossipMessage) : List RegistrationRumor :=
  if n.allows sender p && isWellFormed message then n.node.handed sender message else []

/-- A round of the maintenance task. -/
def maintain (instant : Nat) : LinkEnd Address where
  node := n.node.prune instant
  limiter := n.limiter.pruneOlderThan RateLimiter.RATE_LIMIT_PRUNE_AGE (seconds instant)

end Steps

end LinkEnd

/-! ### The link -/

/-- A message under way.  `round` is not part of it: it counts the requests of `b`, and
tells which of them the message carries or answers, and is zero for all others. -/
structure Packet where
  message : GossipMessage
  round : Nat
  deriving DecidableEq

/-- The nodes `a` and `b`, the messages on their way to each, and a record of what `b`
has asked: the requests that went out, and of what happened since the latest of them
the requests that were too large, whether a reply was let through, and whether a tick
came which found it too old. -/
structure Link (Address : Type) where
  a : LinkEnd Address
  b : LinkEnd Address
  toA : List Packet
  toB : List Packet
  asked : List PendingChallenge
  unsent : List PendingChallenge
  answered : Bool
  ticked : Bool

/-- What happens on the link. -/
inductive LinkEvent (Address : Type)
  | pushA (order : VisitOrder DomainName)
  | pushB (order : VisitOrder DomainName)
  | arriveA (p : Passage Address)
  | arriveB (p : Passage Address)
  | requestA (env : Ambient) (request : ClientRequest) (rdnsVerified : Bool)
  | requestB (env : Ambient) (request : ClientRequest) (rdnsVerified : Bool)
  | maintainA (instant : Nat)
  | maintainB (instant : Nat)

namespace Link

variable {Address : Type} [DecidableEq Address] (E : Ed25519) (addrA addrB : Address)

/-- Two fresh nodes. -/
def start : Link Address where
  a := LinkEnd.new
  b := LinkEnd.new
  toA := []
  toB := []
  asked := []
  unsent := []
  answered := false
  ticked := false

/-- The latest request has waited ten seconds. -/
def overdue (l : Link Address) (instant : Nat) : Bool :=
  l.asked.getLast?.any fun q => pendingChallengeTimeout ≤ instant - q.issuedAt

/-- What a node says, as far as `encode` accepts it. -/
def posted (message : Option GossipMessage) (round : Nat) : List Packet :=
  (message.toList.filter encodes).map fun m => ⟨m, round⟩

/-- The first message to `a` arrives.  What `a` answers belongs to the same round. -/
def arriveAtA (l : Link Address) (p : Passage Address) : Link Address :=
  match l.toA with
  | [] => l
  | packet :: rest =>
    let (reply, a) := l.a.receive E addrB p packet.message
    { l with a, toA := rest, toB := l.toB ++ posted reply packet.round }

/-- The first message to `b` arrives.  If `b` builds a request, and it is not too large, a new
round begins. -/
def arriveAtB (l : Link Address) (p : Passage Address) : Link Address :=
  match l.toB with
  | [] => l
  | packet :: rest =>
    match l.b.receive E addrA p packet.message with
    | (some (.request requested challenge), b) =>
      let q : PendingChallenge := { challenge, requested, issuedAt := p.env.instant }
      if encodes (.request requested challenge) then
        { l with
          b
          toB := rest
          toA := l.toA ++ [⟨.request requested challenge, l.asked.length + 1⟩]
          asked := l.asked ++ [q]
          unsent := []
          answered := false
          ticked := false }
      else { l with b, toB := rest, unsent := l.unsent ++ [q] }
    | (reply, b) =>
      { l with
        b
        toB := rest
        toA := l.toA ++ posted reply 0
        answered := l.answered || (l.b.allows addrA p && decide (0 < packet.round)) }

/-- The link after an event. -/
def next (l : Link Address) : LinkEvent Address → Link Address
  | .pushA order => { l with toB := l.toB ++ posted (some (l.a.node.digest order)) 0 }
  | .pushB order => { l with toA := l.toA ++ posted (some (l.b.node.digest order)) 0 }
  | .arriveA p => l.arriveAtA E addrB p
  | .arriveB p => l.arriveAtB E addrA p
  | .requestA env request v =>
    { l with a := { l.a with node := l.a.node.after E (.request env request v) } }
  | .requestB env request v =>
    { l with b := { l.b with node := l.b.node.after E (.request env request v) } }
  | .maintainA instant => { l with a := l.a.maintain instant }
  | .maintainB instant =>
    { l with b := l.b.maintain instant, ticked := l.ticked || l.overdue instant }

/-- Some run leads to the link. -/
def Reached (l : Link Address) : Prop :=
  Run.Reaches (next E addrA addrB) (fun _ _ => True) start l

end Link

/-! ### An end is what the whole node is on the link -/

/-- The part of the whole node that is on the link. -/
def Daemon.linkEnd {Address : Type} (d : Daemon Address) : LinkEnd Address where
  node := d.node
  limiter := d.limiter .gossip

namespace LinkEnd

variable {Address : Type} [DecidableEq Address] {E : Ed25519} {n : LinkEnd Address}
  {sender : Address} {p : Passage Address} {message : GossipMessage}

theorem receive_of_refused (h : n.allows sender p = false) :
    n.receive E sender p message = (none, n.asked sender p) := by
  rw [receive, h, Bool.false_and, if_neg Bool.false_ne_true]

theorem receive_of_illFormed (h : isWellFormed message = false) :
    n.receive E sender p message = (none, n.asked sender p) := by
  rw [receive, h, Bool.and_false, if_neg Bool.false_ne_true]

theorem receive_of_allowed (h : n.allows sender p = true) (hwell : isWellFormed message = true) :
    n.receive E sender p message =
      ((n.node.handleGossipMessage E p.env sender message).1,
        { n.asked sender p with
          node := (n.node.handleGossipMessage E p.env sender message).2 }) := by
  rw [receive, h, hwell, Bool.and_true, if_pos rfl]

theorem encodes_iff : encodes message = true ↔
    ∃ bytes, encode GossipMessage.serialize message = .ok bytes := by
  rw [encodes, decide_eq_true_eq, encode_eq_ok_iff]

omit [DecidableEq Address] in
/-- What is posted is what the socket sends. -/
theorem sendEncoded_posted (reply : Option GossipMessage) (round : Nat) (destination : Address) :
    reply.toList.flatMap (sendEncoded .gossip destination GossipMessage.serialize) =
      (Link.posted reply round).flatMap fun packet =>
        sendEncoded .gossip destination GossipMessage.serialize packet.message := by
  cases reply with
  | none => rfl
  | some m =>
    rw [Option.toList_some, List.flatMap_singleton, Link.posted, Option.toList_some]
    by_cases hm : encodes m = true
    · rw [List.filter_cons_of_pos hm]
      simp
    · rw [List.filter_cons_of_neg hm, sendEncoded]
      cases hencode : encode GossipMessage.serialize m with
      | ok bytes => exact absurd (encodes_iff.mpr ⟨bytes, hencode⟩) hm
      | error _ => rfl

variable {parse : ByteArray → Option Json} {ip : Address → Fcrdns.IpAddr} {d : Daemon Address}

/-- **An end of a link does what the whole node does** when a datagram arrives, in a push and in
the maintenance: the same becomes of the node and of the limiter of the gossip socket, and the
socket sends what is posted. -/
theorem linkEnd_round (hparse : ReadsWritten parse GossipMessage.serialize) :
    (∀ bytes round, encode GossipMessage.serialize message = .ok bytes →
      (d.after E parse ip (.gossip (p.receipt sender bytes) p.env)).linkEnd =
          (d.linkEnd.receive E sender p message).2 ∧
        d.sent E parse ip (.gossip (p.receipt sender bytes) p.env) =
          (Link.posted (d.linkEnd.receive E sender p message).1 round).flatMap fun packet =>
            sendEncoded .gossip sender GossipMessage.serialize packet.message) ∧
    (∀ draw order round peer, d.peers.randomPeer draw = some peer →
      (d.after E parse ip (.push draw order)).linkEnd = d.linkEnd ∧
        d.sent E parse ip (.push draw order) =
          (Link.posted (some (d.linkEnd.node.digest order)) round).flatMap fun packet =>
            sendEncoded .gossip peer GossipMessage.serialize packet.message) ∧
    ∀ instant, (d.after E parse ip (.maintenance instant)).linkEnd = d.linkEnd.maintain instant := by
  refine ⟨fun bytes round hencode => ?_, fun draw order round peer hpeer => ?_, fun instant => rfl⟩
  · rw [Daemon.after, Daemon.sent, ← sendEncoded_posted]
    have hlimiter : (d.asked .gossip (p.receipt sender bytes)).limiter .gossip =
        (d.linkEnd.asked sender p).limiter := by
      rw [Daemon.limiter_asked, if_pos rfl]
      rfl
    cases hallows : d.linkEnd.allows sender p with
    | false =>
      have hrefused : d.allows .gossip (p.receipt sender bytes) = false := hallows
      rw [Daemon.round, Daemon.serve_of_refused hrefused, receive_of_refused hallows]
      exact ⟨by rw [Daemon.linkEnd, hlimiter]; rfl, rfl⟩
    | true =>
      cases hwell : isWellFormed message with
      | true =>
        have hadmits : Daemon.Admits (d.limiter .gossip) sender p := hallows
        rw [Daemon.round_of_encoded hparse hencode hwell hadmits, receive_of_allowed hallows hwell]
        exact ⟨by rw [Daemon.linkEnd]; dsimp only; rw [hlimiter]; rfl, rfl⟩
      | false =>
        have hallowed : d.allows .gossip (p.receipt sender bytes) = true := hallows
        have hread := decode_of_encode hparse readsBack_gossip hencode
        rw [Daemon.round, Daemon.serve_of_allowed hallowed, receive_of_illFormed hwell,
          Daemon.heardGossip]
        have hreceived : (p.receipt sender bytes).received = bytes.extract 0 maxDatagramBytes := rfl
        rw [hreceived, hread]
        dsimp only
        rw [hwell]
        exact ⟨by rw [Bool.not_false, if_pos rfl, Daemon.linkEnd, hlimiter]; rfl, rfl⟩
  · rw [Daemon.after, Daemon.sent, ← sendEncoded_posted, Daemon.round, Daemon.gossipPush, hpeer]
    exact ⟨rfl, by rw [Option.toList_some, List.flatMap_singleton]; rfl⟩

end LinkEnd

/-! ### The invariant -/

namespace Link

variable {Address : Type} [DecidableEq Address]

/-- The request of that round is `q`. -/
def Round (asked : List PendingChallenge) (round : Nat) (q : PendingChallenge) : Prop :=
  0 < round ∧ asked[round - 1]? = some q

/-- On the way to `a`: a request of `b`, or no request at all. -/
def SoundToA (asked : List PendingChallenge) (packet : Packet) : Prop :=
  (∃ q, Round asked packet.round q ∧ packet.message = .request q.requested q.challenge ∧
    isWellFormed packet.message = true) ∨
  packet.round = 0 ∧ ∀ domains challenge, packet.message ≠ .request domains challenge

/-- On the way to `b`: a valid and correct reply to a request of `b`, or no reply at all. -/
def SoundToB (asked : List PendingChallenge) (packet : Packet) : Prop :=
  (∃ q rumors, Round asked packet.round q ∧
    packet.message = .rumors rumors q.challenge.expectedAnswer ∧
    isValidRumorResponse q.requested rumors = true ∧ isWellFormed packet.message = true) ∨
  packet.round = 0 ∧ ∀ rumors answer, packet.message ≠ .rumors rumors answer

/-- The challenge that `b` remembers for `a`: while no request was too large, that of the
latest one, until a reply or a tick takes it off the table; and otherwise that of a
request that was too large, or none. -/
structure Remembers (addrA : Address) (l : Link Address) : Prop where
  latest : l.unsent = [] → l.b.node.pendingChallenges.lookup addrA =
    if l.answered = false ∧ l.ticked = false then l.asked.getLast? else none
  unsent : l.unsent ≠ [] → ∀ q, l.b.node.pendingChallenges.lookup addrA = some q → q ∈ l.unsent

/-- What holds on a link. -/
structure Linked (addrA : Address) (l : Link Address) : Prop where
  soundA : ∀ packet ∈ l.toA, SoundToA l.asked packet
  soundB : ∀ packet ∈ l.toB, SoundToB l.asked packet
  remembers : l.Remembers addrA

variable {E : Ed25519} {addrA addrB : Address} {l : Link Address} {packet : Packet}
  {q : PendingChallenge} {asked : List PendingChallenge} {round : Nat} {p : Passage Address}
  {rest more : List Packet}

omit [DecidableEq Address] in
theorem mem_posted {message : Option GossipMessage} :
    packet ∈ posted message round ↔
      message = some packet.message ∧ encodes packet.message = true ∧ packet.round = round := by
  rw [posted, List.mem_map]
  constructor
  · rintro ⟨m, hm, rfl⟩
    obtain ⟨hm, hfits⟩ := List.mem_filter.mp hm
    exact ⟨Option.mem_toList.mp hm, hfits, rfl⟩
  · rintro ⟨hm, hfits, hround⟩
    exact ⟨packet.message, List.mem_filter.mpr ⟨Option.mem_toList.mpr hm, hfits⟩, by
      rw [← hround]⟩

/-- Earlier rounds keep their requests. -/
theorem Round.concat (h : Round asked round q) (q' : PendingChallenge) :
    Round (asked ++ [q']) round q := by
  obtain ⟨hpos, hq⟩ := h
  exact ⟨hpos, List.getElem?_append_left (List.getElem?_eq_some_iff.mp hq).1 ▸ hq⟩

theorem SoundToA.concat (h : SoundToA asked packet) (q' : PendingChallenge) :
    SoundToA (asked ++ [q']) packet :=
  h.imp_left fun ⟨q, hq, hm⟩ => ⟨q, hq.concat q', hm⟩

theorem SoundToB.concat (h : SoundToB asked packet) (q' : PendingChallenge) :
    SoundToB (asked ++ [q']) packet :=
  h.imp_left fun ⟨q, rumors, hq, hm⟩ => ⟨q, rumors, hq.concat q', hm⟩

/-- `Remembers` reads the record and one challenge. -/
theorem Remembers.same {l' : Link Address} (h : l.Remembers addrA) (hasked : l'.asked = l.asked)
    (hunsent : l'.unsent = l.unsent) (hanswered : l'.answered = l.answered)
    (hticked : l'.ticked = l.ticked)
    (hpending : l'.b.node.pendingChallenges.lookup addrA =
      l.b.node.pendingChallenges.lookup addrA) : l'.Remembers addrA where
  latest := by
    rw [hasked, hunsent, hanswered, hticked, hpending]
    exact h.latest
  unsent := by
    rw [hunsent, hpending]
    exact h.unsent

/-- While `b` sends no request, sound messages may be added on either way, and taken off it. -/
theorem Linked.packets {l' : Link Address} (h : Linked addrA l) (hr : l'.Remembers addrA)
    (hasked : l'.asked = l.asked)
    (hA : ∀ packet ∈ l'.toA, packet ∈ l.toA ∨ SoundToA l.asked packet)
    (hB : ∀ packet ∈ l'.toB, packet ∈ l.toB ∨ SoundToB l.asked packet) : Linked addrA l' where
  soundA packet hp := by
    rw [hasked]
    exact (hA packet hp).elim (h.soundA packet) id
  soundB packet hp := by
    rw [hasked]
    exact (hB packet hp).elim (h.soundB packet) id
  remembers := hr

theorem linked_start : Linked addrA (start : Link Address) where
  soundA _ hp := by cases hp
  soundB _ hp := by cases hp
  remembers := ⟨fun _ => rfl, fun _ _ hq => by cases hq⟩

theorem Linked.pushA (h : Linked addrA l) (order : VisitOrder DomainName) :
    Linked addrA (l.next E addrA addrB (.pushA order)) := by
  refine h.packets (h.remembers.same rfl rfl rfl rfl rfl) rfl (fun _ hp => Or.inl hp)
    fun packet hp => ?_
  refine (List.mem_append.mp hp).imp_right fun hp => ?_
  obtain ⟨hm, -, hround⟩ := mem_posted.mp hp
  exact Or.inr ⟨hround, fun _ _ he => by rw [← Option.some.inj hm] at he; cases he⟩

theorem Linked.pushB (h : Linked addrA l) (order : VisitOrder DomainName) :
    Linked addrA (l.next E addrA addrB (.pushB order)) := by
  refine h.packets (h.remembers.same rfl rfl rfl rfl rfl) rfl (fun packet hp => ?_)
    fun _ hp => Or.inl hp
  refine (List.mem_append.mp hp).imp_right fun hp => ?_
  obtain ⟨hm, -, hround⟩ := mem_posted.mp hp
  exact Or.inr ⟨hround, fun _ _ he => by rw [← Option.some.inj hm] at he; cases he⟩

/-- **A tick takes the challenge off the table** when it has waited ten seconds. -/
theorem Remembers.maintainB (h : l.Remembers addrA) (instant : Nat) :
    (l.next E addrA addrB (.maintainB instant)).Remembers addrA := by
  have hprune : (l.b.maintain instant).node.pendingChallenges.lookup addrA =
      (l.b.node.pendingChallenges.lookup addrA).filter fun q =>
        decide (instant - q.issuedAt < pendingChallengeTimeout) :=
    Table.lookup_retain _ _ _
  constructor
  · intro hnone
    simp only [next, hprune, h.latest hnone, overdue, Bool.or_eq_false_iff]
    cases hq : l.asked.getLast? with
    | none => simp
    | some q =>
      by_cases hc : l.answered = false ∧ l.ticked = false
      · rw [if_pos hc, Option.filter_some, Option.any_some]
        simp only [hc, true_and, decide_eq_true_eq, decide_eq_false_iff_not, not_le]
      · rw [if_neg hc, if_neg fun hc' => hc ⟨hc'.1, hc'.2.1⟩]
        rfl
  · intro hsome q hq
    rw [next, hprune, Option.filter_eq_some_iff] at hq
    exact h.unsent hsome q hq.1

/-- A reply is not answered. -/
theorem receive_rumors_fst {n : LinkEnd Address} {sender : Address}
    {rumors : List RegistrationRumor} {answer : RegistrationToken} :
    (n.receive E sender p (.rumors rumors answer)).1 = none := by
  rw [LinkEnd.receive]
  split
  · exact Node.handleGossipMessage_rumors_fst
  · rfl

/-- Only a request is answered with rumors. -/
theorem receive_ne_rumors {n : LinkEnd Address} {sender : Address} {message m : GossipMessage}
    (hno : ∀ domains challenge, message ≠ .request domains challenge)
    (hm : (n.receive E sender p message).1 = some m) (rumors : List RegistrationRumor)
    (answer : RegistrationToken) : m ≠ .rumors rumors answer := by
  rcases message with entries | ⟨domains, challenge⟩ | ⟨rumors', answer'⟩
  · rw [LinkEnd.receive] at hm
    split at hm
    · rw [(Node.request_digest.mp hm).2]
      exact fun he => by cases he
    · cases hm
  · exact absurd rfl (hno domains challenge)
  · rw [receive_rumors_fst] at hm
    cases hm

/-- A request is answered, if it is let through, with what the node has of what is asked for. -/
theorem receive_request_fst {n : LinkEnd Address} {sender : Address} {domains : List DomainName}
    {challenge : ConformanceChallenge} {m : GossipMessage}
    (hm : (n.receive E sender p (.request domains challenge)).1 = some m) :
    m = .rumors (n.node.store.answerFor domains) challenge.expectedAnswer := by
  rw [LinkEnd.receive] at hm
  split at hm
  · exact (Option.some.inj hm).symm
  · cases hm

/-- **`a` answers a request of `b` in the same round.** -/
theorem Linked.arriveA (h : Linked addrA l) (p : Passage Address) :
    Linked addrA (l.next E addrA addrB (.arriveA p)) := by
  rw [next, arriveAtA]
  cases hq : l.toA with
  | nil => exact h
  | cons packet rest =>
    refine h.packets (h.remembers.same rfl rfl rfl rfl rfl) rfl
      (fun packet' hp' => Or.inl (hq ▸ List.mem_cons_of_mem packet hp')) fun packet' hp' => ?_
    refine (List.mem_append.mp hp').imp_right fun hp' => ?_
    obtain ⟨hm, -, hround'⟩ := mem_posted.mp hp'
    rcases h.soundA packet (hq ▸ List.mem_cons_self) with ⟨q, hround, hmessage, hwell⟩ | ⟨hzero, hno⟩
    · rw [hmessage] at hm hwell
      refine Or.inl ⟨q, _, hround'.symm ▸ hround, receive_request_fst hm, ?_, ?_⟩
      · exact RegistryStore.isValidRumorResponse_answerFor
          (RegistryStore.isWellFormed_request_iff.mp hwell).2
      · rw [receive_request_fst hm]
        exact RegistryStore.isWellFormed_answerFor hwell
    · exact Or.inr ⟨hround'.trans hzero, receive_ne_rumors hno hm⟩

/-- `b` hears a message and sends no request. -/
theorem Linked.heard (h : Linked addrA l) (hq : l.toB = packet :: rest) {b : LinkEnd Address}
    {reply : Option GossipMessage} {answered : Bool}
    (hreply : ∀ domains challenge, reply ≠ some (.request domains challenge))
    (hr : Remembers addrA { l with b, toB := rest, toA := l.toA ++ posted reply 0, answered }) :
    Linked addrA { l with b, toB := rest, toA := l.toA ++ posted reply 0, answered } := by
  refine h.packets hr rfl (fun packet' hp' => ?_)
    fun packet' hp' => Or.inl (hq ▸ List.mem_cons_of_mem packet hp')
  refine (List.mem_append.mp hp').imp_right fun hp' => ?_
  obtain ⟨hm, -, hround⟩ := mem_posted.mp hp'
  exact Or.inr ⟨hround, fun domains challenge he => hreply domains challenge (he ▸ hm)⟩

/-- `b` hears nothing new, and remembers what it remembered. -/
theorem Linked.idle (h : Linked addrA l) (hq : l.toB = packet :: rest) {b : LinkEnd Address}
    {reply : Option GossipMessage} {answered : Bool}
    (hreply : ∀ domains challenge, reply ≠ some (.request domains challenge))
    (hb : b.node.pendingChallenges = l.b.node.pendingChallenges)
    (hanswered : answered = l.answered) :
    Linked addrA { l with b, toB := rest, toA := l.toA ++ posted reply 0, answered } :=
  h.heard hq hreply (h.remembers.same rfl rfl hanswered rfl (by dsimp only; rw [hb]))

/-- **A reply that is let through takes the challenge off the table**, whatever it answers. -/
theorem Linked.arriveB_reply (h : Linked addrA l) (hq : l.toB = packet :: rest)
    {rumors : List RegistrationRumor} {answer : RegistrationToken}
    (hm : packet.message = .rumors rumors answer) (hwell : isWellFormed packet.message = true)
    (hpos : 0 < packet.round) (p : Passage Address) :
    Linked addrA (l.next E addrA addrB (.arriveB p)) := by
  rw [next, arriveAtB, hq]
  dsimp only
  rw [hm] at hwell ⊢
  cases hallows : l.b.allows addrA p with
  | false =>
    rw [LinkEnd.receive_of_refused hallows]
    exact h.idle hq (fun _ _ hr => by cases hr) rfl (by rw [Bool.false_and, Bool.or_false])
  | true =>
    rw [LinkEnd.receive_of_allowed hallows hwell, Node.handleGossipMessage_rumors_fst]
    dsimp only
    have hgone : (l.b.node.handleGossipMessage E p.env addrA
        (.rumors rumors answer)).2.pendingChallenges.lookup addrA = none := by
      rw [Node.lookup_pending_reply, if_pos rfl]
    refine h.heard hq (fun _ _ hr => by cases hr) ⟨fun _ => ?_, fun _ q hq' => ?_⟩
    · rw [hgone, decide_eq_true hpos, Bool.and_true, Bool.or_true, if_neg]
      exact fun hc => Bool.noConfusion hc.1
    · dsimp only at hq'
      rw [hgone] at hq'
      cases hq'

/-- **A new request that goes out is remembered.** -/
theorem Linked.asks (h : Linked addrA l) (hq : l.toB = packet :: rest) {b : LinkEnd Address}
    {requested : List DomainName} {challenge : ConformanceChallenge} {issuedAt : Nat}
    (hwell : isWellFormed (.request requested challenge) = true)
    (hb : b.node.pendingChallenges.lookup addrA = some { challenge, requested, issuedAt }) :
    Linked addrA
      { l with
        b
        toB := rest
        toA := l.toA ++ [⟨.request requested challenge, l.asked.length + 1⟩]
        asked := l.asked ++ [{ challenge, requested, issuedAt }]
        unsent := []
        answered := false
        ticked := false } := by
  refine ⟨fun packet' hp' => ?_, fun packet' hp' => ?_, ⟨fun _ => ?_, fun hne => absurd rfl hne⟩⟩
  · rcases List.mem_append.mp hp' with hp' | hp'
    · exact (h.soundA packet' hp').concat _
    · obtain rfl := List.mem_singleton.mp hp'
      exact Or.inl ⟨_, ⟨Nat.succ_pos _, List.getElem?_concat_length⟩, rfl, hwell⟩
  · exact (h.soundB packet' (hq ▸ List.mem_cons_of_mem packet hp')).concat _
  · rw [hb, if_pos ⟨rfl, rfl⟩, List.getLast?_concat]

/-- **A request that is too large is remembered all the same.** -/
theorem Linked.asksInVain (h : Linked addrA l) (hq : l.toB = packet :: rest)
    {b : LinkEnd Address} (hb : b.node.pendingChallenges.lookup addrA = some q) :
    Linked addrA { l with b, toB := rest, unsent := l.unsent ++ [q] } := by
  have hr : Remembers addrA { l with b, toB := rest, unsent := l.unsent ++ [q] } := by
    constructor
    · intro hnone
      exact absurd (List.append_eq_nil_iff.mp hnone).2 (List.cons_ne_nil q [])
    · intro _ q' hq'
      dsimp only at hq'
      rw [hb] at hq'
      obtain rfl := Option.some.inj hq'
      exact List.mem_append_right _ List.mem_cons_self
  exact h.packets hr rfl (fun _ hp' => Or.inl hp')
    fun packet' hp' => Or.inl (hq ▸ List.mem_cons_of_mem packet hp')

theorem Linked.arriveB (h : Linked addrA l) (p : Passage Address) :
    Linked addrA (l.next E addrA addrB (.arriveB p)) := by
  cases hq : l.toB with
  | nil =>
    rw [next, arriveAtB, hq]
    exact h
  | cons packet rest =>
    rcases h.soundB packet (hq ▸ List.mem_cons_self) with
      ⟨q, rumors, hround, hm, -, hwell⟩ | ⟨hzero, hno⟩
    · exact h.arriveB_reply hq hm hwell hround.1 p
    · have hanswered : (l.answered || (l.b.allows addrA p && decide (0 < packet.round))) =
          l.answered := by
        rw [hzero, decide_eq_false (Nat.lt_irrefl 0), Bool.and_false, Bool.or_false]
      rw [next, arriveAtB, hq]
      dsimp only
      cases hallows : l.b.allows addrA p with
      | false =>
        rw [LinkEnd.receive_of_refused hallows]
        rw [hallows] at hanswered
        exact h.idle hq (fun _ _ hr => by cases hr) rfl hanswered
      | true =>
        rw [hallows] at hanswered
        cases hwell : isWellFormed packet.message with
        | false =>
          rw [LinkEnd.receive_of_illFormed hwell]
          exact h.idle hq (fun _ _ hr => by cases hr) rfl hanswered
        | true =>
          rw [LinkEnd.receive_of_allowed hallows hwell]
          cases hmessage : packet.message with
          | rumors rumors answer => exact absurd hmessage (hno rumors answer)
          | request domains challenge =>
            exact h.idle hq (fun _ _ hr => by cases hr) rfl hanswered
          | digest entries =>
            by_cases hnone : l.b.node.store.missing entries = []
            · rw [Node.handleGossipMessage_digest_nil hnone]
              exact h.idle hq (fun _ _ hr => by cases hr) rfl hanswered
            · rw [Node.handleGossipMessage_digest hnone]
              dsimp only
              rw [hmessage] at hwell
              have hpending := Node.lookup_awaitAnswer l.b.node p.env.order addrA
                { challenge := ConformanceChallenge.random p.env.now p.env.nonceA p.env.nonceB
                    p.env.condition
                  requested := l.b.node.store.missing entries
                  issuedAt := p.env.instant }
              split
              · exact h.asks hq (RegistryStore.isWellFormed_missing hwell) hpending
              · exact h.asksInVain hq hpending

/-- **The invariant holds on every link that some run leads to.** -/
theorem Reached.linked (h : Reached E addrA addrB l) : Linked addrA l := by
  refine Run.Reaches.invariant h linked_start fun l e _ hl => ?_
  cases e with
  | pushA order => exact hl.pushA order
  | pushB order => exact hl.pushB order
  | arriveA p => exact hl.arriveA p
  | arriveB p => exact hl.arriveB p
  | maintainB instant => exact ⟨hl.soundA, hl.soundB, hl.remembers.maintainB instant⟩
  | requestA env request v =>
    exact ⟨hl.soundA, hl.soundB, hl.remembers.same rfl rfl rfl rfl rfl⟩
  | requestB env request v =>
    exact ⟨hl.soundA, hl.soundB, hl.remembers.same rfl rfl rfl rfl rfl⟩
  | maintainA instant => exact ⟨hl.soundA, hl.soundB, hl.remembers.same rfl rfl rfl rfl rfl⟩

/-- What `b` would offer of the reply to its latest request. -/
theorem Linked.offers_latest (h : Linked addrA l) {rumors : List RegistrationRumor}
    {answer : RegistrationToken} (hq : l.toB = ⟨.rumors rumors answer, l.asked.length⟩ :: rest)
    (hdistinct : ((l.asked ++ l.unsent).map fun q => q.challenge.expectedAnswer).Nodup) :
    l.b.node.handed addrA (.rumors rumors answer) =
      if l.unsent = [] ∧ l.answered = false ∧ l.ticked = false then rumors else [] := by
  rcases h.soundB _ (hq ▸ List.mem_cons_self) with
    ⟨q, rumors', ⟨hpos, hround⟩, hm, hvalid, -⟩ | ⟨-, hno⟩
  · obtain ⟨rfl, rfl⟩ := GossipMessage.rumors.inj hm
    have hlast : l.asked.getLast? = some q := by
      rw [List.getLast?_eq_getElem?]
      exact hround
    by_cases hunsent : l.unsent = []
    · have hpending := h.remembers.latest hunsent
      by_cases hc : l.answered = false ∧ l.ticked = false
      · rw [if_pos hc, hlast] at hpending
        rw [if_pos ⟨hunsent, hc⟩, Node.handed_of_pending hpending hvalid]
      · rw [if_neg hc] at hpending
        rw [if_neg fun hc' => hc hc'.2, Node.handed_of_none hpending]
    · rw [if_neg fun hc => hunsent hc.1]
      cases hpending : l.b.node.pendingChallenges.lookup addrA with
      | none => exact Node.handed_of_none hpending
      | some q' =>
        -- the challenge of a request that was too large has another answer
        have hq' := h.remembers.unsent hunsent q' hpending
        rw [List.map_append, List.nodup_append] at hdistinct
        have hne := hdistinct.2.2 _ (List.mem_map_of_mem (List.mem_of_getLast? hlast)) _
          (List.mem_map_of_mem hq')
        rw [Node.handed, hpending]
        exact if_pos hne
  · exact absurd rfl (hno rumors answer)

/-- **When the reply to the latest request is not lost**: exactly if the limiter lets it through,
no request has been built since that was too large to go out, no other reply has been let through
since, and no tick has come ten seconds or more after the request (unless there is nothing to
lose). -/
theorem offers_iff {rumors : List RegistrationRumor} {answer : RegistrationToken}
    (h : Reached E addrA addrB l) (hq : l.toB = ⟨.rumors rumors answer, l.asked.length⟩ :: rest)
    (hdistinct : ((l.asked ++ l.unsent).map fun q => q.challenge.expectedAnswer).Nodup)
    (p : Passage Address) :
    l.b.offers addrA p (.rumors rumors answer) = rumors ↔
      rumors = [] ∨ l.b.allows addrA p = true ∧ l.unsent = [] ∧ l.answered = false ∧
        l.ticked = false := by
  have hwell : isWellFormed (.rumors rumors answer) = true := by
    rcases h.linked.soundB _ (hq ▸ List.mem_cons_self) with ⟨_, _, _, _, _, hwell⟩ | ⟨_, hno⟩
    · exact hwell
    · exact absurd rfl (hno rumors answer)
  rw [LinkEnd.offers, hwell, Bool.and_true, h.linked.offers_latest hq hdistinct]
  by_cases hallows : l.b.allows addrA p = true
  · rw [if_pos hallows]
    by_cases hc : l.unsent = [] ∧ l.answered = false ∧ l.ticked = false
    · rw [if_pos hc]
      exact iff_of_true rfl (Or.inr ⟨hallows, hc⟩)
    · rw [if_neg hc, or_iff_left fun hc' => hc hc'.2, eq_comm]
  · rw [if_neg hallows, or_iff_left fun hc => hallows hc.1, eq_comm]

/-- A message handled and let through at a time. -/
def passing (now : UInt64) (instant : Nat) : Passage Bool where
  instant := instant
  order := VisitOrder.listed
  env := Node.gossipAt now instant

/-- A client registers a name at `a`, and `a` pushes. -/
def pushed : List (LinkEvent Bool) :=
  [.requestA (sampleAmbient 1000 0) ((sampleClient 1 "host").probeRequest 1000) true,
    .requestA (sampleAmbient 1000 0) ((sampleClient 1 "host").registerRequest 1000 ⟨"name"⟩) true,
    .pushA VisitOrder.listed]

/-- The request is answered. -/
def answering : List (LinkEvent Bool) :=
  pushed ++ [.arriveB (passing 1000 1000000000), .arriveA (passing 1000 1000000000)]

/-- The link when its reply is on the way. -/
def single : Link Bool := answering.foldl (next Ed25519.sample true false) start

/-- `a` pushes once more before the first request reaches it; then both requests are answered, and
the first reply arrives. -/
def crossing : List (LinkEvent Bool) :=
  pushed ++ [.pushA VisitOrder.listed,
    .arriveB (passing 1000 1000000000), .arriveB (passing 3000 3000000000),
    .arriveA (passing 3500 3500000000), .arriveA (passing 4000 4000000000),
    .arriveB (passing 4000 4000000000)]

/-- The link after that. -/
def crossed : Link Bool := crossing.foldl (next Ed25519.sample true false) start

theorem reached_single : Reached Ed25519.sample true false single :=
  Run.Reaches.foldl (fun _ _ => trivial) answering start

theorem reached_crossed : Reached Ed25519.sample true false crossed :=
  Run.Reaches.foldl (fun _ _ => trivial) crossing start

theorem toB_single :
    single.toB = [⟨.rumors [nameLease 1000] (sampleToken 1000 1), single.asked.length⟩] := by
  decide +kernel

/-- The reply to the second request is next. -/
theorem toB_crossed :
    crossed.toB = [⟨.rumors [nameLease 1000] (sampleToken 3000 1), crossed.asked.length⟩] := by
  decide +kernel

/-- It answers a challenge of its own, and is let through, but `b` will offer nothing of it. -/
theorem crossed_eq :
    (crossed.asked ++ crossed.unsent).map (fun q => q.challenge.expectedAnswer) =
        [sampleToken 1000 1, sampleToken 3000 1] ∧
      crossed.asked.getLast?.map PendingChallenge.issuedAt = some 3000000000 ∧
      crossed.b.allows true (passing 5000 5000000000) = true ∧
      crossed.b.offers true (passing 5000 5000000000)
        (.rumors [nameLease 1000] (sampleToken 3000 1)) = [] := by
  decide +kernel

/-- The reply to a single request is offered, and the second of two is not. -/
theorem offers_iff_crossed :
    single.b.offers true (passing 2000 2000000000)
        (.rumors [nameLease 1000] (sampleToken 1000 1)) = [nameLease 1000] ∧
      (crossed.b.offers true (passing 5000 5000000000)
          (.rumors [nameLease 1000] (sampleToken 3000 1)) = [nameLease 1000] ↔
        [nameLease 1000] = [] ∨ crossed.b.allows true (passing 5000 5000000000) = true ∧
          crossed.unsent = [] ∧ crossed.answered = false ∧ crossed.ticked = false) :=
  ⟨(offers_iff reached_single toB_single (by decide +kernel) _).mpr (Or.inr (by decide +kernel)),
    offers_iff reached_crossed toB_crossed (by rw [crossed_eq.1]; decide) _⟩

/-- **A correct reply is lost** when two rounds are under way, though the limiter lets it through:
the first reply takes the challenge of the second request off the table. -/
theorem correct_reply_is_lost :
    ¬ ∀ (E : Ed25519) (addrA addrB : Bool) (l : Link Bool) (rumors : List RegistrationRumor)
        (answer : RegistrationToken) (rest : List Packet) (q : PendingChallenge)
        (p : Passage Bool),
      Reached E addrA addrB l →
      ((l.asked ++ l.unsent).map fun q => q.challenge.expectedAnswer).Nodup →
      l.toB = ⟨.rumors rumors answer, l.asked.length⟩ :: rest →
      l.asked.getLast? = some q → p.env.instant ≤ q.issuedAt + pendingChallengeTimeout →
      l.b.allows addrA p = true →
      l.b.offers addrA p (.rumors rumors answer) = rumors := by
  intro h
  obtain ⟨hanswers, hissued, hallows, hlost⟩ := crossed_eq
  obtain ⟨q, hlast, hi⟩ := Option.map_eq_some_iff.mp hissued
  have hoffers := h Ed25519.sample true false crossed _ _ [] q (passing 5000 5000000000)
    reached_crossed (by rw [hanswers]; decide) toB_crossed hlast (by rw [hi]; decide) hallows
  rw [hlost] at hoffers
  cases hoffers

end Link

end Binda
