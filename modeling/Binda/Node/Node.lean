import Mathlib.Data.List.MinMax
import Binda.Core.Gossip
import Binda.Registry.System

/-!
# A node

`node.rs`, the part that gossips: the store, the challenges that wait for an
answer, the digest a node pushes, and what it does with a message.  The wire
format, the rate limiters and the book of peers are left out: a message is here
one that has been received, decoded and let through.

The address of a peer is of any type.  A clock reading and an `Instant` are two
things: the one decides whether a lease is live, the other how long a challenge
has waited.  One message is handled at one reading.
-/

namespace Binda

/-- `PendingChallenge`: what was asked, and when. -/
structure PendingChallenge where
  challenge : ConformanceChallenge
  requested : List DomainName
  issuedAt : Nat

/-- `PENDING_CHALLENGE_TIMEOUT`, in nanoseconds. -/
def pendingChallengeTimeout : Nat := 10000000000

/-- `MAX_PENDING_CHALLENGES`. -/
def maxPendingChallenges : Nat := 10000

/-- `Node`, as far as gossip uses it. -/
structure Node (Address : Type) where
  store : RegistryStore
  pendingChallenges : Table Address PendingChallenge

/-- What handling a message takes from outside: the clock, the monotonic clock,
the random generator and the order of the pending challenges. -/
structure GossipAmbient (Address : Type) where
  now : UInt64
  instant : Nat
  nonceA : Vector UInt8 8
  nonceB : Vector UInt8 8
  condition : WinCondition
  order : VisitOrder Address

namespace RegistryStore

variable (s : RegistryStore)

/-- The entries of the digest `gossip_push_loop` sends. -/
def digestEntries (order : VisitOrder DomainName) : List DigestEntry :=
  (s.allRumors order).map fun (domain, _clientKey, token) =>
    { domain, issuedAtMillis := token.issuedAtMillis }

/-- The domains a digest makes a node ask for: those it does not hold, and those
it holds by a token issued earlier. -/
def missing (rumors : List DigestEntry) : List DomainName :=
  (rumors.filter fun entry =>
    match s.lookup entry.domain with
    | some reg => reg.token.issuedAtMillis < entry.issuedAtMillis
    | none => true).map fun entry => entry.domain

/-- The rumors a node has for the domains it is asked for. -/
def answerFor (domains : List DomainName) : List RegistrationRumor :=
  domains.filterMap fun domain =>
    ((s.lookup domain).bind fun reg => reg.rumor).map fun rumor => { rumor with domain }

end RegistryStore

namespace Node

variable {Address : Type} [DecidableEq Address] (E : Ed25519) (n : Node Address)

/-- A fresh node. -/
def new : Node Address := { store := RegistryStore.new, pendingChallenges := ∅ }

/-- The digest `gossip_push_loop` sends. -/
def digest (order : VisitOrder DomainName) : GossipMessage := .digest (n.store.digestEntries order)

/-- The first of the challenges that have waited longest. -/
def oldest (order : VisitOrder Address) : Option Address :=
  (order.visit n.pendingChallenges.keys).argmin fun address =>
    ((n.pendingChallenges.lookup address).map fun p => p.issuedAt).getD 0

/-- A challenge to `address` is put among the pending ones, and if there are too
many the oldest makes room. -/
def awaitAnswer (order : VisitOrder Address) (address : Address) (p : PendingChallenge) :
    Node Address :=
  let pending := n.pendingChallenges
  let pending :=
    if (pending.lookup address).isNone && maxPendingChallenges ≤ pending.size then
      match n.oldest order with
      | some old => AList.erase old pending
      | none => pending
    else pending
  { n with pendingChallenges := AList.insert address p pending }

/-- `handle_gossip_message`: the reply to the sender, and the node. -/
def handleGossipMessage (env : GossipAmbient Address) (sender : Address) :
    GossipMessage → Option GossipMessage × Node Address
  | .digest rumors =>
    let missing := n.store.missing rumors
    if missing.isEmpty then (none, n)
    else
      let challenge :=
        ConformanceChallenge.random env.now env.nonceA env.nonceB env.condition
      (some (.request missing challenge),
        n.awaitAnswer env.order sender
          { challenge, requested := missing, issuedAt := env.instant })
  | .request domains challenge =>
    (some (.rumors (n.store.answerFor domains) challenge.expectedAnswer), n)
  | .rumors rumors challengeAnswer =>
    match n.pendingChallenges.lookup sender with
    | none => (none, n)
    | some expected =>
      let n := { n with pendingChallenges := AList.erase sender n.pendingChallenges }
      if challengeAnswer ≠ expected.challenge.expectedAnswer then (none, n)
      else if !isValidRumorResponse expected.requested rumors then (none, n)
      else (none, { n with store := n.store.adoptAll E env.now rumors })

/-- What the maintenance task does to the pending challenges. -/
def prune (instant : Nat) : Node Address :=
  { n with pendingChallenges := n.pendingChallenges.retain fun _ p =>
      decide (instant - p.issuedAt < pendingChallengeTimeout) }

end Node

end Binda
