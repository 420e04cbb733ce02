import Binda.Node.Exchange
import Binda.Registry.Sample

/-!
# The reply to a request

A node answers a request with leases that it edited after they came in: a later
probe and later records took the place of the earlier ones.  That they are
authorized all the same is an invariant of the store, and `reply_passes` puts it
together with what the reply says about the domains: a peer that asked finds
nothing wrong with it.
-/

namespace Binda

open RegistryStore

namespace Node

variable {Address : Type} [DecidableEq Address]

/-- **A reply passes the peer's checks**: it is well formed, answers the challenge,
names only requested domains, each at most once, and all its leases are
authorized. -/
theorem reply_passes (E : Ed25519) (n : Node Address) (clock : UInt64)
    (hreach : Reachable E ⟨clock, n.store⟩) (env : GossipAmbient Address) (sender : Address)
    (domains : List DomainName) (challenge : ConformanceChallenge)
    (hwell : isWellFormed (.request domains challenge) = true) :
    ∃ rumors, (n.handleGossipMessage E env sender (.request domains challenge)).1 =
        some (.rumors rumors challenge.expectedAnswer) ∧
      isWellFormed (.rumors rumors challenge.expectedAnswer) = true ∧
      isValidRumorResponse domains rumors = true ∧
      ∀ r ∈ rumors, r.isAuthorized E = true := by
  obtain ⟨_, hnodup⟩ := isWellFormed_request_iff.mp hwell
  refine ⟨n.store.answerFor domains, rfl, isWellFormed_answerFor hwell,
    isValidRumorResponse_answerFor hnodup, ?_⟩
  have hc : Consistent E n.store := consistent_of_reachable hreach
  intro r hr
  obtain ⟨_, g, hg, hgr⟩ := (mem_answerFor hc).mp hr
  exact (hc.leased _ g r hg hgr not_false).authorized

/-- A client registers a domain, probes again and sets records. -/
def publishing : List Event :=
  probedTwice 2000 ++ [(sampleClient 1 "host").setsRecords 2000 ⟨"name"⟩ [sampleRecord]]

/-- Its node. -/
def published : Node Bool :=
  { store := storeAfter Ed25519.sample publishing, pendingChallenges := ∅ }

/-- What the peer asks of it. -/
def challenged : ConformanceChallenge :=
  { tokenA := sampleToken 2000 1, tokenB := sampleToken 2000 2, condition := .higherWins }

/-- Its reply passes. -/
theorem reply_passes_published :
    ∃ rumors, (published.handleGossipMessage Ed25519.sample (sampleGossip 2000) true
        (.request [⟨"name"⟩, ⟨"other"⟩] challenged)).1 =
          some (.rumors rumors challenged.expectedAnswer) ∧
      isWellFormed (.rumors rumors challenged.expectedAnswer) = true ∧
      isValidRumorResponse [⟨"name"⟩, ⟨"other"⟩] rumors = true ∧
      ∀ r ∈ rumors, r.isAuthorized Ed25519.sample = true := by
  have hreach : Reachable Ed25519.sample ⟨clockAfter publishing, published.store⟩ := by
    unfold published
    dsimp only
    exact reachable_of_events Ed25519.sample publishing (by decide +kernel)
  have hwell : isWellFormed (.request [⟨"name"⟩, ⟨"other"⟩] challenged) = true := by
    decide +kernel
  exact reply_passes _ published _ hreach _ _ _ _ hwell

end Node

end Binda
