import Binda.Core.Rumor

/-!
# Gossip messages

`gossip.rs`: the three messages of an anti-entropy exchange, the challenge that
travels with a request, and the checks a message has to pass.
-/

namespace Binda

/-- `ConformanceChallenge`. -/
structure ConformanceChallenge where
  tokenA : RegistrationToken
  tokenB : RegistrationToken
  condition : WinCondition
  deriving DecidableEq

namespace ConformanceChallenge

/-- `ConformanceChallenge::random`; the nonces and the condition are what the
random generator yields. -/
def random (issuedAtMillis : UInt64) (nonceA nonceB : Vector UInt8 8) (condition : WinCondition) :
    ConformanceChallenge :=
  { tokenA := RegistrationToken.issue issuedAtMillis nonceA
    tokenB := RegistrationToken.issue issuedAtMillis nonceB
    condition }

/-- `ConformanceChallenge::expected_answer`. -/
def expectedAnswer (c : ConformanceChallenge) : RegistrationToken :=
  resolve c.condition c.tokenA c.tokenB

end ConformanceChallenge

/-- `DigestEntry`. -/
structure DigestEntry where
  domain : DomainName
  issuedAtMillis : UInt64
  deriving DecidableEq

/-- `GossipMessage`. -/
inductive GossipMessage
  | digest (rumors : List DigestEntry)
  | request (domains : List DomainName) (challenge : ConformanceChallenge)
  | rumors (rumors : List RegistrationRumor) (challengeAnswer : RegistrationToken)

/-- `MAX_DIGEST_ENTRIES`. -/
def maxDigestEntries : Nat := 4096

/-- `MAX_REQUEST_ENTRIES`. -/
def maxRequestEntries : Nat := 4096

/-- Every domain is new to the set of those before it. -/
def insertsAll (seen : List DomainName) : List DomainName → Bool
  | [] => true
  | domain :: domains => !seen.contains domain && insertsAll (domain :: seen) domains

/-- `unique_domains`. -/
def uniqueDomains (domains : List DomainName) : Bool := insertsAll [] domains

/-- `is_well_formed`. -/
def isWellFormed : GossipMessage → Bool
  | .digest rumors =>
    decide (rumors.length ≤ maxDigestEntries) && uniqueDomains (rumors.map fun r => r.domain)
  | .request domains _ =>
    decide (domains.length ≤ maxRequestEntries) && uniqueDomains domains
  | .rumors rumors _ =>
    decide (rumors.length ≤ maxDigestEntries) && uniqueDomains (rumors.map fun r => r.domain)

/-- `is_valid_rumor_response`. -/
def isValidRumorResponse (requested : List DomainName) (rumors : List RegistrationRumor) : Bool :=
  (rumors.map fun r => r.domain).all requested.contains &&
    uniqueDomains (rumors.map fun r => r.domain)

theorem insertsAll_iff {domains : List DomainName} : ∀ {seen : List DomainName},
    insertsAll seen domains = true ↔ domains.Nodup ∧ ∀ d ∈ domains, d ∉ seen := by
  induction domains with
  | nil => simp [insertsAll]
  | cons d domains ih =>
    intro seen
    rw [insertsAll, Bool.and_eq_true, Bool.not_eq_true', List.contains_eq_mem,
      decide_eq_false_iff_not,
      ih, List.nodup_cons]
    constructor
    · rintro ⟨hd, hn, hs⟩
      refine ⟨⟨fun hin => hs d hin List.mem_cons_self, hn⟩, fun x hx => ?_⟩
      rcases List.mem_cons.mp hx with rfl | hx
      · exact hd
      · exact fun hin => hs x hx (List.mem_cons_of_mem d hin)
    · rintro ⟨⟨hnot, hn⟩, hs⟩
      refine ⟨hs d List.mem_cons_self, hn, fun x hx hin => ?_⟩
      rcases List.mem_cons.mp hin with rfl | hin
      · exact hnot hx
      · exact hs x (List.mem_cons_of_mem d hx) hin

/-- **`uniqueDomains` finds every repetition.** -/
theorem uniqueDomains_iff {domains : List DomainName} :
    uniqueDomains domains = true ↔ domains.Nodup := by
  rw [uniqueDomains, insertsAll_iff]
  simp

/-- A response is valid when it answers requested domains, each at most once. -/
theorem isValidRumorResponse_iff {requested : List DomainName} {rumors : List RegistrationRumor} :
    isValidRumorResponse requested rumors = true ↔
      (∀ r ∈ rumors, r.domain ∈ requested) ∧ (rumors.map fun r => r.domain).Nodup := by
  rw [isValidRumorResponse, Bool.and_eq_true, uniqueDomains_iff, List.all_map, List.all_eq_true]
  simp

end Binda
