import Binda.Node.Node
import Binda.Registry.Adoption

/-!
# One complete exchange

`exchange` is an anti-entropy round nothing disturbs: one node's digest is
handled by its peer, the peer's request by the node, and the reply by the peer.
`exchange_eq` says what comes of it.  The node that pushed is as it was, and the
peer has adopted what was `offered`: the node's rumors for the domains that the
peer does not hold, or holds by a token issued earlier (`mem_offered`).
-/

namespace Binda

namespace RegistryStore

variable {a b : RegistryStore} {order : VisitOrder DomainName} {d : DomainName}
  {r : RegistrationRumor} {E : Ed25519}

/-- What `a` sends `b` in the end, having pushed its digest. -/
def offered (order : VisitOrder DomainName) (a b : RegistryStore) : List RegistrationRumor :=
  a.answerFor (b.missing (a.digestEntries order))

/-- `b` asks for a domain announced with the issue time `t`. -/
def Wants (b : RegistryStore) (d : DomainName) (t : UInt64) : Prop :=
  ∀ g, b.lookup d = some g → g.token.issuedAtMillis < t

theorem mem_digestEntries {entry : DigestEntry} :
    entry ∈ a.digestEntries order ↔
      ∃ g, a.lookup entry.domain = some g ∧ g.token.issuedAtMillis = entry.issuedAtMillis := by
  rw [digestEntries, allRumors, List.map_filterMap, List.mem_filterMap]
  constructor
  · rintro ⟨d, _, h⟩
    rw [Option.map_map, Option.map_eq_some_iff] at h
    obtain ⟨g, hg, rfl⟩ := h
    exact ⟨g, hg, rfl⟩
  · rintro ⟨g, hg, ht⟩
    have hl : a.registrations.lookup entry.domain = some g := hg
    have hkey : entry.domain ∈ a.registrations.keys := Table.mem_keys_iff.mpr ⟨g, hl⟩
    refine ⟨entry.domain, (order.perm _).mem_iff.mpr hkey, ?_⟩
    rw [hl, Option.map_some, Option.map_some]
    exact congrArg (fun t => some { entry with issuedAtMillis := t }) ht

/-- A digest names every domain once. -/
theorem nodup_digestEntries : ((a.digestEntries order).map DigestEntry.domain).Nodup := by
  have hkeys : (order.visit a.registrations.keys).Nodup :=
    (order.perm _).nodup_iff.mpr a.registrations.keys_nodup
  rw [digestEntries, allRumors, List.map_filterMap, List.map_filterMap]
  refine hkeys.filterMap fun d d' x hx hx' => ?_
  rw [Option.mem_def, Option.map_map, Option.map_map, Option.map_eq_some_iff] at hx hx'
  obtain ⟨_, _, rfl⟩ := hx
  obtain ⟨_, _, he⟩ := hx'
  exact he.symm

theorem mem_missing {entries : List DigestEntry} :
    d ∈ b.missing entries ↔
      ∃ entry ∈ entries, entry.domain = d ∧ b.Wants d entry.issuedAtMillis := by
  rw [missing, List.mem_map]
  refine exists_congr fun entry => ?_
  rw [List.mem_filter, and_assoc]
  refine and_congr_right fun _ => ?_
  rw [and_comm]
  refine and_congr_right fun hd => ?_
  rw [Wants, hd]
  cases b.lookup d <;> simp

theorem nodup_missing : (b.missing (a.digestEntries order)).Nodup :=
  nodup_digestEntries.sublist (List.filter_sublist.map _)

/-- **What a node answers**: the leases it has for the domains it is asked for. -/
theorem mem_answerFor {domains : List DomainName} (ha : Consistent E a) :
    r ∈ a.answerFor domains ↔
      r.domain ∈ domains ∧ ∃ g, a.lookup r.domain = some g ∧ g.rumor = some r := by
  rw [answerFor, List.mem_filterMap]
  constructor
  · rintro ⟨d, hd, hr⟩
    obtain ⟨r₀, hr₀, rfl⟩ := Option.map_eq_some_iff.mp hr
    obtain ⟨g, hg, hgr⟩ := Option.bind_eq_some_iff.mp hr₀
    -- the rumor of a registration is about its domain
    have hdom : r₀.domain = d := (ha.leased _ g r₀ hg hgr not_false).domain
    refine ⟨hd, g, hg, ?_⟩
    rw [hgr, ← hdom]
  · rintro ⟨hd, g, hg, hgr⟩
    refine ⟨r.domain, hd, ?_⟩
    rw [hg, Option.bind_some, hgr, Option.map_some]

/-- **What is offered**: the rumor of every domain the peer wants. -/
theorem mem_offered (ha : Consistent E a) :
    r ∈ offered order a b ↔
      ∃ g, a.lookup r.domain = some g ∧ g.rumor = some r ∧
        b.Wants r.domain g.token.issuedAtMillis := by
  rw [offered, mem_answerFor ha, mem_missing]
  constructor
  · rintro ⟨⟨entry, he, hd, hw⟩, g, hg, hgr⟩
    obtain ⟨g', hg', ht⟩ := mem_digestEntries.mp he
    rw [hd, hg] at hg'
    obtain rfl := Option.some.inj hg'
    exact ⟨g, hg, hgr, ht ▸ hw⟩
  · rintro ⟨g, hg, hgr, hw⟩
    exact ⟨⟨⟨r.domain, g.token.issuedAtMillis⟩, mem_digestEntries.mpr ⟨g, hg, rfl⟩, rfl, hw⟩, g, hg,
      hgr⟩

theorem map_domain_answerFor {domains : List DomainName} :
    ((a.answerFor domains).map RegistrationRumor.domain).Sublist domains := by
  induction domains with
  | nil => exact List.Sublist.refl _
  | cons d domains ih =>
    rw [answerFor, List.filterMap_cons]
    split
    · exact ih.trans (List.sublist_cons_self d domains)
    · rename_i r hr
      obtain ⟨_, _, rfl⟩ := Option.map_eq_some_iff.mp hr
      exact ih.cons_cons d

/-- A reply names every domain once. -/
theorem nodup_offered : ((offered order a b).map RegistrationRumor.domain).Nodup :=
  nodup_missing.sublist map_domain_answerFor

/-- A node's own reply passes the check. -/
theorem isValidRumorResponse_answerFor {domains : List DomainName} (h : domains.Nodup) :
    isValidRumorResponse domains (a.answerFor domains) = true := by
  refine isValidRumorResponse_iff.mpr ⟨fun r hr => ?_, h.sublist map_domain_answerFor⟩
  exact map_domain_answerFor.subset (List.mem_map.mpr ⟨r, hr, rfl⟩)

theorem isWellFormed_request_iff {domains : List DomainName} {challenge : ConformanceChallenge} :
    isWellFormed (.request domains challenge) = true ↔
      domains.length ≤ maxRequestEntries ∧ domains.Nodup := by
  rw [isWellFormed, Bool.and_eq_true, decide_eq_true_eq, uniqueDomains_iff]

/-- The reply to a well-formed request is well formed. -/
theorem isWellFormed_answerFor {domains : List DomainName} {challenge : ConformanceChallenge}
    {answer : RegistrationToken} (h : isWellFormed (.request domains challenge) = true) :
    isWellFormed (.rumors (a.answerFor domains) answer) = true := by
  obtain ⟨hfew, hnodup⟩ := isWellFormed_request_iff.mp h
  have hsub : ((a.answerFor domains).map RegistrationRumor.domain).Sublist domains :=
    map_domain_answerFor
  have hlen : (a.answerFor domains).length ≤ domains.length := by
    simpa using hsub.length_le
  rw [isWellFormed, Bool.and_eq_true, decide_eq_true_eq, uniqueDomains_iff]
  exact ⟨hlen.trans hfew, hnodup.sublist hsub⟩

/-- The request built on a well-formed digest is well formed. -/
theorem isWellFormed_missing {entries : List DigestEntry} {challenge : ConformanceChallenge}
    (h : isWellFormed (.digest entries) = true) :
    isWellFormed (.request (b.missing entries) challenge) = true := by
  rw [isWellFormed, Bool.and_eq_true, decide_eq_true_eq, uniqueDomains_iff] at h
  have hsub : (b.missing entries).Sublist (entries.map DigestEntry.domain) :=
    List.filter_sublist.map _
  have hlen : (b.missing entries).length ≤ entries.length := by
    simpa using hsub.length_le
  exact isWellFormed_request_iff.mpr ⟨hlen.trans h.1, h.2.sublist hsub⟩

end RegistryStore

namespace Node

open RegistryStore

variable {Address : Type} [DecidableEq Address] {E : Ed25519}

/-- What a round takes from outside: the order of the registrations in the digest,
and what each of the three messages takes where it is handled. -/
structure RoundAmbient (Address : Type) where
  order : VisitOrder DomainName
  asking : GossipAmbient Address
  answering : GossipAmbient Address
  adopting : GossipAmbient Address

/-- `a` pushes its digest to `b`, and the messages that follow all arrive.  The
nodes know each other by the addresses `addrA` and `addrB`. -/
def exchange (E : Ed25519) (a b : Node Address) (addrA addrB : Address)
    (env : RoundAmbient Address) : Node Address × Node Address :=
  match b.handleGossipMessage E env.asking addrA (a.digest env.order) with
  | (none, b) => (a, b)
  | (some request, b) =>
    match a.handleGossipMessage E env.answering addrB request with
    | (none, a) => (a, b)
    | (some rumors, a) => (a, (b.handleGossipMessage E env.adopting addrA rumors).2)

@[simp] theorem store_awaitAnswer (n : Node Address) (order : VisitOrder Address)
    (address : Address) (p : PendingChallenge) : (n.awaitAnswer order address p).store = n.store :=
  rfl

theorem lookup_awaitAnswer (n : Node Address) (order : VisitOrder Address) (address : Address)
    (p : PendingChallenge) :
    (n.awaitAnswer order address p).pendingChallenges.lookup address = some p :=
  AList.lookup_insert _

/-- A digest with nothing new is left unanswered. -/
theorem handleGossipMessage_digest_nil {n : Node Address} {env : GossipAmbient Address}
    {sender : Address} {entries : List DigestEntry} (h : n.store.missing entries = []) :
    n.handleGossipMessage E env sender (.digest entries) = (none, n) := by
  rw [handleGossipMessage]
  simp only [h, List.isEmpty_nil, if_true]

/-- What is missing is asked for, and the challenge waits for an answer. -/
theorem handleGossipMessage_digest {n : Node Address} {env : GossipAmbient Address}
    {sender : Address} {entries : List DigestEntry} (h : n.store.missing entries ≠ []) :
    n.handleGossipMessage E env sender (.digest entries) =
      (some (.request (n.store.missing entries)
        (ConformanceChallenge.random env.now env.nonceA env.nonceB env.condition)),
        n.awaitAnswer env.order sender
          { challenge := ConformanceChallenge.random env.now env.nonceA env.nonceB env.condition
            requested := n.store.missing entries
            issuedAt := env.instant }) := by
  have hempty : (n.store.missing entries).isEmpty = false := by
    simpa [List.isEmpty_iff] using h
  rw [handleGossipMessage]
  simp only [hempty, Bool.false_eq_true, if_false]

/-- A correct answer to a pending challenge is adopted. -/
theorem store_handleGossipMessage_rumors {n : Node Address} {env : GossipAmbient Address}
    {sender : Address} {p : PendingChallenge} {rumors : List RegistrationRumor}
    (hp : n.pendingChallenges.lookup sender = some p)
    (hvalid : isValidRumorResponse p.requested rumors = true) :
    (n.handleGossipMessage E env sender (.rumors rumors p.challenge.expectedAnswer)).2.store =
      n.store.adoptAll E env.now rumors := by
  rw [handleGossipMessage, hp]
  simp only [ne_eq, not_true_eq_false, if_false, hvalid, Bool.not_true, Bool.false_eq_true]

/-- **What comes of an exchange.** -/
theorem exchange_eq (a b : Node Address) (addrA addrB : Address) (env : RoundAmbient Address) :
    (exchange E a b addrA addrB env).1 = a ∧
      (exchange E a b addrA addrB env).2.store =
        b.store.adoptAll E env.adopting.now (offered env.order a.store b.store) := by
  rw [exchange, digest]
  by_cases hnone : b.store.missing (a.store.digestEntries env.order) = []
  · have hoff : offered env.order a.store b.store = [] := by
      rw [offered, hnone]
      rfl
    rw [handleGossipMessage_digest_nil hnone, hoff]
    exact ⟨rfl, rfl⟩
  · rw [handleGossipMessage_digest hnone]
    refine ⟨rfl, ?_⟩
    exact store_handleGossipMessage_rumors (lookup_awaitAnswer _ _ _ _)
      (isValidRumorResponse_answerFor nodup_missing)

/-- What a message takes from outside when the clock reads `now`. -/
def sampleGossip (now : UInt64) : GossipAmbient Bool :=
  { now
    instant := 0
    nonceA := Vector.replicate 8 0
    nonceB := Vector.replicate 8 1
    condition := .higherWins
    order := VisitOrder.listed }

/-- A round in which the clocks stand at `now`. -/
def sampleRound (now : UInt64) : RoundAmbient Bool :=
  { order := VisitOrder.listed
    asking := sampleGossip now
    answering := sampleGossip now
    adopting := sampleGossip now }

end Node

end Binda
