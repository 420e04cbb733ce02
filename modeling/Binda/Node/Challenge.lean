import Binda.Node.Exchange

/-!
# Whose rumors are adopted

A node adopts rumors only in answer to its own requests.  The table of pending
challenges is all it remembers of them, and it is overwritten, emptied by
replies, by evictions and by pruning; `asked_of_pending` ties it to the history:
what is pending for an address is the latest request built for it, and nothing
has answered that request since (`Asked`).

`adoption_in_own_exchange` draws the conclusion for every history of messages
from any addresses, requests of clients and prunings, in any order.
-/

namespace Binda

/-- What happens to a node: a message is received, a client's request is handled,
or the pending challenges are pruned. -/
inductive NodeEvent (Address : Type)
  | received (env : GossipAmbient Address) (sender : Address) (message : GossipMessage)
  | request (env : Ambient) (request : ClientRequest) (rdnsVerified : Bool)
  | prune (instant : Nat)

namespace Node

variable {Address : Type} [DecidableEq Address]

/-- The node after an event. -/
def after (E : Ed25519) (n : Node Address) : NodeEvent Address → Node Address
  | .received env sender message => (n.handleGossipMessage E env sender message).2
  | .request env request rdnsVerified =>
    { n with store := (n.store.handleClientRequest E env request rdnsVerified).2 }
  | .prune instant => n.prune instant

/-- A node with a history. -/
def past (E : Ed25519) (events : List (NodeEvent Address)) : Node Address :=
  events.foldl (after E) new

/-- The rumors of a message that are handed to `adopt_rumor`. -/
def handed (n : Node Address) (sender : Address) : GossipMessage → List RegistrationRumor
  | .rumors rumors challengeAnswer =>
    match n.pendingChallenges.lookup sender with
    | none => []
    | some expected =>
      if challengeAnswer ≠ expected.challenge.expectedAnswer then []
      else if !isValidRumorResponse expected.requested rumors then []
      else rumors
  | _ => []

/-- A digest of `a` arrives, and the request for `domains` that is built on it carries
the challenge. -/
def Asks (E : Ed25519) (a : Address) (domains : List DomainName)
    (challenge : ConformanceChallenge) (n : Node Address) (e : NodeEvent Address) : Prop :=
  ∃ env entries, e = .received env a (.digest entries) ∧
    (n.handleGossipMessage E env a (.digest entries)).1 = some (.request domains challenge) ∧
    ∀ d ∈ domains, ∃ entry ∈ entries, entry.domain = d

/-- The event is no reply of `a`, and no request is built for `a` on it. -/
def Quiet (E : Ed25519) (a : Address) (n : Node Address) (e : NodeEvent Address) : Prop :=
  ∀ env message, e = .received env a message →
    (∀ rumors answer, message ≠ .rumors rumors answer) ∧
      ∀ domains challenge,
        (n.handleGossipMessage E env a message).1 ≠ some (.request domains challenge)

/-- The latest request built for `a` asks for `domains` with the challenge, and `a` has
not replied since. -/
def Asked (E : Ed25519) (events : List (NodeEvent Address)) (a : Address)
    (domains : List DomainName) (challenge : ConformanceChallenge) : Prop :=
  Run.Since (after E) (Asks E a domains challenge) (Quiet E a) new events

variable {E : Ed25519} {n : Node Address} {events : List (NodeEvent Address)} {a b : Address}
  {domains : List DomainName} {challenge : ConformanceChallenge} {e : NodeEvent Address}
  {p : PendingChallenge} {env : GossipAmbient Address}

theorem past_concat : past E (events ++ [e]) = (past E events).after E e := by
  rw [past, List.foldl_append]
  rfl

/-! ### The pending challenges -/

/-- Making room for a challenge forgets at most others. -/
theorem lookup_awaitAnswer_of_ne {order : VisitOrder Address} {q : PendingChallenge} (h : a ≠ b)
    (hp : (n.awaitAnswer order b q).pendingChallenges.lookup a = some p) :
    n.pendingChallenges.lookup a = some p := by
  rw [awaitAnswer, AList.lookup_insert_ne h] at hp
  split at hp
  · split at hp
    · rw [Table.lookup_erase_eq] at hp
      split at hp
      · cases hp
      · exact hp
    · exact hp
  · exact hp

/-- A full table has an oldest challenge. -/
theorem exists_oldest (order : VisitOrder Address) (h : 0 < n.pendingChallenges.size) :
    ∃ old ∈ n.pendingChallenges.keys, n.oldest order = some old := by
  have hperm := order.perm n.pendingChallenges.keys
  cases ho : n.oldest order with
  | none =>
    have hnil := List.argmin_eq_none.mp ho
    rw [hnil] at hperm
    rw [Table.size_eq_keys_length, hperm.symm.eq_nil] at h
    cases h
  | some old =>
    have hmem := List.argmin_mem ho
    exact ⟨old, hperm.mem_iff.mp hmem, rfl⟩

/-- **There are never more pending challenges than the table may hold.** -/
theorem size_awaitAnswer_le (order : VisitOrder Address) (q : PendingChallenge)
    (h : n.pendingChallenges.size ≤ maxPendingChallenges) :
    (n.awaitAnswer order b q).pendingChallenges.size ≤ maxPendingChallenges := by
  rw [awaitAnswer]
  split
  · rename_i hfull
    rw [Bool.and_eq_true, decide_eq_true_eq] at hfull
    have hpos : 0 < n.pendingChallenges.size := lt_of_lt_of_le (by decide) hfull.2
    obtain ⟨old, hold, ho⟩ := exists_oldest order hpos
    rw [ho]
    have herase := Table.size_erase_of_mem hold
    have hinsert := Table.size_insert_le b q (AList.erase old n.pendingChallenges)
    dsimp only
    omega
  · rename_i hfree
    rw [Bool.and_eq_true, decide_eq_true_eq, not_and_or] at hfree
    rcases hfree with hb | hroom
    · have hmem : b ∈ n.pendingChallenges.keys := by
        rw [Bool.not_eq_true, Option.isNone_eq_false_iff] at hb
        exact AList.mem_keys.mp (AList.lookup_isSome.mp hb)
      rw [Table.size_insert_of_mem hmem]
      exact h
    · have hinsert := Table.size_insert_le b q n.pendingChallenges
      dsimp only
      omega

/-- A reply ends the exchange with its sender, whatever is in it. -/
theorem pendingChallenges_reply {rumors : List RegistrationRumor} {answer : RegistrationToken} :
    (n.handleGossipMessage E env b (.rumors rumors answer)).2.pendingChallenges =
      AList.erase b n.pendingChallenges := by
  rw [handleGossipMessage]
  cases hp : n.pendingChallenges.lookup b with
  | none => exact (Table.erase_of_lookup_eq_none hp).symm
  | some expected =>
    dsimp only
    split
    · rfl
    · split <;> rfl

theorem size_after_le (h : n.pendingChallenges.size ≤ maxPendingChallenges) :
    (n.after E e).pendingChallenges.size ≤ maxPendingChallenges := by
  cases e with
  | request env request v => exact h
  | prune instant => exact (Table.size_retain_le _ _).trans h
  | received env sender message =>
    rw [after]
    cases message with
    | digest entries =>
      by_cases hnone : n.store.missing entries = []
      · rw [handleGossipMessage_digest_nil hnone]
        exact h
      · rw [handleGossipMessage_digest hnone]
        exact size_awaitAnswer_le _ _ h
    | request domains challenge => exact h
    | rumors rumors answer =>
      rw [pendingChallenges_reply]
      exact (Table.size_erase_le _ _).trans h

theorem size_pending_le (events : List (NodeEvent Address)) :
    (past E events).pendingChallenges.size ≤ maxPendingChallenges := by
  induction events using List.reverseRecOn with
  | nil => exact Nat.zero_le _
  | append_singleton events e ih =>
    rw [past_concat]
    exact size_after_le ih

/-! ### The history of a pending challenge -/

theorem quiet_of_ne {sender : Address} {message : GossipMessage} (h : a ≠ sender) :
    Quiet E a n (.received env sender message) := by
  rintro env' message' he
  exact absurd (NodeEvent.received.inj he).2.1.symm h

/-- A reply is not answered. -/
theorem handleGossipMessage_rumors_fst {rumors : List RegistrationRumor}
    {answer : RegistrationToken} :
    (n.handleGossipMessage E env a (.rumors rumors answer)).1 = none := by
  rw [handleGossipMessage]
  split
  · rfl
  · dsimp only
    split
    · rfl
    · split <;> rfl

theorem lookup_pending_reply {rumors : List RegistrationRumor} {answer : RegistrationToken} :
    (n.handleGossipMessage E env b (.rumors rumors answer)).2.pendingChallenges.lookup a =
      if a = b then none else n.pendingChallenges.lookup a := by
  rw [pendingChallenges_reply, Table.lookup_erase_eq]

/-- What is pending after an event was pending before, or is asked for on it. -/
theorem pending_after (h : (n.after E e).pendingChallenges.lookup a = some p) :
    (n.pendingChallenges.lookup a = some p ∧ Quiet E a n e) ∨
      Asks E a p.requested p.challenge n e := by
  cases e with
  | request env request v => exact Or.inl ⟨h, fun _ _ he => by cases he⟩
  | prune instant =>
    rw [after, prune, Table.lookup_retain, Option.filter_eq_some_iff] at h
    exact Or.inl ⟨h.1, fun _ _ he => by cases he⟩
  | received env sender message =>
    cases message with
    | digest entries =>
      rw [after] at h
      by_cases hnone : n.store.missing entries = []
      · rw [handleGossipMessage_digest_nil hnone] at h
        refine Or.inl ⟨h, ?_⟩
        intro env' message' he
        obtain ⟨rfl, rfl, rfl⟩ := NodeEvent.received.inj he
        refine ⟨fun _ _ hm => (by cases hm), fun _ _ hreq => ?_⟩
        rw [handleGossipMessage_digest_nil hnone] at hreq
        cases hreq
      · rw [handleGossipMessage_digest hnone] at h
        by_cases has : a = sender
        · subst has
          rw [lookup_awaitAnswer] at h
          obtain rfl := Option.some.inj h
          refine Or.inr ⟨env, entries, rfl, ?_, fun d hd => ?_⟩
          · rw [handleGossipMessage_digest hnone]
          · obtain ⟨entry, hentry, hdom, _⟩ := RegistryStore.mem_missing.mp hd
            exact ⟨entry, hentry, hdom⟩
        · exact Or.inl ⟨lookup_awaitAnswer_of_ne has h, quiet_of_ne has⟩
    | request domains challenge =>
      refine Or.inl ⟨h, ?_⟩
      intro env' message' he
      obtain ⟨rfl, rfl, rfl⟩ := NodeEvent.received.inj he
      exact ⟨fun _ _ hm => (by cases hm), fun _ _ hreq => (by cases hreq)⟩
    | rumors rumors answer =>
      rw [after, lookup_pending_reply] at h
      split at h
      · cases h
      · rename_i has
        exact Or.inl ⟨h, quiet_of_ne has⟩

/-- **What is pending for an address is the latest request built for it.** -/
theorem asked_of_pending : ∀ {events : List (NodeEvent Address)},
    (past E events).pendingChallenges.lookup a = some p →
      Asked E events a p.requested p.challenge := by
  intro events
  induction events using List.reverseRecOn with
  | nil => intro h; cases h
  | append_singleton events e ih =>
    intro h
    rw [past_concat] at h
    rcases pending_after h with ⟨hp, hquiet⟩ | hasks
    · exact (ih hp).concat hquiet
    · exact Run.Since.last hasks

/-! ### What is adopted -/

theorem mem_handed {message : GossipMessage} {r : RegistrationRumor}
    (h : r ∈ n.handed a message) :
    ∃ p rumors, n.pendingChallenges.lookup a = some p ∧
      message = .rumors rumors p.challenge.expectedAnswer ∧ n.handed a message = rumors ∧
      r.domain ∈ p.requested ∧ (rumors.map RegistrationRumor.domain).Nodup := by
  rcases message with _ | _ | ⟨rumors, answer⟩
  · cases h
  · cases h
  cases hp : n.pendingChallenges.lookup a with
  | none =>
    rw [handed, hp] at h
    cases h
  | some p =>
    have heq : n.handed a (.rumors rumors answer) =
        if answer ≠ p.challenge.expectedAnswer then []
        else if !isValidRumorResponse p.requested rumors then []
        else rumors := by
      rw [handed, hp]
    rw [heq] at h
    split at h
    · cases h
    rename_i hanswer
    split at h
    · cases h
    rename_i hvalid
    rw [if_neg hanswer, if_neg hvalid] at heq
    rw [Bool.not_eq_true', Bool.not_eq_false, isValidRumorResponse_iff] at hvalid
    rw [not_not] at hanswer
    exact ⟨p, rumors, rfl, hanswer ▸ rfl, heq, hvalid.1 r h, hvalid.2⟩

/-- The store adopts what is handed to it, and nothing else. -/
theorem store_handleGossipMessage (message : GossipMessage) :
    (n.handleGossipMessage E env a message).2.store =
      n.store.adoptAll E env.now (n.handed a message) := by
  rcases message with entries | ⟨domains, challenge⟩ | ⟨rumors, answer⟩
  · rw [handleGossipMessage]
    split <;> rfl
  · rfl
  · rw [handleGossipMessage, handed]
    cases n.pendingChallenges.lookup a with
    | none => rfl
    | some expected =>
      dsimp only
      split
      · rfl
      · split <;> rfl

/-- **Rumors are adopted only in an exchange that the node started.**  After any
history a message has the store adopt the rumors that are handed to it, no domain
twice; each of them came in a reply, with the answer that the latest request built
for the sender expects, names a domain of that request, and is in the first reply
since. -/
theorem adoption_in_own_exchange (E : Ed25519) (events : List (NodeEvent Address))
    (env : GossipAmbient Address) (a : Address) (message : GossipMessage) :
    ((past E events).handleGossipMessage E env a message).2.store =
        (past E events).store.adoptAll E env.now ((past E events).handed a message) ∧
      (((past E events).handed a message).map RegistrationRumor.domain).Nodup ∧
      (∀ r ∈ (past E events).handed a message, ∃ rumors domains challenge,
        message = .rumors rumors challenge.expectedAnswer ∧ r ∈ rumors ∧ r.domain ∈ domains ∧
          Asked E events a domains challenge) ∧
      (past E events).pendingChallenges.size ≤ maxPendingChallenges ∧
      (past E events).pendingChallenges.keys.Nodup := by
  refine ⟨store_handleGossipMessage message, ?_, fun r hr => ?_, size_pending_le events,
    AList.keys_nodup _⟩
  · cases hh : (past E events).handed a message with
    | nil => exact List.nodup_nil
    | cons r l =>
      obtain ⟨_, rumors, _, _, heq, _, hnd⟩ :=
        mem_handed (n := past E events) (hh ▸ List.mem_cons_self : r ∈ _)
      rw [← hh, heq]
      exact hnd
  · obtain ⟨p, rumors, hp, hmsg, heq, hdom, _⟩ := mem_handed hr
    exact ⟨rumors, p.requested, p.challenge, hmsg, heq ▸ hr, hdom, asked_of_pending hp⟩

end Node

end Binda
