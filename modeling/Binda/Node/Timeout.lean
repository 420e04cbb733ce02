import Binda.Node.Challenge
import Binda.Registry.Sample

/-!
# How long a challenge waits

Nothing looks at the age of a pending challenge when its answer comes: it is only
the maintenance task that drops those which have waited ten seconds, once a minute.
`pending_iff_stored` says exactly which challenges are pending after a history of
messages and ticks, and `adopts_in_time_iff` when the time limit holds for an
answer: exactly if every challenge to its sender that is older has been removed
since, by a tick or otherwise.
-/

namespace Binda

/-- The reading of the monotonic clock at the event, if it takes one. -/
def NodeEvent.instant? {Address : Type} : NodeEvent Address → Option Nat
  | .received env _ _ => some env.instant
  | .request _ _ _ => none
  | .prune instant => some instant

namespace Node

variable {Address : Type} [DecidableEq Address]

/-- A digest of `a` arrives, and the request that is built on it is stored as `p`. -/
def Stores (E : Ed25519) (a : Address) (p : PendingChallenge) (n : Node Address)
    (e : NodeEvent Address) : Prop :=
  ∃ env entries, e = .received env a (.digest entries) ∧
    (n.handleGossipMessage E env a (.digest entries)).1 =
      some (.request p.requested p.challenge) ∧
    p.issuedAt = env.instant

/-- The challenge `p` to `a` is taken off the table: by any reply of `a`, by a new
request for it, by a tick when it has waited ten seconds, or by a request for another
address that finds the table full and no challenge older. -/
inductive Removes (E : Ed25519) (a : Address) (p : PendingChallenge) (n : Node Address) :
    NodeEvent Address → Prop
  | reply (env : GossipAmbient Address) (rumors : List RegistrationRumor)
      (answer : RegistrationToken) : Removes E a p n (.received env a (.rumors rumors answer))
  | request (env : GossipAmbient Address) (entries : List DigestEntry)
      (h : n.store.missing entries ≠ []) : Removes E a p n (.received env a (.digest entries))
  | tick (instant : Nat) (h : pendingChallengeTimeout ≤ instant - p.issuedAt) :
      Removes E a p n (.prune instant)
  | evicted (env : GossipAmbient Address) (b : Address) (entries : List DigestEntry) (hb : b ≠ a)
      (h : n.store.missing entries ≠ []) (hnew : n.pendingChallenges.lookup b = none)
      (hfull : maxPendingChallenges ≤ n.pendingChallenges.size)
      (hold : n.oldest env.order = some a) : Removes E a p n (.received env b (.digest entries))

/-- `p` has been stored for `a`, and nothing has removed it since. -/
def Stored (E : Ed25519) (events : List (NodeEvent Address)) (a : Address)
    (p : PendingChallenge) : Prop :=
  Run.Since (after E) (Stores E a p) (fun n e => ¬ Removes E a p n e) new events

variable {E : Ed25519} {n : Node Address} {events : List (NodeEvent Address)} {a b : Address}
  {p : PendingChallenge} {env : GossipAmbient Address} {entries : List DigestEntry}

/-- **What making room leaves of the others.** -/
theorem lookup_awaitAnswer_other {order : VisitOrder Address} {q : PendingChallenge}
    (h : a ≠ b) :
    (n.awaitAnswer order b q).pendingChallenges.lookup a =
      if n.pendingChallenges.lookup b = none ∧
          maxPendingChallenges ≤ n.pendingChallenges.size ∧ n.oldest order = some a
        then none else n.pendingChallenges.lookup a := by
  rw [awaitAnswer, AList.lookup_insert_ne h]
  by_cases hfull : (n.pendingChallenges.lookup b).isNone = true ∧
      maxPendingChallenges ≤ n.pendingChallenges.size
  · rw [if_pos (by simpa using hfull)]
    cases ho : n.oldest order with
    | none => rw [if_neg (by simp)]
    | some old =>
      dsimp only
      rw [Table.lookup_erase_eq]
      by_cases hold : a = old
      · rw [if_pos hold, if_pos ⟨Option.isNone_iff_eq_none.mp hfull.1, hfull.2, by rw [hold]⟩]
      · rw [if_neg hold, if_neg fun hc => hold (Option.some.inj hc.2.2).symm]
  · rw [if_neg (by simpa using hfull), if_neg]
    exact fun hc => hfull ⟨Option.isNone_iff_eq_none.mpr hc.1, hc.2.1⟩

/-- A digest is answered with a request exactly if something is missing. -/
theorem request_digest {m : GossipMessage} :
    (n.handleGossipMessage E env a (.digest entries)).1 = some m ↔
      n.store.missing entries ≠ [] ∧ m = .request (n.store.missing entries)
        (ConformanceChallenge.random env.now env.nonceA env.nonceB env.condition) := by
  by_cases hnone : n.store.missing entries = []
  · rw [handleGossipMessage_digest_nil hnone]
    exact iff_of_false (by simp) fun h => h.1 hnone
  · rw [handleGossipMessage_digest hnone, Option.some.injEq, and_iff_right hnone]
    exact eq_comm

/-- What is stored when something is missing. -/
theorem stores_digest_iff : Stores E a p n (.received env a (.digest entries)) ↔
    n.store.missing entries ≠ [] ∧ p =
      { challenge := ConformanceChallenge.random env.now env.nonceA env.nonceB env.condition
        requested := n.store.missing entries
        issuedAt := env.instant } := by
  constructor
  · rintro ⟨env', entries', he, hreq, hi⟩
    obtain ⟨rfl, _, hm⟩ := NodeEvent.received.inj he
    obtain rfl := GossipMessage.digest.inj hm
    obtain ⟨hsome, hm⟩ := request_digest.mp hreq
    obtain ⟨hr, hc⟩ := GossipMessage.request.inj hm
    refine ⟨hsome, ?_⟩
    cases p
    rw [PendingChallenge.mk.injEq]
    exact ⟨hc, hr, hi⟩
  · rintro ⟨hsome, rfl⟩
    exact ⟨env, entries, rfl, request_digest.mpr ⟨hsome, rfl⟩, rfl⟩

/-- Only a digest of `a` stores a challenge to it. -/
theorem not_stores_of_sender {message : GossipMessage} (h : b ≠ a) :
    ¬ Stores E a p n (.received env b message) := by
  rintro ⟨_, _, he, _⟩
  exact h (NodeEvent.received.inj he).2.1

theorem pending_digest_iff :
    (n.after E (.received env b (.digest entries))).pendingChallenges.lookup a = some p ↔
      Stores E a p n (.received env b (.digest entries)) ∨
        n.pendingChallenges.lookup a = some p ∧
          ¬ Removes E a p n (.received env b (.digest entries)) := by
  by_cases hnone : n.store.missing entries = []
  · have hsame : n.after E (.received env b (.digest entries)) = n := by
      rw [after, handleGossipMessage_digest_nil hnone]
    have hstores : ¬ Stores E a p n (.received env b (.digest entries)) := by
      by_cases hab : b = a
      · rw [hab, stores_digest_iff]
        exact fun h => h.1 hnone
      · exact not_stores_of_sender hab
    have hremoves : ¬ Removes E a p n (.received env b (.digest entries)) := by
      intro h
      cases h with
      | request _ _ h => exact h hnone
      | evicted _ _ _ _ h => exact h hnone
    rw [hsame, or_iff_right hstores, and_iff_left hremoves]
  · rw [after, handleGossipMessage_digest hnone]
    dsimp only
    by_cases hab : a = b
    · -- the new request takes the place of the old
      subst hab
      have hremoves : Removes E a p n (.received env a (.digest entries)) :=
        .request env entries hnone
      rw [lookup_awaitAnswer, Option.some.injEq, stores_digest_iff,
        or_iff_left fun h => h.2 hremoves, and_iff_right hnone, eq_comm]
    · rw [or_iff_right (not_stores_of_sender (Ne.symm hab)), lookup_awaitAnswer_other hab]
      have hremoves : Removes E a p n (.received env b (.digest entries)) ↔
          n.pendingChallenges.lookup b = none ∧
            maxPendingChallenges ≤ n.pendingChallenges.size ∧ n.oldest env.order = some a := by
        constructor
        · intro h
          cases h with
          | request => exact absurd rfl hab
          | evicted _ _ _ _ _ hnew hfull hold => exact ⟨hnew, hfull, hold⟩
        · rintro ⟨hnew, hfull, hold⟩
          exact .evicted env b entries (Ne.symm hab) hnone hnew hfull hold
      rw [hremoves]
      split
      · rename_i hc
        exact iff_of_false (by simp) fun h => h.2 hc
      · rename_i hc
        exact (and_iff_left hc).symm

/-- **What is pending after an event** was stored on it, or was pending and is not
removed. -/
theorem pending_after_iff {e : NodeEvent Address} :
    (n.after E e).pendingChallenges.lookup a = some p ↔
      Stores E a p n e ∨ n.pendingChallenges.lookup a = some p ∧ ¬ Removes E a p n e := by
  cases e with
  | request env request v =>
    refine (or_iff_right ?_).symm.trans (or_congr_right (and_iff_left ?_).symm)
    · rintro ⟨_, _, he, _⟩
      cases he
    · intro h
      cases h
  | prune instant =>
    have hstores : ¬ Stores E a p n (.prune instant) := by
      rintro ⟨_, _, he, _⟩
      cases he
    have hremoves : Removes E a p n (.prune instant) ↔
        pendingChallengeTimeout ≤ instant - p.issuedAt := by
      constructor
      · intro h
        cases h with
        | tick _ h => exact h
      · exact .tick instant
    rw [or_iff_right hstores, hremoves, after, prune, Table.lookup_retain,
      Option.filter_eq_some_iff, decide_eq_true_eq, not_le]
  | received env b message =>
    rcases message with entries | ⟨domains, challenge⟩ | ⟨rumors, answer⟩
    · exact pending_digest_iff
    · refine (or_iff_right ?_).symm.trans (or_congr_right (and_iff_left ?_).symm)
      · rintro ⟨_, _, he, _⟩
        cases (NodeEvent.received.inj he).2.2
      · intro h
        cases h
    · have hstores : ¬ Stores E a p n (.received env b (.rumors rumors answer)) := by
        rintro ⟨_, _, he, _⟩
        cases (NodeEvent.received.inj he).2.2
      have hremoves : Removes E a p n (.received env b (.rumors rumors answer)) ↔ a = b := by
        constructor
        · intro h
          cases h
          rfl
        · rintro rfl
          exact .reply env rumors answer
      rw [or_iff_right hstores, hremoves, after, lookup_pending_reply]
      split
      · rename_i hab
        exact iff_of_false (by simp) fun h => h.2 hab
      · rename_i hab
        exact (and_iff_left hab).symm

/-- **What is pending is what was stored and not removed since.** -/
theorem pending_iff_stored : ∀ {events : List (NodeEvent Address)},
    (past E events).pendingChallenges.lookup a = some p ↔ Stored E events a p := by
  intro events
  induction events using List.reverseRecOn with
  | nil => exact iff_of_false (by simp [past, new]) Run.Since.not_nil
  | append_singleton events e ih =>
    rw [past_concat, pending_after_iff, Stored, Run.Since.concat_iff]
    exact or_congr_right (and_congr_left fun _ => ih)

/-! ### The time limit -/

/-- Whatever reply of `a` comes now, if it leads to an adoption then the challenge it
answers has waited no longer than the time limit. -/
def AdoptsInTime (n : Node Address) (a : Address) (instant : Nat) : Prop :=
  ∀ rumors answer p, n.pendingChallenges.lookup a = some p →
    n.handed a (.rumors rumors answer) ≠ [] → instant ≤ p.issuedAt + pendingChallengeTimeout

/-- A challenge is stored with the domains that it asks for. -/
theorem requested_ne_nil (h : Stored E events a p) : p.requested ≠ [] := by
  obtain ⟨l, e, m, _, ⟨env, entries, _, hreq, _⟩, _⟩ := h
  obtain ⟨hsome, hm⟩ := request_digest.mp hreq
  rw [(GossipMessage.request.inj hm).1]
  exact hsome

/-- A pending challenge lets a correct and valid reply in. -/
theorem handed_of_pending {rumors : List RegistrationRumor}
    (hp : n.pendingChallenges.lookup a = some p)
    (hvalid : isValidRumorResponse p.requested rumors = true) :
    n.handed a (.rumors rumors p.challenge.expectedAnswer) = rumors := by
  rw [handed, hp]
  simp only [ne_eq, not_true_eq_false, if_false, hvalid, Bool.not_true, Bool.false_eq_true]

/-- Without one nothing is let in. -/
theorem handed_of_none {rumors : List RegistrationRumor} {answer : RegistrationToken}
    (hp : n.pendingChallenges.lookup a = none) : n.handed a (.rumors rumors answer) = [] := by
  rw [handed, hp]

/-- **When the time limit holds**: after any history of messages and ticks, no reply
of `a` is adopted late if and only if every challenge to `a` that was stored longer
ago has been removed since. -/
theorem adopts_in_time_iff (E : Ed25519) (events : List (NodeEvent Address)) (a : Address)
    (instant : Nat) :
    AdoptsInTime (past E events) a instant ↔
      ∀ p, Stored E events a p → instant ≤ p.issuedAt + pendingChallengeTimeout := by
  constructor
  · intro h p hp
    obtain ⟨d, hd⟩ := List.exists_mem_of_ne_nil _ (requested_ne_nil hp)
    have hpending := pending_iff_stored.mpr hp
    -- any lease of a requested domain will do
    have hvalid : isValidRumorResponse p.requested
        [(sampleClient 0 "").lease d (sampleToken 0 0) 0 0] = true := by
      rw [isValidRumorResponse_iff]
      exact ⟨fun r hr => List.mem_singleton.mp hr ▸ hd, List.nodup_singleton _⟩
    have hhanded := handed_of_pending hpending hvalid
    exact h _ _ p hpending (hhanded ▸ List.cons_ne_nil _ _)
  · exact fun h _ _ p hp _ => h p (pending_iff_stored.mp hp)

/-- What a message takes from outside at a reading of both clocks. -/
def gossipAt (now : UInt64) (instant : Nat) : GossipAmbient Bool :=
  { sampleGossip now with instant }

/-- The node starts, ticks at once, and a second later asks for a name. -/
def asking : List (NodeEvent Bool) :=
  [.prune 0,
    .received (gossipAt 1000 1000000000) true (.digest [⟨⟨"name"⟩, 1000⟩])]

/-- The answer to its challenge. -/
def lateAnswer : RegistrationToken :=
  (ConformanceChallenge.random 1000 (Vector.replicate 8 0) (Vector.replicate 8 1)
    .higherWins).expectedAnswer

/-- Fifty seconds after the start, and before the next tick, the challenge is still
pending, and the lease is handed over and adopted. -/
theorem asking_adopts_late :
    ((past Ed25519.sample asking).pendingChallenges.lookup true).map PendingChallenge.issuedAt =
        some 1000000000 ∧
      ((past Ed25519.sample asking).handed true (.rumors [nameLease 49000] lateAnswer)).isEmpty =
        false ∧
      (((past Ed25519.sample asking).handleGossipMessage Ed25519.sample (gossipAt 50000 50000000000)
        true (.rumors [nameLease 49000] lateAnswer)).2.store.lookup ⟨"name"⟩).isSome = true := by
  decide +kernel

/-- **A challenge does not expire between two ticks.** -/
theorem challenge_outlives_timeout :
    ¬ ∀ (E : Ed25519) (events : List (NodeEvent Bool)) (env : GossipAmbient Bool) (a : Bool)
        (rumors : List RegistrationRumor) (answer : RegistrationToken) (p : PendingChallenge),
      ((events ++ [NodeEvent.received env a (.rumors rumors answer)]).filterMap
        NodeEvent.instant?).Pairwise (· ≤ ·) →
      (past E events).pendingChallenges.lookup a = some p →
      p.issuedAt + pendingChallengeTimeout < env.instant →
      (past E events).handed a (.rumors rumors answer) = [] := by
  intro h
  obtain ⟨hissued, hhanded, _⟩ := asking_adopts_late
  obtain ⟨p, hp, hi⟩ := Option.map_eq_some_iff.mp hissued
  have hnil := h Ed25519.sample asking (gossipAt 50000 50000000000) true [nameLease 49000] lateAnswer p
    (by decide) hp (by rw [hi]; decide)
  rw [hnil] at hhanded
  cases hhanded

end Node

end Binda
