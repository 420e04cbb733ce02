import Binda.Node.Challenge
import Binda.Registry.Sample

/-!
# Between two locks

The tasks of `node.rs` share the store and the pending challenges, each behind a mutex of its
own.  A client's request, an answer from the store and a pruning take one lock.  A gossip
message may take both, one after the other, and let go of the first before it takes the second:
a digest reads the store and then records a challenge, and rumors take their challenge off the
table and then go into the store.  In between any other task may run.

`interleaving_is_atomic` says that this is not seen.  Whatever happens between the two locks,
there is an order of all that was done in which every message is handled at once, every
outcome is the same, and so are the store and the challenges in the end; and in that order each
task does what it does in its own order.

The order depends on the message (`Explained`).  Others who take the lock that the message has
let go of come after it, those who take the lock it still needs come before it.
-/

namespace Binda

variable {Address : Type} [DecidableEq Address]

/-! ### Atomic steps -/

/-- The tasks: gossip, the clients' listener, the maintenance, and those that read the store. -/
inductive Task
  | gossip
  | clients
  | maintenance
  | readers
  deriving DecidableEq

/-- What a task does to a node. -/
inductive Transaction (Address : Type)
  | gossip (env : GossipAmbient Address) (sender : Address) (message : GossipMessage)
  | client (env : Ambient) (request : ClientRequest) (rdnsVerified : Bool)
  | prune (instant : Nat)
  | read

/-- What comes of it: what is sent back, or the store that is read. -/
inductive Outcome
  | reply (message : Option GossipMessage)
  | response (result : Except Panic ClientResponse)
  | pruned
  | seen (store : RegistryStore)

def Transaction.task : Transaction Address → Task
  | gossip _ _ _ => .gossip
  | client _ _ _ => .clients
  | prune _ => .maintenance
  | read => .readers

namespace Node

/-- A transaction that nothing interrupts. -/
def transact (E : Ed25519) (n : Node Address) : Transaction Address → Outcome × Node Address
  | .gossip env sender message =>
    let (reply, n) := n.handleGossipMessage E env sender message
    (.reply reply, n)
  | .client env request rdnsVerified =>
    let (result, store) := n.store.handleClientRequest E env request rdnsVerified
    (.response result, { n with store })
  | .prune instant => (.pruned, n.prune instant)
  | .read => (.seen n.store, n)

/-- The transactions, one after another, lead from the one node to the other and have these
outcomes. -/
inductive Explains (E : Ed25519) : Node Address → List (Transaction Address × Outcome) →
    Node Address → Prop
  | nil (n : Node Address) : Explains E n [] n
  | cons {n n' : Node Address} {t : Transaction Address}
      {rest : List (Transaction Address × Outcome)} (h : Explains E (n.transact E t).2 rest n') :
      Explains E n ((t, (n.transact E t).1) :: rest) n'

end Node

/-! ### Critical sections -/

/-- What the gossip task holds between its two locks. -/
inductive Hand (Address : Type)
  | empty
  | asking (sender : Address) (rumors : List DigestEntry) (missing : List DomainName)
  | adopting (sender : Address) (rumors : List RegistrationRumor)
      (challengeAnswer : RegistrationToken)

/-- A node, what its gossip task holds, and what has been done, in the order in which it was
finished. -/
structure Running (Address : Type) where
  node : Node Address
  hand : Hand Address
  finished : List (Transaction Address × Outcome)

/-- One critical section. -/
inductive Section (Address : Type)
  | receive (env : GossipAmbient Address) (sender : Address) (message : GossipMessage)
  | resume (env : GossipAmbient Address)
  | client (env : Ambient) (request : ClientRequest) (rdnsVerified : Bool)
  | prune (instant : Nat)
  | read

namespace Running

/-- A fresh node. -/
def start : Running Address := { node := Node.new, hand := .empty, finished := [] }

/-- The gossip task has done with a message. -/
def finish (r : Running Address) (n : Node Address) (env : GossipAmbient Address)
    (sender : Address) (message : GossipMessage) (reply : Option GossipMessage) :
    Running Address where
  node := n
  hand := .empty
  finished := r.finished ++ [(.gossip env sender message, .reply reply)]

/-- `handle_gossip_message` up to where it lets go of its first lock. -/
def receive (r : Running Address) (env : GossipAmbient Address) (sender : Address) :
    GossipMessage → Running Address
  | .digest rumors =>
    let missing := r.node.store.missing rumors
    if missing.isEmpty then r.finish r.node env sender (.digest rumors) none
    else { r with hand := .asking sender rumors missing }
  | .request domains challenge =>
    r.finish r.node env sender (.request domains challenge)
      (some (.rumors (r.node.store.answerFor domains) challenge.expectedAnswer))
  | .rumors rumors challengeAnswer =>
    let n := { r.node with pendingChallenges := AList.erase sender r.node.pendingChallenges }
    match r.node.pendingChallenges.lookup sender with
    | none => r.finish n env sender (.rumors rumors challengeAnswer) none
    | some expected =>
      if challengeAnswer ≠ expected.challenge.expectedAnswer then
        r.finish n env sender (.rumors rumors challengeAnswer) none
      else if !isValidRumorResponse expected.requested rumors then
        r.finish n env sender (.rumors rumors challengeAnswer) none
      else { r with node := n, hand := .adopting sender rumors challengeAnswer }

/-- `handle_gossip_message` from where it takes its second lock. -/
def resume (E : Ed25519) (r : Running Address) (env : GossipAmbient Address) : Running Address :=
  match r.hand with
  | .empty => r
  | .asking sender rumors missing =>
    let challenge := ConformanceChallenge.random env.now env.nonceA env.nonceB env.condition
    r.finish (r.node.awaitAnswer env.order sender
        { challenge, requested := missing, issuedAt := env.instant }) env sender (.digest rumors)
      (some (.request missing challenge))
  | .adopting sender rumors challengeAnswer =>
    r.finish { r.node with store := r.node.store.adoptAll E env.now rumors } env sender
      (.rumors rumors challengeAnswer) none

/-- A transaction of another task. -/
def other (E : Ed25519) (r : Running Address) (t : Transaction Address) : Running Address where
  node := (r.node.transact E t).2
  hand := r.hand
  finished := r.finished ++ [(t, (r.node.transact E t).1)]

/-- One critical section runs.  The gossip task handles one message at a time. -/
def step (E : Ed25519) (r : Running Address) : Section Address → Running Address
  | .receive env sender message =>
    match r.hand with
    | .empty => r.receive env sender message
    | _ => r
  | .resume env => r.resume E env
  | .client env request rdnsVerified => r.other E (.client env request rdnsVerified)
  | .prune instant => r.other E (.prune instant)
  | .read => r.other E .read

end Running

/-! ### Orders that keep each task's own -/

/-- Each task does the same in the same order. -/
def SameOrder (l l' : List (Transaction Address × Outcome)) : Prop :=
  ∀ task, l.filter (fun p => p.1.task = task) = l'.filter fun p => p.1.task = task

section Orders

variable {before after l l' : List (Transaction Address × Outcome)}
  {x : Transaction Address × Outcome}

omit [DecidableEq Address] in
theorem SameOrder.concat (h : SameOrder l l') (x : Transaction Address × Outcome) :
    SameOrder (l ++ [x]) (l' ++ [x]) := by
  intro task
  rw [List.filter_append, List.filter_append, h task]

omit [DecidableEq Address] in
/-- What is done last may come before what other tasks have done. -/
theorem SameOrder.insert (h : SameOrder (before ++ after) l)
    (hafter : ∀ p ∈ after, p.1.task ≠ x.1.task) : SameOrder (before ++ x :: after) (l ++ [x]) := by
  intro task
  have htask := h task
  rw [List.filter_append] at htask
  rw [List.filter_append, List.filter_append, List.filter_cons, ← htask]
  by_cases hx : x.1.task = task
  · have hnone : after.filter (fun p => p.1.task = task) = [] := by
      refine List.filter_eq_nil_iff.mpr fun p hp hd => hafter p hp ?_
      rw [decide_eq_true_eq] at hd
      rw [hd, hx]
    rw [if_pos (by simpa using hx), hnone, List.append_nil, List.filter_cons,
      if_pos (by simpa using hx), List.filter_nil]
  · rw [if_neg (by simpa using hx), List.filter_cons, if_neg (by simpa using hx),
      List.filter_nil, List.append_nil]

end Orders

namespace Node

variable {E : Ed25519} {n n' n'' : Node Address} {l m : List (Transaction Address × Outcome)}

theorem Explains.append (h : Explains E n l n') (h' : Explains E n' m n'') :
    Explains E n (l ++ m) n'' := by
  induction h with
  | nil n => exact h'
  | cons _ ih => exact Explains.cons (ih h')

theorem Explains.concat (h : Explains E n l n') (t : Transaction Address) :
    Explains E n (l ++ [(t, (n'.transact E t).1)]) (n'.transact E t).2 :=
  h.append (Explains.cons (Explains.nil _))

/-! ### Transactions that take one lock -/

/-- Tasks that take the lock of the store alone. -/
def OnStore (l : List (Transaction Address × Outcome)) : Prop :=
  ∀ p ∈ l, p.1.task = .clients ∨ p.1.task = .readers

/-- Tasks that take the lock of the pending challenges alone. -/
def OnPending (l : List (Transaction Address × Outcome)) : Prop :=
  ∀ p ∈ l, p.1.task = .maintenance

/-- They leave the challenges alone and do not look at them. -/
theorem Explains.of_onStore (h : Explains E n l n') (hl : OnStore l)
    (p : Table Address PendingChallenge) :
    n'.pendingChallenges = n.pendingChallenges ∧
      Explains E { n with pendingChallenges := p } l { n' with pendingChallenges := p } := by
  induction h with
  | nil n => exact ⟨rfl, Explains.nil _⟩
  | @cons n n' t rest h ih =>
    obtain ⟨hpending, hrest⟩ := ih fun q hq => hl q (List.mem_cons_of_mem _ hq)
    have ht := hl _ List.mem_cons_self
    cases t with
    | gossip env sender message => rcases ht with ht | ht <;> cases ht
    | prune instant => rcases ht with ht | ht <;> cases ht
    | client env request v => exact ⟨hpending, Explains.cons hrest⟩
    | read => exact ⟨hpending, Explains.cons hrest⟩

/-- They leave the store alone and do not look at it. -/
theorem Explains.of_onPending (h : Explains E n l n') (hl : OnPending l) (s : RegistryStore) :
    n'.store = n.store ∧ Explains E { n with store := s } l { n' with store := s } := by
  induction h with
  | nil n => exact ⟨rfl, Explains.nil _⟩
  | @cons n n' t rest h ih =>
    obtain ⟨hstore, hrest⟩ := ih fun q hq => hl q (List.mem_cons_of_mem _ hq)
    have ht := hl _ List.mem_cons_self
    cases t with
    | prune instant => exact ⟨hstore, Explains.cons hrest⟩
    | gossip env sender message => cases ht
    | client env request v => cases ht
    | read => cases ht

end Node

/-! ### The order -/

namespace Running

open Node

variable {E : Ed25519} {r : Running Address}

/-- The rumors pass the checks against the challenge on the table. -/
def Passes (p : Table Address PendingChallenge) (sender : Address)
    (rumors : List RegistrationRumor) (challengeAnswer : RegistrationToken) : Prop :=
  ∃ expected, p.lookup sender = some expected ∧
    challengeAnswer = expected.challenge.expectedAnswer ∧
    isValidRumorResponse expected.requested rumors = true

/-- **There is an order of what has been done.**  A digest that waits for its second lock has
its place before those who have used the store since; rumors have theirs before the
prunings since. -/
def Explained (E : Ed25519) (r : Running Address) : Prop :=
  match r.hand with
  | .empty => ∃ serial, SameOrder serial r.finished ∧ Explains E Node.new serial r.node
  | .asking _ rumors missing => ∃ before after s,
      SameOrder (before ++ after) r.finished ∧ OnStore after ∧
        Explains E Node.new before { r.node with store := s } ∧
        Explains E { r.node with store := s } after r.node ∧
        missing = s.missing rumors ∧ missing.isEmpty = false
  | .adopting sender rumors challengeAnswer => ∃ before after p,
      SameOrder (before ++ after) r.finished ∧ OnPending after ∧
        Explains E Node.new before { r.node with pendingChallenges := p } ∧
        Explains E { r.node with pendingChallenges := AList.erase sender p } after r.node ∧
        Passes p sender rumors challengeAnswer

theorem explained_finish {env : GossipAmbient Address} {sender : Address}
    {message : GossipMessage} {reply : Option GossipMessage} {n : Node Address}
    (h : ∃ serial, SameOrder serial r.finished ∧ Explains E Node.new serial r.node)
    (hhandle : r.node.handleGossipMessage E env sender message = (reply, n)) :
    (r.finish n env sender message reply).Explained E := by
  obtain ⟨serial, horder, hserial⟩ := h
  refine ⟨_, horder.concat _, ?_⟩
  have hlast := hserial.concat (.gossip env sender message)
  rwa [transact, hhandle] at hlast

theorem explained_receive {env : GossipAmbient Address} {sender : Address}
    {message : GossipMessage} (hempty : r.hand = .empty) (h : r.Explained E) :
    (r.receive env sender message).Explained E := by
  rw [Explained, hempty] at h
  cases message with
  | digest rumors =>
    rw [receive]
    split
    · rename_i hnone
      refine explained_finish h ?_
      rw [handleGossipMessage, if_pos hnone]
    · rename_i hsome
      obtain ⟨serial, horder, hserial⟩ := h
      refine ⟨serial, [], r.node.store, ?_, ?_, hserial, Explains.nil _, rfl, ?_⟩
      · rwa [List.append_nil]
      · intro q hq
        cases hq
      · exact Bool.eq_false_iff.mpr hsome
  | request domains challenge => exact explained_finish h rfl
  | rumors rumors answer =>
    rw [receive]
    cases hp : r.node.pendingChallenges.lookup sender with
    | none =>
      refine explained_finish h ?_
      rw [handleGossipMessage, hp, Table.erase_of_lookup_eq_none hp]
    | some expected =>
      dsimp only
      split
      · rename_i hwrong
        refine explained_finish h ?_
        rw [handleGossipMessage, hp]
        exact if_pos hwrong
      · rename_i hright
        split
        · rename_i hinvalid
          refine explained_finish h ?_
          rw [handleGossipMessage, hp]
          exact (if_neg hright).trans (if_pos hinvalid)
        · rename_i hvalid
          obtain ⟨serial, horder, hserial⟩ := h
          refine ⟨serial, [], r.node.pendingChallenges, ?_, ?_, hserial, Explains.nil _, expected,
            hp, not_not.mp hright, ?_⟩
          · rwa [List.append_nil]
          · intro q hq
            cases hq
          · rwa [Bool.not_eq_true', Bool.not_eq_false] at hvalid

theorem explained_resume (h : r.Explained E) (env : GossipAmbient Address) :
    (r.resume E env).Explained E := by
  rw [resume]
  cases hhand : r.hand with
  | empty => exact h
  | asking sender rumors missing =>
    rw [Explained, hhand] at h
    obtain ⟨before, after, s, horder, hafter, hbefore, hsince, hmissing, hsome⟩ := h
    -- the message is handled when the store was read
    have hhandle : ({ r.node with store := s } : Node Address).handleGossipMessage E env sender
        (.digest rumors) =
          (some (.request missing (ConformanceChallenge.random env.now env.nonceA env.nonceB
              env.condition)),
            { r.node.awaitAnswer env.order sender
                ⟨ConformanceChallenge.random env.now env.nonceA env.nonceB env.condition, missing,
                  env.instant⟩ with store := s }) := by
      rw [handleGossipMessage, ← hmissing]
      exact if_neg (Bool.eq_false_iff.mp hsome)
    have hserial := hbefore.concat (.gossip env sender (.digest rumors))
    rw [transact, hhandle] at hserial
    -- and the others go on from there
    have hothers := (hsince.of_onStore hafter (r.node.awaitAnswer env.order sender
      ⟨ConformanceChallenge.random env.now env.nonceA env.nonceB env.condition, missing,
        env.instant⟩).pendingChallenges).2
    refine ⟨_, ?_, hserial.append hothers⟩
    rw [List.append_assoc]
    refine horder.insert fun q hq htask => ?_
    rcases hafter q hq with hq | hq <;> cases hq.symm.trans htask
  | adopting sender rumors answer =>
    rw [Explained, hhand] at h
    obtain ⟨before, after, p, horder, hafter, hbefore, hsince, expected, hlookup, hright,
      hvalid⟩ := h
    -- the message is handled when the challenge was taken off the table
    have hhandle : ({ r.node with pendingChallenges := p } : Node Address).handleGossipMessage E
        env sender (.rumors rumors answer) =
          (none, { r.node with
            store := r.node.store.adoptAll E env.now rumors
            pendingChallenges := AList.erase sender p }) := by
      rw [handleGossipMessage]
      dsimp only
      rw [hlookup]
      dsimp only
      rw [if_neg (not_not.mpr hright), hvalid]
      rfl
    have hserial := hbefore.concat (.gossip env sender (.rumors rumors answer))
    rw [transact, hhandle] at hserial
    have hothers := (hsince.of_onPending hafter (r.node.store.adoptAll E env.now rumors)).2
    refine ⟨_, ?_, hserial.append hothers⟩
    rw [List.append_assoc]
    refine horder.insert fun q hq htask => ?_
    cases (hafter q hq).symm.trans htask

theorem explained_other (h : r.Explained E) {t : Transaction Address} (ht : t.task ≠ .gossip) :
    (r.other E t).Explained E := by
  rw [Explained] at h ⊢
  rw [show (r.other E t).hand = r.hand from rfl]
  cases hhand : r.hand with
  | empty =>
    rw [hhand] at h
    obtain ⟨serial, horder, hserial⟩ := h
    exact ⟨_, horder.concat _, hserial.concat t⟩
  | asking sender rumors missing =>
    rw [hhand] at h
    obtain ⟨before, after, s, horder, hafter, hbefore, hsince, hmissing, hsome⟩ := h
    cases t with
    | gossip env sender message => exact absurd rfl ht
    | client env request v =>
      refine ⟨before, _, s, ?_, ?_, hbefore, hsince.concat (.client env request v), hmissing,
        hsome⟩
      · rw [← List.append_assoc]
        exact horder.concat _
      · intro q hq
        rcases List.mem_append.mp hq with hq | hq
        · exact hafter q hq
        · rw [List.mem_singleton.mp hq]
          exact Or.inl rfl
    | read =>
      refine ⟨before, _, s, ?_, ?_, hbefore, hsince.concat .read, hmissing, hsome⟩
      · rw [← List.append_assoc]
        exact horder.concat _
      · intro q hq
        rcases List.mem_append.mp hq with hq | hq
        · exact hafter q hq
        · rw [List.mem_singleton.mp hq]
          exact Or.inr rfl
    | prune instant =>
      -- the challenge is yet to be recorded, so the pruning comes first
      refine ⟨_, after, s, ?_, hafter, hbefore.concat (.prune instant), ?_, hmissing, hsome⟩
      · rw [List.append_assoc]
        refine horder.insert fun q hq htask => ?_
        rcases hafter q hq with hq | hq <;> cases hq.symm.trans htask
      · exact (hsince.of_onStore hafter (r.node.prune instant).pendingChallenges).2
  | adopting sender rumors answer =>
    rw [hhand] at h
    obtain ⟨before, after, p, horder, hafter, hbefore, hsince, hpasses⟩ := h
    cases t with
    | gossip env sender message => exact absurd rfl ht
    | client env request v =>
      -- the store is yet to be changed, so the request comes first
      refine ⟨_, after, p, ?_, hafter, hbefore.concat (.client env request v), ?_, hpasses⟩
      · rw [List.append_assoc]
        refine horder.insert fun q hq htask => ?_
        cases (hafter q hq).symm.trans htask
      · exact (hsince.of_onPending hafter
          (r.node.transact E (.client env request v)).2.store).2
    | read =>
      refine ⟨_, after, p, ?_, hafter, hbefore.concat .read, hsince, hpasses⟩
      rw [List.append_assoc]
      refine horder.insert fun q hq htask => ?_
      cases (hafter q hq).symm.trans htask
    | prune instant =>
      refine ⟨before, _, p, ?_, ?_, hbefore, hsince.concat (.prune instant), hpasses⟩
      · rw [← List.append_assoc]
        exact horder.concat _
      · intro q hq
        rcases List.mem_append.mp hq with hq | hq
        · exact hafter q hq
        · rw [List.mem_singleton.mp hq]
          rfl

/-- **One section keeps the order.** -/
theorem explained_step (h : r.Explained E) (a : Section Address) : (r.step E a).Explained E := by
  cases a with
  | receive env sender message =>
    rw [step]
    cases hhand : r.hand with
    | empty => exact explained_receive hhand h
    | asking sender rumors missing => exact h
    | adopting sender rumors answer => exact h
  | resume env => exact explained_resume h env
  | client env request v => exact explained_other h fun ht => by cases ht
  | prune instant => exact explained_other h fun ht => by cases ht
  | read => exact explained_other h fun ht => by cases ht

/-- **What runs between two locks is not seen.**  However the sections of the tasks follow each
other, once the gossip task has finished its message there is an order of all that was done in
which nothing is interrupted, every outcome is the one it was, and the node ends as it did; each
task keeps its own order. -/
theorem interleaving_is_atomic (E : Ed25519) (sections : List (Section Address))
    (h : (sections.foldl (step E) start).hand = .empty) :
    ∃ serial, SameOrder serial (sections.foldl (step E) start).finished ∧
      Explains E Node.new serial (sections.foldl (step E) start).node := by
  have hreaches : Run.Reaches (step E) (fun _ _ => True) start
      (sections.foldl (step E) start) := Run.Reaches.foldl (fun _ _ => trivial) sections start
  have hexplained := hreaches.invariant (I := Explained E)
    ⟨[], fun _ => rfl, Explains.nil _⟩ fun r a _ hr => explained_step hr a
  rwa [Explained, h] at hexplained

/-- A digest, and what runs before its sender is challenged. -/
def digestInterrupted : List (Section Bool) :=
  [.receive (sampleGossip 1000) true (.digest [⟨⟨"name"⟩, 1000⟩]),
    .client ⟨1000, Vector.replicate 8 0, .listed⟩ ((sampleClient 1 "host").probeRequest 1000) true,
    .prune 0, .read, .resume (sampleGossip 1000)]

/-- The challenge is recorded in a table that has been pruned since the store was read. -/
theorem interleaving_is_atomic_digest :
    ∃ serial, SameOrder serial
        (digestInterrupted.foldl (step Ed25519.sample) start).finished ∧
      Explains Ed25519.sample Node.new serial
        (digestInterrupted.foldl (step Ed25519.sample) start).node :=
  interleaving_is_atomic _ _ rfl

end Running

end Binda
