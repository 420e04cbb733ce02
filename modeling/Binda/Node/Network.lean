import Binda.Core.Confirmed
import Binda.Node.Delivery
import Binda.Node.Outage
import Binda.Node.Provenance

/-!
# Many nodes

Any number of nodes, each with rounds of its own in any order.  What the sockets send is put on
record; what a node receives is not bound to it.  A datagram may be lost, come twice or late, go
to another node or come from another address, and anyone may send anything.

* `daemon_run`: each node is a run of its own, by its own rounds.
* `deeds_have_origin`: a deed that any node holds was granted by some node before, or was
  injected, in a datagram that no gossip socket has sent.
* `owners_are_confirmed`: where every node verifies host names and nothing is injected, whoever
  owns a name has signed for it and was confirmed under the host name in the client key.
* `owners_hold_their_hosts`: where the resolvers are honest as well, this host name is listed in
  the DNS for the address the owner has registered from, and, if it is a name of proper labels,
  the address for the host name.
-/

namespace Binda

/-- The nodes, and what their sockets have sent. -/
structure Network (Host Address : Type) where
  daemon : Host → Daemon Address
  sent : List (Sent Address)

namespace Network

open RegistryStore

variable {Host Address : Type} [DecidableEq Host] [DecidableEq Address]

/-- The nodes are started. -/
def start (peers : Host → List Address) (verifier : Host → RdnsVerifier) :
    Network Host Address where
  daemon := fun host => Daemon.new (peers host) (verifier host)
  sent := []

/-- One round of one node. -/
def step (E : Ed25519) (parse : ByteArray → Option Json) (ip : Address → Fcrdns.IpAddr)
    (net : Network Host Address) (event : Host × DaemonEvent Address) : Network Host Address where
  daemon := Function.update net.daemon event.1 ((net.daemon event.1).after E parse ip event.2)
  sent := net.sent ++ (net.daemon event.1).sent E parse ip event.2

/-- The network after some rounds. -/
def run (E : Ed25519) (parse : ByteArray → Option Json) (ip : Address → Fcrdns.IpAddr)
    (peers : Host → List Address) (verifier : Host → RdnsVerifier)
    (events : List (Host × DaemonEvent Address)) : Network Host Address :=
  events.foldl (step E parse ip) (start peers verifier)

/-- A gossip message with the deed is received that no gossip socket has sent. -/
def Injects (parse : ByteArray → Option Json) (net : Network Host Address)
    (e : DaemonEvent Address) (deed : ClaimId) : Prop :=
  ∃ r env message, e = .gossip r env ∧
    decode parse GossipMessage.deserialize r.received = .ok message ∧ deed ∈ message.deeds ∧
    ∀ m ∈ net.sent, m.listener = .gossip → m.bytes ≠ r.bytes

/-- Some round of the run satisfies `p` where it happens. -/
def Once (E : Ed25519) (parse : ByteArray → Option Json) (ip : Address → Fcrdns.IpAddr)
    (peers : Host → List Address) (verifier : Host → RdnsVerifier)
    (events : List (Host × DaemonEvent Address))
    (p : Network Host Address → Host → DaemonEvent Address → Prop) : Prop :=
  ∃ l host e m, events = l ++ (host, e) :: m ∧ p (run E parse ip peers verifier l) host e

variable {E : Ed25519} {parse : ByteArray → Option Json} {ip : Address → Fcrdns.IpAddr}
  {peers : Host → List Address} {verifier : Host → RdnsVerifier}
  {events : List (Host × DaemonEvent Address)} {net : Network Host Address} {P : ClaimId → Prop}

theorem run_concat (event : Host × DaemonEvent Address) :
    run E parse ip peers verifier (events ++ [event]) =
      (run E parse ip peers verifier events).step E parse ip event := by
  rw [run, List.foldl_append]
  rfl

/-- The other nodes stay as they are. -/
theorem daemon_step (host host' : Host) (e : DaemonEvent Address) :
    (net.step E parse ip (host, e)).daemon host' =
      if host' = host then (net.daemon host).after E parse ip e else net.daemon host' := by
  show Function.update net.daemon host ((net.daemon host).after E parse ip e) host' = _
  rw [Function.update_apply]

/-- The rounds of one node. -/
def rounds (host : Host) (events : List (Host × DaemonEvent Address)) :
    List (DaemonEvent Address) :=
  events.filterMap fun event => if event.1 = host then some event.2 else none

omit [DecidableEq Address] in
theorem mem_rounds {host : Host} {e : DaemonEvent Address} :
    e ∈ rounds host events ↔ (host, e) ∈ events := by
  rw [rounds, List.mem_filterMap]
  constructor
  · rintro ⟨⟨host', e'⟩, hmem, he⟩
    split at he
    · rename_i hhost
      rwa [← hhost, ← Option.some.inj he]
    · cases he
  · intro hmem
    exact ⟨(host, e), hmem, if_pos rfl⟩

omit [DecidableEq Address] in
theorem rounds_append (host : Host) (before after : List (Host × DaemonEvent Address)) :
    rounds host (before ++ after) = rounds host before ++ rounds host after :=
  List.filterMap_append

omit [DecidableEq Address] in
theorem rounds_cons_self (host : Host) (e : DaemonEvent Address)
    (events : List (Host × DaemonEvent Address)) :
    rounds host ((host, e) :: events) = e :: rounds host events :=
  List.filterMap_cons_some (if_pos rfl)

theorem isPart_daemon (host : Host) :
    Run.IsPart (step E parse ip) (fun net : Network Host Address => net.daemon host)
      (Daemon.after E parse ip) fun _ event => if event.1 = host then some event.2 else none := by
  rintro net ⟨host', e⟩
  show (net.step E parse ip (host', e)).daemon host = _
  rw [daemon_step]
  dsimp only
  by_cases hhost : host' = host
  · subst hhost
    rw [if_pos rfl, if_pos rfl]
    rfl
  · rw [if_neg (Ne.symm hhost), if_neg hhost]
    rfl

/-- **Each node goes its own way**, by its own rounds. -/
theorem daemon_run (events : List (Host × DaemonEvent Address)) (host : Host) :
    (run E parse ip peers verifier events).daemon host =
      Daemon.past E parse ip (peers host) (verifier host) (rounds host events) := by
  have hpart : Run.IsPart (step E parse ip) (fun net : Network Host Address => net.daemon host)
      (Daemon.after E parse ip) _ := isPart_daemon host
  have hfold := hpart.foldl events (start peers verifier)
  rw [Run.script_eq_filterMap] at hfold
  exact hfold

theorem Once.concat {p : Network Host Address → Host → DaemonEvent Address → Prop}
    (h : Once E parse ip peers verifier events p) (event : Host × DaemonEvent Address) :
    Once E parse ip peers verifier (events ++ [event]) p := by
  obtain ⟨l, host, e, m, rfl, hp⟩ := h
  exact ⟨l, host, e, m ++ [event], by simp, hp⟩

theorem Once.last {p : Network Host Address → Host → DaemonEvent Address → Prop} {host : Host}
    {e : DaemonEvent Address} (h : p (run E parse ip peers verifier events) host e) :
    Once E parse ip peers verifier (events ++ [(host, e)]) p :=
  ⟨events, host, e, [], rfl, h⟩

/-- What never is so in the rounds of a run, one after another. -/
theorem not_once_of_along {p : Network Host Address → Host → DaemonEvent Address → Prop}
    (h : Run.Along (step E parse ip) (fun net event => ¬ p net event.1 event.2)
      (start peers verifier) events) : ¬ Once E parse ip peers verifier events p := by
  rintro ⟨l, host, e, m, rfl, hp⟩
  exact h.turn hp

/-! ### Deeds -/

/-- Every deed that a node holds or a gossip socket has sent satisfies `P`. -/
structure Sourced (E : Ed25519) (P : ClaimId → Prop) (net : Network Host Address) : Prop where
  held : ∀ host, (net.daemon host).node.store.Vouched P
  consistent : ∀ host, Consistent E (net.daemon host).node.store
  carried : ∀ m ∈ net.sent, m.listener = .gossip →
    ∃ message, encode GossipMessage.serialize message = .ok m.bytes ∧
      ∀ deed ∈ message.deeds, P deed

omit [DecidableEq Host] [DecidableEq Address] in
theorem sourced_start : Sourced E P (start peers verifier) where
  held _ := vouched_new
  consistent _ := consistent_new
  carried _ hm := by cases hm

omit [DecidableEq Host] [DecidableEq Address] in
theorem Sourced.mono {Q : ClaimId → Prop} (h : Sourced E P net) (hPQ : ∀ deed, P deed → Q deed) :
    Sourced E Q net where
  held host := (h.held host).mono hPQ
  consistent := h.consistent
  carried m hm hgossip := by
    obtain ⟨message, hmessage, hdeeds⟩ := h.carried m hm hgossip
    exact ⟨message, hmessage, fun deed hdeed => hPQ deed (hdeeds deed hdeed)⟩

omit [DecidableEq Host] [DecidableEq Address] in
/-- What is heard was sent or is injected. -/
theorem Sourced.hears (h : Sourced E P net)
    (hparse : ReadsWritten parse GossipMessage.serialize) {e : DaemonEvent Address}
    (hinjects : ∀ deed, Injects parse net e deed → P deed) {deed : ClaimId}
    (hhears : Daemon.Hears parse e deed) : P deed := by
  obtain ⟨r, env, message, rfl, hdecode, hdeed⟩ := hhears
  by_cases hsent : ∃ m ∈ net.sent, m.listener = .gossip ∧ m.bytes = r.bytes
  · obtain ⟨m, hm, hgossip, hbytes⟩ := hsent
    obtain ⟨message', hencode, hdeeds⟩ := h.carried m hm hgossip
    -- the bytes are read as what was written
    rw [hbytes] at hencode
    have hread := decode_of_encode hparse readsBack_gossip hencode
    rw [Receipt.received, hread] at hdecode
    obtain rfl := Except.ok.inj hdecode
    exact hdeeds deed hdeed
  · refine hinjects deed ⟨r, env, message, rfl, hdecode, hdeed, fun m hm hgossip hbytes => ?_⟩
    exact hsent ⟨m, hm, hgossip, hbytes⟩

/-- **A round makes up no deed.** -/
theorem Sourced.step (h : Sourced E P net) (hparse : ReadsWritten parse GossipMessage.serialize)
    {host : Host} {e : DaemonEvent Address}
    (hgrants : ∀ deed, (net.daemon host).Grants E parse ip e deed → P deed)
    (hinjects : ∀ deed, Injects parse net e deed → P deed) :
    Sourced E P (net.step E parse ip (host, e)) where
  held := by
    intro host'
    rw [daemon_step]
    split
    · exact Daemon.vouched_after (h.held host) hgrants fun deed => h.hears hparse hinjects
    · exact h.held host'
  consistent := by
    intro host'
    rw [daemon_step]
    split
    · exact Daemon.consistent_after (h.consistent host)
    · exact h.consistent host'
  carried := by
    intro m hm hgossip
    rcases List.mem_append.mp hm with hm | hm
    · exact h.carried m hm hgossip
    · exact Daemon.vouched_sent (h.held host) (h.consistent host) m hm hgossip

/-- The deed was granted, or injected. -/
def HasOrigin (E : Ed25519) (parse : ByteArray → Option Json) (ip : Address → Fcrdns.IpAddr)
    (peers : Host → List Address) (verifier : Host → RdnsVerifier)
    (events : List (Host × DaemonEvent Address)) (deed : ClaimId) : Prop :=
  Once E parse ip peers verifier events fun net host e =>
    (net.daemon host).Grants E parse ip e deed ∨ Injects parse net e deed

theorem sourced_run (hparse : ReadsWritten parse GossipMessage.serialize)
    (events : List (Host × DaemonEvent Address)) :
    Sourced E (HasOrigin E parse ip peers verifier events)
      (run E parse ip peers verifier events) := by
  induction events using List.reverseRecOn with
  | nil => exact sourced_start
  | append_singleton events event ih =>
    obtain ⟨host, e⟩ := event
    rw [run_concat]
    have hbefore : Sourced E (HasOrigin E parse ip peers verifier (events ++ [(host, e)]))
        (run E parse ip peers verifier events) := ih.mono fun deed h => h.concat _
    refine hbefore.step hparse (fun deed h => ?_) fun deed h => ?_
    · exact Once.last (Or.inl h)
    · exact Once.last (Or.inr h)

/-- **Every deed has an origin.**  Whatever is lost, repeated, delayed, redirected or forged, a
deed that some node holds was granted by some node in a round before, to a client that signed the
request, or it was injected. -/
theorem deeds_have_origin (E : Ed25519) {parse : ByteArray → Option Json}
    (ip : Address → Fcrdns.IpAddr) (peers : Host → List Address)
    (verifier : Host → RdnsVerifier) (hparse : ReadsWritten parse GossipMessage.serialize)
    (events : List (Host × DaemonEvent Address)) (host : Host) :
    ((run E parse ip peers verifier events).daemon host).node.store.Vouched
      fun deed => Once E parse ip peers verifier events fun net host e =>
        (net.daemon host).Grants E parse ip e deed ∨ Injects parse net e deed :=
  (sourced_run hparse events).held host

/-! ### A run with an owner -/

section Sample

open Daemon

/-- A client at the host of the sample zone. -/
def tenant : ClientIdentity := sampleClient 1 "h.net."

/-- Its lease. -/
def tenantLease : RegistrationRumor := tenant.lease ⟨"name"⟩ (sampleToken 1000 0) 1000 1000

/-- Every datagram comes from the address of the host. -/
def atHost (_ : Bool) : Fcrdns.IpAddr := .v4 Fcrdns.sampleAddress

/-- The resolver of the sample zone is asked. -/
def confirming : Lookups where
  id := 1
  idA := 2
  idAaaa := 3
  resolvers := [Fcrdns.sampleResolver]

/-- The one node is told of the other. -/
def pushesTo : Bool → List Bool
  | true => [false]
  | false => []

/-- The client probes and registers a name, and the node pushes a digest. -/
def renting : List (DaemonEvent Bool) :=
  [.api (requestFrom true (tenant.probeRequest 1000)) (sampleAmbient 1000 0) confirming,
    .api (requestFrom true (tenant.registerRequest 1000 ⟨"name"⟩)) (sampleAmbient 1000 0)
      confirming,
    .push 0 .listed]

/-- What the node has then. -/
def rented : RegistryStore :=
  storeAfter Ed25519.sample [tenant.probes 1000, tenant.registers 1000 ⟨"name"⟩ 0]

/-- The probe. -/
theorem after_probe :
    (new [false] .fcrdns).after Ed25519.sample readText atHost
        (.api (requestFrom true (tenant.probeRequest 1000)) (sampleAmbient 1000 0) confirming) =
      { (new [false] .fcrdns).asked .api (requestFrom true (tenant.probeRequest 1000)) with
        node := { (new [false] .fcrdns : Daemon Bool).node with
          store := storeAfter Ed25519.sample [tenant.probes 1000] } } := by
  have hresult : (new [false] .fcrdns : Daemon Bool).node.store.handleClientRequest Ed25519.sample
      (sampleAmbient 1000 0) (tenant.probeRequest 1000) true =
        (.ok .probeAck, storeAfter Ed25519.sample [tenant.probes 1000]) :=
    Prod.ext (by decide +kernel) rfl
  have hallows : (new [false] .fcrdns : Daemon Bool).allows .api
      (requestFrom true (tenant.probeRequest 1000)) = true :=
    allows_of_untracked RateLimiter.one_le_burst rfl
  rw [Daemon.after, round_of_request (readsWritten_readText plain_request)
    (encode_requestFrom (by decide +kernel)) rfl hallows hresult]

/-- The registration, whose host is confirmed. -/
theorem after_register {d : Daemon Bool} (hverifier : d.verifier = .fcrdns)
    (hrunning : d.apiRunning = true)
    (hlimiter : d.limiter .api =
      RateLimiter.newRateLimiter.call (requestFrom true (tenant.probeRequest 1000)).call)
    (hstore : d.node.store = storeAfter Ed25519.sample [tenant.probes 1000]) :
    d.after Ed25519.sample readText atHost (.api (requestFrom true
        (tenant.registerRequest 1000 ⟨"name"⟩)) (sampleAmbient 1000 0) confirming) =
      { d.asked .api (requestFrom true (tenant.registerRequest 1000 ⟨"name"⟩)) with
        node := { d.node with store := rented } } := by
  have hverified : d.rdnsVerified atHost confirming true
      (tenant.registerRequest 1000 ⟨"name"⟩) = true := by
    show d.verifier.verify confirming (atHost true) "h.net." = true
    rw [hverifier]
    exact Fcrdns.isForwardConfirmed_of_confirms Fcrdns.honest_samples Fcrdns.available_samples
      Fcrdns.spells_sampleHost Fcrdns.confirms_sampleZone
  have hresult : d.node.store.handleClientRequest Ed25519.sample (sampleAmbient 1000 0)
      (tenant.registerRequest 1000 ⟨"name"⟩)
      (d.rdnsVerified atHost confirming true (tenant.registerRequest 1000 ⟨"name"⟩)) =
        (.ok (.registered (sampleToken 1000 0)), rented) := by
    rw [hverified, hstore]
    exact Prod.ext (by decide +kernel) rfl
  rw [Daemon.after, round_of_request (readsWritten_readText plain_request)
    (encode_requestFrom (by decide +kernel)) hrunning (allows_second hlimiter) hresult]

theorem past_renting :
    (past Ed25519.sample readText atHost [false] .fcrdns renting).node.store = rented ∧
      (past Ed25519.sample readText atHost [false] .fcrdns renting).limiter .gossip =
        RateLimiter.newRateLimiter := by
  rw [past, renting, List.foldl_cons, List.foldl_cons, List.foldl_cons, List.foldl_nil,
    after_probe, after_register rfl rfl rfl rfl, Daemon.after, Daemon.round, gossipPush_fst]
  exact ⟨rfl, rfl⟩

/-- A gossip message on its way. -/
def gossipText (message : GossipMessage) : ByteArray := written GossipMessage.serialize message

/-- It arrives at once. -/
def atOnce : Passage Bool where
  instant := 0
  order := .listed
  env := Node.sampleGossip 1000

/-- A gossip message arrives. -/
def hearing (sender : Bool) (message : GossipMessage) : DaemonEvent Bool :=
  .gossip (atOnce.receipt sender (gossipText message)) atOnce.env

theorem round_hearing {d : Daemon Bool} {sender : Bool} {message : GossipMessage}
    (hsize : (GossipMessage.serialize message).size ≤ maxDatagramBytes)
    (hwell : isWellFormed message = true)
    (hadmits : Admits (d.limiter .gossip) sender atOnce) :
    d.round Ed25519.sample readText atHost (hearing sender message) =
      ({ d.asked .gossip (atOnce.receipt sender (gossipText message)) with
          node := (d.node.handleGossipMessage Ed25519.sample atOnce.env sender message).2
          peers := d.peers.learn sender },
        (d.node.handleGossipMessage Ed25519.sample atOnce.env sender message).1.toList.flatMap
          (sendEncoded .gossip sender GossipMessage.serialize)) :=
  round_of_encoded (readsWritten_readText plain_gossip) (encode_of_size_le hsize) hwell hadmits

/-- The challenge of the other node. -/
def tenantChallenge : ConformanceChallenge where
  tokenA := sampleToken 1000 0
  tokenB := sampleToken 1000 1
  condition := .higherWins

/-- The three messages of the exchange. -/
def tenantDigest : GossipMessage := .digest [⟨⟨"name"⟩, 1000⟩]

def tenantRequest : GossipMessage := .request [⟨"name"⟩] tenantChallenge

def tenantReply : GossipMessage := .rumors [tenantLease] tenantChallenge.expectedAnswer

theorem admits_atOnce (sender : Bool) :
    Admits (RateLimiter.newRateLimiter : RateLimiter Bool) sender atOnce :=
  TokenBucket.visit_fst_none RateLimiter.one_le_burst

/-- The node that rented the name out replies with the lease. -/
theorem sent_renting :
    (past Ed25519.sample readText atHost [false] .fcrdns renting).sent Ed25519.sample readText
        atHost (hearing false tenantRequest) =
      [{ listener := .gossip, destination := false, bytes := gossipText tenantReply }] := by
  obtain ⟨hstore, hlimiter⟩ := past_renting
  have hadmits : Admits ((past Ed25519.sample readText atHost [false] .fcrdns renting).limiter
      .gossip) false atOnce := by
    rw [hlimiter]
    exact admits_atOnce false
  have hanswer : rented.answerFor [⟨"name"⟩] = [tenantLease] := by decide +kernel
  rw [Daemon.sent, round_hearing (by decide +kernel) (by decide +kernel) hadmits]
  dsimp only
  rw [tenantRequest, Node.handleGossipMessage, hstore, hanswer]
  exact (List.flatMap_singleton _ _).trans
    (sendEncoded_of_ok (encode_of_size_le (by decide +kernel)))

/-- The other node takes it over. -/
theorem lookup_hearing :
    (past Ed25519.sample readText atHost [] .fcrdns [hearing true tenantDigest,
        hearing true tenantReply]).node.store.lookup ⟨"name"⟩ =
      some (registrationFromRumor tenantLease "h.net") := by
  have hpast : past Ed25519.sample readText atHost [] .fcrdns [hearing true tenantDigest,
      hearing true tenantReply] =
        (((new [] .fcrdns).after Ed25519.sample readText atHost (hearing true tenantDigest)).after
          Ed25519.sample readText atHost (hearing true tenantReply)) := rfl
  rw [hpast, Daemon.after, Daemon.after, round_hearing (d := new [] .fcrdns)
    (by decide +kernel) (by decide +kernel) (admits_atOnce true)]
  dsimp only
  rw [round_hearing (by decide +kernel) (by decide +kernel) (by show _ = _; decide +kernel)]
  show ((Node.new.handleGossipMessage Ed25519.sample atOnce.env true
    tenantDigest).2.handleGossipMessage Ed25519.sample atOnce.env true
      tenantReply).2.store.lookup ⟨"name"⟩ = _
  decide +kernel

/-- A client registers a name at the one node, and the other is told. -/
def letting : List (Bool × DaemonEvent Bool) :=
  renting.map (Prod.mk true) ++ [(false, hearing true tenantDigest)]

/-- It asks for the name. -/
def tenancy : List (Bool × DaemonEvent Bool) :=
  letting ++ [(true, hearing false tenantRequest)] ++ [(false, hearing true tenantReply)]

theorem lookup_tenancy :
    ((run Ed25519.sample readText atHost pushesTo (fun _ => .fcrdns) tenancy).daemon
        false).node.store.lookup ⟨"name"⟩ = some (registrationFromRumor tenantLease "h.net") := by
  rw [daemon_run]
  exact lookup_hearing

theorem injects_hearing {net : Network Bool Bool} {sender : Bool} {message : GossipMessage}
    {deed : ClaimId} (hsize : (GossipMessage.serialize message).size ≤ maxDatagramBytes)
    (h : Injects readText net (hearing sender message) deed) : deed ∈ message.deeds ∧
      ∀ m ∈ net.sent, m.listener = .gossip → m.bytes ≠ gossipText message := by
  obtain ⟨r, env, message', he, hdecode, hdeed, hsent⟩ := h
  obtain ⟨rfl, rfl⟩ := DaemonEvent.gossip.inj he
  have hread : decode readText GossipMessage.deserialize
      ((gossipText message).extract 0 maxDatagramBytes) = .ok message :=
    decode_of_encode (readsWritten_readText plain_gossip) readsBack_gossip
      (encode_of_size_le hsize)
  have hreceived : (atOnce.receipt sender (gossipText message)).received =
      (gossipText message).extract 0 maxDatagramBytes := rfl
  rw [hreceived, hread] at hdecode
  obtain rfl := Except.ok.inj hdecode
  exact ⟨hdeed, hsent⟩

/-- The one message with a deed was sent before. -/
theorem tenancy_injects_nothing (deed : ClaimId) :
    ¬ Once Ed25519.sample readText atHost pushesTo (fun _ => .fcrdns) tenancy
      fun net _ e => Injects readText net e deed := by
  have hsilent : ∀ (net : Network Bool Bool) (e : DaemonEvent Bool), (∀ r env, e ≠ .gossip r env) →
      ¬ Injects readText net e deed := by
    rintro net e hne ⟨r, env, message, he, -⟩
    exact hne r env he
  have hempty : ∀ (net : Network Bool Bool) (sender : Bool) (message : GossipMessage),
      (GossipMessage.serialize message).size ≤ maxDatagramBytes → message.deeds = [] →
        ¬ Injects readText net (hearing sender message) deed := by
    intro net sender message hsize hdeeds h
    have hdeed := (injects_hearing hsize h).1
    rw [hdeeds] at hdeed
    cases hdeed
  have hbefore : Run.Along (step Ed25519.sample readText atHost)
      (fun net event => ¬ Injects readText net event.2 deed) (start pushesTo fun _ => .fcrdns)
      (letting ++ [(true, hearing false tenantRequest)]) :=
    ⟨hsilent _ _ (fun _ _ h => (by cases h)), hsilent _ _ (fun _ _ h => (by cases h)),
      hsilent _ _ (fun _ _ h => (by cases h)), hempty _ true tenantDigest (by decide +kernel) rfl,
      hempty _ false tenantRequest (by decide +kernel) rfl, trivial⟩
  refine not_once_of_along (hbefore.concat fun h => ?_)
  have hdaemon : (run Ed25519.sample readText atHost pushesTo (fun _ => .fcrdns) letting).daemon
      true = past Ed25519.sample readText atHost [false] .fcrdns renting := daemon_run letting true
  have hsent : (run Ed25519.sample readText atHost pushesTo (fun _ => .fcrdns)
      (letting ++ [(true, hearing false tenantRequest)])).sent =
        (run Ed25519.sample readText atHost pushesTo (fun _ => .fcrdns) letting).sent ++
          [{ listener := .gossip, destination := false, bytes := gossipText tenantReply }] := by
    rw [run_concat, step, hdaemon, sent_renting]
  have hsize : (GossipMessage.serialize tenantReply).size ≤ maxDatagramBytes := by decide +kernel
  have hbytes : ∀ m ∈ (run Ed25519.sample readText atHost pushesTo (fun _ => .fcrdns)
      (letting ++ [(true, hearing false tenantRequest)])).sent,
      m.listener = .gossip → m.bytes ≠ gossipText tenantReply := (injects_hearing hsize h).2
  rw [hsent] at hbytes
  have hreply := hbytes _ (List.mem_append_right _ (List.mem_singleton_self _))
  dsimp only at hreply
  exact hreply rfl rfl

end Sample

theorem deeds_have_origin_tenancy :
    ((run Ed25519.sample readText atHost pushesTo (fun _ => .fcrdns) tenancy).daemon
        false).node.store.lookup ⟨"name"⟩ = some (registrationFromRumor tenantLease "h.net") ∧
      ((run Ed25519.sample readText atHost pushesTo (fun _ => .fcrdns) tenancy).daemon
        false).node.store.Vouched
        fun deed => Once Ed25519.sample readText atHost pushesTo (fun _ => .fcrdns) tenancy
          fun net host e => (net.daemon host).Grants Ed25519.sample readText atHost e deed ∨
            Injects readText net e deed :=
  ⟨lookup_tenancy, deeds_have_origin Ed25519.sample atHost pushesTo (fun _ => .fcrdns)
    (readsWritten_readText plain_gossip) tenancy false⟩

/-! ### Owners -/

theorem verifier_run (events : List (Host × DaemonEvent Address)) (host : Host) :
    ((run E parse ip peers verifier events).daemon host).verifier = verifier host := by
  rw [daemon_run]
  exact Daemon.verifier_past _

/-- In the round the domain is registered for the client, which has signed for it, and whose
host name is confirmed for the address the request comes from. -/
def Confirms (E : Ed25519) (parse : ByteArray → Option Json) (ip : Address → Fcrdns.IpAddr)
    (e : DaemonEvent Address) (deed : ClaimId) (client : ClientIdentity) : Prop :=
  ∃ r env lookups envelope, e = .api r env lookups ∧
    decode parse ClientRequest.deserialize r.received = .ok (.register envelope) ∧
    deed = ⟨envelope.body.domain, client.key, RegistrationToken.issue env.now env.nonce⟩ ∧
    client.Signed E (registerMessage deed.domain envelope.timestampMillis) envelope.signature ∧
    Fcrdns.isForwardConfirmed lookups.id lookups.idA lookups.idAaaa (ip r.sender) client.rdns
      lookups.resolvers = true

/-- Where nothing is injected, a deed comes from a round that confirms its owner. -/
theorem vouched_confirmed (hparse : ReadsWritten parse GossipMessage.serialize)
    (hquiet : ∀ deed, ¬ Once E parse ip peers (fun _ => .fcrdns) events
      fun net _ e => Injects parse net e deed) (host : Host) :
    ((run E parse ip peers (fun _ => .fcrdns) events).daemon host).node.store.Vouched
      fun deed => ∃ client, Once E parse ip peers (fun _ => .fcrdns) events
        fun _ _ e => Confirms E parse ip e deed client := by
  refine ((sourced_run hparse events).held host).mono ?_
  rintro deed ⟨l, host', e, m, hevents, hgrants | hinjects⟩
  · obtain ⟨r, env, lookups, envelope, client, he, -, hdecode, hverified, hgranted, hdeed⟩ :=
      hgrants
    obtain ⟨-, -, hrdns, hsigned⟩ := authenticate_eq_ok.mp hgranted.authentic
    rw [verifier_run, hrdns] at hverified
    refine ⟨client, l, host', e, m, hevents, r, env, lookups, envelope, he, hdecode, hdeed, ?_,
      hverified⟩
    rw [hdeed]
    exact hsigned
  · exact absurd ⟨l, host', e, m, hevents, hinjects⟩ (hquiet deed)

/-- **Owners are confirmed.**  Where every node verifies host names and nothing is injected,
whoever owns a name at some node has signed for it, from an address for which the host name in
the client key is confirmed. -/
theorem owners_are_confirmed (E : Ed25519) {parse : ByteArray → Option Json}
    (ip : Address → Fcrdns.IpAddr) (peers : Host → List Address)
    {events : List (Host × DaemonEvent Address)}
    (hparse : ReadsWritten parse GossipMessage.serialize)
    (hquiet : ∀ deed, ¬ Once E parse ip peers (fun _ => .fcrdns) events
      fun net _ e => Injects parse net e deed) (host : Host) :
    ((run E parse ip peers (fun _ => .fcrdns) events).daemon host).node.store.Vouched
      fun deed => ∃ client, Once E parse ip peers (fun _ => .fcrdns) events
        fun _ _ e => Confirms E parse ip e deed client :=
  vouched_confirmed hparse hquiet host

theorem owners_are_confirmed_tenancy :
    ((run Ed25519.sample readText atHost pushesTo (fun _ => .fcrdns) tenancy).daemon
        false).node.store.lookup ⟨"name"⟩ = some (registrationFromRumor tenantLease "h.net") ∧
      ((run Ed25519.sample readText atHost pushesTo (fun _ => .fcrdns) tenancy).daemon
        false).node.store.Vouched
        fun deed => ∃ client, Once Ed25519.sample readText atHost pushesTo (fun _ => .fcrdns)
          tenancy fun _ _ e => Confirms Ed25519.sample readText atHost e deed client :=
  ⟨lookup_tenancy, owners_are_confirmed Ed25519.sample atHost pushesTo
    (readsWritten_readText plain_gossip) tenancy_injects_nothing false⟩

/-- In the round the domain is registered for the client, which has signed for it from an
address for which the zone lists its host name; and the zone lists the address for the host
name, if that has the form of a name. -/
def Holds (E : Ed25519) (parse : ByteArray → Option Json) (ip : Address → Fcrdns.IpAddr)
    (zone : Fcrdns.Zone) (e : DaemonEvent Address) (deed : ClaimId) (client : ClientIdentity) :
    Prop :=
  ∃ r env lookups envelope, e = .api r env lookups ∧
    decode parse ClientRequest.deserialize r.received = .ok (.register envelope) ∧
    deed = ⟨envelope.body.domain, client.key, RegistrationToken.issue env.now env.nonce⟩ ∧
    client.Signed E (registerMessage deed.domain envelope.timestampMillis) envelope.signature ∧
    zone.Lists (ip r.sender) client.rdns ∧
    ∀ name, Fcrdns.Spells name client.rdns → zone.HasAddress name (ip r.sender)

/-- **Owners hold their hosts.**  Where every node verifies host names, with resolvers that are
honest about one zone, and nothing is injected, whoever owns a name at some node has registered
it from an address of the host in the client key: the zone lists the host for the address, and
the address for the host, if its labels are such that a name server can know it. -/
theorem owners_hold_their_hosts (E : Ed25519) {parse : ByteArray → Option Json}
    (ip : Address → Fcrdns.IpAddr) (peers : Host → List Address) {zone : Fcrdns.Zone}
    {events : List (Host × DaemonEvent Address)}
    (hparse : ReadsWritten parse GossipMessage.serialize)
    (hhonest : ∀ host r env lookups, (host, DaemonEvent.api r env lookups) ∈ events →
      ∀ resolver ∈ lookups.resolvers, Fcrdns.Honest zone resolver)
    (hquiet : ∀ deed, ¬ Once E parse ip peers (fun _ => .fcrdns) events
      fun net _ e => Injects parse net e deed) (host : Host) :
    ((run E parse ip peers (fun _ => .fcrdns) events).daemon host).node.store.Vouched
      fun deed => ∃ client, Once E parse ip peers (fun _ => .fcrdns) events
        fun _ _ e => Holds E parse ip zone e deed client := by
  refine (vouched_confirmed hparse hquiet host).mono ?_
  rintro deed ⟨client, l, host', e, m, hevents, r, env, lookups, envelope, rfl, hdecode, hdeed,
    hsigned, hconfirmed⟩
  have hresolvers := hhonest host' r env lookups (by
    rw [hevents]
    exact List.mem_append_right _ List.mem_cons_self)
  exact ⟨client, l, host', _, m, hevents, r, env, lookups, envelope, rfl, hdecode, hdeed, hsigned,
    Fcrdns.lists_of_isForwardConfirmed hresolvers hconfirmed,
    fun _ hname => (Fcrdns.confirms_of_isForwardConfirmed hresolvers hname hconfirmed).forward⟩

theorem owners_hold_their_hosts_tenancy :
    ((run Ed25519.sample readText atHost pushesTo (fun _ => .fcrdns) tenancy).daemon
        false).node.store.lookup ⟨"name"⟩ = some (registrationFromRumor tenantLease "h.net") ∧
      ((run Ed25519.sample readText atHost pushesTo (fun _ => .fcrdns) tenancy).daemon
        false).node.store.Vouched
        fun deed => ∃ client, Once Ed25519.sample readText atHost pushesTo (fun _ => .fcrdns)
          tenancy fun _ _ e => Holds Ed25519.sample readText atHost Fcrdns.sampleZone e deed
            client := by
  refine ⟨lookup_tenancy, owners_hold_their_hosts Ed25519.sample atHost pushesTo
    (readsWritten_readText plain_gossip) ?_ tenancy_injects_nothing false⟩
  intro host r env lookups hmem
  rw [tenancy, letting, List.append_assoc, List.append_assoc] at hmem
  rcases List.mem_append.mp hmem with hmem | hmem
  · -- both requests are verified by the one resolver
    obtain ⟨e, he, heq⟩ := List.mem_map.mp hmem
    obtain ⟨-, rfl⟩ := Prod.mk.inj heq
    rcases List.mem_cons.mp he with he | he
    · rw [(DaemonEvent.api.inj he).2.2]
      exact Fcrdns.honest_samples
    · rcases List.mem_cons.mp he with he | he
      · rw [(DaemonEvent.api.inj he).2.2]
        exact Fcrdns.honest_samples
      · cases List.mem_singleton.mp he
  · simp [hearing] at hmem

end Network

end Binda
