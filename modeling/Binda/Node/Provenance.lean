import Binda.Node.Uptime
import Binda.Registry.Names

/-!
# Who is said to own a name

A deed is the `ClaimId` of a registration or a claim: the domain, the owner and the token.  A store
makes up no deed and changes none (`Vouched.after`): after an event it holds those it held before,
the one of a registration that is granted, and those of the rumors it adopts.  The gossip socket
sends no others (`vouched_sent`).
-/

namespace Binda

/-- The deeds a message carries. -/
def GossipMessage.deeds : GossipMessage → List ClaimId
  | .digest _ => []
  | .request _ _ => []
  | .rumors l _ => l.map RegistrationRumor.claimId

theorem GossipMessage.mem_deeds_rumors {l : List RegistrationRumor} {answer : RegistrationToken}
    {deed : ClaimId} :
    deed ∈ (GossipMessage.rumors l answer).deeds ↔ deed ∈ l.map RegistrationRumor.claimId :=
  Iff.rfl

namespace RegistryStore

variable {E : Ed25519} {s : RegistryStore} {now : UInt64} {d : DomainName}
  {r : RegistrationRumor} {P : ClaimId → Prop}

/-- Every deed that is registered or claimed satisfies `P`. -/
structure Vouched (P : ClaimId → Prop) (s : RegistryStore) : Prop where
  registered : ∀ d g, s.lookup d = some g → P ⟨d, g.clientKey, g.token⟩
  claimed : ∀ q d w, (s.claims q).lookup d = some w → P ⟨d, w.clientKey, w.token⟩

theorem vouched_new : new.Vouched P where
  registered d g h := by cases h
  claimed q d w h := by cases h

theorem Vouched.mono {Q : ClaimId → Prop} (h : s.Vouched P) (hPQ : ∀ deed, P deed → Q deed) :
    s.Vouched Q where
  registered d g hg := hPQ _ (h.registered d g hg)
  claimed q d w hw := hPQ _ (h.claimed q d w hw)

theorem Vouched.fromClaim {g : Registration} (h : s.Vouched P) (hg : s.FromClaim d g) :
    P ⟨d, g.clientKey, g.token⟩ := by
  obtain ⟨q, w, hw, rfl⟩ := hg
  exact h.claimed q d w hw

theorem Vouched.filed (h : s.Vouched P) (hr : P r.claimId) : (s.filed E r now).Vouched P where
  registered d g hg := by
    rcases lookup_filed_cases hg with hg | ⟨rfl, rfl⟩ | hg
    · exact h.registered d g hg
    · exact hr
    · exact h.fromClaim hg
  claimed q d w hw := by
    rw [claims_filed] at hw
    split at hw
    · have hw := (ClaimTable.lookup_settle.mp hw).1
      rw [ClaimTable.lookup_insert] at hw
      split at hw
      · rename_i hd
        obtain rfl := Option.some.inj hw
        rw [hd]
        exact hr
      · exact h.claimed q d w hw
    · exact h.claimed q d w hw

theorem Vouched.reclaimStale (h : s.Vouched P) (order : VisitOrder String) :
    (s.reclaimStale E order now).Vouched P where
  registered d g hg := (lookup_reclaimStale_cases hg).elim (h.registered d g) h.fromClaim
  claimed q d w hw := by
    rw [claims_reclaimStale] at hw
    exact h.claimed q d w (ClaimTable.lookup_settle.mp hw).1

theorem Vouched.probed {client : ClientIdentity} {t : UInt64} {sig : List UInt8}
    (h : s.Vouched P) : (s.probed client now t sig).Vouched P where
  registered d g hg := by
    obtain ⟨g₀, hg₀, rfl⟩ := lookup_probed_eq_some.mp hg
    rw [Registration.refreshed_clientKey, Registration.refreshed_token]
    exact h.registered d g₀ hg₀
  claimed q d w hw := by
    obtain ⟨w₀, hw₀, rfl⟩ := lookup_claims_probed_eq_some.mp hw
    have hdeed := h.claimed q d w₀ hw₀
    rw [RegistrationRumor.refreshed]
    split <;> exact hdeed

theorem Vouched.published {client : ClientIdentity} {records : List Record} {t : UInt64}
    {sig : List UInt8} {g : Registration} (h : s.Vouched P) (hg : s.lookup d = some g)
    (hk : g.clientKey = client.key) : (s.published client d records t sig).Vouched P where
  registered d' g' hg' := by
    rw [lookup_published hg hk] at hg'
    split at hg'
    · rename_i hd
      obtain rfl := Option.some.inj hg'
      rw [hd]
      exact h.registered d g hg
    · exact h.registered d' g' hg'
  claimed q d' w hw := by
    obtain ⟨w₀, hw₀, rfl | rfl⟩ := exists_claim_of_published hg hk hw
    · exact h.claimed q d' w hw₀
    · have hdeed := h.claimed q d' w₀ hw₀
      rw [RegistrationRumor.recordsSigned]
      split <;> exact hdeed

theorem Vouched.granted {client : ClientIdentity} {token : RegistrationToken} (h : s.Vouched P)
    (hd : P ⟨d, client.key, token⟩) : (s.granted client d token).Vouched P where
  registered d' g hg := by
    rw [lookup_granted] at hg
    split at hg
    · rename_i he
      obtain rfl := Option.some.inj hg
      rw [he]
      exact hd
    · exact h.registered d' g hg
  claimed := h.claimed

/-- **No event makes up a deed.** -/
theorem Vouched.after (h : s.Vouched P) (e : Event)
    (hgrants : ∀ envelope client, GrantedBy E s e envelope client →
      P ⟨envelope.body.domain, client.key, e.token⟩)
    (hadopts : ∀ r, e.op = .adoptRumor r → P r.claimId) : (s.after E e).Vouched P := by
  obtain ⟨answer, s', ho, heq⟩ := exists_change E s e
  rw [heq]
  cases ho with
  | idle _ _ => exact h
  | probed _ _ => exact h.probed
  | published _ _ hg hk => exact h.published hg hk
  | adopted op _ => exact h.filed (hadopts _ op)
  | reclaimed _ _ => exact h.reclaimStale _
  | panicked hg _ => exact (h.reclaimStale _).granted (hgrants _ _ hg)
  | leased hg _ => exact ((h.reclaimStale _).granted (hgrants _ _ hg)).filed (hgrants _ _ hg)

theorem Vouched.adoptAll {l : List RegistrationRumor} (h : s.Vouched P)
    (hl : ∀ r ∈ l, P r.claimId) : (s.adoptAll E now l).Vouched P :=
  adoptAll_induction h fun _ r hr _ ht => ht.filed (hl r hr)

/-- A node answers with deeds it holds. -/
theorem Vouched.answerFor (h : s.Vouched P) (hc : Consistent E s) {domains : List DomainName} :
    ∀ r ∈ s.answerFor domains, P r.claimId := by
  intro r hr
  obtain ⟨-, g, hg, hgr⟩ := (mem_answerFor hc).mp hr
  have hl := hc.leased _ g r hg hgr not_false
  have hdeed := h.registered _ g hg
  rwa [hl.clientKey, hl.token] at hdeed

end RegistryStore

namespace Daemon

open RegistryStore

variable {Address : Type} [DecidableEq Address] {E : Ed25519}
  {parse : ByteArray → Option Json} {ip : Address → Fcrdns.IpAddr} {d : Daemon Address}
  {e : DaemonEvent Address} {P : ClaimId → Prop}

/-- In the round a registration is granted: the address that asks for it is verified, and the
request is signed by the client that gets it. -/
def Grants (E : Ed25519) (parse : ByteArray → Option Json) (ip : Address → Fcrdns.IpAddr)
    (d : Daemon Address) (e : DaemonEvent Address) (deed : ClaimId) : Prop :=
  ∃ r env lookups envelope client, e = .api r env lookups ∧ d.allows .api r = true ∧
    decode parse ClientRequest.deserialize r.received = .ok (.register envelope) ∧
    d.verifier.verify lookups (ip r.sender) envelope.rdns = true ∧
    GrantedBy E d.node.store { env, op := .request (.register envelope) true } envelope client ∧
    deed = ⟨envelope.body.domain, client.key, RegistrationToken.issue env.now env.nonce⟩

/-- In the round a gossip message with the deed is received. -/
def Hears (parse : ByteArray → Option Json) (e : DaemonEvent Address) (deed : ClaimId) : Prop :=
  ∃ r env message, e = .gossip r env ∧
    decode parse GossipMessage.deserialize r.received = .ok message ∧ deed ∈ message.deeds

/-- A registration that the store grants is granted in the round. -/
theorem grants_of_grantedBy {r : Receipt Address} {env : Ambient} {lookups : Lookups}
    {request : ClientRequest} {envelope : SignedEnvelope RegisterBody} {client : ClientIdentity}
    (hallows : d.allows .api r = true)
    (hdecode : decode parse ClientRequest.deserialize r.received = .ok request)
    (h : GrantedBy E d.node.store
      { env, op := .request request (d.rdnsVerified ip lookups r.sender request) } envelope
        client) :
    d.Grants E parse ip (.api r env lookups)
      ⟨envelope.body.domain, client.key, RegistrationToken.issue env.now env.nonce⟩ := by
  have hop := h.op
  obtain ⟨hrequest, hverified⟩ := Operation.request.inj hop
  have hrequest : request = .register envelope := hrequest
  subst hrequest
  have hverified : d.rdnsVerified ip lookups r.sender (.register envelope) = true := hverified
  rw [hverified] at h
  exact ⟨r, env, lookups, envelope, client, rfl, hallows, hdecode, hverified, h, rfl⟩

/-- **What a round can do to the store**: nothing, adopt the rumors of a gossip message, or handle
a client's request. -/
theorem store_after_cases (E : Ed25519) (parse : ByteArray → Option Json)
    (ip : Address → Fcrdns.IpAddr) (d : Daemon Address) (e : DaemonEvent Address) :
    (d.after E parse ip e).node.store = d.node.store ∨
      (∃ r env message, e = .gossip r env ∧
        decode parse GossipMessage.deserialize r.received = .ok message ∧
        (d.after E parse ip e).node.store =
          d.node.store.adoptAll E env.now (d.node.handed r.sender message)) ∨
      ∃ r env lookups request, e = .api r env lookups ∧ d.allows .api r = true ∧
        decode parse ClientRequest.deserialize r.received = .ok request ∧
        (d.after E parse ip e).node.store = d.node.store.after E
          { env, op := .request request (d.rdnsVerified ip lookups r.sender request) } := by
  rw [node_after]
  cases e with
  | gossip r env =>
    rw [arrival]
    by_cases hallows : d.allows .gossip r = true
    · rw [if_pos hallows]
      dsimp only
      rw [Node.arrive, Arrival.event]
      cases hdecode : decode parse GossipMessage.deserialize r.received with
      | error _ => exact Or.inl rfl
      | ok message =>
        dsimp only
        by_cases hformed : isWellFormed message = true
        · rw [if_pos hformed]
          refine Or.inr (Or.inl ⟨r, env, message, rfl, hdecode, ?_⟩)
          exact Node.store_handleGossipMessage message
        · rw [if_neg hformed]
          exact Or.inl rfl
    · rw [if_neg hallows]
      exact Or.inl rfl
  | api r env lookups =>
    rw [arrival]
    by_cases hlistens : d.apiRunning = true ∧ d.allows .api r = true
    · rw [if_pos hlistens]
      dsimp only
      rw [Node.arrive, Arrival.event]
      cases hdecode : decode parse ClientRequest.deserialize r.received with
      | error _ => exact Or.inl rfl
      | ok request =>
        exact Or.inr (Or.inr ⟨r, env, lookups, request, rfl, hlistens.2, hdecode, rfl⟩)
    · rw [if_neg hlistens]
      exact Or.inl rfl
  | maintenance instant => exact Or.inl rfl
  | resolver r => exact Or.inl rfl
  | dns r => exact Or.inl rfl
  | push draw order => exact Or.inl rfl

/-- **No round makes up a deed.** -/
theorem vouched_after (h : d.node.store.Vouched P)
    (hgrants : ∀ deed, d.Grants E parse ip e deed → P deed)
    (hhears : ∀ deed, Hears parse e deed → P deed) :
    (d.after E parse ip e).node.store.Vouched P := by
  rcases store_after_cases E parse ip d e with heq | ⟨r, env, message, rfl, hdecode, heq⟩ |
    ⟨r, env, lookups, request, rfl, hallows, hdecode, heq⟩
  · rw [heq]
    exact h
  · rw [heq]
    refine h.adoptAll fun w hw => hhears _ ⟨r, env, message, rfl, hdecode, ?_⟩
    obtain ⟨_, rumors, _, rfl, hhanded, _⟩ := Node.mem_handed hw
    rw [hhanded] at hw
    exact GossipMessage.mem_deeds_rumors.mpr (List.mem_map_of_mem hw)
  · rw [heq]
    refine h.after _ (fun envelope client hg => ?_) fun _ hop => by cases hop
    exact hgrants _ (grants_of_grantedBy hallows hdecode hg)

/-- **The gossip socket sends no other deeds than the store holds.** -/
theorem vouched_sent (h : d.node.store.Vouched P) (hc : Consistent E d.node.store) :
    ∀ m ∈ d.sent E parse ip e, m.listener = .gossip →
      ∃ message, encode GossipMessage.serialize message = .ok m.bytes ∧
        ∀ deed ∈ message.deeds, P deed := by
  have hencoded : ∀ (destination : Address) (message : GossipMessage),
      (∀ deed ∈ message.deeds, P deed) →
      ∀ m ∈ sendEncoded .gossip destination GossipMessage.serialize message,
        ∃ message, encode GossipMessage.serialize message = .ok m.bytes ∧
          ∀ deed ∈ message.deeds, P deed := by
    intro destination message hdeeds m hm
    rw [sendEncoded] at hm
    split at hm
    · rename_i bytes hbytes
      rw [List.mem_singleton.mp hm]
      exact ⟨message, hbytes, hdeeds⟩
    · cases hm
  intro m hm hgossip
  have hreceipt : ∀ l r, e.receipt = some (l, r) → l = .gossip := by
    intro l r he
    rw [← hgossip, ((@oneTo_sent _ _ E parse ip d e l r he).1.2 m hm).1]
  cases e with
  | resolver r => cases hreceipt _ _ rfl
  | api r env lookups => cases hreceipt _ _ rfl
  | dns r => cases hreceipt _ _ rfl
  | maintenance instant => cases hm
  | push draw order =>
    rw [sent, round, gossipPush] at hm
    split at hm
    · cases hm
    · exact hencoded _ _ (fun deed hdeed => by cases hdeed) m hm
  | gossip r env =>
    rw [sent, round] at hm
    by_cases hallows : d.allows .gossip r = true
    · rw [serve_of_allowed hallows, heardGossip] at hm
      cases hdecode : decode parse GossipMessage.deserialize r.received with
      | error _ =>
        rw [hdecode] at hm
        cases hm
      | ok message =>
        rw [hdecode] at hm
        dsimp only at hm
        split at hm
        · cases hm
        · obtain ⟨reply, hreply, hm⟩ := List.mem_flatMap.mp hm
          refine hencoded _ _ (fun deed hdeed => ?_) m hm
          -- the reply with deeds is the one to a request
          cases message with
          | digest entries =>
            rw [Node.handleGossipMessage] at hreply
            split at hreply
            · cases hreply
            · rw [Option.mem_toList, Option.some_inj] at hreply
              rw [← hreply] at hdeed
              cases hdeed
          | request domains challenge =>
            rw [Node.handleGossipMessage, Option.mem_toList, Option.some_inj] at hreply
            rw [← hreply] at hdeed
            obtain ⟨w, hw, rfl⟩ := List.mem_map.mp (GossipMessage.mem_deeds_rumors.mp hdeed)
            exact h.answerFor hc w hw
          | rumors rumors answer =>
            rw [Node.handleGossipMessage_rumors_fst] at hreply
            cases hreply
    · rw [serve_of_refused (Bool.eq_false_iff.mpr hallows)] at hm
      cases hm

end Daemon

end Binda
