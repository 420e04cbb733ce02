import Binda.Node.Replies

/-!
# When the clients' listener dies

A panic under the listener for clients ends its task, and nothing starts it again.

* `apiRunning_past_iff`: the task is gone exactly if a registration was once granted to a client
  without probe evidence of its own.
* `round_of_stopped`: from then on the listener sends nothing and changes nothing.
* `neighbour_ends_service`: two datagrams are enough, a probe by one client and a registration by
  another client of the same host.
-/

namespace Binda

namespace RegistryStore

variable {E : Ed25519} {s : RegistryStore} {env : Ambient} {request : ClientRequest} {v : Bool}

/-- **When a request panics.** -/
theorem handleClientRequest_panics_iff :
    (∃ panic, (s.handleClientRequest E env request v).1 = .error panic) ↔
      ∃ envelope client, GrantedBy E s { env, op := .request request v } envelope client ∧
        s.lastProbeEvidence client = none := by
  have hanswer : s.answer E { env, op := .request request v } =
      some (s.handleClientRequest E env request v).1 := rfl
  constructor
  · rintro ⟨panic, hpanic⟩
    have hchange := outcome E s { env, op := .request request v }
    rw [hanswer, hpanic] at hchange
    generalize s.after E { env, op := .request request v } = s' at hchange
    cases hchange with
    | idle ha _ => rcases ha with ha | ⟨_, ha⟩ <;> cases ha
    | reclaimed ha _ => rcases ha with ha | ⟨_, ha⟩ <;> cases ha
    | panicked hgranted hmissing => exact ⟨_, _, hgranted, hmissing⟩
  · rintro ⟨envelope, client, hgranted, hmissing⟩
    rw [(step_of_panicked hgranted hmissing).1] at hanswer
    exact ⟨_, (Option.some.inj hanswer).symm⟩

end RegistryStore

namespace Daemon

open RegistryStore

variable {Address : Type} [DecidableEq Address] {E : Ed25519}
  {parse : ByteArray → Option Json} {ip : Address → Fcrdns.IpAddr} {initial : List Address}
  {verifier : RdnsVerifier} {d : Daemon Address} {e : DaemonEvent Address}
  {es : List (DaemonEvent Address)}

/-- In the round a registration is granted to a client that has no probe evidence. -/
def Fatal (E : Ed25519) (parse : ByteArray → Option Json) (ip : Address → Fcrdns.IpAddr)
    (d : Daemon Address) (e : DaemonEvent Address) : Prop :=
  ∃ r env lookups request envelope client, e = .api r env lookups ∧ d.allows .api r = true ∧
    decode parse ClientRequest.deserialize r.received = .ok request ∧
    GrantedBy E d.node.store
      { env, op := .request request (d.rdnsVerified ip lookups r.sender request) } envelope client ∧
    d.node.store.lastProbeEvidence client = none

/-! ### One round -/

theorem apiRunning_heardGossip {env : GossipAmbient Address} {sender : Address}
    {bytes : ByteArray} :
    (d.heardGossip E parse env sender bytes).1.apiRunning = d.apiRunning := by
  rw [heardGossip]
  split
  · rfl
  · split <;> rfl

omit [DecidableEq Address] in
/-- A request ends the task if it panics. -/
theorem apiRunning_heardRequest {env : Ambient} {lookups : Lookups} {sender : Address}
    {bytes : ByteArray} (hrunning : d.apiRunning = true) :
    (d.heardRequest E parse ip env lookups sender bytes).1.apiRunning = false ↔
      ∃ request, decode parse ClientRequest.deserialize bytes = .ok request ∧
        ∃ panic, (d.node.store.handleClientRequest E env request
          (d.rdnsVerified ip lookups sender request)).1 = .error panic := by
  rw [heardRequest]
  cases hdecode : decode parse ClientRequest.deserialize bytes with
  | error err =>
    dsimp only
    rw [hrunning]
    refine ⟨fun h => (by cases h), ?_⟩
    rintro ⟨request, hrequest, -⟩
    cases hrequest
  | ok request =>
    dsimp only
    cases hresult : (d.node.store.handleClientRequest E env request
        (d.rdnsVerified ip lookups sender request)).1 with
    | ok response =>
      dsimp only
      rw [hrunning]
      refine ⟨fun h => (by cases h), ?_⟩
      rintro ⟨request', hrequest, panic, hpanic⟩
      obtain rfl := Except.ok.inj hrequest
      rw [hresult] at hpanic
      cases hpanic
    | error panic => exact ⟨fun _ => ⟨request, rfl, panic, hresult⟩, fun _ => rfl⟩

/-- **A round ends the task exactly if it is fatal.** -/
theorem apiRunning_after_iff (hrunning : d.apiRunning = true) :
    (d.after E parse ip e).apiRunning = false ↔ d.Fatal E parse ip e := by
  have hother : (∀ r env lookups, e ≠ .api r env lookups) →
      (d.after E parse ip e).apiRunning = d.apiRunning →
        ((d.after E parse ip e).apiRunning = false ↔ d.Fatal E parse ip e) := by
    intro hne hsame
    rw [hsame, hrunning]
    refine ⟨fun h => (by cases h), ?_⟩
    rintro ⟨r, env, lookups, _, _, _, he, _⟩
    exact absurd he (hne r env lookups)
  cases e with
  | gossip r env =>
    exact hother (fun _ _ _ h => by cases h)
      (serve_keeps apiRunning rfl fun _ => apiRunning_heardGossip)
  | resolver r =>
    exact hother (fun _ _ _ h => by cases h)
      (serve_keeps apiRunning rfl fun _ => by rw [heardQuery_fst])
  | dns r =>
    exact hother (fun _ _ _ h => by cases h)
      (serve_keeps apiRunning rfl fun _ => by rw [heardLookup_fst])
  | push draw order =>
    refine hother (fun _ _ _ h => by cases h) ?_
    rw [after, round, gossipPush_fst]
  | maintenance instant => exact hother (fun _ _ _ h => by cases h) rfl
  | api r env lookups =>
    rw [after, round, if_pos hrunning]
    by_cases hallows : d.allows .api r = true
    · have hasked : (d.asked .api r).apiRunning = true := hrunning
      rw [serve_of_allowed hallows, apiRunning_heardRequest hasked]
      constructor
      · rintro ⟨request, hrequest, hpanic⟩
        obtain ⟨envelope, client, hgranted, hmissing⟩ := handleClientRequest_panics_iff.mp hpanic
        exact ⟨r, env, lookups, request, envelope, client, rfl, hallows, hrequest, hgranted,
          hmissing⟩
      · rintro ⟨r', env', lookups', request, envelope, client, he, -, hrequest, hgranted, hmissing⟩
        obtain ⟨rfl, rfl, rfl⟩ := DaemonEvent.api.inj he
        exact ⟨request, hrequest,
          handleClientRequest_panics_iff.mpr ⟨envelope, client, hgranted, hmissing⟩⟩
    · rw [serve_of_refused (Bool.eq_false_iff.mpr hallows)]
      have hsame : (d.asked .api r).apiRunning = d.apiRunning := rfl
      rw [hsame, hrunning]
      refine ⟨fun h => (by cases h), ?_⟩
      rintro ⟨r', env', lookups', _, _, _, he, hallows', _⟩
      obtain ⟨rfl, rfl, rfl⟩ := DaemonEvent.api.inj he
      exact absurd hallows' hallows

/-- A task that is gone stays gone. -/
theorem apiRunning_after_of_stopped (hstopped : d.apiRunning = false) :
    (d.after E parse ip e).apiRunning = false := by
  cases e with
  | gossip r env => exact (serve_keeps apiRunning rfl fun _ => apiRunning_heardGossip).trans hstopped
  | resolver r => exact (serve_keeps apiRunning rfl fun _ => by rw [heardQuery_fst]).trans hstopped
  | dns r => exact (serve_keeps apiRunning rfl fun _ => by rw [heardLookup_fst]).trans hstopped
  | push draw order =>
    rw [after, round, gossipPush_fst]
    exact hstopped
  | maintenance instant => exact hstopped
  | api r env lookups =>
    rw [after, round, if_neg (by rw [hstopped]; exact Bool.false_ne_true)]
    exact hstopped

/-- Its datagrams change nothing and are not answered. -/
theorem round_of_stopped (hstopped : d.apiRunning = false) (r : Receipt Address) (env : Ambient)
    (lookups : Lookups) : d.round E parse ip (.api r env lookups) = (d, []) := by
  rw [round, if_neg (by rw [hstopped]; exact Bool.false_ne_true)]

/-! ### Runs -/

/-- **When the clients' listener is gone.**  After any rounds its task is gone exactly if one of
them was fatal; then, whatever comes later, a datagram for it changes nothing and is not
answered. -/
theorem apiRunning_past_iff (E : Ed25519) (parse : ByteArray → Option Json)
    (ip : Address → Fcrdns.IpAddr) (initial : List Address) (verifier : RdnsVerifier)
    (es : List (DaemonEvent Address)) :
    ((past E parse ip initial verifier es).apiRunning = false ↔
        ∃ l e m, es = l ++ e :: m ∧ (past E parse ip initial verifier l).Fatal E parse ip e) ∧
      ((past E parse ip initial verifier es).apiRunning = false →
        ∀ later r env lookups, (past E parse ip initial verifier (es ++ later)).round E parse ip
          (.api r env lookups) = (past E parse ip initial verifier (es ++ later), [])) := by
  constructor
  · induction es using List.reverseRecOn with
    | nil =>
      refine ⟨fun h => (by cases h), ?_⟩
      rintro ⟨l, e, m, h, -⟩
      cases l <;> cases h
    | append_singleton es e ih =>
      rw [past_concat]
      by_cases hrunning : (past E parse ip initial verifier es).apiRunning = true
      · rw [apiRunning_after_iff hrunning]
        constructor
        · intro hfatal
          exact ⟨es, e, [], rfl, hfatal⟩
        · rintro ⟨l, e', m, h, hfatal⟩
          rcases List.eq_nil_or_concat m with rfl | ⟨m, e'', rfl⟩
          · obtain ⟨rfl, he⟩ := List.append_inj' h rfl
            rwa [(List.cons.inj he).1]
          · -- a fatal round before the last would have ended it already
            rw [List.concat_eq_append, ← List.cons_append, ← List.append_assoc] at h
            obtain ⟨rfl, -⟩ := List.append_inj' h rfl
            rw [ih.mpr ⟨l, e', m, rfl, hfatal⟩] at hrunning
            cases hrunning
      · rw [Bool.not_eq_true] at hrunning
        refine ⟨fun _ => ?_, fun _ => apiRunning_after_of_stopped hrunning⟩
        obtain ⟨l, e', m, rfl, hfatal⟩ := ih.mp hrunning
        exact ⟨l, e', m ++ [e], by simp, hfatal⟩
  · intro hstopped later r env lookups
    refine round_of_stopped ?_ r env lookups
    induction later using List.reverseRecOn with
    | nil => rwa [List.append_nil]
    | append_singleton later e ih =>
      rw [← List.append_assoc, past_concat]
      exact apiRunning_after_of_stopped ih

/-! ### Two clients of one host -/

/-- Two clients of one host are heard: the one probes, the other registers. -/
structure Neighbours (E : Ed25519) (probe : SignedEnvelope ProbeBody)
    (register : SignedEnvelope RegisterBody) (env env' : Ambient)
    (prober registrant : ClientIdentity) : Prop where
  probed : authenticate E probe (probeMessage probe.timestampMillis) env.now = .ok prober
  registers : authenticate E register
    (registerMessage register.body.domain register.timestampMillis) env'.now = .ok registrant
  host : prober.quotaKey = registrant.quotaKey
  key : prober.key ≠ registrant.key
  live : withinWindow env.now env'.now = true

/-- The registration of the second is granted, and has no evidence. -/
theorem Neighbours.granted {probe : SignedEnvelope ProbeBody}
    {register : SignedEnvelope RegisterBody} {env env' : Ambient}
    {prober registrant : ClientIdentity}
    (h : Neighbours E probe register env env' prober registrant) :
    let s := RegistryStore.new.probed prober env.now probe.timestampMillis probe.signature
    GrantedBy E s { env := env', op := .request (.register register) true } register registrant ∧
      s.lastProbeEvidence registrant = none := by
  intro s
  have hlast : s.liveness.lastSeenMillis.lookup registrant.quotaKey = some env.now :=
    lastSeen_probed.trans (if_pos h.host.symm)
  have hnone : ∀ d, s.lookup d = none := fun d => lookup_probed
  have hclaims : ∀ q, s.claims q = ClaimTable.empty := fun q => claims_probed
  refine ⟨⟨rfl, h.registers, LivenessTracker.isLive_iff.mpr ⟨_, hlast, h.live⟩, ?_, ?_⟩, ?_⟩
  · rw [Option.eq_none_iff_forall_ne_some]
    intro g hg
    rcases lookup_reclaimStale_cases hg with hg | ⟨q, w, hw, -⟩
    · rw [hnone] at hg
      cases hg
    · rw [hclaims] at hw
      cases hw
  · show (0 : Nat) < maxRegistrationsPerClient
    decide
  · exact probeEvidence_probed.trans (if_neg (Ne.symm h.key))

/-- The first two calls of a fresh limiter are allowed, whoever makes them. -/
theorem allows_second {d : Daemon Address} {r r' : Receipt Address} {listener : Listener}
    (h : d.limiter listener = RateLimiter.newRateLimiter.call r.call) :
    d.allows listener r' = true := by
  have hburst : (1 : Rat) ≤ (RateLimiter.newRateLimiter : RateLimiter Address).capacity :=
    RateLimiter.one_le_burst
  have hnone : ∀ key, (RateLimiter.newRateLimiter : RateLimiter Address).buckets.lookup key =
      none := fun _ => rfl
  have hsame : (RateLimiter.newRateLimiter.call r.call).capacity =
        (RateLimiter.newRateLimiter : RateLimiter Address).capacity ∧
      (RateLimiter.newRateLimiter.call r.call).refillPerSec =
        (RateLimiter.newRateLimiter : RateLimiter Address).refillPerSec := ⟨rfl, rfl⟩
  rw [allows, h, RateLimiter.allowAt_fst, RateLimiter.visitOf, hsame.1, hsame.2,
    RateLimiter.lookup_call]
  split
  · -- the same address once more: one token of the burst is gone
    refine TokenBucket.visit_fst_some hburst RateLimiter.RATE_LIMIT_PER_SEC_pos.le ?_
    rw [RateLimiter.visitOf, hnone, TokenBucket.visit_tokens, TokenBucket.level_none,
      TokenBucket.visit_fst_none hburst, if_pos rfl]
    show (1 : Rat) ≤ (RateLimiter.RATE_LIMIT_BURST.toNat : Rat) - 1
    decide +kernel
  · rw [hnone, ite_self]
    exact TokenBucket.visit_fst_none hburst

/-- **Two datagrams end the service for clients.**  Of two clients of one host the one probes and
the other, which has not, registers any name: the first panic of a fresh node. -/
theorem neighbour_ends_service (E : Ed25519) {parse : ByteArray → Option Json}
    (ip : Address → Fcrdns.IpAddr) (initial : List Address) {verifier : RdnsVerifier}
    {probe : SignedEnvelope ProbeBody} {register : SignedEnvelope RegisterBody}
    {env env' : Ambient} {prober registrant : ClientIdentity} {r r' : Receipt Address}
    {lookups lookups' : Lookups} (hparse : ReadsWritten parse ClientRequest.serialize)
    (h : Neighbours E probe register env env' prober registrant)
    (hprobe : encode ClientRequest.serialize (.probe probe) = .ok r.bytes)
    (hregister : encode ClientRequest.serialize (.register register) = .ok r'.bytes)
    (hverified : verifier.verify lookups' (ip r'.sender) register.rdns = true) :
    (past E parse ip initial verifier [.api r env lookups, .api r' env' lookups']).apiRunning =
      false := by
  have hburst : (1 : Rat) ≤ (RateLimiter.newRateLimiter : RateLimiter Address).capacity :=
    RateLimiter.one_le_burst
  have hallows : (new initial verifier).allows .api r = true := allows_of_untracked hburst rfl
  have hdecode' := decode_of_encode hparse readsBack_request hregister
  have hstep := step_of_probed (E := E) (s := RegistryStore.new)
    (e := { env, op := .request (.probe probe) true }) rfl h.probed
  have hresult : RegistryStore.new.handleClientRequest E env (.probe probe) true =
      (.ok .probeAck,
        RegistryStore.new.probed prober env.now probe.timestampMillis probe.signature) :=
    Prod.ext (Option.some.inj hstep.1) hstep.2
  -- the probe is accepted, and the listener goes on
  have hround : (new initial verifier).after E parse ip (.api r env lookups) =
      { (new initial verifier).asked .api r with
        node := { (new initial verifier).node with
          store := RegistryStore.new.probed prober env.now probe.timestampMillis
            probe.signature } } :=
    congrArg Prod.fst (round_of_request hparse hprobe rfl hallows hresult)
  obtain ⟨hgranted, hmissing⟩ := h.granted
  set d := (new initial verifier).after E parse ip (.api r env lookups) with hd
  have hallows' : d.allows .api r' = true := allows_second (r := r) (by rw [hround]; rfl)
  have hrunning : d.apiRunning = true := by rw [hround]; rfl
  have hstore : d.node.store =
      RegistryStore.new.probed prober env.now probe.timestampMillis probe.signature := by
    rw [hround]
  have hrdns : d.rdnsVerified ip lookups' r'.sender (.register register) = true := by
    rw [hround]
    exact hverified
  refine (apiRunning_after_iff hrunning).mpr ?_
  refine ⟨r', env', lookups', .register register, register, registrant, rfl, hallows', hdecode',
    ?_, ?_⟩
  · rw [hrdns, hstore]
    exact hgranted
  · rw [hstore]
    exact hmissing

/-- No resolver is asked. -/
def noLookups : Lookups := { id := 0, idA := 0, idAaaa := 0, resolvers := [] }

theorem neighbours_host : Neighbours Ed25519.sample
    ((sampleClient 1 "host").envelope 1000 {} (probeMessage 1000))
    ((sampleClient 2 "host").envelope 1000 { domain := ⟨"name"⟩ } (registerMessage ⟨"name"⟩ 1000))
    (sampleAmbient 1000 0) (sampleAmbient 1000 0) (sampleClient 1 "host")
    (sampleClient 2 "host") where
  probed := authenticate_eq_ok.mpr ⟨by decide, rfl, rfl, signed_stamp _ _⟩
  registers := authenticate_eq_ok.mpr ⟨by decide, rfl, rfl, signed_stamp _ _⟩
  host := rfl
  key := by decide +kernel
  live := by decide

/-- Two keys behind one host name. -/
theorem neighbour_ends_service_host :
    (past Ed25519.sample readText loopback [] .allowAll
      [.api (requestFrom true ((sampleClient 1 "host").probeRequest 1000)) (sampleAmbient 1000 0)
          noLookups,
        .api (requestFrom true ((sampleClient 2 "host").registerRequest 1000 ⟨"name"⟩))
          (sampleAmbient 1000 0) noLookups]).apiRunning = false :=
  neighbour_ends_service Ed25519.sample loopback [] (readsWritten_readText plain_request)
    neighbours_host (encode_requestFrom (by decide +kernel))
    (encode_requestFrom (by decide +kernel)) rfl

end Daemon

end Binda
