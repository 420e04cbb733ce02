import Binda.Core.Wire
import Binda.Node.Exchange
import Binda.Registry.Origin
import Binda.Registry.Sample

/-!
# What fits a datagram

A digest lists every registration, a request every domain that is wanted, and a
reply every lease that is wanted.  None of them is ever split, and one that
`encode` refuses is not sent.  `sendable_iff` counts the bytes: it says for which
pairs of stores all the messages of an exchange can be sent and pass
`is_well_formed`.

`reply_too_large` is an exchange whose reply cannot be sent: two leases of
long names.
-/

namespace Binda

open Json

/-- The message can be encoded, and the receiver lets it through. -/
def Sendable (m : GossipMessage) : Prop :=
  (∃ bytes, encode GossipMessage.serialize m = .ok bytes) ∧ isWellFormed m = true

namespace RegistryStore

variable {a b : RegistryStore} {d : DomainName} {g : Registration}

/-- The registrations and their domains. -/
def held (s : RegistryStore) : List (DomainName × Registration) :=
  s.registrations.keys.filterMap fun d => (s.lookup d).map fun g => (d, g)

/-- Those of them that `b` lacks, or holds by a token issued earlier. -/
def wanted (a b : RegistryStore) : List (DomainName × Registration) :=
  a.held.filter fun p =>
    (b.lookup p.1).all fun g => g.token.issuedAtMillis < p.2.token.issuedAtMillis

/-- The leases of those. -/
def wantedLeases (a b : RegistryStore) : List RegistrationRumor :=
  (a.wanted b).filterMap fun p => p.2.rumor.map fun r => { r with domain := p.1 }

/-- The registrations are few enough for a digest, and their names short enough. -/
structure DigestFits (a : RegistryStore) : Prop where
  few : a.held.length ≤ maxDigestEntries
  short : 24 + separated (a.held.map fun p =>
      (DigestEntry.serialize ⟨p.1, p.2.token.issuedAtMillis⟩).size) ≤ maxDatagramBytes

/-- The wanted names are few and short enough for a request. -/
structure RequestFits (a b : RegistryStore) (challenge : ConformanceChallenge) : Prop where
  few : (a.wanted b).length ≤ maxRequestEntries
  short : 39 + separated ((a.wanted b).map fun p => p.1.serialize.size) +
    challenge.serialize.size ≤ maxDatagramBytes

/-- The wanted leases are few and short enough for a reply. -/
structure ReplyFits (a b : RegistryStore) (challengeAnswer : RegistrationToken) : Prop where
  few : (a.wantedLeases b).length ≤ maxDigestEntries
  short : 44 + separated ((a.wantedLeases b).map fun r => r.serialize.size) +
    challengeAnswer.serialize.size ≤ maxDatagramBytes

end RegistryStore

/-! ### The bytes of a message -/

theorem separated_singleton (n : Nat) : separated [n] = n := rfl

theorem separated_pair (m n : Nat) : separated [m, n] = m + 1 + n := separated_cons_cons m n []

/-- A message is an object with one member. -/
theorem size_variant (name : String) (content : Json) :
    (object [(name, content)]).size = (string name).size + content.size + 3 := by
  rw [size_object, List.map_singleton, separated_singleton, memberSize]
  dsimp only
  omega

theorem size_elements {α : Type} (serialize : α → Json) (l : List α) :
    (array (l.map serialize)).size = separated (l.map fun x => (serialize x).size) + 2 := by
  rw [size_array, List.map_map]
  rfl

theorem size_digest (entries : List DigestEntry) :
    (GossipMessage.serialize (.digest entries)).size =
      24 + separated (entries.map fun entry => entry.serialize.size) := by
  have h1 : (string "Digest").size = 8 := by decide
  have h2 : (string "rumors").size = 8 := by decide
  rw [GossipMessage.serialize, size_variant, size_variant, size_elements, h1, h2]
  omega

theorem size_request (domains : List DomainName) (challenge : ConformanceChallenge) :
    (GossipMessage.serialize (.request domains challenge)).size =
      39 + separated (domains.map fun d => d.serialize.size) + challenge.serialize.size := by
  have h1 : (string "Request").size = 9 := by decide
  have h2 : (string "domains").size = 9 := by decide
  have h3 : (string "challenge").size = 11 := by decide
  rw [GossipMessage.serialize, size_variant, size_object, List.map_cons, List.map_singleton,
    separated_pair, memberSize, memberSize, size_elements]
  simp only [h1, h2, h3]
  omega

theorem size_rumors (leases : List RegistrationRumor) (challengeAnswer : RegistrationToken) :
    (GossipMessage.serialize (.rumors leases challengeAnswer)).size =
      44 + separated (leases.map fun r => r.serialize.size) + challengeAnswer.serialize.size := by
  have h1 : (string "Rumors").size = 8 := by decide
  have h2 : (string "rumors").size = 8 := by decide
  have h3 : (string "challenge_answer").size = 18 := by decide
  rw [GossipMessage.serialize, size_variant, size_object, List.map_cons, List.map_singleton,
    separated_pair, memberSize, memberSize, size_elements]
  simp only [h1, h2, h3]
  omega

/-! ### What the messages list -/

namespace RegistryStore

variable {a b : RegistryStore} {d : DomainName} {g : Registration}
  {order : VisitOrder DomainName}

theorem mem_held : (d, g) ∈ a.held ↔ a.lookup d = some g := by
  rw [held, List.mem_filterMap]
  constructor
  · rintro ⟨d', _, h⟩
    obtain ⟨g', hg', he⟩ := Option.map_eq_some_iff.mp h
    obtain ⟨rfl, rfl⟩ := Prod.mk.inj he
    exact hg'
  · intro hg
    have hl : a.registrations.lookup d = some g := hg
    exact ⟨d, Table.mem_keys_iff.mpr ⟨g, hl⟩, by rw [hg, Option.map_some]⟩

/-- A digest lists what is held, in some order. -/
theorem digestEntries_perm :
    (a.digestEntries order).Perm (a.held.map fun p => ⟨p.1, p.2.token.issuedAtMillis⟩) := by
  rw [digestEntries, allRumors, held, List.map_filterMap, List.map_filterMap]
  refine ((order.perm _).filterMap _).trans (List.Perm.of_eq (List.filterMap_congr ?_))
  intro d _
  rw [Option.map_map, Option.map_map]
  rfl

theorem missing_perm {entries entries' : List DigestEntry} (h : entries.Perm entries') :
    (b.missing entries).Perm (b.missing entries') := (h.filter _).map _

/-- What is missing is what is wanted. -/
theorem missing_digestEntries_perm :
    (b.missing (a.digestEntries order)).Perm ((a.wanted b).map Prod.fst) := by
  refine (missing_perm digestEntries_perm).trans (List.Perm.of_eq ?_)
  rw [missing, wanted, List.filter_map, List.map_map]
  refine congrArg (List.map Prod.fst) (List.filter_congr fun p _ => ?_)
  rw [Function.comp_apply]
  cases b.lookup p.1 <;> rfl

theorem answerFor_perm {domains domains' : List DomainName} (h : domains.Perm domains') :
    (a.answerFor domains).Perm (a.answerFor domains') := h.filterMap _

/-- A reply lists the leases that are wanted. -/
theorem answerFor_missing_perm :
    (a.answerFor (b.missing (a.digestEntries order))).Perm (a.wantedLeases b) := by
  refine (answerFor_perm missing_digestEntries_perm).trans (List.Perm.of_eq ?_)
  rw [answerFor, wantedLeases, List.filterMap_map]
  refine List.filterMap_congr fun p hp => ?_
  have hg : a.lookup p.1 = some p.2 := mem_held.mp (List.mem_of_mem_filter hp)
  rw [Function.comp_apply, hg, Option.bind_some]

theorem sendable_digest :
    Sendable (.digest (a.digestEntries order)) ↔ a.DigestFits := by
  have hwell : isWellFormed (.digest (a.digestEntries order)) = true ↔
      a.held.length ≤ maxDigestEntries := by
    rw [isWellFormed, Bool.and_eq_true, decide_eq_true_eq, uniqueDomains_iff,
      digestEntries_perm.length_eq, List.length_map]
    exact and_iff_left nodup_digestEntries
  rw [Sendable, hwell, encode_eq_ok_iff, size_digest, separated_perm (digestEntries_perm.map _),
    List.map_map]
  exact ⟨fun h => ⟨h.2, h.1⟩, fun h => ⟨h.short, h.few⟩⟩

theorem sendable_request (challenge : ConformanceChallenge) :
    Sendable (.request (b.missing (a.digestEntries order)) challenge) ↔
      a.RequestFits b challenge := by
  have hwell : isWellFormed (.request (b.missing (a.digestEntries order)) challenge) = true ↔
      (a.wanted b).length ≤ maxRequestEntries := by
    rw [isWellFormed, Bool.and_eq_true, decide_eq_true_eq, uniqueDomains_iff,
      missing_digestEntries_perm.length_eq, List.length_map]
    exact and_iff_left nodup_missing
  rw [Sendable, hwell, encode_eq_ok_iff, size_request,
    separated_perm (missing_digestEntries_perm.map _), List.map_map]
  exact ⟨fun h => ⟨h.2, h.1⟩, fun h => ⟨h.short, h.few⟩⟩

theorem sendable_reply (challengeAnswer : RegistrationToken) :
    Sendable (.rumors (a.answerFor (b.missing (a.digestEntries order))) challengeAnswer) ↔
      a.ReplyFits b challengeAnswer := by
  have hwell : isWellFormed
      (.rumors (a.answerFor (b.missing (a.digestEntries order))) challengeAnswer) = true ↔
        (a.wantedLeases b).length ≤ maxDigestEntries := by
    rw [isWellFormed, Bool.and_eq_true, decide_eq_true_eq, uniqueDomains_iff,
      answerFor_missing_perm.length_eq]
    exact and_iff_left nodup_offered
  rw [Sendable, hwell, encode_eq_ok_iff, size_rumors, separated_perm (answerFor_missing_perm.map _)]
  exact ⟨fun h => ⟨h.2, h.1⟩, fun h => ⟨h.short, h.few⟩⟩

/-- Every message of an exchange fits. -/
structure ExchangeFits (a b : RegistryStore) (challenge : ConformanceChallenge) : Prop where
  digest : a.DigestFits
  request : a.wanted b ≠ [] → a.RequestFits b challenge
  reply : a.wanted b ≠ [] → a.ReplyFits b challenge.expectedAnswer

end RegistryStore

namespace Node

open RegistryStore

variable {Address : Type} [DecidableEq Address] {E : Ed25519}

/-- The messages of an exchange that `a` begins: its digest, the request of `b` and the
reply. -/
def traffic (E : Ed25519) (a b : Node Address) (addrA addrB : Address)
    (env : RoundAmbient Address) : List GossipMessage :=
  a.digest env.order ::
    match (b.handleGossipMessage E env.asking addrA (a.digest env.order)).1 with
    | none => []
    | some request =>
      request ::
        match (a.handleGossipMessage E env.answering addrB request).1 with
        | none => []
        | some reply => [reply]

/-- The challenge of a request. -/
def challengeOf (env : GossipAmbient Address) : ConformanceChallenge :=
  ConformanceChallenge.random env.now env.nonceA env.nonceB env.condition

theorem traffic_eq (a b : Node Address) (addrA addrB : Address) (env : RoundAmbient Address) :
    traffic E a b addrA addrB env =
      .digest (a.store.digestEntries env.order) ::
        if a.store.wanted b.store = [] then []
        else
          [.request (b.store.missing (a.store.digestEntries env.order)) (challengeOf env.asking),
            .rumors (a.store.answerFor (b.store.missing (a.store.digestEntries env.order)))
              (challengeOf env.asking).expectedAnswer] := by
  have hempty : (b.store.missing (a.store.digestEntries env.order)).isEmpty = true ↔
      a.store.wanted b.store = [] := by
    rw [List.isEmpty_iff, ← List.length_eq_zero_iff, missing_digestEntries_perm.length_eq,
      List.length_map, List.length_eq_zero_iff]
  rw [traffic, digest, handleGossipMessage]
  by_cases hw : a.store.wanted b.store = []
  · simp only [hw, if_true, hempty.mpr hw]
  · simp only [hw, if_false, mt hempty.mp hw, Bool.false_eq_true]
    rfl

/-- **When all the messages of an exchange can be sent.** -/
theorem sendable_iff (E : Ed25519) (a b : Node Address) (addrA addrB : Address)
    (env : RoundAmbient Address) :
    (∀ m ∈ traffic E a b addrA addrB env, Sendable m) ↔
      ExchangeFits a.store b.store (challengeOf env.asking) := by
  rw [traffic_eq]
  by_cases hw : a.store.wanted b.store = []
  · rw [if_pos hw, List.forall_mem_singleton, sendable_digest]
    exact ⟨fun h => ⟨h, absurd hw, absurd hw⟩, fun h => h.digest⟩
  · rw [if_neg hw, List.forall_mem_cons, List.forall_mem_cons, List.forall_mem_singleton,
      sendable_digest, sendable_request, sendable_reply]
    exact ⟨fun h => ⟨h.1, fun _ => h.2.1, fun _ => h.2.2⟩,
      fun h => ⟨h.digest, h.request hw, h.reply hw⟩⟩

/-! ### A reply that does not fit -/

/-- A lease takes at least its name and two signatures, two bytes for each of theirs. -/
theorem size_lease_ge {r : RegistrationRumor} (hr : r.registrationSignature.length = 64)
    (hp : r.probeSignature.length = 64) : r.domain.raw.toList.length + 256 ≤ r.serialize.size := by
  have hname := length_le_size_string r.domain.raw
  have hregister := two_mul_length_le_size_array UInt8.toNat r.registrationSignature
  have hprobe := two_mul_length_le_size_array UInt8.toNat r.probeSignature
  rw [hr] at hregister
  rw [hp] at hprobe
  rw [RegistrationRumor.serialize, size_object, separated]
  simp only [List.map_cons, List.sum_cons, memberSize, DomainName.serialize, serializeBytes]
  omega

theorem add_le_sum_map {α : Type} [DecidableEq α] (f : α → Nat) {l : List α} {x y : α}
    (hx : x ∈ l) (hy : y ∈ l) (hne : x ≠ y) : f x + f y ≤ (l.map f).sum := by
  have hy' : y ∈ l.erase x := (List.mem_erase_of_ne hne.symm).mpr hy
  rw [((List.perm_cons_erase hx).map f).sum_nat, List.map_cons, List.sum_cons,
    ((List.perm_cons_erase hy').map f).sum_nat, List.map_cons, List.sum_cons]
  omega

/-- A lease that is wanted is offered. -/
theorem mem_wantedLeases {s t : RegistryStore} {r : RegistrationRumor} {q : String}
    (hg : s.lookup r.domain = some (registrationFromRumor r q)) (ht : t.lookup r.domain = none) :
    r ∈ s.wantedLeases t := by
  refine List.mem_filterMap.mpr ⟨(r.domain, registrationFromRumor r q), ?_, rfl⟩
  refine List.mem_filter.mpr ⟨mem_held.mpr hg, ?_⟩
  rw [ht]
  rfl

/-- Two hosts claim a domain each. -/
theorem lookup_filed_filed {r r' : RegistrationRumor} {now : UInt64}
    (hv : ClaimTable.Valid E now r) (hv' : ClaimTable.Valid E now r') (hd : r.domain ≠ r'.domain)
    (hq : quotaKey r.rdns ≠ quotaKey r'.rdns) :
    ((RegistryStore.new.filed E r now).filed E r' now).lookup r.domain =
        some (registrationFromRumor r (quotaKey r.rdns)) ∧
      ((RegistryStore.new.filed E r now).filed E r' now).lookup r'.domain =
        some (registrationFromRumor r' (quotaKey r'.rdns)) := by
  have hfirst : (RegistryStore.new.filed E r now).lookup r.domain =
      some (registrationFromRumor r (quotaKey r.rdns)) :=
    lookup_filed_first rfl hv fun g hg => by cases hg
  have hclaims : (RegistryStore.new.filed E r now).claims (quotaKey r'.rdns) = ClaimTable.empty :=
    claims_filed_new (Ne.symm hq)
  have hfree : (RegistryStore.new.filed E r now).lookup r'.domain = none := by
    rw [Option.eq_none_iff_forall_ne_some]
    intro g hg
    rcases lookup_filed_cases hg with hg | ⟨he, _⟩ | ⟨_, _, hw, _⟩
    · cases hg
    · exact hd he
    · cases hw
  constructor
  · rw [lookup_filed, hclaims]
    have hsettle : ((ClaimTable.empty.insert r').settle E now).lookup r.domain = none :=
      ClaimTable.lookup_settle_eq_none (by rw [ClaimTable.lookup_insert, if_neg hd]; rfl)
    rw [hsettle]
    refine (standing_of_other fun g hg => ?_).trans hfirst
    rw [hfirst] at hg
    rw [← Option.some.inj hg]
    exact hq
  · have hother : ∀ g, (RegistryStore.new.filed E r now).lookup r'.domain = some g →
        g.quotaKey ≠ quotaKey r'.rdns := fun g hg => by
      rw [hfree] at hg
      cases hg
    rw [lookup_filed_first hclaims hv' hother, hfree, contest]

/-- A name of 32500 equal letters. -/
def longName (c : Char) : DomainName := ⟨String.ofList (List.replicate 32500 c)⟩

theorem length_longName (c : Char) : (longName c).raw.toList.length = 32500 := by
  rw [longName, String.toList_ofList, List.length_replicate]

theorem longName_injective : Function.Injective longName := by
  intro c c' h
  have hl := congrArg (fun d => d.raw.toList) h
  simp only [longName, String.toList_ofList] at hl
  exact List.replicate_right_injective (n := 32500) (by omega) hl

/-- A lease of such a name. -/
def longLease (byte : UInt8) (rdns : String) (c : Char) : RegistrationRumor :=
  (sampleClient byte rdns).lease (longName c) (sampleToken 1000 byte) 1000 1000

theorem valid_longLease (byte : UInt8) (rdns : String) (c : Char) :
    ClaimTable.Valid Ed25519.sample 1000 (longLease byte rdns c) :=
  ⟨isAuthorized_lease _ _ _ _ _, withinWindow_self 1000⟩

theorem size_longLease_ge (byte : UInt8) (rdns : String) (c : Char) :
    32756 ≤ (longLease byte rdns c).serialize.size := by
  have hsize := size_lease_ge (r := longLease byte rdns c) (stampBytes_length _ _)
    (stampBytes_length _ _)
  have hname : (longLease byte rdns c).domain.raw.toList.length = 32500 := length_longName c
  omega

/-- A node that adopted two leases. -/
def hoarder (r r' : RegistrationRumor) : Node Bool :=
  { store := storeAfter Ed25519.sample [adopts 1000 r, adopts 1000 r'], pendingChallenges := ∅ }

theorem reachable_hoarder (r r' : RegistrationRumor) :
    Reachable Ed25519.sample ⟨1000, (hoarder r r').store⟩ := by
  refine reachable_of_events Ed25519.sample [adopts 1000 r, adopts 1000 r'] ?_
  rw [List.map_cons, List.map_singleton, List.pairwise_pair]
  exact UInt64.le_refl _

theorem store_hoarder {r r' : RegistrationRumor} (hv : ClaimTable.Valid Ed25519.sample 1000 r)
    (hv' : ClaimTable.Valid Ed25519.sample 1000 r') :
    (hoarder r r').store =
      (RegistryStore.new.filed Ed25519.sample r 1000).filed Ed25519.sample r' 1000 := by
  rw [← adoptRumor_snd_of_valid hv, ← adoptRumor_snd_of_valid hv']
  rfl

/-- The replies of a node with two leases of different hosts. -/
theorem size_le_of_replyFits {r r' : RegistrationRumor} (answer : RegistrationToken)
    (hv : ClaimTable.Valid Ed25519.sample 1000 r) (hv' : ClaimTable.Valid Ed25519.sample 1000 r')
    (hd : r.domain ≠ r'.domain) (hq : quotaKey r.rdns ≠ quotaKey r'.rdns) :
    (hoarder r r').store.wanted RegistryStore.new ≠ [] ∧
      ((hoarder r r').store.ReplyFits RegistryStore.new answer →
        r.serialize.size + r'.serialize.size ≤ maxDatagramBytes) := by
  obtain ⟨hfirst, hsecond⟩ := lookup_filed_filed hv hv' hd hq
  rw [← store_hoarder hv hv'] at hfirst hsecond
  have hmem : r ∈ (hoarder r r').store.wantedLeases RegistryStore.new :=
    mem_wantedLeases hfirst rfl
  have hmem' : r' ∈ (hoarder r r').store.wantedLeases RegistryStore.new :=
    mem_wantedLeases hsecond rfl
  constructor
  · intro hnil
    rw [wantedLeases, hnil] at hmem
    cases hmem
  · intro hfits
    have hsum := add_le_sum_map (fun r => r.serialize.size) hmem hmem' fun he =>
      hd (congrArg RegistrationRumor.domain he)
    have hshort := hfits.short
    rw [separated] at hshort
    omega

/-- **A reply that cannot be sent.** -/
theorem reply_too_large :
    ¬ ∀ (a b : Node Bool) (ta tb : UInt64) (env : RoundAmbient Bool),
      Reachable Ed25519.sample ⟨ta, a.store⟩ → Reachable Ed25519.sample ⟨tb, b.store⟩ →
        ∀ m ∈ traffic Ed25519.sample a b true false env, Sendable m := by
  intro h
  have hfits := (sendable_iff Ed25519.sample (hoarder (longLease 1 "a" 'a') (longLease 2 "b" 'b'))
    new true false (sampleRound 2000)).mp
      (h _ new 1000 0 (sampleRound 2000) (reachable_hoarder _ _) (Run.Reaches.refl _))
  have hne : longName 'a' ≠ longName 'b' := longName_injective.ne (by decide)
  obtain ⟨hwanted, hle⟩ := size_le_of_replyFits
    (challengeOf (sampleRound 2000).asking).expectedAnswer
    (valid_longLease 1 "a" 'a') (valid_longLease 2 "b" 'b') hne
    (by decide : quotaKey "a" ≠ quotaKey "b")
  have hshort := hle (hfits.reply hwanted)
  have ha := size_longLease_ge 1 "a" 'a'
  have hb := size_longLease_ge 2 "b" 'b'
  rw [show maxDatagramBytes = 65507 from rfl] at hshort
  omega

end Node

end Binda
