import Binda.Lib.Spread
import Binda.Node.Agreement
import Binda.Registry.Origin

/-!
# How a name spreads

Many nodes exchange, two at a time.  They are in concord if every claim that any of
them has is valid at the clock readings of the exchanges, no domain is claimed for
two owners, and no host claims more than five domains.

Concord is kept (`Concordant.adoptAll`), and in it an exchange does what gossip is for:
`occupied_exchange_iff`.  So names spread by the rule of `Spread`:

* `known_where_led`: a node holds a name exactly if a chain of exchanges, in their
  order, leads to it from a node that held the name at the start.
* `all_agree_after_rounds`: after as many rounds among neighbours as the nodes are
  apart, all of them hold all names, under the same owners.
-/

namespace Binda

open Spread

namespace RegistryStore

open RegistrationRumor

/-! ### Concord -/

section Concord

variable (E : Ed25519) (clocks : Set UInt64) (share : String → Finset DomainName)
  (owner : DomainName → String × RegistrationToken)

/-- The claim is valid at all clock readings, on a domain that its host has a share in,
and for the owner of the domain. -/
structure Rightful (r : RegistrationRumor) : Prop where
  valid : ∀ now ∈ clocks, ClaimTable.Valid E now r
  shared : r.domain ∈ share (quotaKey r.rdns)
  owned : (r.clientKey, r.token) = owner r.domain

/-- Whatever is registered is leased, and the claims are rightful and registered. -/
structure Concordant (s : RegistryStore) : Prop where
  consistent : Consistent E s
  leased : ∀ d g, s.lookup d = some g → g.rumor ≠ none
  rightful : ∀ q d r, (s.claims q).lookup d = some r → Rightful E clocks share owner r
  registered : ∀ q d r, (s.claims q).lookup d = some r → s.lookup d ≠ none

/-- No host has a share in more than five domains. -/
def FewShared : Prop := ∀ q, (share q).card ≤ maxRegistrationsPerClient

end Concord

variable {E : Ed25519} {clocks : Set UInt64} {share : String → Finset DomainName}
  {owner : DomainName → String × RegistrationToken} {s t : RegistryStore} {now : UInt64}
  {q : String} {d : DomainName} {g : Registration} {r w : RegistrationRumor}
  {l : List RegistrationRumor} {order : VisitOrder DomainName}

theorem concordant_new : Concordant E clocks share owner new where
  consistent := consistent_new
  leased _ _ h := by cases h
  rightful _ _ _ h := by cases h
  registered _ _ _ h := by cases h

namespace Concordant

/-- A registration has a claim on its domain, with the lease's times. -/
theorem claim_of_lookup (h : Concordant E clocks share owner s) (hg : s.lookup d = some g) :
    ∃ r records, g.rumor = some r ∧ Leased E s d g r ∧
      (s.claims g.quotaKey).lookup d = some { r with records } := by
  obtain ⟨r, hr⟩ := Option.ne_none_iff_exists'.mp (h.leased d g hg)
  have hl := h.consistent.leased d g r hg hr not_false
  obtain ⟨records, hcopy⟩ := hl.copy
  exact ⟨r, records, hr, hl, hcopy⟩

/-- **A name is held for its owner.** -/
theorem owned (h : Concordant E clocks share owner s) (hg : s.lookup d = some g) :
    (g.clientKey, g.token) = owner d := by
  obtain ⟨r, records, _, hl, hcopy⟩ := h.claim_of_lookup hg
  have howned := (h.rightful _ _ _ hcopy).owned
  rw [hl.clientKey, hl.token, ← hl.domain]
  exact howned

/-- The lease of a registration is rightful. -/
theorem rightful_of_lookup (h : Concordant E clocks share owner s) (hg : s.lookup d = some g)
    (hr : g.rumor = some r) : Rightful E clocks share owner r := by
  obtain ⟨r', records, hr', hl, hcopy⟩ := h.claim_of_lookup hg
  rw [hr] at hr'
  obtain rfl := Option.some.inj hr'
  have hright := h.rightful _ _ _ hcopy
  exact ⟨fun now hnow => ⟨hl.authorized, (hright.valid now hnow).2⟩, hright.shared, hright.owned⟩

theorem rightful_of_offered (h : Concordant E clocks share owner s) (hr : r ∈ offered order s t) :
    Rightful E clocks share owner r := by
  obtain ⟨g, hg, hgr, _⟩ := (mem_offered h.consistent).mp hr
  exact h.rightful_of_lookup hg hgr

/-- With a new claim among them the claims of its host are rightful. -/
theorem rightful_insert (h : Concordant E clocks share owner s)
    (hr : Rightful E clocks share owner r)
    (hw : ((s.claims (quotaKey r.rdns)).insert r).lookup d = some w) :
    Rightful E clocks share owner w := by
  rw [ClaimTable.lookup_insert] at hw
  split at hw
  · rw [← Option.some.inj hw]
    exact hr
  · exact h.rightful _ _ _ hw

/-- **There is room for all the claims of a host.** -/
theorem settled (h : Concordant E clocks share owner s) (hfew : FewShared share)
    (hnow : now ∈ clocks) (hr : Rightful E clocks share owner r)
    (hw : ((s.claims (quotaKey r.rdns)).insert r).lookup d = some w) :
    (((s.claims (quotaKey r.rdns)).insert r).settle E now).lookup d = some w := by
  refine ClaimTable.lookup_settle_of_few (le_trans (size_le_card fun d' w' hw' => ?_)
    (hfew (quotaKey r.rdns))) hw ((h.rightful_insert hr hw).valid now hnow)
  rw [ClaimTable.lookup_insert] at hw'
  split at hw'
  · rename_i hd
    rw [hd]
    exact hr.shared
  · have hshared := (h.rightful _ _ _ hw').shared
    rw [h.consistent.host _ _ _ hw', ClaimTable.domain_of_lookup hw'] at hshared
    exact hshared

/-- What is held stays held. -/
theorem lookup_filed_ne_none (h : Concordant E clocks share owner s) (hfew : FewShared share)
    (hnow : now ∈ clocks) (hr : Rightful E clocks share owner r) (hd : s.lookup d ≠ none) :
    (s.filed E r now).lookup d ≠ none := by
  obtain ⟨g, hg⟩ := Option.ne_none_iff_exists'.mp hd
  rw [lookup_filed]
  by_cases hq : g.quotaKey = quotaKey r.rdns
  · -- the host's own claim on the domain, or the new one, is settled
    obtain ⟨_, _, _, _, hcopy⟩ := h.claim_of_lookup hg
    rw [hq] at hcopy
    obtain ⟨w, hw⟩ : ∃ w, ((s.claims (quotaKey r.rdns)).insert r).lookup d = some w := by
      rw [ClaimTable.lookup_insert]
      split
      · exact ⟨_, rfl⟩
      · exact ⟨_, hcopy⟩
    rw [h.settled hfew hnow hr hw]
    exact Option.some_ne_none _
  · rw [standing_eq_some.mpr ⟨hg, Or.inl hq⟩]
    cases (((s.claims (quotaKey r.rdns)).insert r).settle E now).lookup d with
    | none => exact Option.some_ne_none _
    | some w => exact Option.some_ne_none _

/-- **What is held after a rightful claim is filed.** -/
theorem occupied_filed_iff (h : Concordant E clocks share owner s) (hfew : FewShared share)
    (hnow : now ∈ clocks) (hr : Rightful E clocks share owner r) :
    (s.filed E r now).lookup d ≠ none ↔ s.lookup d ≠ none ∨ d = r.domain := by
  constructor
  · intro hd
    obtain ⟨g, hg⟩ := Option.ne_none_iff_exists'.mp hd
    rcases lookup_filed_cases hg with hg' | ⟨hdomain, _⟩ | ⟨q, w, hw, _⟩
    · rw [hg']
      exact Or.inl (Option.some_ne_none g)
    · exact Or.inr hdomain.symm
    · exact Or.inl (h.registered q d w hw)
  · rintro (hd | rfl)
    · exact h.lookup_filed_ne_none hfew hnow hr hd
    · rw [lookup_filed, h.settled hfew hnow hr (ClaimTable.lookup_insert.trans (if_pos rfl))]
      exact Option.some_ne_none _

/-- **A rightful claim leaves the store in concord.** -/
theorem filed (h : Concordant E clocks share owner s) (hfew : FewShared share)
    (hnow : now ∈ clocks) (hr : Rightful E clocks share owner r) :
    Concordant E clocks share owner (s.filed E r now) where
  consistent := h.consistent.filed (hr.valid now hnow).1
  leased := by
    intro d g hg
    rcases lookup_filed_cases hg with hg' | ⟨_, rfl⟩ | ⟨q, w, _, rfl⟩
    · exact h.leased d g hg'
    · exact Option.some_ne_none r
    · exact Option.some_ne_none w
  rightful := by
    intro q d w hw
    rw [claims_filed] at hw
    split at hw
    · rename_i hq
      subst hq
      exact h.rightful_insert hr (ClaimTable.lookup_settle.mp hw).1
    · exact h.rightful q d w hw
  registered := by
    intro q d w hw
    refine (h.occupied_filed_iff hfew hnow hr).mpr ?_
    rw [claims_filed] at hw
    split at hw
    · rename_i hq
      subst hq
      have hw' := (ClaimTable.lookup_settle.mp hw).1
      rw [ClaimTable.lookup_insert] at hw'
      split at hw'
      · rename_i hd
        exact Or.inr hd
      · exact Or.inl (h.registered _ d w hw')
    · exact Or.inl (h.registered q d w hw)

theorem adoptAll (h : Concordant E clocks share owner s) (hfew : FewShared share)
    (hnow : now ∈ clocks) (hl : ∀ r ∈ l, Rightful E clocks share owner r) :
    Concordant E clocks share owner (s.adoptAll E now l) :=
  adoptAll_induction h fun _ r hr _ ht => ht.filed hfew hnow (hl r hr)

/-- **What is held after rightful claims are adopted.** -/
theorem occupied_adoptAll_iff (h : Concordant E clocks share owner s) (hfew : FewShared share)
    (hnow : now ∈ clocks) (hl : ∀ r ∈ l, Rightful E clocks share owner r) :
    (s.adoptAll E now l).lookup d ≠ none ↔
      s.lookup d ≠ none ∨ d ∈ l.map RegistrationRumor.domain := by
  induction l generalizing s with
  | nil =>
    rw [List.map_nil, or_iff_left List.not_mem_nil]
    exact Iff.rfl
  | cons r l ih =>
    have hr := hl r List.mem_cons_self
    rw [adoptAll_cons, if_pos (hr.valid now hnow), ih (h.filed hfew hnow hr)
      (fun r' hr' => hl r' (List.mem_cons_of_mem r hr')), h.occupied_filed_iff hfew hnow hr,
      List.map_cons, List.mem_cons, or_assoc]

end Concordant

/-- **An exchange takes over what the peer holds.** -/
theorem occupied_exchange_iff (hs : Concordant E clocks share owner s)
    (ht : Concordant E clocks share owner t) (hfew : FewShared share) (hnow : now ∈ clocks) :
    (s.adoptAll E now (offered order t s)).lookup d ≠ none ↔
      t.lookup d ≠ none ∨ s.lookup d ≠ none := by
  refine (hs.occupied_adoptAll_iff hfew hnow fun r hr => ht.rightful_of_offered hr).trans ?_
  constructor
  · rintro (hd | hd)
    · exact Or.inr hd
    · obtain ⟨r, hr, rfl⟩ := List.mem_map.mp hd
      obtain ⟨g, hg, _⟩ := (mem_offered ht.consistent).mp hr
      rw [hg]
      exact Or.inl (Option.some_ne_none g)
  · rintro (hd | hd)
    · by_cases hheld : s.lookup d = none
      · -- what the receiver does not hold is offered
        obtain ⟨g, hg⟩ := Option.ne_none_iff_exists'.mp hd
        obtain ⟨r, _, hr, hl, _⟩ := ht.claim_of_lookup hg
        obtain rfl := hl.domain
        refine Or.inr (List.mem_map.mpr ⟨r, (mem_offered ht.consistent).mpr ?_, rfl⟩)
        exact ⟨g, hg, hr, fun g' hg' => by rw [hheld] at hg'; cases hg'⟩
      · exact Or.inl hheld
    · exact Or.inl hd

end RegistryStore

/-! ### Many exchanges -/

/-- One node pushes its digest to another, and the messages that follow all arrive. -/
structure Meeting (Host Address : Type) where
  pusher : Host
  receiver : Host
  env : Node.RoundAmbient Address

namespace Node

open RegistryStore

variable {Host Address : Type} [DecidableEq Host] [DecidableEq Address] {E : Ed25519}
  {addr : Host → Address} {clocks : Set UInt64} {share : String → Finset DomainName}
  {owner : DomainName → String × RegistrationToken} {nodes : Host → Node Address}
  {meetings : List (Meeting Host Address)} {d : DomainName}

/-- What the receiver is after an exchange.  The node that pushes stays as it is
(`exchange_eq`). -/
def gossip (E : Ed25519) (addr : Host → Address) :
    Rule Host (Node Address) (Meeting Host Address) where
  giver := Meeting.pusher
  taker := Meeting.receiver
  take m a b := (exchange E a b (addr m.pusher) (addr m.receiver) m.env).2

omit [DecidableEq Host] in
/-- **Names spread by gossip** among nodes in concord. -/
theorem spreads_gossip (hfew : FewShared share)
    (hclocks : ∀ m ∈ meetings, m.env.adopting.now ∈ clocks) :
    (gossip E addr).Spreads (fun n => Concordant E clocks share owner n.store)
      (fun n => n.store.lookup d ≠ none) meetings where
  good m hm a b ha hb := by
    show Concordant E clocks share owner (exchange E a b _ _ m.env).2.store
    rw [(exchange_eq a b _ _ m.env).2]
    exact hb.adoptAll hfew (hclocks m hm) fun r hr => ha.rightful_of_offered hr
  knows m hm a b ha hb := by
    show (exchange E a b _ _ m.env).2.store.lookup d ≠ none ↔ _
    rw [(exchange_eq a b _ _ m.env).2]
    exact occupied_exchange_iff hb ha hfew (hclocks m hm)

/-- **A name is known where a chain of exchanges leads**, and it is held for its owner. -/
theorem known_where_led (E : Ed25519) (addr : Host → Address)
    (nodes : Host → Node Address) (hfew : FewShared share)
    (hclocks : ∀ m ∈ meetings, m.env.adopting.now ∈ clocks)
    (hnodes : ∀ x, Concordant E clocks share owner (nodes x).store) (y : Host) (d : DomainName) :
    (((gossip E addr).run nodes meetings y).store.lookup d ≠ none ↔
        ∃ x chain, chain.Sublist meetings ∧ (gossip E addr).Chain x chain y ∧
          (nodes x).store.lookup d ≠ none) ∧
      ∀ g, ((gossip E addr).run nodes meetings y).store.lookup d = some g →
        (g.clientKey, g.token) = owner d := by
  have hspreads : (gossip E addr).Spreads (fun n => Concordant E clocks share owner n.store)
      (fun n => n.store.lookup d ≠ none) meetings := spreads_gossip hfew hclocks
  refine ⟨Rule.knows_run_iff hspreads hnodes, fun g hg => ?_⟩
  exact (hspreads.good_run hnodes y).owned hg

/-! Three nodes in a line, the first of which holds a name. -/

/-- The domain is claimed for the client of the sample lease. -/
def soleOwner (_ : DomainName) : String × RegistrationToken :=
  ((claimant 1 "a").clientKey, (claimant 1 "a").token)

/-- The nodes at the start. -/
def line (x : Fin 3) : Node (Fin 3) where
  store := if x = 0 then RegistryStore.new.filed Ed25519.sample (claimant 1 "a") 2000
    else RegistryStore.new
  pendingChallenges := ∅

/-- What a message takes from outside. -/
def lineAmbient : GossipAmbient (Fin 3) :=
  { now := 2000
    instant := 0
    nonceA := Vector.replicate 8 0
    nonceB := Vector.replicate 8 1
    condition := .higherWins
    order := VisitOrder.listed }

/-- One node of the line pushes to another. -/
def linePush (x z : Fin 3) : Meeting (Fin 3) (Fin 3) :=
  { pusher := x, receiver := z, env := ⟨VisitOrder.listed, lineAmbient, lineAmbient, lineAmbient⟩ }

theorem fewShared_line : FewShared fun _ => {(⟨"name"⟩ : DomainName)} := fun _ => by
  rw [Finset.card_singleton]
  decide

theorem concordant_line (x : Fin 3) :
    Concordant Ed25519.sample {2000} (fun _ => {⟨"name"⟩}) soleOwner (line x).store := by
  have hright : Rightful Ed25519.sample {2000} (fun _ => {⟨"name"⟩}) soleOwner
      (claimant 1 "a") := by
    refine ⟨fun now hnow => ⟨isAuthorized_lease _ _ _ _ _, ?_⟩, Finset.mem_singleton_self _, rfl⟩
    obtain rfl := Set.mem_singleton_iff.mp hnow
    decide
  rw [line]
  dsimp only
  split
  · exact concordant_new.filed fewShared_line (Set.mem_singleton _) hright
  · exact concordant_new

theorem known_where_led_line :
    (((gossip Ed25519.sample id).run line [linePush 0 1, linePush 1 2] 2).store.lookup ⟨"name"⟩ ≠
          none ↔
        ∃ x chain, chain.Sublist [linePush 0 1, linePush 1 2] ∧
          (gossip Ed25519.sample id).Chain x chain 2 ∧ (line x).store.lookup ⟨"name"⟩ ≠ none) ∧
      ∀ g, ((gossip Ed25519.sample id).run line [linePush 0 1, linePush 1 2] 2).store.lookup
        ⟨"name"⟩ = some g → (g.clientKey, g.token) = soleOwner ⟨"name"⟩ :=
  known_where_led Ed25519.sample id line fewShared_line
    (by decide : ∀ m ∈ [linePush 0 1, linePush 1 2], m.env.adopting.now = 2000)
    concordant_line 2 ⟨"name"⟩

/-- **After enough rounds all nodes agree.**  In each round every node pushes to its
neighbours, and there are as many rounds as any two nodes are apart: then every name that
any of them held is held by all, for its owner. -/
theorem all_agree_after_rounds (E : Ed25519) (addr : Host → Address)
    (nodes : Host → Node Address) (neighbours : Host → Host → Prop)
    {rounds : List (List (Meeting Host Address))} (hfew : FewShared share)
    (hclocks : ∀ m ∈ rounds.flatten, m.env.adopting.now ∈ clocks)
    (hnodes : ∀ x, Concordant E clocks share owner (nodes x).store)
    (hpush : ∀ round ∈ rounds, ∀ x z, neighbours x z →
      ∃ m ∈ round, m.pusher = x ∧ m.receiver = z)
    (hnear : ∀ x y, Rule.Apart neighbours rounds.length x y) :
    (∀ y d, ((gossip E addr).run nodes rounds.flatten y).store.lookup d ≠ none ↔
        ∃ x, (nodes x).store.lookup d ≠ none) ∧
      ∀ x y, Agree ((gossip E addr).run nodes rounds.flatten x).store
        ((gossip E addr).run nodes rounds.flatten y).store := by
  have hgood : ∀ x, Concordant E clocks share owner
      ((gossip E addr).run nodes rounds.flatten x).store :=
    (spreads_gossip (d := ⟨""⟩) hfew hclocks).good_run hnodes
  have hheld : ∀ y d, ((gossip E addr).run nodes rounds.flatten y).store.lookup d ≠ none ↔
      ∃ x, (nodes x).store.lookup d ≠ none := fun y d =>
    Rule.knows_rounds_iff (spreads_gossip hfew hclocks) hnodes hpush hnear
  refine ⟨hheld, fun x y d g hg => ?_⟩
  have hsome : ∃ z, (nodes z).store.lookup d ≠ none := by
    rcases hg with hg | hg
    · exact (hheld x d).mp (by rw [hg]; exact Option.some_ne_none g)
    · exact (hheld y d).mp (by rw [hg]; exact Option.some_ne_none g)
  obtain ⟨gA, hgA⟩ := Option.ne_none_iff_exists'.mp ((hheld x d).mpr hsome)
  obtain ⟨gB, hgB⟩ := Option.ne_none_iff_exists'.mp ((hheld y d).mpr hsome)
  have howned := ((hgood x).owned hgA).trans ((hgood y).owned hgB).symm
  obtain ⟨hkey, htoken⟩ := Prod.mk.inj howned
  exact ⟨gA, gB, hgA, hgB, hkey, htoken⟩

/-- Everyone in the line pushes to its neighbours. -/
def lineRound : List (Meeting (Fin 3) (Fin 3)) :=
  [linePush 0 1, linePush 1 0, linePush 1 2, linePush 2 1]

theorem all_agree_after_rounds_line :
    (∀ y d, ((gossip Ed25519.sample id).run line [lineRound, lineRound].flatten y).store.lookup d ≠
          none ↔ ∃ x, (line x).store.lookup d ≠ none) ∧
      ∀ x y, Agree ((gossip Ed25519.sample id).run line [lineRound, lineRound].flatten x).store
        ((gossip Ed25519.sample id).run line [lineRound, lineRound].flatten y).store := by
  refine all_agree_after_rounds Ed25519.sample id line
    (fun x z => x.val + 1 = z.val ∨ z.val + 1 = x.val) fewShared_line ?_ concordant_line ?_ ?_
  · show ∀ m ∈ [lineRound, lineRound].flatten, m.env.adopting.now = 2000
    decide
  · intro round hround
    obtain rfl : round = lineRound := by simpa using hround
    decide
  · show ∀ x y : Fin 3, x = y ∨ ∃ z, (x.val + 1 = z.val ∨ z.val + 1 = x.val) ∧
      (z = y ∨ ∃ u, (z.val + 1 = u.val ∨ u.val + 1 = z.val) ∧ u = y)
    decide

end Node

end Binda
