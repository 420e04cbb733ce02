import Binda.Lib.Succession
import Binda.Registry.Expiry
import Binda.Registry.Incoming

/-!
# Does reclaiming depend on the order?

`reclaim_stale` reconciles one host after another, in the order in which a hash map
lists them.  On each domain that is a succession of turns at one seat
(`lookup_reclaimStale`): a host's turn drops its own lease and lets its claim meet
whatever stands there.

`deterministic_iff` says for which states the order does not matter and a second run
changes nothing: on every domain there must be no valid claim, or one that wins
against those of all other hosts and against what stands there, or a registration
without a lease that wins against all of them.
-/

namespace Binda

/-- The tables are visited backwards. -/
def VisitOrder.backwards {κ : Type} : VisitOrder κ := ⟨List.reverse, List.reverse_perm⟩

/-- The hash map happens to list `keys` as `l`. -/
def VisitOrder.of {κ : Type} [DecidableEq κ] (keys l : List κ) (hl : l.Perm keys) :
    VisitOrder κ where
  visit m := if m = keys then l else m
  perm m := by
    split
    · rename_i h
      rw [h]
      exact hl
    · rfl

namespace RegistryStore

open Succession Tournament

variable {E : Ed25519} {s t : RegistryStore} {now : UInt64} {q : String} {d : DomainName}
  {g : Registration} {r : RegistrationRumor}

/-! ### Turns at a domain -/

/-- What a settled claim of host `q` to `d` would install. -/
def sent (E : Ed25519) (s : RegistryStore) (now : UInt64) (d : DomainName) (q : String) :
    Option Registration :=
  (((s.claims q).settle E now).lookup d).map fun r => registrationFromRumor r q

/-- The one of two registrations that `negotiate_locally` leaves, `g` being there
first. -/
def prevailing (g w : Registration) : Registration :=
  if negotiateLocally g.token w.token = w.token then w else g

/-- The registration is a lease of host `q`. -/
def leasedBy (q : String) (g : Registration) : Bool := g.quotaKey == q && g.rumor.isSome

theorem prevailing_pick (g w : Registration) : prevailing g w = g ∨ prevailing g w = w := by
  rw [prevailing]
  split <;> simp

theorem prevailing_total {g w : Registration} (h : prevailing g w = g) : prevailing w g = g := by
  rw [prevailing] at h ⊢
  by_cases hw : negotiateLocally g.token w.token = w.token
  · rw [if_pos hw] at h
    rw [h, ite_self]
  · rw [if_pos]
    rw [negotiateLocally_symm]
    exact (negotiateLocally_pick g.token w.token).resolve_right hw

theorem leasedBy_iff : leasedBy q g = true ↔ q = g.quotaKey ∧ g.rumor.isSome = true := by
  rw [leasedBy, Bool.and_eq_true, beq_iff_eq]
  exact and_congr_left' eq_comm

theorem leasedBy_registrationFromRumor {q' : String} :
    leasedBy q' (registrationFromRumor r q) = true ↔ q' = q :=
  leasedBy_iff.trans (and_iff_left rfl)

theorem standing_eq_filter :
    s.standing q d = (s.lookup d).filter fun g => !leasedBy q g := by
  rw [standing]
  congr 1
  funext g
  rw [leasedBy, Bool.not_and]
  cases g.rumor <;> rfl

/-- **One reconciliation is one turn.** -/
theorem lookup_reconcileQuota_turn (hq : t.Filed q)
    (hc : (t.claims q).settle E now = (s.claims q).settle E now) :
    (t.reconcileQuota E q now).lookup d =
      turn prevailing (s.sent E now d) leasedBy (t.lookup d) q := by
  rw [lookup_reconcileQuota hq, hc, standing_eq_filter, turn, sent]
  cases ((s.claims q).settle E now).lookup d with
  | none => rfl
  | some r => cases (t.lookup d).filter fun g => !leasedBy q g <;> rfl

theorem lookup_foldl_reconcileQuota : ∀ {l : List String} {t : RegistryStore},
    (∀ q ∈ l, t.Filed q) → (∀ q, (t.claims q).settle E now = (s.claims q).settle E now) →
      (l.foldl (fun s quota => s.reconcileQuota E quota now) t).lookup d =
        l.foldl (turn prevailing (s.sent E now d) leasedBy) (t.lookup d) := by
  intro l
  induction l with
  | nil => intro t _ _; rfl
  | cons q l ih =>
    intro t hfiled hc
    rw [List.foldl_cons, List.foldl_cons,
      ← lookup_reconcileQuota_turn (hfiled q List.mem_cons_self) (hc q)]
    refine ih (fun q' hq' => filed_reconcileQuota.mpr (hfiled q' (List.mem_cons_of_mem q hq')))
      fun q' => ?_
    rw [claims_reconcileQuota]
    split
    · rename_i he
      rw [he, ClaimTable.settle_settle, hc]
    · exact hc q'

/-- **Reclaiming is a succession of turns on every domain.** -/
theorem lookup_reclaimStale {order : VisitOrder String} :
    (s.reclaimStale E order now).lookup d =
      (order.visit s.quotaClaims.keys).foldl (turn prevailing (s.sent E now d) leasedBy)
        ((s.dropExpired now).lookup d) := by
  refine lookup_foldl_reconcileQuota (fun q hq => ?_) fun _ => rfl
  exact AList.mem_keys.mpr ((order.perm _).mem_iff.mp hq)

theorem sent_eq_some {w : Registration} :
    s.sent E now d q = some w ↔
      ∃ r, ((s.claims q).settle E now).lookup d = some r ∧ registrationFromRumor r q = w := by
  rw [sent, Option.map_eq_some_iff]

/-- The registration on a domain and the hosts with claims make a court. -/
theorem Consistent.court (h : Consistent E s) (now : UInt64) (d : DomainName) :
    Court prevailing (s.sent E now d) leasedBy s.quotaClaims.keys
      ((s.dropExpired now).lookup d) where
  nodup := s.quotaClaims.keys_nodup
  pick := prevailing_pick
  total _ _ := prevailing_total
  comes q w hw := by
    obtain ⟨r, hr, _⟩ := sent_eq_some.mp hw
    exact AList.mem_keys.mp (filed_of_claim (ClaimTable.lookup_settle.mp hr).1)
  own q w hw q' := by
    obtain ⟨r, _, rfl⟩ := sent_eq_some.mp hw
    exact leasedBy_registrationFromRumor
  sitting g hg := by
    obtain ⟨hg', _⟩ := lookup_dropExpired_eq_some.mp hg
    cases hr : g.rumor with
    | none => exact Or.inl fun q => by simp [leasedBy, hr]
    | some r =>
      have hl := h.leased d g r hg' hr not_false
      obtain ⟨records, hcopy⟩ := hl.copy
      refine Or.inr ⟨g.quotaKey, AList.mem_keys.mp (filed_of_claim hcopy), fun q => ?_,
        fun w hw => ?_⟩
      · exact leasedBy_iff.trans (and_iff_left (by rw [hr]; rfl))
      · -- the host's claim has the token of its lease
        obtain ⟨r', hr', rfl⟩ := sent_eq_some.mp hw
        have hc := (ClaimTable.lookup_settle.mp hr').1
        rw [hcopy] at hc
        have ht : g.token = r'.token := by rw [hl.token, ← Option.some.inj hc]
        rw [prevailing, if_pos]
        exact ht ▸ negotiateLocally_self g.token

/-! ### When the order does not matter -/

/-- Host `q` has the valid claim `r` to `d`. -/
def ClaimedBy (E : Ed25519) (s : RegistryStore) (now : UInt64) (d : DomainName) (q : String)
    (r : RegistrationRumor) : Prop :=
  (s.claims q).lookup d = some r ∧ ClaimTable.Valid E now r

/-- `g` is on `d`, and its host has not expired. -/
def StandsOn (s : RegistryStore) (now : UInt64) (d : DomainName) (g : Registration) : Prop :=
  s.lookup d = some g ∧ g.quotaKey ∉ s.liveness.expiredClients now

/-- It is clear who gets `d`. -/
inductive Determined (E : Ed25519) (s : RegistryStore) (now : UInt64) (d : DomainName) : Prop
  /-- No host has a valid claim. -/
  | unclaimed (h : ∀ q r, ¬ ClaimedBy E s now d q r)
  /-- The valid claim `r` wins against those of all other hosts, and the registration
  on `d` gives way to it. -/
  | claimed (q : String) (r : RegistrationRumor) (h : ClaimedBy E s now d q r)
      (strict : ∀ q' r', q' ≠ q → ClaimedBy E s now d q' r' →
        negotiateLocally r.token r'.token ≠ r'.token)
      (ahead : ∀ g, StandsOn s now d g → negotiateLocally g.token r.token = r.token)
  /-- A registration without a lease wins against all valid claims. -/
  | withstood (g : Registration) (h : StandsOn s now d g) (leaseless : g.rumor = none)
      (ahead : ∀ q r, ClaimedBy E s now d q r → negotiateLocally g.token r.token ≠ r.token)

/-- No host of a reachable store has so many claims that a valid one would not be
settled. -/
theorem Consistent.lookup_settle_iff (h : Consistent E s) :
    ((s.claims q).settle E now).lookup d = some r ↔ ClaimedBy E s now d q r := by
  rw [ClaimTable.lookup_settle, ClaimedBy]
  refine and_congr_right fun hr => and_iff_left_of_imp fun hv => ?_
  exact lt_of_lt_of_le (ClaimTable.place_lt_size hr hv) (h.few q not_false)

theorem Consistent.sent_iff (h : Consistent E s) {w : Registration} :
    s.sent E now d q = some w ↔ ∃ r, ClaimedBy E s now d q r ∧ registrationFromRumor r q = w := by
  rw [sent_eq_some]
  exact exists_congr fun r => and_congr_left fun _ => h.lookup_settle_iff

theorem prevailing_eq_right {w : Registration} :
    prevailing g w = w ↔ negotiateLocally g.token w.token = w.token := by
  rw [prevailing]
  constructor
  · intro h
    by_contra hn
    rw [if_neg hn] at h
    exact hn (h ▸ negotiateLocally_self g.token)
  · exact fun h => if_pos h

theorem prevailing_eq_left {w : Registration} (hne : g ≠ w) :
    prevailing g w = g ↔ negotiateLocally g.token w.token ≠ w.token := by
  rw [prevailing]
  constructor
  · intro h hn
    rw [if_pos hn] at h
    exact hne h.symm
  · exact fun h => if_neg h

theorem registrationFromRumor_ne {q' : String} {r' : RegistrationRumor} (hne : q' ≠ q) :
    registrationFromRumor r q ≠ registrationFromRumor r' q' := fun he =>
  hne (congrArg Registration.quotaKey he).symm

theorem ne_registrationFromRumor (h : g.rumor = none) : g ≠ registrationFromRumor r q := by
  rintro rfl
  cases h

theorem Consistent.decided_of_determined (h : Consistent E s) (hd : Determined E s now d) :
    Decided prevailing (s.sent E now d) leasedBy ((s.dropExpired now).lookup d) := by
  cases hd with
  | unclaimed hno =>
    refine .idle fun q => Option.eq_none_iff_forall_ne_some.mpr fun w hw => ?_
    obtain ⟨r, hr, _⟩ := h.sent_iff.mp hw
    exact hno q r hr
  | claimed q r hr hstrict hahead =>
    refine .taken q _ (h.sent_iff.mpr ⟨r, hr, rfl⟩) (fun q' w' hne hw' => ?_) fun g hg => ?_
    · obtain ⟨r', hr', rfl⟩ := h.sent_iff.mp hw'
      exact (prevailing_eq_left (registrationFromRumor_ne hne)).mpr (hstrict q' r' hne hr')
    · exact prevailing_eq_right.mpr (hahead g (lookup_dropExpired_eq_some.mp hg))
  | withstood g hg hleaseless hahead =>
    refine .kept g (lookup_dropExpired_eq_some.mpr hg) (fun q => ?_) fun q w hw => ?_
    · rw [leasedBy, hleaseless, Option.isSome_none, Bool.and_false]
    · obtain ⟨r, hr, rfl⟩ := h.sent_iff.mp hw
      exact (prevailing_eq_left (ne_registrationFromRumor hleaseless)).mpr (hahead q r hr)

theorem Consistent.determined_of_decided (h : Consistent E s)
    (hd : Decided prevailing (s.sent E now d) leasedBy ((s.dropExpired now).lookup d)) :
    Determined E s now d := by
  cases hd with
  | idle hno =>
    refine .unclaimed fun q r hr => ?_
    have hsent := h.sent_iff.mpr ⟨r, hr, rfl⟩
    rw [hno q] at hsent
    cases hsent
  | taken q w hw hstrict hahead =>
    obtain ⟨r, hr, rfl⟩ := h.sent_iff.mp hw
    refine .claimed q r hr (fun q' r' hne hr' => ?_) fun g hg => ?_
    · have hlose := hstrict q' _ hne (h.sent_iff.mpr ⟨r', hr', rfl⟩)
      rwa [prevailing_eq_left (registrationFromRumor_ne hne)] at hlose
    · have hwin := hahead g (lookup_dropExpired_eq_some.mpr hg)
      rwa [prevailing_eq_right] at hwin
  | kept g hg hfree hahead =>
    have hleaseless : g.rumor = none := by
      have hown := hfree g.quotaKey
      rw [leasedBy, beq_self_eq_true, Bool.true_and] at hown
      simpa using hown
    refine .withstood g (lookup_dropExpired_eq_some.mp hg) hleaseless fun q r hr => ?_
    have hlose := hahead q _ (h.sent_iff.mpr ⟨r, hr, rfl⟩)
    rwa [prevailing_eq_left (ne_registrationFromRumor hleaseless)] at hlose

/-- **It is clear who gets the domain** exactly if it is clear who gets the seat. -/
theorem Consistent.determined_iff (h : Consistent E s) :
    Determined E s now d ↔
      Decided prevailing (s.sent E now d) leasedBy ((s.dropExpired now).lookup d) :=
  ⟨h.decided_of_determined, h.determined_of_decided⟩

/-! ### The whole store -/

/-- The stores agree in every table. -/
structure Unchanged (s t : RegistryStore) : Prop extends SameTables s t where
  liveness : s.liveness = t.liveness
  probeEvidence : s.probeEvidence = t.probeEvidence

/-- What reclaiming leaves does not depend on the order in which the hosts are
visited, and a second run changes nothing. -/
structure Deterministic (E : Ed25519) (s : RegistryStore) (now : UInt64) : Prop where
  orderFree : ∀ o₁ o₂ d,
    (s.reclaimStale E o₁ now).lookup d = (s.reclaimStale E o₂ now).lookup d
  again : ∀ o₁ o₂,
    Unchanged ((s.reclaimStale E o₁ now).reclaimStale E o₂ now) (s.reclaimStale E o₁ now)

theorem expiredClients_reclaimStale {order : VisitOrder String} :
    (s.reclaimStale E order now).liveness.expiredClients now = [] := by
  refine List.eq_nil_iff_forall_not_mem.mpr fun q hq => ?_
  obtain ⟨last, hlast, hw⟩ := LivenessTracker.mem_expiredClients.mp hq
  rw [withinWindow_of_reclaimStale hlast] at hw
  cases hw

theorem liveness_reclaimStale_again {o₁ o₂ : VisitOrder String} :
    ((s.reclaimStale E o₁ now).reclaimStale E o₂ now).liveness =
      (s.reclaimStale E o₁ now).liveness := by
  rw [liveness_reclaimStale, expiredClients_reclaimStale]
  rfl

/-- The hosts with claims stay the same. -/
theorem keys_reclaimStale {order : VisitOrder String} :
    (s.reclaimStale E order now).quotaClaims.keys.Perm s.quotaClaims.keys := by
  refine (List.perm_ext_iff_of_nodup (AList.keys_nodup _) (AList.keys_nodup _)).mpr fun q => ?_
  exact AList.mem_keys.symm.trans (filed_reclaimStale.trans AList.mem_keys)

/-- The second run takes its turns where the first has ended. -/
theorem lookup_reclaimStale_again {o₁ o₂ : VisitOrder String} :
    ((s.reclaimStale E o₁ now).reclaimStale E o₂ now).lookup d =
      (o₂.visit (s.reclaimStale E o₁ now).quotaClaims.keys).foldl
        (turn prevailing (s.sent E now d) leasedBy) ((s.reclaimStale E o₁ now).lookup d) := by
  have hsent : (s.reclaimStale E o₁ now).sent E now d = s.sent E now d := by
    funext q
    rw [sent, claims_reclaimStale, ClaimTable.settle_settle, sent]
  have hdrop : ((s.reclaimStale E o₁ now).dropExpired now).lookup d =
      (s.reclaimStale E o₁ now).lookup d := by
    rw [lookup_dropExpired, expiredClients_reclaimStale]
    cases (s.reclaimStale E o₁ now).lookup d <;> rfl
  rw [lookup_reclaimStale (s := s.reclaimStale E o₁ now), hsent, hdrop]

theorem Consistent.deterministic (h : Consistent E s) (hd : ∀ d, Determined E s now d) :
    Deterministic E s now where
  orderFree o₁ o₂ d := by
    rw [lookup_reclaimStale, lookup_reclaimStale]
    exact (h.court now d).foldl_turn_perm_iff.mpr (h.determined_iff.mp (hd d)) _ _ (o₁.perm _)
      (o₂.perm _)
  again o₁ o₂ :=
    { registrations := fun d => by
        rw [lookup_reclaimStale_again, lookup_reclaimStale]
        exact (h.court now d).foldl_turn_again (h.determined_iff.mp (hd d)) (o₁.perm _)
          ((o₂.perm _).trans keys_reclaimStale)
      hosts := fun q => filed_reclaimStale
      claims := fun q d => by
        rw [claims_reclaimStale (s := s.reclaimStale E o₁ now), claims_reclaimStale,
          ClaimTable.settle_settle]
      liveness := liveness_reclaimStale_again
      probeEvidence := probeEvidence_reclaimStale }

/-- **When reclaiming is a function of the state alone**: exactly if it is clear who
gets each domain. -/
theorem deterministic_iff {c : Clocked} (hc : Reachable E c) (now : UInt64) :
    Deterministic E c.store now ↔ ∀ d, Determined E c.store now d := by
  have h := consistent_of_reachable hc
  refine ⟨fun hdet d => ?_, h.deterministic⟩
  refine h.determined_iff.mpr ((h.court now d).foldl_turn_perm_iff.mp fun l₁ l₂ h₁ h₂ => ?_)
  have hsame := hdet.orderFree (VisitOrder.of _ l₁ h₁) (VisitOrder.of _ l₂ h₂) d
  rw [lookup_reclaimStale, lookup_reclaimStale] at hsame
  simpa only [VisitOrder.of, if_true] using hsame

/-- A lease that is about to run out. -/
def runningOut : RegistrationRumor :=
  (sampleClient 2 "b").lease ⟨"name"⟩ (sampleToken 1002 0) 1002 1002

/-- Another host's claim, which loses against it. -/
def nextInLine : RegistrationRumor :=
  (sampleClient 1 "a").lease ⟨"name"⟩ (sampleToken 1000 0) 1000 61000

/-- The node hears of both. -/
def leaseAndClaim : List Event := [adopts 1002 runningOut, adopts 61000 nextInLine]

theorem deterministic_iff_leaseAndClaim :
    Deterministic Ed25519.sample (storeAfter Ed25519.sample leaseAndClaim) 62000 ↔
      ∀ d, Determined Ed25519.sample (storeAfter Ed25519.sample leaseAndClaim) 62000 d :=
  deterministic_iff (reachable_of_events Ed25519.sample leaseAndClaim (by decide)) 62000

/-- What two orders and a second run leave when the lease has run out: if the claim
comes first it loses to it, and is installed the next time only. -/
theorem reclaim_leaseAndClaim :
    ((storeAfter Ed25519.sample leaseAndClaim).reclaimStale Ed25519.sample VisitOrder.listed
        62000).lookup ⟨"name"⟩ = none ∧
      ((storeAfter Ed25519.sample leaseAndClaim).reclaimStale Ed25519.sample
        VisitOrder.backwards 62000).lookup ⟨"name"⟩ =
          some (registrationFromRumor nextInLine "a") ∧
      (((storeAfter Ed25519.sample leaseAndClaim).reclaimStale Ed25519.sample VisitOrder.listed
        62000).reclaimStale Ed25519.sample VisitOrder.listed 62000).lookup ⟨"name"⟩ =
          some (registrationFromRumor nextInLine "a") := by
  decide +kernel

/-- **Reclaiming depends on the order of a hash map, and a second run changes what the
first has left.** -/
theorem reclaiming_is_not_deterministic :
    (¬ ∀ (E : Ed25519) (c : Clocked) (now : UInt64), Reachable E c → c.clock ≤ now →
      ∀ o₁ o₂ d, (c.store.reclaimStale E o₁ now).lookup d =
        (c.store.reclaimStale E o₂ now).lookup d) ∧
    ¬ ∀ (E : Ed25519) (c : Clocked) (now : UInt64), Reachable E c → c.clock ≤ now →
      ∀ o₁ o₂, Unchanged ((c.store.reclaimStale E o₁ now).reclaimStale E o₂ now)
        (c.store.reclaimStale E o₁ now) := by
  have hc := reachable_of_events Ed25519.sample leaseAndClaim (by decide)
  obtain ⟨hlisted, hbackwards, hagain⟩ := reclaim_leaseAndClaim
  constructor
  · intro h
    have hsame := h _ _ 62000 hc (by decide) VisitOrder.listed VisitOrder.backwards ⟨"name"⟩
    dsimp only at hsame
    rw [hlisted, hbackwards] at hsame
    cases hsame
  · intro h
    have hsame := (h _ _ 62000 hc (by decide) VisitOrder.listed VisitOrder.listed).registrations
      ⟨"name"⟩
    dsimp only at hsame
    rw [hlisted, hagain] at hsame
    cases hsame

end RegistryStore

end Binda
