import Binda.Node.Exchange
import Binda.Registry.Sample

/-!
# Two nodes with nothing left to tell each other

A node asks for a domain when the peer's token was issued later, and arbitration
may prefer the earlier one or find the two issued at once.  So two nodes can hold
a domain differently and never change it: `silent_exchanges_can_disagree`.

`agree_iff_of_quiet` says when they do not, for nodes between which an exchange
in either direction changes no registration.  A domain only one of them holds is
always taken over (`occupied_of_offered`).  A domain both hold must have tokens
issued at different times, and the node with the earlier one has to yield
(`Yields`): the later claim is of the same host, or beats every claim other hosts
have on the domain.
-/

namespace Binda

namespace RegistryStore

open RegistrationRumor

/-! ### The condition -/

section Condition

variable (s a b : RegistryStore)

/-- Whatever is registered is a live lease. -/
def AllLeased (now : UInt64) : Prop :=
  ∀ g ∈ s.registrations.values, g.rumor.any (fun r => leaseIsLive r now) = true

instance (now : UInt64) : Decidable (s.AllLeased now) := inferInstanceAs (Decidable (∀ g ∈ _, _))

/-- The domains a host has claims on. -/
def claimed (q : String) : Finset DomainName := (s.claims q).table.keys.toFinset

/-- No host has more than five claims, the two stores taken together. -/
def Roomy : Prop := ∀ q, (a.claimed q ∪ b.claimed q).card ≤ maxRegistrationsPerClient

/-- Every registration is as it was. -/
def SameRegistrations : Prop := ∀ d, b.lookup d = a.lookup d

/-- What either store holds, both hold under one owner and one token. -/
def Agree : Prop :=
  ∀ d g, (a.lookup d = some g ∨ b.lookup d = some g) → ∃ gA gB, a.lookup d = some gA ∧
    b.lookup d = some gB ∧ gA.clientKey = gB.clientKey ∧ gA.token = gB.token

/-- Holding `mine`, the store gives way to `theirs`: the two are of one host, or no
claim of another host stands against it. -/
def Yields (d : DomainName) (mine theirs : Registration) : Prop :=
  mine.quotaKey = theirs.quotaKey ∨ ∀ q w, q ≠ theirs.quotaKey →
    (s.claims q).lookup d = some w → negotiateLocally w.token theirs.token ≠ w.token

/-- Where the two hold a domain differently, one token was issued earlier, and the
store that holds it yields. -/
def Reconcilable : Prop :=
  ∀ d gA gB, a.lookup d = some gA → b.lookup d = some gB →
    ¬ (gA.clientKey = gB.clientKey ∧ gA.token = gB.token) →
      (gA.token.issuedAtMillis < gB.token.issuedAtMillis ∧ a.Yields d gA gB) ∨
        (gB.token.issuedAtMillis < gA.token.issuedAtMillis ∧ b.Yields d gB gA)

end Condition

variable {E : Ed25519} {a b s t u : RegistryStore} {now : UInt64} {q : String} {d : DomainName}
  {g gs gt gA gB : Registration} {r w : RegistrationRumor} {order : VisitOrder DomainName}

theorem AllLeased.lease (h : s.AllLeased now) (hg : s.lookup d = some g) :
    ∃ r, g.rumor = some r ∧ leaseIsLive r now = true :=
  (Option.any_eq_true _ _).mp (h g (Table.mem_values.mpr ⟨d, hg⟩))

theorem mem_claimed : d ∈ s.claimed q ↔ ∃ r, (s.claims q).lookup d = some r := by
  rw [claimed, List.mem_toFinset]
  exact Table.mem_keys_iff

/-- A host with claims on few domains has few claims. -/
theorem size_le_card {c : ClaimTable} {domains : Finset DomainName}
    (h : ∀ d r, c.lookup d = some r → d ∈ domains) : c.size ≤ domains.card := by
  have hsub : c.table.keys.toFinset ⊆ domains := by
    intro d hd
    obtain ⟨r, hr⟩ := Table.mem_keys_iff.mp (List.mem_toFinset.mp hd)
    exact h d r hr
  have hcard := Finset.card_le_card hsub
  rw [List.toFinset_card_of_nodup c.table.keys_nodup, ← Table.size_eq_keys_length] at hcard
  exact hcard

/-! ### The run of one reply -/

/-- Host by host, the claims of `u` are on domains that `s` or `t` has claims on. -/
def Within (s t u : RegistryStore) : Prop :=
  ∀ q d r, (u.claims q).lookup d = some r → d ∈ s.claimed q ∪ t.claimed q

theorem within_self (s t : RegistryStore) : Within s t s := fun _ _ _ h =>
  Finset.mem_union_left _ (mem_claimed.mpr ⟨_, h⟩)

/-- What is offered is among the sender's claims. -/
theorem mem_claimed_of_offered (ht : Consistent E t) (hr : r ∈ offered order t s) :
    r.domain ∈ t.claimed (quotaKey r.rdns) := by
  obtain ⟨g, hg, hgr, _⟩ := (mem_offered ht).mp hr
  have hl := ht.leased _ g r hg hgr not_false
  obtain ⟨records, hcopy⟩ := hl.copy
  rw [hl.quotaKey] at hcopy
  exact mem_claimed.mpr ⟨_, hcopy⟩

/-- What is offered is valid, if it is live. -/
theorem valid_of_offered (ht : Consistent E t) (hlive : leaseIsLive r now = true)
    (hr : r ∈ offered order t s) : ClaimTable.Valid E now r := by
  obtain ⟨g, hg, hgr, _⟩ := (mem_offered ht).mp hr
  exact ⟨(ht.leased _ g r hg hgr not_false).authorized, hlive⟩

/-- The claims of the host, the new claim among them, are on few domains. -/
theorem Within.insert_mem (hu : Within s t u) (hr : r.domain ∈ t.claimed (quotaKey r.rdns))
    {d' : DomainName} {w : RegistrationRumor}
    (hw : ((u.claims (quotaKey r.rdns)).insert r).lookup d' = some w) :
    d' ∈ s.claimed (quotaKey r.rdns) ∪ t.claimed (quotaKey r.rdns) := by
  rw [ClaimTable.lookup_insert] at hw
  split at hw
  · rename_i hd
    exact Finset.mem_union_right _ (hd ▸ hr)
  · exact hu _ d' w hw

theorem Within.filed (hu : Within s t u) (hr : r.domain ∈ t.claimed (quotaKey r.rdns)) :
    Within s t (u.filed E r now) := by
  intro q d' w hw
  rw [claims_filed] at hw
  split at hw
  · rename_i hq
    subst hq
    exact hu.insert_mem hr (ClaimTable.lookup_settle.mp hw).1
  · exact hu q d' w hw

/-- **With room for all, a valid claim of the host is settled.** -/
theorem Within.settled (hroom : Roomy s t) (hu : Within s t u)
    (hr : r.domain ∈ t.claimed (quotaKey r.rdns))
    (hw : ((u.claims (quotaKey r.rdns)).insert r).lookup d = some w)
    (hv : ClaimTable.Valid E now w) :
    (((u.claims (quotaKey r.rdns)).insert r).settle E now).lookup d = some w :=
  ClaimTable.lookup_settle_of_few
    ((size_le_card fun _ _ h => hu.insert_mem hr h).trans (hroom _)) hw hv

/-- A valid claim stays when others of its host come in. -/
theorem Within.claim_filed (hroom : Roomy s t) (hu : Within s t u)
    (hr : r.domain ∈ t.claimed (quotaKey r.rdns)) (hne : r.domain ≠ d)
    (hw : (u.claims q).lookup d = some w) (hv : ClaimTable.Valid E now w) :
    ((u.filed E r now).claims q).lookup d = some w := by
  rw [claims_filed]
  split
  · rename_i hq
    subst hq
    exact hu.settled hroom hr
      (ClaimTable.lookup_insert.trans ((if_neg (Ne.symm hne)).trans hw)) hv
  · exact hw

/-! ### A domain the receiver does not hold -/

/-- What stands on `d` is no lease, or its claim is valid. -/
def Sound (E : Ed25519) (now : UInt64) (u : RegistryStore) (d : DomainName) : Prop :=
  ∀ g, u.lookup d = some g → g.rumor = none ∨
    ∃ w, (u.claims g.quotaKey).lookup d = some w ∧ ClaimTable.Valid E now w

theorem Sound.filed (h : Sound E now u d) : Sound E now (u.filed E r now) d := by
  intro g hg
  rcases lookup_reconcileQuota_cases (filed_submit r) hg with ⟨w, hw, rfl⟩ | ⟨hg', hor⟩
  · refine Or.inr ⟨w, ?_, (ClaimTable.lookup_settle.mp hw).2.1⟩
    have hq : (registrationFromRumor w (quotaKey r.rdns)).quotaKey = quotaKey r.rdns := rfl
    rw [claims_submit, if_pos rfl] at hw
    rw [claims_filed, if_pos hq]
    exact hw
  · rcases h g hg' with hnone | ⟨w, hw, hv⟩
    · exact Or.inl hnone
    · refine hor.elim (fun hq => Or.inr ⟨w, ?_, hv⟩) Or.inl
      rw [claims_filed, if_neg hq]
      exact hw

/-- **A domain that is held stays held.** -/
theorem Sound.lookup_filed_ne_none (h : Sound E now u d) (hroom : Roomy s t) (hu : Within s t u)
    (hr : r.domain ∈ t.claimed (quotaKey r.rdns)) (hne : r.domain ≠ d)
    (hd : u.lookup d ≠ none) : (u.filed E r now).lookup d ≠ none := by
  obtain ⟨g, hg⟩ := Option.ne_none_iff_exists'.mp hd
  rw [lookup_filed]
  cases hc : (((u.claims (quotaKey r.rdns)).insert r).settle E now).lookup d with
  | some w => simp
  | none =>
    -- were it a lease of the host, its claim would be settled
    suffices hstand : u.standing (quotaKey r.rdns) d = some g by simp [hstand]
    refine standing_eq_some.mpr ⟨hg, ?_⟩
    rcases h g hg with hnone | ⟨w, hw, hv⟩
    · exact Or.inr hnone
    · refine Or.inl fun hq => ?_
      rw [hq] at hw
      rw [hu.settled hroom hr
        (ClaimTable.lookup_insert.trans ((if_neg (Ne.symm hne)).trans hw)) hv] at hc
      cases hc

/-- **A domain the receiver does not hold is taken over.** -/
theorem occupied_of_offered (order : VisitOrder DomainName) (ht : Consistent E t)
    (hroom : Roomy s t) (hg : t.lookup d = some g) (hgr : g.rumor = some r)
    (hlive : leaseIsLive r now = true) (hd : s.lookup d = none) :
    (s.adoptAll E now (offered order t s)).lookup d ≠ none := by
  obtain rfl := (ht.leased d g r hg hgr not_false).domain
  have hmem : r ∈ offered order t s :=
    (mem_offered ht).mpr ⟨g, hg, hgr, fun g' hg' => by rw [hd] at hg'; cases hg'⟩
  have hv := valid_of_offered ht hlive hmem
  have hvisit : Within s t (s.adoptAll E now (offered order t s)) ∧
      Sound E now (s.adoptAll E now (offered order t s)) r.domain ∧
      (s.adoptAll E now (offered order t s)).lookup r.domain ≠ none := by
    refine adoptAll_visit (P := fun u => Within s t u ∧ Sound E now u r.domain)
      (Q := fun u => Within s t u ∧ Sound E now u r.domain ∧ u.lookup r.domain ≠ none)
      hmem nodup_offered hv ⟨within_self s t, fun g' hg' => by rw [hd] at hg'; cases hg'⟩ ?_ ?_ ?_
    · rintro u r' hr' _ _ ⟨hu, hsound⟩
      exact ⟨hu.filed (mem_claimed_of_offered ht hr'), hsound.filed⟩
    · rintro u ⟨hu, hsound⟩
      have hclaim := mem_claimed_of_offered ht hmem
      refine ⟨hu.filed hclaim, hsound.filed, ?_⟩
      rw [lookup_filed, hu.settled hroom hclaim (ClaimTable.lookup_insert.trans (if_pos rfl)) hv]
      simp
    · rintro u r' hr' hne _ ⟨hu, hsound, hheld⟩
      have hclaim := mem_claimed_of_offered ht hr'
      exact ⟨hu.filed hclaim, hsound.filed, hsound.lookup_filed_ne_none hroom hu hclaim hne hheld⟩
  exact hvisit.2.2

/-! ### A domain both hold -/

/-- Once offered, the claim stays with its host. -/
theorem claim_of_offered (ht : Consistent E t) (hroom : Roomy s t)
    (hlive : leaseIsLive r now = true) (hmem : r ∈ offered order t s) :
    ((s.adoptAll E now (offered order t s)).claims (quotaKey r.rdns)).lookup r.domain = some r := by
  have hv := valid_of_offered ht hlive hmem
  have hvisit : Within s t (s.adoptAll E now (offered order t s)) ∧
      ((s.adoptAll E now (offered order t s)).claims (quotaKey r.rdns)).lookup r.domain =
        some r := by
    refine adoptAll_visit (P := fun u => Within s t u) (Q := fun u => Within s t u ∧
      (u.claims (quotaKey r.rdns)).lookup r.domain = some r)
      hmem nodup_offered hv (within_self s t) ?_ ?_ ?_
    · exact fun u r' hr' _ _ hu => hu.filed (mem_claimed_of_offered ht hr')
    · intro u hu
      have hclaim := mem_claimed_of_offered ht hmem
      refine ⟨hu.filed hclaim, ?_⟩
      rw [claims_filed, if_pos rfl]
      exact hu.settled hroom hclaim (ClaimTable.lookup_insert.trans (if_pos rfl)) hv
    · rintro u r' hr' hne _ ⟨hu, hc⟩
      have hclaim := mem_claimed_of_offered ht hr'
      exact ⟨hu.filed hclaim, hu.claim_filed hroom hclaim hne hc hv⟩
  exact hvisit.2

/-- On `d` there are leases only, and none of another host stands against `r`. -/
structure Beaten (u : RegistryStore) (r : RegistrationRumor) : Prop where
  leased : ∀ g, u.lookup r.domain = some g → g.rumor ≠ none
  loses : ∀ q w, q ≠ quotaKey r.rdns → (u.claims q).lookup r.domain = some w →
    negotiateLocally w.token r.token ≠ w.token

theorem Beaten.filed {r' : RegistrationRumor} (h : u.Beaten r)
    (hr' : r'.domain ≠ r.domain ∨ r' = r) : (u.filed E r' now).Beaten r := by
  constructor
  · intro g hg
    rcases lookup_reconcileQuota_cases (filed_submit r') hg with ⟨w, _, rfl⟩ | ⟨hg', _⟩
    · simp [registrationFromRumor]
    · exact h.leased g hg'
  · intro q w hq hw
    rw [claims_filed] at hw
    split at hw
    · rename_i he
      subst he
      have hw' := (ClaimTable.lookup_settle.mp hw).1
      have hne : r.domain ≠ r'.domain := hr'.elim Ne.symm fun he => absurd (he ▸ rfl) hq
      rw [ClaimTable.lookup_insert, if_neg hne] at hw'
      exact h.loses _ w hq hw'
    · exact h.loses q w hq hw

/-- A claim that none stands against takes its domain. -/
theorem Beaten.lookup_filed (h : u.Beaten r) (hu : Consistent E u)
    (hr : (((u.claims (quotaKey r.rdns)).insert r).settle E now).lookup r.domain = some r) :
    (u.filed E r now).lookup r.domain = some (registrationFromRumor r (quotaKey r.rdns)) := by
  rw [RegistryStore.lookup_filed, hr]
  cases hg : u.standing (quotaKey r.rdns) r.domain with
  | none => rfl
  | some g =>
    obtain ⟨hg', hor⟩ := standing_eq_some.mp hg
    have hq := hor.resolve_right (h.leased g hg')
    obtain ⟨r₀, hr₀⟩ := Option.ne_none_iff_exists'.mp (h.leased g hg')
    have hl := hu.leased _ g r₀ hg' hr₀ not_false
    obtain ⟨records, hcopy⟩ := hl.copy
    have hlost := h.loses _ _ hq hcopy
    dsimp only at hlost
    rw [← hl.token] at hlost
    have hwon := (negotiateLocally_pick g.token r.token).resolve_left hlost
    simp only [contest, hwon, if_true]

/-- A claim that none stands against keeps its domain. -/
theorem Beaten.lookup_filed_of_ne {r' : RegistrationRumor} (h : u.Beaten r)
    (hne : r'.domain ≠ r.domain)
    (hl : u.lookup r.domain = some (registrationFromRumor r (quotaKey r.rdns)))
    (hc : quotaKey r'.rdns = quotaKey r.rdns →
      (((u.claims (quotaKey r'.rdns)).insert r').settle E now).lookup r.domain = some r) :
    (u.filed E r' now).lookup r.domain = some (registrationFromRumor r (quotaKey r.rdns)) := by
  rw [RegistryStore.lookup_filed]
  by_cases hq : quotaKey r'.rdns = quotaKey r.rdns
  · have hstand : u.standing (quotaKey r'.rdns) r.domain = none := by
      rw [standing, hl, hq]
      exact Option.filter_some_neg (by simp [registrationFromRumor])
    rw [hc hq, hstand, hq]
    rfl
  · have hstand : u.standing (quotaKey r'.rdns) r.domain =
        some (registrationFromRumor r (quotaKey r.rdns)) :=
      standing_eq_some.mpr ⟨hl, Or.inl (Ne.symm hq)⟩
    rw [hstand]
    cases hw : (((u.claims (quotaKey r'.rdns)).insert r').settle E now).lookup r.domain with
    | none => rfl
    | some w =>
      have hw' := (ClaimTable.lookup_settle.mp hw).1
      rw [ClaimTable.lookup_insert, if_neg (Ne.symm hne)] at hw'
      have hlost := h.loses _ w hq hw'
      rw [negotiateLocally_symm] at hlost
      have ht : (registrationFromRumor r (quotaKey r.rdns)).token = r.token := rfl
      simp only [contest, ht, if_neg hlost]

/-- **A later claim that none stands against is taken over.** -/
theorem lookup_of_beaten (hs : Consistent E s) (ht : Consistent E t) (hroom : Roomy s t)
    (hlive : leaseIsLive r now = true) (hmem : r ∈ offered order t s) (hb : s.Beaten r) :
    (s.adoptAll E now (offered order t s)).lookup r.domain =
      some (registrationFromRumor r (quotaKey r.rdns)) := by
  have hv := valid_of_offered ht hlive hmem
  let P : RegistryStore → Prop := fun u => Consistent E u ∧ Within s t u ∧ u.Beaten r
  have hvisit : P (s.adoptAll E now (offered order t s)) ∧
      ((s.adoptAll E now (offered order t s)).claims (quotaKey r.rdns)).lookup r.domain = some r ∧
      (s.adoptAll E now (offered order t s)).lookup r.domain =
        some (registrationFromRumor r (quotaKey r.rdns)) := by
    refine adoptAll_visit (P := P) (Q := fun u => P u ∧
      (u.claims (quotaKey r.rdns)).lookup r.domain = some r ∧
      u.lookup r.domain = some (registrationFromRumor r (quotaKey r.rdns)))
      hmem nodup_offered hv ⟨hs, within_self s t, hb⟩ ?_ ?_ ?_
    · rintro u r' hr' hne hv' ⟨hc, hu, hbu⟩
      exact ⟨hc.filed hv'.1, hu.filed (mem_claimed_of_offered ht hr'), hbu.filed (Or.inl hne)⟩
    · rintro u ⟨hc, hu, hbu⟩
      have hclaim := mem_claimed_of_offered ht hmem
      have hsettled : (((u.claims (quotaKey r.rdns)).insert r).settle E now).lookup r.domain =
          some r := hu.settled hroom hclaim (ClaimTable.lookup_insert.trans (if_pos rfl)) hv
      refine ⟨⟨hc.filed hv.1, hu.filed hclaim, hbu.filed (Or.inr rfl)⟩, ?_,
        hbu.lookup_filed hc hsettled⟩
      rw [claims_filed, if_pos rfl]
      exact hsettled
    · rintro u r' hr' hne hv' ⟨⟨hc, hu, hbu⟩, hcl, hl⟩
      have hclaim := mem_claimed_of_offered ht hr'
      refine ⟨⟨hc.filed hv'.1, hu.filed hclaim, hbu.filed (Or.inl hne)⟩,
        hu.claim_filed hroom hclaim hne hcl hv, hbu.lookup_filed_of_ne hne hl fun hq => ?_⟩
      refine hu.settled hroom hclaim ?_ hv
      rw [ClaimTable.lookup_insert, if_neg (Ne.symm hne), hq]
      exact hcl
  exact hvisit.2.2

/-- **Yielding shows**: a store that holds the earlier token and yields changes what
it holds. -/
theorem Yields.changes (h : s.Yields d gs gt) (order : VisitOrder DomainName)
    (hs : Consistent E s) (ht : Consistent E t) (hroom : Roomy s t) (hsl : s.AllLeased now)
    (htl : t.AllLeased now) (hgs : s.lookup d = some gs) (hgt : t.lookup d = some gt)
    (hdiffer : ¬ (gs.clientKey = gt.clientKey ∧ gs.token = gt.token))
    (hlt : gs.token.issuedAtMillis < gt.token.issuedAtMillis) :
    (s.adoptAll E now (offered order t s)).lookup d ≠ s.lookup d := by
  obtain ⟨r, hgr, hlive⟩ := htl.lease hgt
  have hl := ht.leased d gt r hgt hgr not_false
  obtain rfl := hl.domain
  have hmem : r ∈ offered order t s := by
    refine (mem_offered ht).mpr ⟨gt, hgt, hgr, fun g hg => ?_⟩
    rw [hgs] at hg
    rwa [← Option.some.inj hg]
  intro hsame
  rw [hgs] at hsame
  by_cases hhost : gs.quotaKey = gt.quotaKey
  · -- the new claim takes the place of the old one among the host's claims
    obtain ⟨rs, hrs, _⟩ := hsl.lease hgs
    have hfinal : Consistent E (s.adoptAll E now (offered order t s)) := hs.adoptAll
    have hls := hfinal.leased _ gs rs hsame hrs not_false
    obtain ⟨records, hcopy⟩ := hls.copy
    rw [hhost, hl.quotaKey, claim_of_offered ht hroom hlive hmem] at hcopy
    have he := Option.some.inj hcopy
    refine hdiffer ⟨?_, ?_⟩
    · rw [hls.clientKey, hl.clientKey, he]
    · rw [hls.token, hl.token, he]
  · have hbeaten : s.Beaten r := by
      constructor
      · intro g hg
        obtain ⟨r', hr', _⟩ := hsl.lease hg
        simp [hr']
      · intro q w hq hw
        rw [← hl.token]
        exact h.resolve_left hhost q w (by rwa [hl.quotaKey]) hw
    rw [lookup_of_beaten hs ht hroom hlive hmem hbeaten] at hsame
    refine hhost ?_
    rw [← Option.some.inj hsame, hl.quotaKey]
    rfl

theorem Roomy.symm (h : Roomy a b) : Roomy b a := fun q => by
  rw [Finset.union_comm]
  exact h q

/-- **When two quiet stores agree.** -/
theorem agree_iff_reconcilable {order order' : VisitOrder DomainName} (ha : Consistent E a)
    (hb : Consistent E b) (hal : a.AllLeased now) (hbl : b.AllLeased now) (hroom : Roomy a b)
    (hab : SameRegistrations b (b.adoptAll E now (offered order a b)))
    (hba : SameRegistrations a (a.adoptAll E now (offered order' b a))) :
    Agree a b ↔ Reconcilable a b := by
  constructor
  · intro h d gA gB hgA hgB hdiffer
    obtain ⟨gA', gB', hgA', hgB', hk, ht⟩ := h d gA (Or.inl hgA)
    rw [hgA] at hgA'
    rw [hgB] at hgB'
    obtain rfl := Option.some.inj hgA'
    obtain rfl := Option.some.inj hgB'
    exact absurd ⟨hk, ht⟩ hdiffer
  · intro h
    have hboth : ∀ d gA gB, a.lookup d = some gA → b.lookup d = some gB →
        gA.clientKey = gB.clientKey ∧ gA.token = gB.token := by
      intro d gA gB hgA hgB
      by_contra hdiffer
      rcases h d gA gB hgA hgB hdiffer with ⟨hlt, hy⟩ | ⟨hlt, hy⟩
      · exact hy.changes order' ha hb hroom hal hbl hgA hgB hdiffer hlt (hba d)
      · exact hy.changes order hb ha hroom.symm hbl hal hgB hgA
          (fun he => hdiffer ⟨he.1.symm, he.2.symm⟩) hlt (hab d)
    rintro d g (hg | hg)
    · cases hgB : b.lookup d with
      | none =>
        obtain ⟨r, hgr, hlive⟩ := hal.lease hg
        refine absurd ?_ (occupied_of_offered order ha hroom.symm hg hgr hlive hgB)
        rw [hab d, hgB]
      | some gB => exact ⟨g, gB, hg, rfl, hboth d g gB hg hgB⟩
    · cases hgA : a.lookup d with
      | none =>
        obtain ⟨r, hgr, hlive⟩ := hbl.lease hg
        refine absurd ?_ (occupied_of_offered order' hb hroom hg hgr hlive hgA)
        rw [hba d, hgA]
      | some gA => exact ⟨gA, g, rfl, hg, hboth d gA g hgA hg⟩

/-- Two stores that know one claim each, on one domain, have room. -/
theorem roomy_of_single {r' : RegistrationRumor} (hd : r'.domain = r.domain) :
    Roomy (new.filed E r now) (new.filed E r' now) := by
  have hsub : ∀ (r : RegistrationRumor) (q : String),
      (new.filed E r now).claimed q ⊆ {r.domain} := by
    intro r q d h
    obtain ⟨w, hw⟩ := mem_claimed.mp h
    rw [Finset.mem_singleton]
    by_contra hne
    have hnone : ((new.filed E r now).claims q).lookup d = none :=
      lookup_claims_filed_eq_none (Ne.symm hne) rfl
    rw [hnone] at hw
    cases hw
  intro q
  have hunion : (new.filed E r now).claimed q ∪ (new.filed E r' now).claimed q ⊆ {r.domain} :=
    Finset.union_subset (hsub r q) (hd ▸ hsub r' q)
  exact (Finset.card_le_card hunion).trans ((Finset.card_singleton _).le.trans (by decide))

end RegistryStore

/-! ### Quiet nodes -/

namespace Node

open RegistryStore

/-- **When two quiet nodes agree.**  An exchange in either direction changes no
registration; then the nodes agree if and only if the earlier claim yields
wherever they hold different ones. -/
theorem agree_iff_of_quiet {Address : Type} [DecidableEq Address] {E : Ed25519}
    {a b : Node Address} {ta tb now : UInt64} {addrA addrB : Address}
    {env env' : RoundAmbient Address} (ha : Reachable E ⟨ta, a.store⟩)
    (hb : Reachable E ⟨tb, b.store⟩) (hnow : env.adopting.now = now)
    (hnow' : env'.adopting.now = now) (hal : a.store.AllLeased now) (hbl : b.store.AllLeased now)
    (hroom : Roomy a.store b.store)
    (hab : SameRegistrations b.store (exchange E a b addrA addrB env).2.store)
    (hba : SameRegistrations a.store (exchange E b a addrB addrA env').2.store) :
    Agree a.store b.store ↔ Reconcilable a.store b.store := by
  rw [(exchange_eq a b addrA addrB env).2, hnow] at hab
  rw [(exchange_eq b a addrB addrA env').2, hnow'] at hba
  exact agree_iff_reconcilable (consistent_of_reachable ha) (consistent_of_reachable hb) hal hbl
    hroom hab hba

/-- One of two claims on a name, issued at the same time. -/
def claimant (byte : UInt8) (rdns : String) : RegistrationRumor :=
  (sampleClient byte rdns).lease ⟨"name"⟩ (sampleToken 1000 byte) 1000 1000

/-- A node that knows one claim. -/
def knowing (r : RegistrationRumor) : Node Bool :=
  { store := storeAfter Ed25519.sample [adopts 1000 r], pendingChallenges := ∅ }

theorem reachable_knowing (r : RegistrationRumor) :
    Reachable Ed25519.sample ⟨1000, (knowing r).store⟩ :=
  reachable_of_events Ed25519.sample [adopts 1000 r] (List.pairwise_singleton _ _)

theorem roomy_claimants :
    Roomy (knowing (claimant 1 "a")).store (knowing (claimant 2 "b")).store := by
  have hstore : ∀ byte rdns, (knowing (claimant byte rdns)).store =
      RegistryStore.new.filed Ed25519.sample (claimant byte rdns) 1000 := fun byte rdns =>
    adoptRumor_snd_of_valid ⟨isAuthorized_lease _ _ _ _ _, withinWindow_self 1000⟩
  rw [hstore, hstore]
  exact roomy_of_single rfl

/-- Neither node asks the other. -/
theorem exchange_claimants :
    (exchange Ed25519.sample (knowing (claimant 1 "a")) (knowing (claimant 2 "b")) true false
        (sampleRound 2000)).2.store = (knowing (claimant 2 "b")).store ∧
      (exchange Ed25519.sample (knowing (claimant 2 "b")) (knowing (claimant 1 "a")) false true
        (sampleRound 2000)).2.store = (knowing (claimant 1 "a")).store := by
  have hoff : offered VisitOrder.listed (knowing (claimant 1 "a")).store
      (knowing (claimant 2 "b")).store = [] := by decide +kernel
  have hoff' : offered VisitOrder.listed (knowing (claimant 2 "b")).store
      (knowing (claimant 1 "a")).store = [] := by decide +kernel
  rw [(exchange_eq _ _ true false (sampleRound 2000)).2,
    (exchange_eq _ _ false true (sampleRound 2000)).2, sampleRound, hoff, hoff']
  exact ⟨rfl, rfl⟩

theorem agree_iff_of_quiet_claimants :
    Agree (knowing (claimant 1 "a")).store (knowing (claimant 2 "b")).store ↔
      Reconcilable (knowing (claimant 1 "a")).store (knowing (claimant 2 "b")).store :=
  agree_iff_of_quiet (reachable_knowing _) (reachable_knowing _)
    (rfl : (sampleRound 2000).adopting.now = 2000) (rfl : (sampleRound 2000).adopting.now = 2000)
    (by decide +kernel) (by decide +kernel) roomy_claimants
    (fun _ => by rw [exchange_claimants.1]) fun _ => by rw [exchange_claimants.2]

/-- **Two quiet nodes can disagree for good.** -/
theorem silent_exchanges_can_disagree :
    ¬ ∀ (E : Ed25519) (a b : Node Bool) (ta tb now : UInt64), Reachable E ⟨ta, a.store⟩ →
      Reachable E ⟨tb, b.store⟩ → ta ≤ now → tb ≤ now → a.store.AllLeased now →
      b.store.AllLeased now → Roomy a.store b.store →
      (exchange E a b true false (sampleRound now)).2.store = b.store →
      (exchange E b a false true (sampleRound now)).2.store = a.store →
      Agree a.store b.store := by
  intro h
  have hagree := h Ed25519.sample (knowing (claimant 1 "a")) (knowing (claimant 2 "b")) 1000 1000
    2000 (reachable_knowing _) (reachable_knowing _) (by decide) (by decide) (by decide +kernel)
    (by decide +kernel) roomy_claimants exchange_claimants.1 exchange_claimants.2
  have hlook : (knowing (claimant 1 "a")).store.lookup ⟨"name"⟩ =
      some (registrationFromRumor (claimant 1 "a") "a") := by decide +kernel
  have hlook' : (knowing (claimant 2 "b")).store.lookup ⟨"name"⟩ =
      some (registrationFromRumor (claimant 2 "b") "b") := by decide +kernel
  obtain ⟨gA, gB, hgA, hgB, _, ht⟩ := hagree ⟨"name"⟩ _ (Or.inl hlook)
  rw [hlook] at hgA
  rw [hlook'] at hgB
  rw [← Option.some.inj hgA, ← Option.some.inj hgB] at ht
  exact absurd ht (by decide)

end Node

end Binda
