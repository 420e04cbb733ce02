import Binda.Registry.Evidence
import Binda.Registry.FirstFive

/-!
# One rumor comes in

What a single rumor does to the domain it claims.  If another host holds the
domain the two claims meet in `negotiate_locally`.  If the same host holds it
they never meet: the new claim takes the old one's place in the host's map
before anything is compared.  `arbitrated_iff` says that this is the only
exception, and `same_host_overwrites` is a claim that wins although its token
loses.

The second half is about a rumor that comes in twice: `adoptRumor_twice` says
that the second time changes no table.
-/

namespace Binda

namespace RegistryStore

open RegistrationRumor

variable {E : Ed25519} {s : RegistryStore} {now : UInt64} {g : Registration}
  {r w : RegistrationRumor}

/-! ### A rumor against a lease -/

/-- `g` holds the domain of `r` by the valid lease `w`, and `r` is a valid claim to
it of another owner under another token.  Neither is beyond the first five of its
host. -/
structure Disputes (E : Ed25519) (s : RegistryStore) (now : UInt64) (g : Registration)
    (w r : RegistrationRumor) : Prop where
  held : s.lookup r.domain = some g
  lease : g.rumor = some w
  valid : ClaimTable.Valid E now w
  early : (s.claims g.quotaKey).place E now w < maxRegistrationsPerClient
  kept : Retained E s now r
  owner : r.clientKey ≠ w.clientKey
  token : r.token ≠ w.token

/-- In `t` the domain of `r` is with the one whose token the rule picks. -/
def Arbitrated (t : RegistryStore) (g : Registration) (r : RegistrationRumor) : Prop :=
  t.lookup r.domain = some (if negotiateLocally g.token r.token = r.token
    then registrationFromRumor r (quotaKey r.rdns) else g)

/-- The new claim is settled on its domain. -/
theorem Retained.lookup_settle (h : Retained E s now r) :
    ((s.claimsWith r).settle E now).lookup r.domain = some r :=
  ClaimTable.lookup_settle.mpr ⟨ClaimTable.lookup_insert.trans (if_pos rfl), h⟩

/-- A settled claim meets what stands on its domain. -/
theorem Retained.lookup_filed (h : Retained E s now r) :
    (s.filed E r now).lookup r.domain =
      some (contest (quotaKey r.rdns) (s.standing (quotaKey r.rdns) r.domain) r) := by
  have hsettled := h.lookup_settle
  rw [claimsWith] at hsettled
  rw [RegistryStore.lookup_filed, hsettled]

/-- **When a claim on a held domain is arbitrated**: exactly if it comes from
another host, or would win. -/
theorem arbitrated_iff {c : Clocked} (hc : Reachable E c) (h : Disputes E c.store now g w r) :
    Arbitrated (c.store.adoptRumor E r now).2 g r ↔
      g.quotaKey ≠ quotaKey r.rdns ∨ negotiateLocally g.token r.token = r.token := by
  have hl := (consistent_of_reachable hc).leased _ g w h.held h.lease not_false
  rw [Arbitrated, adoptRumor_snd_of_valid h.kept.1, h.kept.lookup_filed, Option.some.injEq]
  by_cases hq : g.quotaKey = quotaKey r.rdns
  · -- the host's own lease is dropped before the claims could meet
    have hstand : c.store.standing (quotaKey r.rdns) r.domain = none := by
      rw [standing, h.held, Option.filter_some, if_neg (by simp [hq, h.lease])]
    rw [hstand, contest]
    constructor
    · intro he
      refine Or.inr ?_
      by_contra hn
      rw [if_neg hn] at he
      exact h.owner ((congrArg Registration.clientKey he).trans hl.clientKey)
    · rintro (hne | hwin)
      · exact absurd hq hne
      · rw [if_pos hwin]
  · have hstand : c.store.standing (quotaKey r.rdns) r.domain = some g :=
      standing_eq_some.mpr ⟨h.held, Or.inl hq⟩
    rw [hstand, contest]
    exact iff_of_true rfl (Or.inl hq)

/-- The lease of one client on a host. -/
def firstTenant : RegistrationRumor :=
  (sampleClient 1 "host").lease ⟨"name"⟩ (sampleToken 1002 0) 1002 1002

/-- The same host's later claim, of another client, under the smaller token. -/
def secondTenant : RegistrationRumor :=
  (sampleClient 2 "host").lease ⟨"name"⟩ (sampleToken 1000 0) 1000 1000

/-- A node that has heard of the first client only. -/
def oneTenant : List Event := [adopts 1002 firstTenant]

theorem disputes_tenants : Disputes Ed25519.sample (storeAfter Ed25519.sample oneTenant) 1002
    (registrationFromRumor firstTenant "host") firstTenant secondTenant := by
  have hrun : (storeAfter Ed25519.sample oneTenant).lookup ⟨"name"⟩ =
        some (registrationFromRumor firstTenant "host") ∧
      ClaimTable.Valid Ed25519.sample 1002 firstTenant ∧
      ((storeAfter Ed25519.sample oneTenant).claims "host").place Ed25519.sample 1002 firstTenant <
        maxRegistrationsPerClient ∧
      Retained Ed25519.sample (storeAfter Ed25519.sample oneTenant) 1002 secondTenant := by
    decide +kernel
  exact ⟨hrun.1, rfl, hrun.2.1, hrun.2.2.1, hrun.2.2.2, by decide, by decide⟩

theorem arbitrated_iff_tenants :
    Arbitrated ((storeAfter Ed25519.sample oneTenant).adoptRumor Ed25519.sample secondTenant 1002).2
        (registrationFromRumor firstTenant "host") secondTenant ↔
      (registrationFromRumor firstTenant "host").quotaKey ≠ quotaKey secondTenant.rdns ∨
        negotiateLocally (registrationFromRumor firstTenant "host").token secondTenant.token =
          secondTenant.token :=
  arbitrated_iff (reachable_of_events Ed25519.sample oneTenant (by decide)) disputes_tenants

/-- **A claim of the same host overwrites the lease it should have lost to.** -/
theorem same_host_overwrites :
    ¬ ∀ (E : Ed25519) (c : Clocked) (now : UInt64) (g : Registration) (w r : RegistrationRumor),
      Reachable E c → c.clock ≤ now → Disputes E c.store now g w r →
        Arbitrated (c.store.adoptRumor E r now).2 g r := by
  intro h
  have ha := h _ _ 1002 _ _ _ (reachable_of_events Ed25519.sample oneTenant (by decide))
    (by decide) disputes_tenants
  have hafter : ((storeAfter Ed25519.sample oneTenant).adoptRumor Ed25519.sample
      secondTenant 1002).2.lookup ⟨"name"⟩ = some (registrationFromRumor secondTenant "host") := by
    decide +kernel
  have hwin : ¬ negotiateLocally (registrationFromRumor firstTenant "host").token
      secondTenant.token = secondTenant.token := by
    decide +kernel
  have he := Option.some.inj (hafter.symm.trans ha)
  rw [if_neg hwin] at he
  exact absurd (congrArg Registration.token he) (by decide)

end RegistryStore

/-! ### A rumor that comes in twice -/

namespace ClaimTable

variable {E : Ed25519} {now : UInt64} {c : ClaimTable} {d : DomainName} {r w : RegistrationRumor}

/-- A claim that was turned down is turned down again, and takes nobody's place. -/
theorem place_insert_again (hdown : maxRegistrationsPerClient ≤ (c.insert r).place E now r)
    (hv : Valid E now r) :
    (((c.insert r).settle E now).insert r).place E now w < maxRegistrationsPerClient ↔
      (c.insert r).place E now w < maxRegistrationsPerClient := by
  have hnone : ((c.insert r).settle E now).lookup r.domain = none := by
    rw [Option.eq_none_iff_forall_ne_some]
    intro w' hw'
    obtain ⟨hw', _, hplace⟩ := lookup_settle.mp hw'
    rw [lookup_insert, if_pos rfl] at hw'
    obtain rfl := Option.some.inj hw'
    omega
  rw [place_insert hnone hv, place_settle]
  by_cases hlt : claimRank r < claimRank w
  · have hmono : (c.insert r).place E now r ≤ (c.insert r).place E now w := Select.rankIn_mono hlt.le
    rw [if_pos hlt]
    omega
  · rw [if_neg hlt]
    omega

/-- **The host's claims are the same after the second time.** -/
theorem lookup_settle_insert_again (hv : Valid E now r) :
    ((((c.insert r).settle E now).insert r).settle E now).lookup d =
      ((c.insert r).settle E now).lookup d := by
  have hself : (c.insert r).lookup r.domain = some r := lookup_insert.trans (if_pos rfl)
  by_cases hup : (c.insert r).place E now r < maxRegistrationsPerClient
  · -- the claim is there already
    have hsettled : ((c.insert r).settle E now).lookup r.domain = some r :=
      lookup_settle.mpr ⟨hself, hv, hup⟩
    have hsame : ∀ d, (((c.insert r).settle E now).insert r).lookup d =
        ((c.insert r).settle E now).lookup d := by
      intro d
      rw [lookup_insert]
      split
      · rename_i hd
        rw [hd, hsettled]
      · rfl
    rw [lookup_settle_congr hsame, settle_settle]
  · refine Option.ext fun w => ?_
    rw [lookup_settle, place_insert_again (not_lt.mp hup) hv]
    constructor
    · rintro ⟨hw, hvw, hplace⟩
      rw [lookup_insert] at hw
      split at hw
      · obtain rfl := Option.some.inj hw
        exact absurd hplace hup
      · exact hw
    · intro hw
      obtain ⟨hw', hvw, hplace⟩ := lookup_settle.mp hw
      refine ⟨?_, hvw, hplace⟩
      rw [lookup_insert, if_neg]
      · exact hw
      · rintro rfl
        rw [hself] at hw'
        obtain rfl := Option.some.inj hw'
        exact hup hplace

end ClaimTable

namespace RegistryStore

variable {E : Ed25519} {s : RegistryStore} {now : UInt64} {q : String} {d : DomainName}
  {r w : RegistrationRumor}

/-- The two stores have the same registrations and the same claims, however their
tables are laid out. -/
structure SameTables (s t : RegistryStore) : Prop where
  registrations : ∀ d, s.lookup d = t.lookup d
  hosts : ∀ q, s.Filed q ↔ t.Filed q
  claims : ∀ q d, (s.claims q).lookup d = (t.claims q).lookup d

theorem SameTables.refl (s : RegistryStore) : SameTables s s :=
  ⟨fun _ => rfl, fun _ => Iff.rfl, fun _ _ => rfl⟩

/-- What is left of the standing registration after it has met a claim meets the
claim with the same result. -/
theorem contest_again {x : Option Registration}
    (hx : ∀ g, x = some g → g.quotaKey ≠ q ∨ g.rumor = none) :
    contest q ((some (contest q x w)).filter fun g => g.quotaKey != q || g.rumor.isNone) w =
      contest q x w := by
  rcases contest_eq_or q x w with hnew | hold
  · -- the host's own lease is dropped and installed again
    rw [hnew, Option.filter_some, if_neg (by simp [registrationFromRumor])]
    rfl
  · rw [Option.filter_some, if_pos (by simpa using hx _ hold), ← hold]

/-- **What stands on a domain is the same after the second time.** -/
theorem lookup_filed_again (hv : ClaimTable.Valid E now r) :
    ((s.filed E r now).filed E r now).lookup d = (s.filed E r now).lookup d := by
  have hclaims : (s.filed E r now).claims (quotaKey r.rdns) =
      ((s.claims (quotaKey r.rdns)).insert r).settle E now := by
    rw [claims_filed, if_pos rfl]
  have hfirst : (s.filed E r now).lookup d = _ := lookup_filed
  rw [lookup_filed, hclaims, ClaimTable.lookup_settle_insert_again hv, standing]
  cases hw : (((s.claims (quotaKey r.rdns)).insert r).settle E now).lookup d with
  | none =>
    rw [hw] at hfirst
    rw [hfirst, standing, Option.filter_filter]
    simp
  | some w =>
    rw [hw] at hfirst
    rw [hfirst]
    exact congrArg some (contest_again fun g hg => (standing_eq_some.mp hg).2)

theorem filed_filed : (s.filed E r now).Filed q ↔ q = quotaKey r.rdns ∨ s.Filed q :=
  filed_reconcileQuota.trans (AList.mem_insert _)

/-- **Adopting a rumor twice is adopting it once.** -/
theorem adoptRumor_twice (E : Ed25519) (s : RegistryStore) (r : RegistrationRumor) (now : UInt64) :
    SameTables ((s.adoptRumor E r now).2.adoptRumor E r now).2 (s.adoptRumor E r now).2 := by
  by_cases hv : ClaimTable.Valid E now r
  · rw [adoptRumor_snd_of_valid hv, adoptRumor_snd_of_valid hv]
    refine ⟨fun d => lookup_filed_again hv, fun q => ?_, fun q d => ?_⟩
    · rw [filed_filed, filed_filed, or_iff_right_iff_imp]
      exact Or.inl
    · rw [claims_filed]
      split
      · rename_i hq
        rw [claims_filed, if_pos hq, hq]
        exact ClaimTable.lookup_settle_insert_again hv
      · rfl
  · rw [adoptRumor_of_not_valid hv]
    exact SameTables.refl _

end RegistryStore

end Binda
