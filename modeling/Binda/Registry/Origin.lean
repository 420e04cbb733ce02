import Binda.Registry.Invariant

/-!
# Where a registration comes from

After filing a claim, or reclaiming, a registration is one that was there before
or comes from a claim that was there before (`FromClaim`), the claim just filed
included.

In a consistent store a claim of the owner of a registered lease, on its domain,
is the copy of that lease (`Consistent.claim_eq`).
-/

namespace Binda

/-- A claim: which domain, for whom and by which token. -/
structure ClaimId where
  domain : DomainName
  clientKey : String
  token : RegistrationToken
  deriving DecidableEq

def RegistrationRumor.claimId (r : RegistrationRumor) : ClaimId := ⟨r.domain, r.clientKey, r.token⟩

def Registration.claimId (g : Registration) (d : DomainName) : ClaimId := ⟨d, g.clientKey, g.token⟩

namespace RegistryStore

open RegistrationRumor

variable {E : Ed25519} {s : RegistryStore} {now : UInt64} {q : String} {d : DomainName}
  {g : Registration} {r w : RegistrationRumor}

/-- `g` repeats a claim on `d`. -/
def FromClaim (s : RegistryStore) (d : DomainName) (g : Registration) : Prop :=
  ∃ q w, (s.claims q).lookup d = some w ∧ g = registrationFromRumor w q

/-- **What filing a claim finds or installs.** -/
theorem lookup_filed_cases (hg : (s.filed E r now).lookup d = some g) :
    s.lookup d = some g ∨ (r.domain = d ∧ g = registrationFromRumor r (quotaKey r.rdns)) ∨
      s.FromClaim d g := by
  rw [filed] at hg
  rcases lookup_reconcileQuota_cases (filed_submit r) hg with ⟨w, hw, rfl⟩ | ⟨hg', _⟩
  · have hw' := (ClaimTable.lookup_settle.mp hw).1
    rw [claims_submit, if_pos rfl, ClaimTable.lookup_insert] at hw'
    split at hw'
    · rename_i hd
      obtain rfl := Option.some.inj hw'
      exact Or.inr (Or.inl ⟨hd.symm, rfl⟩)
    · exact Or.inr (Or.inr ⟨_, w, hw', rfl⟩)
  · exact Or.inl hg'

/-- **What reclaiming leaves or installs.** -/
theorem lookup_reclaimStale_cases {order : VisitOrder String}
    (hg : (s.reclaimStale E order now).lookup d = some g) :
    s.lookup d = some g ∨ s.FromClaim d g := by
  have hboth : (∀ q d w, ((s.reclaimStale E order now).claims q).lookup d = some w →
      (s.claims q).lookup d = some w) ∧
      ∀ d g, (s.reclaimStale E order now).lookup d = some g →
        s.lookup d = some g ∨ s.FromClaim d g := by
    refine reclaimStale_induction (P := fun t => (∀ q d w, (t.claims q).lookup d = some w →
      (s.claims q).lookup d = some w) ∧ ∀ d g, t.lookup d = some g →
        s.lookup d = some g ∨ s.FromClaim d g) ⟨fun _ _ _ h => h, ?_⟩ ?_
    · exact fun d g hg => Or.inl (lookup_dropExpired_eq_some.mp hg).1
    · rintro t q hq ⟨hc, hl⟩
      refine ⟨fun q' d w hw => ?_, fun d g hg => ?_⟩
      · exact hc q' d w (claim_of_reconcileQuota hw)
      · rcases lookup_reconcileQuota_cases hq hg with ⟨w, hw, rfl⟩ | ⟨hg', _⟩
        · exact Or.inr ⟨q, w, hc q d w (ClaimTable.lookup_settle.mp hw).1, rfl⟩
        · exact hl d g hg'
  exact hboth.2 d g hg

/-- **The owner's claim on its own lease is the copy of it.** -/
theorem Consistent.claim_eq (hc : Consistent E s) (hg : s.lookup d = some g)
    (hr : g.rumor = some r) (hw : (s.claims q).lookup d = some w)
    (hk : w.clientKey = g.clientKey) : ∃ records, w = { r with records } := by
  have hl := hc.leased d g r hg hr not_false
  obtain ⟨records, hcopy⟩ := hl.copy
  have howner : quotaKey w.rdns = quotaKey r.rdns :=
    quotaKey_eq_of_clientKey (hc.owner q d w hw) (ownedBy_of_isAuthorized hl.authorized)
      (hk.trans hl.clientKey)
  have hq : g.quotaKey = q := by rw [hl.quotaKey, ← howner, hc.host q d w hw]
  rw [hq, hw] at hcopy
  exact ⟨records, Option.some.inj hcopy⟩

/-- **A rumor of the owner of a registered lease finds room.** -/
theorem Consistent.place_lt (hc : Consistent E s) (hg : s.lookup d = some g)
    (hw : g.rumor = some w) (hd : r.domain = d) (hk : g.clientKey = r.clientKey)
    (hv : ClaimTable.Valid E now r) :
    quotaKey r.rdns = g.quotaKey ∧
      (s.claimsWith r).place E now r < maxRegistrationsPerClient := by
  have hl := hc.leased d g w hg hw not_false
  obtain ⟨records, hcopy⟩ := hl.copy
  have hq : quotaKey r.rdns = g.quotaKey := by
    rw [hl.quotaKey]
    exact quotaKey_eq_of_clientKey (ownedBy_of_isAuthorized hv.1)
      (ownedBy_of_isAuthorized hl.authorized) (hk.symm.trans hl.clientKey)
  refine ⟨hq, ?_⟩
  have hmem : (s.claimsWith r).lookup r.domain = some r :=
    ClaimTable.lookup_insert.trans (if_pos rfl)
  -- the new claim takes the place of the old one
  have hsize : (s.claimsWith r).size ≤ (s.claims g.quotaKey).size := by
    refine Table.size_le_size fun d' w' hw' => ?_
    have hw' : (s.claimsWith r).lookup d' = some w' := hw'
    rw [claimsWith, ClaimTable.lookup_insert, hq] at hw'
    split at hw'
    · rename_i he
      rw [he, hd]
      exact ⟨_, hcopy⟩
    · exact ⟨w', hw'⟩
  exact lt_of_lt_of_le (ClaimTable.place_lt_size hmem hv) (hsize.trans (hc.few _ not_false))

end RegistryStore

end Binda
