import Binda.Registry.Origin

/-!
# The names in a store

No operation makes up a domain name: a name that is registered or claimed after an
event was so before it, or is in the request or the rumor.  Whatever holds of the
names in all of these (`Named`) holds of every name in the store.
-/

namespace Binda

/-- The names an operation brings. -/
def Operation.domains : Operation → List DomainName
  | .request (.register envelope) _ => [envelope.body.domain]
  | .request _ _ => []
  | .adoptRumor rumor => [rumor.domain]
  | .reclaimStale => []

namespace RegistryStore

variable {E : Ed25519} {s : RegistryStore} {now : UInt64} {d : DomainName}
  {r : RegistrationRumor} {P : DomainName → Prop}

/-- Every name that is registered or claimed satisfies `P`. -/
structure Named (P : DomainName → Prop) (s : RegistryStore) : Prop where
  registered : ∀ d g, s.lookup d = some g → P d
  claimed : ∀ q d w, (s.claims q).lookup d = some w → P d

theorem named_new : new.Named P where
  registered d g h := by cases h
  claimed q d w h := by cases h

theorem Named.fromClaim {g : Registration} (h : s.Named P) (hg : s.FromClaim d g) : P d := by
  obtain ⟨q, w, hw, _⟩ := hg
  exact h.claimed q d w hw

theorem Named.filed (h : s.Named P) (hr : P r.domain) : (s.filed E r now).Named P where
  registered d g hg := by
    rcases lookup_filed_cases hg with hg | ⟨rfl, _⟩ | hg
    · exact h.registered d g hg
    · exact hr
    · exact h.fromClaim hg
  claimed q d w hw := by
    rw [claims_filed] at hw
    split at hw
    · have hw := (ClaimTable.lookup_settle.mp hw).1
      rw [ClaimTable.lookup_insert] at hw
      split at hw
      · rename_i hd
        rw [hd]
        exact hr
      · exact h.claimed q d w hw
    · exact h.claimed q d w hw

theorem Named.reclaimStale (h : s.Named P) (order : VisitOrder String) :
    (s.reclaimStale E order now).Named P where
  registered d g hg := (lookup_reclaimStale_cases hg).elim (h.registered d g) h.fromClaim
  claimed q d w hw := by
    rw [claims_reclaimStale] at hw
    exact h.claimed q d w (ClaimTable.lookup_settle.mp hw).1

theorem Named.probed {client : ClientIdentity} {t : UInt64} {sig : List UInt8} (h : s.Named P) :
    (s.probed client now t sig).Named P where
  registered d g hg := by
    rw [lookup_probed_eq_some] at hg
    obtain ⟨g, hg, _⟩ := hg
    exact h.registered d g hg
  claimed q d w hw := by
    rw [lookup_claims_probed_eq_some] at hw
    obtain ⟨w, hw, _⟩ := hw
    exact h.claimed q d w hw

theorem Named.published {client : ClientIdentity} {records : List Record} {t : UInt64}
    {sig : List UInt8} {g : Registration} (h : s.Named P) (hg : s.lookup d = some g)
    (hk : g.clientKey = client.key) : (s.published client d records t sig).Named P where
  registered d' g' hg' := by
    rw [lookup_published hg hk] at hg'
    split at hg'
    · rename_i hd
      rw [hd]
      exact h.registered d g hg
    · exact h.registered d' g' hg'
  claimed q d' w hw := by
    obtain ⟨w₀, hw₀, _⟩ := exists_claim_of_published hg hk hw
    exact h.claimed q d' w₀ hw₀

theorem Named.granted {client : ClientIdentity} {token : RegistrationToken} (h : s.Named P)
    (hd : P d) : (s.granted client d token).Named P where
  registered d' g hg := by
    rw [lookup_granted] at hg
    split at hg
    · rename_i he
      rw [he]
      exact hd
    · exact h.registered d' g hg
  claimed := h.claimed

/-- **No event makes up a name.** -/
theorem Named.after (h : s.Named P) (e : Event) (hop : ∀ d ∈ e.op.domains, P d) :
    (s.after E e).Named P := by
  obtain ⟨answer, s', ho, heq⟩ := exists_change E s e
  rw [heq]
  cases ho with
  | idle _ _ => exact h
  | probed _ _ => exact h.probed
  | published _ _ hg hk => exact h.published hg hk
  | adopted op _ =>
    rw [op] at hop
    exact h.filed (hop _ List.mem_cons_self)
  | reclaimed _ _ => exact h.reclaimStale _
  | panicked hg _ =>
    rw [hg.op] at hop
    exact (h.reclaimStale _).granted (hop _ List.mem_cons_self)
  | leased hg _ =>
    rw [hg.op] at hop
    have hd : P _ := hop _ List.mem_cons_self
    exact ((h.reclaimStale _).granted hd).filed hd

end RegistryStore

end Binda
