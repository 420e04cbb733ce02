import Mathlib.Data.Finset.Max
import Binda.Lib.Tournament
import Binda.Registry.Sample
import Binda.Registry.Step

/-!
# Who keeps a contested domain

Claims of different hosts on one domain are adopted one after another, and the
one that stands meets each new one by `negotiateLocally`.  So the registration
left at the end is the `Tournament.champion` of the claims
(`lookup_adoptAll`).

The pairwise rule is symmetric, but its condition depends on the parities of
both tokens, and it is not transitive.  `adoptAll_order_free_iff` says for which
claims the order of arrival does not matter: all tokens of one parity have to
lie below all tokens of the other (`Separated`).
-/

namespace Binda

/-! ### Tokens -/

/-- The tokens of one parity lie below those of the other. -/
def Separated (tokens : List RegistrationToken) : Prop :=
  ∃ p : UInt8, (p = 0 ∨ p = 1) ∧ ∀ a ∈ tokens, ∀ b ∈ tokens, a.parity = p → b.parity ≠ p →
    a.rawOrderingKey < b.rawOrderingKey

theorem RegistrationToken.parity_cases (t : RegistrationToken) : t.parity = 0 ∨ t.parity = 1 := by
  have h : ∀ b : UInt8, b &&& 1 = 0 ∨ b &&& 1 = 1 := by
    intro b
    have hb : (b &&& 1).toNat = b.toNat % 2 := by
      rw [UInt8.toNat_and, UInt8.toNat_one, Nat.and_one_is_mod]
    rcases Nat.mod_two_eq_zero_or_one b.toNat with h0 | h1
    · exact Or.inl (UInt8.toNat_inj.mp (hb.trans h0))
    · exact Or.inr (UInt8.toNat_inj.mp (hb.trans h1))
  exact h _

/-- Between tokens of one parity the larger stays. -/
theorem negotiateLocally_eq_left_of_parity_eq {a b : RegistrationToken} (hp : a.parity = b.parity) :
    negotiateLocally a b = a ↔ b.rawOrderingKey ≤ a.rawOrderingKey := by
  rw [negotiateLocally_eq, if_pos hp]
  constructor
  · intro h
    split_ifs at h with hle
    · exact hle
    · rw [h]
  · intro h
    rw [if_pos h]

/-- Between tokens of different parity the smaller stays. -/
theorem negotiateLocally_eq_left_of_parity_ne {a b : RegistrationToken} (hp : a.parity ≠ b.parity) :
    negotiateLocally a b = a ↔ a.rawOrderingKey < b.rawOrderingKey := by
  have hne : a.rawOrderingKey ≠ b.rawOrderingKey := fun he =>
    hp (congrArg _ (RegistrationToken.rawOrderingKey_injective he))
  rw [negotiateLocally_eq, if_neg hp]
  constructor
  · intro h
    split_ifs at h with hle
    · exact lt_of_le_of_ne hle hne
    · exact absurd (congrArg _ h.symm) hp
  · intro h
    rw [if_pos h.le]

/-- A token with the largest key among those of one parity. -/
theorem exists_largest {tokens : List RegistrationToken} {p : UInt8}
    (h : ∃ a ∈ tokens, a.parity = p) :
    ∃ w ∈ tokens, w.parity = p ∧
      ∀ a ∈ tokens, a.parity = p → a.rawOrderingKey ≤ w.rawOrderingKey := by
  obtain ⟨a, ha, hp⟩ := h
  obtain ⟨w, hw, hmax⟩ := (tokens.toFinset.filter fun t => t.parity = p).exists_max_image
    RegistrationToken.rawOrderingKey ⟨a, by simp [ha, hp]⟩
  rw [Finset.mem_filter, List.mem_toFinset] at hw
  exact ⟨w, hw.1, hw.2, fun b hb hbp => hmax b (by simp [hb, hbp])⟩

/-- **A token that wins against all the others exists when the parities are
separated, and not otherwise.** -/
theorem exists_unbeaten_iff {tokens : List RegistrationToken} (hne : tokens ≠ []) :
    (∃ w ∈ tokens, ∀ x ∈ tokens, negotiateLocally w x = w) ↔ Separated tokens := by
  constructor
  · rintro ⟨w, hw, hbeats⟩
    refine ⟨w.parity, w.parity_cases, fun a ha b hb hpa hpb => ?_⟩
    have hle := (negotiateLocally_eq_left_of_parity_eq hpa.symm).mp (hbeats a ha)
    have hlt := (negotiateLocally_eq_left_of_parity_ne (Ne.symm hpb)).mp (hbeats b hb)
    exact lt_of_le_of_lt hle hlt
  · rintro ⟨p, hp01, hp⟩
    -- the largest token of the lower parity wins, or the largest of all
    have hlargest : ∃ p', (∃ a ∈ tokens, a.parity = p') ∧
        ∀ a ∈ tokens, ∀ b ∈ tokens, a.parity = p' → b.parity ≠ p' →
          a.rawOrderingKey < b.rawOrderingKey := by
      by_cases hex : ∃ a ∈ tokens, a.parity = p
      · exact ⟨p, hex, hp⟩
      · obtain ⟨a, ha⟩ := List.exists_mem_of_ne_nil tokens hne
        refine ⟨a.parity, ⟨a, ha, rfl⟩, fun x hx y hy hpx hpy => absurd ?_ hpy⟩
        -- nobody has parity `p`, so all have the other one
        have hap : a.parity ≠ p := fun h => hex ⟨a, ha, h⟩
        have hyp : y.parity ≠ p := fun h => hex ⟨y, hy, h⟩
        rcases hp01 with rfl | rfl
        · rw [y.parity_cases.resolve_left hyp, a.parity_cases.resolve_left hap]
        · rw [y.parity_cases.resolve_right hyp, a.parity_cases.resolve_right hap]
    obtain ⟨p', hex, hsep⟩ := hlargest
    obtain ⟨w, hw, hwp, hmax⟩ := exists_largest hex
    refine ⟨w, hw, fun x hx => ?_⟩
    by_cases hxp : x.parity = p'
    · exact (negotiateLocally_eq_left_of_parity_eq (hwp.trans hxp.symm)).mpr (hmax x hx hxp)
    · exact (negotiateLocally_eq_left_of_parity_ne (fun h => hxp (h.symm.trans hwp))).mpr
        (hsep w hw x hx hwp hxp)

/-! ### Adopting claims one after another -/

namespace RegistryStore

open Tournament

variable {E : Ed25519} {s : RegistryStore} {now : UInt64} {d : DomainName} {r : RegistrationRumor}

/-- Who holds the domain, and under which token. -/
def ownerAndToken (s : RegistryStore) (d : DomainName) : Option (String × RegistrationToken) :=
  (s.lookup d).map fun g => (g.clientKey, g.token)

/-- The registration a claim is installed as. -/
def registrationOf (r : RegistrationRumor) : Registration :=
  registrationFromRumor r (quotaKey r.rdns)

/-- Which of two claims stays, the first one standing. -/
def standingClaim (a b : RegistrationRumor) : RegistrationRumor :=
  if negotiateLocally a.token b.token = b.token then b else a

/-- Rumors of one domain, all valid, from different hosts and with different tokens. -/
structure Rivals (E : Ed25519) (now : UInt64) (d : DomainName) (l : List RegistrationRumor) :
    Prop where
  domain : ∀ r ∈ l, r.domain = d
  valid : ∀ r ∈ l, ClaimTable.Valid E now r
  hosts : (l.map fun r => quotaKey r.rdns).Nodup
  tokens : (l.map fun r => r.token).Nodup

theorem Rivals.perm {l l' : List RegistrationRumor} (h : Rivals E now d l) (hp : l'.Perm l) :
    Rivals E now d l' where
  domain r hr := h.domain r (hp.mem_iff.mp hr)
  valid r hr := h.valid r (hp.mem_iff.mp hr)
  hosts := (hp.map _).nodup_iff.mpr h.hosts
  tokens := (hp.map _).nodup_iff.mpr h.tokens

theorem standingClaim_pick (a b : RegistrationRumor) :
    standingClaim a b = a ∨ standingClaim a b = b := by
  rw [standingClaim]
  split <;> simp

/-- Meeting a claim is a duel with it. -/
theorem contest_registrationOf (a b : RegistrationRumor) :
    contest (quotaKey b.rdns) (some (registrationOf a)) b = registrationOf (standingClaim a b) := by
  rw [contest, standingClaim]
  have ht : (registrationOf a).token = a.token := rfl
  rw [ht]
  split <;> rfl

theorem Rivals.left {l l' : List RegistrationRumor} (h : Rivals E now d (l ++ l')) :
    Rivals E now d l where
  domain r hr := h.domain r (List.mem_append_left l' hr)
  valid r hr := h.valid r (List.mem_append_left l' hr)
  hosts := h.hosts.sublist ((List.sublist_append_left l l').map _)
  tokens := h.tokens.sublist ((List.sublist_append_left l l').map _)

/-- The store after the claims `done`: the other hosts have none, and the registration is the
champion's. -/
structure Judged (d : DomainName) (done : List RegistrationRumor) (s : RegistryStore) : Prop where
  claims : ∀ q, q ∉ done.map (fun r => quotaKey r.rdns) → s.claims q = ClaimTable.empty
  lookup : s.lookup d = (champion standingClaim done).map registrationOf

/-- **One more claim meets the champion.** -/
theorem Judged.filed {done : List RegistrationRumor} (h : Judged d done s)
    (hr : Rivals E now d (done ++ [r])) : Judged d (done ++ [r]) (s.filed E r now) := by
  have hrmem : r ∈ done ++ [r] := by simp
  obtain rfl := hr.domain r hrmem
  have hhosts := hr.hosts
  rw [List.map_append, List.map_cons] at hhosts
  have hnew : quotaKey r.rdns ∉ done.map fun r => quotaKey r.rdns := fun hin =>
    List.disjoint_of_nodup_append hhosts hin List.mem_cons_self
  have hother : ∀ g, s.lookup r.domain = some g → g.quotaKey ≠ quotaKey r.rdns := by
    intro g hg he
    rw [h.lookup, Option.map_eq_some_iff] at hg
    obtain ⟨a, ha, rfl⟩ := hg
    exact hnew (List.mem_map.mpr ⟨a, champion_mem standingClaim_pick ha, he⟩)
  constructor
  · intro q hin
    rw [List.map_append, List.mem_append, not_or] at hin
    rw [claims_filed, if_neg (by simpa using hin.2)]
    exact h.claims q hin.1
  · rw [lookup_filed_first (h.claims _ hnew) (hr.valid r hrmem) hother, h.lookup, champion_concat]
    cases champion standingClaim done with
    | none => rfl
    | some a => exact congrArg some (contest_registrationOf a r)

theorem judged_adoptAll {l : List RegistrationRumor} (h : Rivals E now d l) :
    Judged d l (adoptAll E now l new) := by
  induction l using List.reverseRecOn with
  | nil => exact ⟨fun _ _ => rfl, rfl⟩
  | append_singleton l r ih =>
    have hvalid := h.valid r (List.mem_append_right l (List.mem_singleton_self r))
    rw [adoptAll, List.foldl_append, List.foldl_cons, List.foldl_nil, ← adoptAll,
      adoptRumor_snd_of_valid hvalid]
    exact (ih h.left).filed h

/-- **The registration left is the champion's.** -/
theorem lookup_adoptAll {l : List RegistrationRumor} (h : Rivals E now d l) :
    (adoptAll E now l new).lookup d = (champion standingClaim l).map registrationOf :=
  (judged_adoptAll h).lookup

/-! ### Order of arrival -/

/-- A rival is known by its token. -/
theorem Rivals.eq_of_token {l : List RegistrationRumor} (h : Rivals E now d l)
    {a b : RegistrationRumor} (ha : a ∈ l) (hb : b ∈ l) (ht : a.token = b.token) : a = b :=
  List.inj_on_of_nodup_map h.tokens ha hb ht

theorem Rivals.fair {l : List RegistrationRumor} (h : Rivals E now d l) : Fair standingClaim l where
  pick := standingClaim_pick
  symm a ha b hb := by
    by_cases hab : a = b
    · rw [hab]
    have hne : a.token ≠ b.token := fun ht => hab (h.eq_of_token ha hb ht)
    rw [standingClaim, standingClaim, negotiateLocally_symm b.token]
    rcases negotiateLocally_pick a.token b.token with hp | hp <;> rw [hp]
    · rw [if_neg hne, if_pos rfl]
    · rw [if_pos rfl, if_neg (Ne.symm hne)]

/-- Among rivals a claim is unbeaten when its token is. -/
theorem Rivals.unbeaten_iff {l : List RegistrationRumor} (h : Rivals E now d l)
    {w : RegistrationRumor} (hw : w ∈ l) :
    Unbeaten standingClaim l w ↔ ∀ x ∈ l, negotiateLocally w.token x.token = w.token := by
  refine forall₂_congr fun x hx => ?_
  rw [standingClaim]
  by_cases hxw : x = w
  · subst hxw
    simp
  have hne : x.token ≠ w.token := fun ht => hxw (h.eq_of_token hx hw ht)
  rcases negotiateLocally_pick w.token x.token with hp | hp <;> rw [hp]
  · simp [hne.symm]
  · simp [hne, hxw]

theorem ownerAndToken_adoptAll {l : List RegistrationRumor} (h : Rivals E now d l) :
    (adoptAll E now l new).ownerAndToken d =
      (champion standingClaim l).map fun r => (r.clientKey, r.token) := by
  rw [ownerAndToken, lookup_adoptAll h, Option.map_map]
  rfl

/-- The same owner and token are left exactly when the champion is the same. -/
theorem Rivals.ownerAndToken_eq_iff {l l₁ l₂ : List RegistrationRumor} (h : Rivals E now d l)
    (h₁ : l₁.Perm l) (h₂ : l₂.Perm l) :
    (adoptAll E now l₁ new).ownerAndToken d = (adoptAll E now l₂ new).ownerAndToken d ↔
      champion standingClaim l₁ = champion standingClaim l₂ := by
  rw [ownerAndToken_adoptAll (h.perm h₁), ownerAndToken_adoptAll (h.perm h₂)]
  constructor
  · intro he
    cases hc₁ : champion standingClaim l₁ with
    | none =>
      rw [hc₁] at he
      exact (Option.map_eq_none_iff.mp he.symm).symm
    | some a =>
      rw [hc₁, Option.map_some] at he
      obtain ⟨b, hb, heq⟩ := Option.map_eq_some_iff.mp he.symm
      have ha := champion_mem standingClaim_pick hc₁
      have hb' := champion_mem standingClaim_pick hb
      rw [hb, h.eq_of_token (h₁.mem_iff.mp ha) (h₂.mem_iff.mp hb') (Prod.mk.inj heq).2.symm]
  · intro he
    rw [he]

/-- **The order of arrival does not matter if and only if the tokens of one
parity lie below those of the other.** -/
theorem adoptAll_order_free_iff {l : List RegistrationRumor} (h : Rivals E now d l) :
    (∀ l₁ l₂ : List RegistrationRumor, l₁.Perm l → l₂.Perm l →
      (adoptAll E now l₁ new).ownerAndToken d = (adoptAll E now l₂ new).ownerAndToken d) ↔
        Separated (l.map fun r => r.token) := by
  have hfree : (∀ l₁ l₂ : List RegistrationRumor, l₁.Perm l → l₂.Perm l →
      (adoptAll E now l₁ new).ownerAndToken d = (adoptAll E now l₂ new).ownerAndToken d) ↔
        ∀ l₁ l₂ : List RegistrationRumor, l₁.Perm l → l₂.Perm l →
          champion standingClaim l₁ = champion standingClaim l₂ :=
    forall₄_congr fun l₁ l₂ h₁ h₂ => h.ownerAndToken_eq_iff h₁ h₂
  rw [hfree, champion_order_free_iff h.fair h.tokens.of_map]
  by_cases hnil : l = []
  · subst hnil
    exact ⟨fun _ => ⟨0, Or.inl rfl, fun a ha => absurd ha (by simp)⟩, fun _ => Or.inl rfl⟩
  · rw [or_iff_right hnil, ← exists_unbeaten_iff (by simpa using hnil)]
    constructor
    · rintro ⟨w, hw, hu⟩
      refine ⟨w.token, List.mem_map.mpr ⟨w, hw, rfl⟩, fun x hx => ?_⟩
      obtain ⟨y, hy, rfl⟩ := List.mem_map.mp hx
      exact (h.unbeaten_iff hw).mp hu y hy
    · rintro ⟨t, ht, hu⟩
      obtain ⟨w, hw, rfl⟩ := List.mem_map.mp ht
      exact ⟨w, hw, (h.unbeaten_iff hw).mpr fun x hx => hu _ (List.mem_map.mpr ⟨x, hx, rfl⟩)⟩

/-- A claim of the host `rdns` on one domain. -/
def rival (rdns : String) (issuedAt : UInt64) : RegistrationRumor :=
  (sampleClient 1 rdns).lease ⟨"name"⟩ (sampleToken issuedAt 0) 1000 1000

/-- Three claims of which each loses against another one. -/
def cyclicRivals : List RegistrationRumor := [rival "a" 1000, rival "b" 1001, rival "c" 1002]

theorem rivals_cyclicRivals : Rivals Ed25519.sample 1000 ⟨"name"⟩ cyclicRivals :=
  ⟨by decide +kernel, by decide +kernel, by decide +kernel, by decide +kernel⟩

theorem adoptAll_cyclicRivals_iff :
    (∀ l₁ l₂ : List RegistrationRumor, l₁.Perm cyclicRivals → l₂.Perm cyclicRivals →
      (adoptAll Ed25519.sample 1000 l₁ new).ownerAndToken ⟨"name"⟩ =
        (adoptAll Ed25519.sample 1000 l₂ new).ownerAndToken ⟨"name"⟩) ↔
      Separated (cyclicRivals.map fun r => r.token) :=
  adoptAll_order_free_iff rivals_cyclicRivals

/-- **The order of arrival can matter.** -/
theorem adoptAll_depends_on_order :
    ¬ ∀ (E : Ed25519) (now : UInt64) (d : DomainName) (l l' : List RegistrationRumor),
      Rivals E now d l → l'.Perm l →
        (adoptAll E now l' new).ownerAndToken d = (adoptAll E now l new).ownerAndToken d := by
  intro h
  have hsame := h _ _ _ cyclicRivals [rival "b" 1001, rival "c" 1002, rival "a" 1000]
    rivals_cyclicRivals (by decide +kernel)
  rw [ownerAndToken_adoptAll rivals_cyclicRivals] at hsame
  rw [ownerAndToken_adoptAll (rivals_cyclicRivals.perm (by decide +kernel))] at hsame
  revert hsame
  decide +kernel

end RegistryStore

end Binda
