import Binda.Registry.Invariant

/-!
# Adopting several rumors

A node adopts the rumors of one reply one after another, at one clock reading.
`adoptAll_induction` and `adoptAll_visit` are the two induction rules: what
every accepted rumor keeps, and what holds from one rumor's turn on.

What the rumors do to one host's claims does not depend on the other hosts
(`claims_adoptAll`), and which claims of the host outlast them can be said
without following the turns: `lookup_takeIn_iff` counts the claims that rank
before one among all that the host has or gets.
-/

namespace Binda

open Select

/-! ### The claims of one host -/

namespace ClaimTable

variable {E : Ed25519} {now : UInt64} {c c' : ClaimTable} {d : DomainName}
  {r w : RegistrationRumor} {l : List RegistrationRumor}

/-- The claims are inserted. -/
def insertAll (c : ClaimTable) (l : List RegistrationRumor) : ClaimTable := l.foldl insert c

/-- The claims are inserted, and the host is settled after each. -/
def takeIn (E : Ed25519) (now : UInt64) (c : ClaimTable) (l : List RegistrationRumor) :
    ClaimTable :=
  l.foldl (fun c r => (c.insert r).settle E now) c

theorem lookup_insertAll_of_not_mem : ∀ {l : List RegistrationRumor} {c : ClaimTable},
    d ∉ l.map RegistrationRumor.domain → (c.insertAll l).lookup d = c.lookup d := by
  intro l
  induction l with
  | nil => intro c _; rfl
  | cons r l ih =>
    intro c hd
    rw [List.map_cons, List.mem_cons, not_or] at hd
    rw [insertAll, List.foldl_cons]
    exact (ih hd.2).trans (lookup_insert.trans (if_neg hd.1))

theorem lookup_insertAll_of_mem : ∀ {l : List RegistrationRumor} {c : ClaimTable},
    (l.map RegistrationRumor.domain).Nodup → r ∈ l →
      (c.insertAll l).lookup r.domain = some r := by
  intro l
  induction l with
  | nil => intro c _ hr; cases hr
  | cons a l ih =>
    intro c hnd hr
    rw [List.map_cons, List.nodup_cons] at hnd
    rw [insertAll, List.foldl_cons]
    rcases List.mem_cons.mp hr with rfl | hr
    · exact (lookup_insertAll_of_not_mem hnd.1).trans (lookup_insert.trans (if_pos rfl))
    · exact ih hnd.2 hr

/-- Taking claims in brings no others. -/
theorem lookup_of_lookup_takeIn : ∀ {l : List RegistrationRumor} {c : ClaimTable},
    (c.takeIn E now l).lookup d = some w → d ∉ l.map RegistrationRumor.domain →
      c.lookup d = some w := by
  intro l
  induction l with
  | nil => intro c h _; exact h
  | cons r l ih =>
    intro c h hd
    rw [List.map_cons, List.mem_cons, not_or] at hd
    rw [takeIn, List.foldl_cons] at h
    have hsettled := (lookup_settle.mp (ih h hd.2)).1
    rwa [lookup_insert, if_neg hd.1] at hsettled

/-- **A place can only go up** where every valid claim before `w` stays one. -/
theorem place_le_place (h : ∀ d r, c.lookup d = some r → Valid E now r → claimRank r < claimRank w →
    ∃ r', c'.lookup d = some r' ∧ Valid E now r' ∧ claimRank r' < claimRank w) :
    c.place E now w ≤ c'.place E now w := by
  refine Table.countWhere_le_countWhere (t := (c.valid E now).table) (u := (c'.valid E now).table)
    fun d r hr hp => ?_
  obtain ⟨hc, hv⟩ := lookup_valid.mp hr
  obtain ⟨r', hr', hv', hlt⟩ := h d r hc hv (of_decide_eq_true hp)
  exact ⟨r', lookup_valid.mpr ⟨hr', hv'⟩, decide_eq_true hlt⟩

/-- A new claim lies on a domain the host has no claim on, or ranks as that one. -/
def Compatible (c : ClaimTable) (l : List RegistrationRumor) : Prop :=
  ∀ r ∈ l, ∀ r', c.lookup r.domain = some r' → claimRank r' = claimRank r

theorem place_le_place_insertAll (hnd : (l.map RegistrationRumor.domain).Nodup)
    (hv : ∀ r ∈ l, Valid E now r) (hc : c.Compatible l) :
    c.place E now w ≤ (c.insertAll l).place E now w := by
  refine place_le_place fun d r hr hvr hlt => ?_
  by_cases hd : d ∈ l.map RegistrationRumor.domain
  · obtain ⟨r', hr', rfl⟩ := List.mem_map.mp hd
    refine ⟨r', lookup_insertAll_of_mem hnd hr', hv r' hr', ?_⟩
    rwa [← hc r' hr' r hr]
  · exact ⟨r, (lookup_insertAll_of_not_mem hd).trans hr, hvr, hlt⟩

/-- Settling first does not change the place of a claim that is settled: those
before it are settled, too. -/
theorem place_settle_insertAll (hnd : (l.map RegistrationRumor.domain).Nodup)
    (hp : c.place E now w < maxRegistrationsPerClient) :
    ((c.settle E now).insertAll l).place E now w = (c.insertAll l).place E now w := by
  refine le_antisymm (place_le_place ?_) (place_le_place ?_) <;> intro d r hr hvr hlt <;>
    by_cases hd : d ∈ l.map RegistrationRumor.domain
  · obtain ⟨r', hr', rfl⟩ := List.mem_map.mp hd
    rw [lookup_insertAll_of_mem hnd hr'] at hr
    obtain rfl := Option.some.inj hr
    exact ⟨_, lookup_insertAll_of_mem hnd hr', hvr, hlt⟩
  · rw [lookup_insertAll_of_not_mem hd] at hr
    exact ⟨r, (lookup_insertAll_of_not_mem hd).trans (lookup_settle.mp hr).1, hvr, hlt⟩
  · obtain ⟨r', hr', rfl⟩ := List.mem_map.mp hd
    rw [lookup_insertAll_of_mem hnd hr'] at hr
    obtain rfl := Option.some.inj hr
    exact ⟨_, lookup_insertAll_of_mem hnd hr', hvr, hlt⟩
  · rw [lookup_insertAll_of_not_mem hd] at hr
    have hpr : c.place E now r < maxRegistrationsPerClient :=
      lt_of_le_of_lt (rankIn_mono hlt.le) hp
    exact ⟨r, (lookup_insertAll_of_not_mem hd).trans (lookup_settle.mpr ⟨hr, hvr, hpr⟩), hvr, hlt⟩

/-- **Which claim outlasts those the host takes in**: a valid one with fewer than
five valid ones before it among all the host has and gets. -/
theorem lookup_takeIn_iff : ∀ {l : List RegistrationRumor} {c : ClaimTable}, l ≠ [] →
    (l.map RegistrationRumor.domain).Nodup → d ∉ l.map RegistrationRumor.domain →
    (∀ r ∈ l, Valid E now r) → c.Compatible l → c.lookup d = some w →
      ((c.takeIn E now l).lookup d = some w ↔
        Valid E now w ∧ (c.insertAll l).place E now w < maxRegistrationsPerClient) := by
  intro l
  induction l with
  | nil => intro c hne; exact absurd rfl hne
  | cons r l ih =>
    intro c _ hnd hd hv hc hw
    rw [List.map_cons, List.nodup_cons] at hnd
    rw [List.map_cons, List.mem_cons, not_or] at hd
    have hw₁ : (c.insert r).lookup d = some w := lookup_insert.trans ((if_neg hd.1).trans hw)
    have hvl : ∀ r' ∈ l, Valid E now r' := fun r' hr' => hv r' (List.mem_cons_of_mem r hr')
    -- the rest of the new claims is compatible with the first
    have hc₁ : (c.insert r).Compatible l := by
      intro r' hr' r'' h
      have hne : r'.domain ≠ r.domain := fun he => hnd.1 (he ▸ List.mem_map.mpr ⟨r', hr', rfl⟩)
      rw [lookup_insert, if_neg hne] at h
      exact hc r' (List.mem_cons_of_mem r hr') r'' h
    by_cases hnil : l = []
    · subst hnil
      refine (lookup_settle (c := c.insert r)).trans ?_
      exact and_iff_right hw₁
    by_cases hkept : Valid E now w ∧ (c.insert r).place E now w < maxRegistrationsPerClient
    · have hsettled : ((c.insert r).settle E now).lookup d = some w :=
        lookup_settle.mpr ⟨hw₁, hkept⟩
      have hc₂ : ((c.insert r).settle E now).Compatible l := fun r' hr' r'' h =>
        hc₁ r' hr' r'' (lookup_settle.mp h).1
      refine (ih hnil hnd.2 hd.2 hvl hc₂ hsettled).trans (and_congr_right fun _ => ?_)
      rw [place_settle_insertAll hnd.2 hkept.2]
      rfl
    · refine iff_of_false (fun h => hkept ?_) fun h => hkept ⟨h.1, ?_⟩
      · exact (lookup_settle.mp (lookup_of_lookup_takeIn h hd.2)).2
      · exact lt_of_le_of_lt (place_le_place_insertAll hnd.2 hvl hc₁) h.2

/-- With room for all, a valid claim is settled. -/
theorem lookup_settle_of_few (hsize : c.size ≤ maxRegistrationsPerClient)
    (h : c.lookup d = some r) (hv : Valid E now r) : (c.settle E now).lookup d = some r :=
  lookup_settle.mpr ⟨h, hv, lt_of_lt_of_le (place_lt_size h hv) hsize⟩

end ClaimTable

/-! ### The induction rules -/

namespace RegistryStore

variable {E : Ed25519} {s : RegistryStore} {now : UInt64} {q : String} {d : DomainName}
  {l : List RegistrationRumor} {r : RegistrationRumor}

theorem adoptAll_cons : s.adoptAll E now (r :: l) =
    if ClaimTable.Valid E now r then (s.filed E r now).adoptAll E now l
    else s.adoptAll E now l := by
  rw [adoptAll, List.foldl_cons]
  split
  · rename_i hv
    rw [adoptRumor_snd_of_valid hv, adoptAll]
  · rename_i hv
    rw [adoptRumor_of_not_valid hv, adoptAll]

/-- **What every accepted rumor keeps, adopting all of them keeps.** -/
theorem adoptAll_induction {P : RegistryStore → Prop} : ∀ {l : List RegistrationRumor}
    {s : RegistryStore}, P s →
    (∀ t, ∀ r ∈ l, ClaimTable.Valid E now r → P t → P (t.filed E r now)) →
      P (s.adoptAll E now l) := by
  intro l
  induction l with
  | nil => intro s hs _; exact hs
  | cons r l ih =>
    intro s hs hstep
    have hl : ∀ t, ∀ r' ∈ l, ClaimTable.Valid E now r' → P t → P (t.filed E r' now) :=
      fun t r' hr' => hstep t r' (List.mem_cons_of_mem r hr')
    rw [adoptAll_cons]
    split
    · rename_i hv
      exact ih (hstep s r List.mem_cons_self hv hs) hl
    · exact ih hs hl

/-- **A valid rumor has its turn.**  `P` is what holds up to the turn of `r`, `Q`
what holds from it on. -/
theorem adoptAll_visit {P Q : RegistryStore → Prop} (hr : r ∈ l)
    (hnd : (l.map RegistrationRumor.domain).Nodup) (hv : ClaimTable.Valid E now r) (h0 : P s)
    (hP : ∀ t, ∀ r' ∈ l, r'.domain ≠ r.domain → ClaimTable.Valid E now r' → P t →
      P (t.filed E r' now))
    (hPQ : ∀ t, P t → Q (t.filed E r now))
    (hQ : ∀ t, ∀ r' ∈ l, r'.domain ≠ r.domain → ClaimTable.Valid E now r' → Q t →
      Q (t.filed E r' now)) : Q (s.adoptAll E now l) := by
  revert s
  induction l with
  | nil => cases hr
  | cons a l ih =>
    intro s h0
    rw [List.map_cons, List.nodup_cons] at hnd
    rw [adoptAll_cons]
    rcases List.mem_cons.mp hr with rfl | hr
    · -- from here on `Q` has to be kept only
      rw [if_pos hv]
      refine adoptAll_induction (hPQ s h0) fun t r' hr' hv' => ?_
      have hne : r'.domain ≠ r.domain := fun he => hnd.1 (he ▸ List.mem_map.mpr ⟨r', hr', rfl⟩)
      exact hQ t r' (List.mem_cons_of_mem r hr') hne hv'
    · have hne : a.domain ≠ r.domain := fun he => hnd.1 (he ▸ List.mem_map.mpr ⟨r, hr, rfl⟩)
      have ih := @ih hr hnd.2 (fun t r' hr' => hP t r' (List.mem_cons_of_mem a hr'))
        (fun t r' hr' => hQ t r' (List.mem_cons_of_mem a hr'))
      split
      · rename_i hva
        exact ih (hP s a List.mem_cons_self hne hva h0)
      · exact ih h0

theorem Consistent.adoptAll (h : Consistent E s) : Consistent E (s.adoptAll E now l) :=
  adoptAll_induction (P := Consistent E) h fun _ _ _ hv ht => ht.filed hv.1

/-- A claim on another domain brings none on this one. -/
theorem lookup_claims_of_filed (hd : r.domain ≠ d) {w : RegistrationRumor}
    (hw : ((s.filed E r now).claims q).lookup d = some w) : (s.claims q).lookup d = some w := by
  rw [claims_filed] at hw
  split at hw
  · have hw' := (ClaimTable.lookup_settle.mp hw).1
    rwa [ClaimTable.lookup_insert, if_neg (Ne.symm hd)] at hw'
  · exact hw

theorem lookup_claims_filed_eq_none (hd : r.domain ≠ d) (h : (s.claims q).lookup d = none) :
    ((s.filed E r now).claims q).lookup d = none := by
  rw [Option.eq_none_iff_forall_ne_some]
  intro w hw
  rw [lookup_claims_of_filed hd hw] at h
  cases h

/-- The valid rumors of one host. -/
def arriving (E : Ed25519) (now : UInt64) (l : List RegistrationRumor) (q : String) :
    List RegistrationRumor :=
  l.filter fun r => decide (ClaimTable.Valid E now r) && decide (quotaKey r.rdns = q)

theorem mem_arriving :
    r ∈ arriving E now l q ↔ r ∈ l ∧ ClaimTable.Valid E now r ∧ quotaKey r.rdns = q := by
  rw [arriving, List.mem_filter, Bool.and_eq_true, decide_eq_true_eq, decide_eq_true_eq]

/-- **The claims of one host go by its own rumors only.** -/
theorem claims_adoptAll : ∀ {l : List RegistrationRumor} {s : RegistryStore},
    (s.adoptAll E now l).claims q = (s.claims q).takeIn E now (arriving E now l q) := by
  intro l
  induction l with
  | nil => intro s; rfl
  | cons r l ih =>
    intro s
    rw [adoptAll_cons, arriving, List.filter_cons]
    by_cases hv : ClaimTable.Valid E now r
    · rw [if_pos hv, ih, claims_filed]
      by_cases hq : quotaKey r.rdns = q
      · rw [if_pos hq.symm, if_pos (by simp [hv, hq])]
        rfl
      · rw [if_neg (Ne.symm hq), if_neg (by simp [hq])]
        rfl
    · rw [if_neg hv, ih, if_neg (by simp [hv])]
      rfl

/-! ### The domain of one host -/

/-- Only host `q` claims `d`, and it holds `d` by a lease if `d` is held. -/
structure SoleHost (s : RegistryStore) (d : DomainName) (q : String) : Prop where
  others : ∀ q', q' ≠ q → (s.claims q').lookup d = none
  held : ∀ g, s.lookup d = some g → g.quotaKey = q ∧ g.rumor ≠ none

/-- A rumor of another host passes by. -/
theorem SoleHost.lookup_filed_of_other (h : s.SoleHost d q) (hd : r.domain ≠ d)
    (hq : quotaKey r.rdns ≠ q) : (s.filed E r now).lookup d = s.lookup d := by
  have hnone : ((s.filed E r now).claims (quotaKey r.rdns)).lookup d = none :=
    lookup_claims_filed_eq_none hd (h.others _ hq)
  rw [claims_filed, if_pos rfl] at hnone
  rw [lookup_filed, hnone]
  exact standing_of_other fun g hg he => hq (he.symm.trans (h.held g hg).1)

/-- A rumor of the host itself puts the settled claim in place. -/
theorem SoleHost.lookup_filed_of_own (h : s.SoleHost d q) (hq : quotaKey r.rdns = q) :
    (s.filed E r now).lookup d =
      (((s.filed E r now).claims q).lookup d).map fun w => registrationFromRumor w q := by
  have hstand : s.standing q d = none := by
    rw [Option.eq_none_iff_forall_ne_some]
    intro g hg
    obtain ⟨hg', hor⟩ := standing_eq_some.mp hg
    exact hor.elim (absurd (h.held g hg').1) (h.held g hg').2
  rw [lookup_filed, claims_filed, if_pos hq.symm, hq, hstand]
  cases (((s.claims q).insert r).settle E now).lookup d <;> rfl

theorem SoleHost.filed (h : s.SoleHost d q) (hd : r.domain ≠ d) :
    (s.filed E r now).SoleHost d q := by
  refine ⟨fun q' hq' => lookup_claims_filed_eq_none hd (h.others q' hq'), fun g hg => ?_⟩
  by_cases hq : quotaKey r.rdns = q
  · rw [h.lookup_filed_of_own hq, Option.map_eq_some_iff] at hg
    obtain ⟨w, _, rfl⟩ := hg
    exact ⟨rfl, by simp [registrationFromRumor]⟩
  · rw [h.lookup_filed_of_other hd hq] at hg
    exact h.held g hg

/-- **What adopting rumors on other domains leaves on `d`**: what was there, or
the claim that outlasts those arriving. -/
theorem SoleHost.lookup_adoptAll {l : List RegistrationRumor} (h : s.SoleHost d q)
    (hnd : (l.map RegistrationRumor.domain).Nodup) (hd : d ∉ l.map RegistrationRumor.domain) :
    (s.adoptAll E now l).lookup d =
      if arriving E now l q = [] then s.lookup d
      else (((s.claims q).takeIn E now (arriving E now l q)).lookup d).map fun w =>
        registrationFromRumor w q := by
  have hne : ∀ r ∈ l, r.domain ≠ d := fun r hr he => hd (he ▸ List.mem_map.mpr ⟨r, hr, rfl⟩)
  split
  · rename_i hnil
    have hkeep : (s.adoptAll E now l).SoleHost d q ∧
        (s.adoptAll E now l).lookup d = s.lookup d := by
      refine adoptAll_induction (P := fun t => t.SoleHost d q ∧ t.lookup d = s.lookup d) ⟨h, rfl⟩ ?_
      rintro t r hr hv ⟨ht, hl⟩
      have hq : quotaKey r.rdns ≠ q := fun hq => by
        have : r ∈ arriving E now l q := mem_arriving.mpr ⟨hr, hv, hq⟩
        rw [hnil] at this
        cases this
      exact ⟨ht.filed (hne r hr), (ht.lookup_filed_of_other (hne r hr) hq).trans hl⟩
    exact hkeep.2
  · rename_i hnil
    obtain ⟨r₁, hr₁⟩ := List.exists_mem_of_ne_nil _ hnil
    obtain ⟨hmem, hv, hq₁⟩ := mem_arriving.mp hr₁
    -- from the first rumor of the host on, the settled claim is in place
    have hplaced : (s.adoptAll E now l).SoleHost d q ∧ (s.adoptAll E now l).lookup d =
        (((s.adoptAll E now l).claims q).lookup d).map fun w => registrationFromRumor w q := by
      refine adoptAll_visit (P := fun t => t.SoleHost d q) (Q := fun t => t.SoleHost d q ∧
        t.lookup d = ((t.claims q).lookup d).map fun w => registrationFromRumor w q)
        hmem hnd hv h ?_ ?_ ?_
      · exact fun t r hr _ _ ht => ht.filed (hne r hr)
      · exact fun t ht => ⟨ht.filed (hne r₁ hmem), ht.lookup_filed_of_own hq₁⟩
      · rintro t r hr _ _ ⟨ht, hl⟩
        refine ⟨ht.filed (hne r hr), ?_⟩
        by_cases hq : quotaKey r.rdns = q
        · exact ht.lookup_filed_of_own hq
        · rw [ht.lookup_filed_of_other (hne r hr) hq, hl, claims_filed, if_neg (Ne.symm hq)]
    rw [hplaced.2, claims_adoptAll]

end RegistryStore

end Binda
