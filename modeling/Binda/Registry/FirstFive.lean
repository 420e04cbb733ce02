import Binda.Registry.Adoption
import Binda.Registry.Sample

/-!
# The first five, in any order

A host that is new to a node gets its rumors one at a time, and after each of
them its claims are cut at five for good.  `adoptAll_first_five` says that the
order does not matter: what is left is the first five of all, by the token and
then the domain.

The reason is that a cut keeps everything that later cuts ask for.  A claim's
place among those kept is its place among all, cut at five (`place_settle`), so
that cutting before a claim comes in changes nothing after it
(`lookup_settle_insert_settle`).
-/

namespace Binda

open Select

namespace ClaimTable

variable {E : Ed25519} {now : UInt64} {c c' : ClaimTable} {d : DomainName}
  {r w : RegistrationRumor} {l : List RegistrationRumor}

/-! ### Tables that look the same -/

theorem place_congr (h : ∀ d, c.lookup d = c'.lookup d) : c.place E now w = c'.place E now w :=
  le_antisymm (place_le_place fun d r hr hv hlt => ⟨r, h d ▸ hr, hv, hlt⟩)
    (place_le_place fun d r hr hv hlt => ⟨r, (h d).symm ▸ hr, hv, hlt⟩)

theorem lookup_settle_congr (h : ∀ d, c.lookup d = c'.lookup d) :
    (c.settle E now).lookup d = (c'.settle E now).lookup d := by
  refine Option.ext fun r => ?_
  rw [lookup_settle, lookup_settle, h d, place_congr h]

theorem lookup_insert_congr (h : ∀ d, c.lookup d = c'.lookup d) :
    (c.insert r).lookup d = (c'.insert r).lookup d := by
  rw [lookup_insert, lookup_insert, h d]

/-! ### Places -/

/-- **After a cut every place is cut at five.** -/
theorem place_settle :
    (c.settle E now).place E now w = min maxRegistrationsPerClient (c.place E now w) := by
  have hvalid : (c.settle E now).valid E now = c.settle E now := retain_eq_self fun d r h => by
    simpa [Valid] using (lookup_settle.mp h).2.1
  have hperm : (c.settle E now).values.Perm (c.winners E now) := by
    refine (List.perm_ext_iff_of_nodup values_nodup nodup_winners_domain.of_map).mpr fun r => ?_
    rw [mem_winners_iff_settle, mem_values]
  have hrank : rankIn claimRank (c.settle E now).values w = rankIn claimRank (c.winners E now) w :=
    hperm.countP_eq _
  rw [place, hvalid, hrank, winners, rankIn_firstBy nodup_map_claimRank]
  rfl

/-- A claim on a new domain moves those after it up by one. -/
theorem place_insert (hnew : c.lookup r.domain = none) (hv : Valid E now r) :
    (c.insert r).place E now w =
      c.place E now w + if claimRank r < claimRank w then 1 else 0 := by
  have hperm : ((c.insert r).valid E now).values.Perm (r :: (c.valid E now).values) := by
    have hnot : r ∉ (c.valid E now).values := fun hr => by
      rw [mem_values, lookup_valid, hnew] at hr
      cases hr.1
    refine (List.perm_ext_iff_of_nodup values_nodup
      (List.nodup_cons.mpr ⟨hnot, values_nodup⟩)).mpr fun w => ?_
    rw [List.mem_cons, mem_values, mem_values, lookup_valid, lookup_valid, lookup_insert]
    by_cases hd : w.domain = r.domain
    · rw [if_pos hd, hd, hnew]
      constructor
      · exact fun h => Or.inl (Option.some.inj h.1).symm
      · rintro (rfl | ⟨h, _⟩)
        · exact ⟨rfl, hv⟩
        · cases h
    · rw [if_neg hd]
      exact (or_iff_right fun h : w = r => hd (congrArg _ h)).symm
  have hcount : rankIn claimRank ((c.insert r).valid E now).values w =
      rankIn claimRank (r :: (c.valid E now).values) w := hperm.countP_eq _
  rw [place, hcount, rankIn, List.countP_cons]
  simp only [decide_eq_true_eq]
  rfl

/-- **Cutting before a claim comes in changes nothing after it.** -/
theorem lookup_settle_insert_settle (hnew : c.lookup r.domain = none) (hv : Valid E now r) :
    (((c.settle E now).insert r).settle E now).lookup d =
      ((c.insert r).settle E now).lookup d := by
  have hplace : ∀ w, ((c.settle E now).insert r).place E now w < maxRegistrationsPerClient ↔
      (c.insert r).place E now w < maxRegistrationsPerClient := by
    intro w
    rw [place_insert (lookup_settle_eq_none hnew) hv, place_insert hnew hv, place_settle]
    omega
  refine Option.ext fun w => ?_
  rw [lookup_settle, lookup_settle, hplace, lookup_insert, lookup_insert]
  by_cases hd : d = r.domain
  · rw [if_pos hd, if_pos hd]
  · rw [if_neg hd, if_neg hd, lookup_settle]
    constructor
    · rintro ⟨⟨hw, _⟩, h⟩
      exact ⟨hw, h⟩
    · rintro ⟨hw, hvw, hp⟩
      have hle : c.place E now w ≤ (c.insert r).place E now w := by
        rw [place_insert hnew hv]
        exact Nat.le_add_right _ _
      exact ⟨⟨hw, hvw, lt_of_le_of_lt hle hp⟩, hvw, hp⟩

/-! ### One after another -/

theorem insertAll_concat : c.insertAll (l ++ [r]) = (c.insertAll l).insert r := by
  rw [insertAll, List.foldl_append]
  rfl

theorem takeIn_concat : c.takeIn E now (l ++ [r]) = ((c.takeIn E now l).insert r).settle E now := by
  rw [takeIn, List.foldl_append]
  rfl

/-- **One cut at the end does what a cut after every claim does.** -/
theorem lookup_takeIn_empty : ∀ {l : List RegistrationRumor},
    (l.map RegistrationRumor.domain).Nodup → (∀ r ∈ l, Valid E now r) →
    ∀ d, (empty.takeIn E now l).lookup d = ((empty.insertAll l).settle E now).lookup d := by
  intro l
  induction l using List.reverseRecOn with
  | nil =>
    intro _ _ d
    exact (lookup_settle_eq_none rfl).symm
  | append_singleton l r ih =>
    intro hnd hv d
    rw [List.map_append, List.nodup_append] at hnd
    have hfresh : r.domain ∉ l.map RegistrationRumor.domain := fun h =>
      hnd.2.2 r.domain h r.domain List.mem_cons_self rfl
    have hnew : (empty.insertAll l).lookup r.domain = none := lookup_insertAll_of_not_mem hfresh
    have hvl : ∀ r ∈ l, Valid E now r := fun r hr => hv r (List.mem_append_left _ hr)
    have hvr : Valid E now r := hv r (List.mem_append_right _ List.mem_cons_self)
    have ih : ∀ d, ((empty.takeIn E now l).insert r).lookup d =
        (((empty.insertAll l).settle E now).insert r).lookup d :=
      fun d => lookup_insert_congr (ih hnd.1 hvl)
    rw [takeIn_concat, insertAll_concat, lookup_settle_congr ih,
      lookup_settle_insert_settle hnew hvr]

theorem place_insertAll_empty : ∀ {l : List RegistrationRumor},
    (l.map RegistrationRumor.domain).Nodup → (∀ r ∈ l, Valid E now r) →
    (empty.insertAll l).place E now w = rankIn claimRank l w := by
  intro l
  induction l using List.reverseRecOn with
  | nil => intro _ _; rfl
  | append_singleton l r ih =>
    intro hnd hv
    rw [List.map_append, List.nodup_append] at hnd
    have hfresh : r.domain ∉ l.map RegistrationRumor.domain := fun h =>
      hnd.2.2 r.domain h r.domain List.mem_cons_self rfl
    have hvl : ∀ r ∈ l, Valid E now r := fun r hr => hv r (List.mem_append_left _ hr)
    have hvr : Valid E now r := hv r (List.mem_append_right _ List.mem_cons_self)
    rw [insertAll_concat, place_insert (lookup_insertAll_of_not_mem hfresh) hvr, ih hnd.1 hvl,
      rankIn, rankIn, List.countP_append, List.countP_singleton]
    simp only [decide_eq_true_eq]

/-- **A new host keeps the first five of its rumors.** -/
theorem lookup_takeIn_empty_eq_some (hnd : (l.map RegistrationRumor.domain).Nodup)
    (hv : ∀ r ∈ l, Valid E now r) :
    (empty.takeIn E now l).lookup d = some r ↔
      r ∈ firstBy claimRank maxRegistrationsPerClient l ∧ r.domain = d := by
  rw [lookup_takeIn_empty hnd hv, lookup_settle, place_insertAll_empty hnd hv,
    mem_firstBy_iff (nodup_claimRank hnd)]
  constructor
  · rintro ⟨hr, _, hp⟩
    have hmem : d ∈ l.map RegistrationRumor.domain := by
      by_contra hd
      rw [lookup_insertAll_of_not_mem hd] at hr
      cases hr
    obtain ⟨r', hr', rfl⟩ := List.mem_map.mp hmem
    rw [lookup_insertAll_of_mem hnd hr'] at hr
    obtain rfl := Option.some.inj hr
    exact ⟨⟨hr', hp⟩, rfl⟩
  · rintro ⟨⟨hr, hp⟩, rfl⟩
    exact ⟨lookup_insertAll_of_mem hnd hr, hv r hr, hp⟩

end ClaimTable

namespace RegistryStore

variable {E : Ed25519} {s t : RegistryStore} {now : UInt64} {h : String} {d : DomainName}
  {r : RegistrationRumor} {l l' : List RegistrationRumor}

/-- The store has neither a claim nor a registration of the host. -/
structure NewHost (s : RegistryStore) (h : String) : Prop where
  noClaim : ∀ d, (s.claims h).lookup d = none
  noRegistration : ∀ d g, s.lookup d = some g → g.quotaKey ≠ h

/-- The rumors are valid leases of the host, on different domains that nobody holds. -/
structure Arrivals (E : Ed25519) (s : RegistryStore) (now : UInt64) (h : String)
    (l : List RegistrationRumor) : Prop where
  host : ∀ r ∈ l, quotaKey r.rdns = h
  distinct : (l.map RegistrationRumor.domain).Nodup
  valid : ∀ r ∈ l, ClaimTable.Valid E now r
  free : ∀ r ∈ l, s.lookup r.domain = none

theorem Arrivals.perm (ha : Arrivals E s now h l) (hp : l'.Perm l) : Arrivals E s now h l' where
  host r hr := ha.host r (hp.mem_iff.mp hr)
  distinct := (hp.map _).nodup_iff.mpr ha.distinct
  valid r hr := ha.valid r (hp.mem_iff.mp hr)
  free r hr := ha.free r (hp.mem_iff.mp hr)

/-- The host's claims are on domains nobody held in `s`, and the store registers
them and what `s` registered. -/
structure Holding (s t : RegistryStore) (h : String) : Prop where
  free : ∀ d r, (t.claims h).lookup d = some r → s.lookup d = none
  lookup : ∀ d, t.lookup d =
    match (t.claims h).lookup d with
    | some r => some (registrationFromRumor r h)
    | none => s.lookup d

/-- **One rumor of the host keeps it.** -/
theorem Holding.filed (hn : s.NewHost h) (ht : Holding s t h) (hq : quotaKey r.rdns = h)
    (hfree : s.lookup r.domain = none) : Holding s (t.filed E r now) h := by
  have hclaims : (t.filed E r now).claims h = ((t.claims h).insert r).settle E now := by
    rw [claims_filed, if_pos hq.symm]
  have hmem : ∀ d w, ((t.filed E r now).claims h).lookup d = some w → s.lookup d = none := by
    intro d w hw
    rw [hclaims] at hw
    have hw' := (ClaimTable.lookup_settle.mp hw).1
    rw [ClaimTable.lookup_insert] at hw'
    split at hw'
    · rename_i hd
      rw [hd, hfree]
    · exact ht.free d w hw'
  -- of the host nothing stands without its claim
  have hstand : ∀ d, t.standing h d = s.lookup d := by
    intro d
    rw [standing, ht.lookup d]
    cases hc : (t.claims h).lookup d with
    | some w =>
      rw [ht.free d w hc, Option.filter_some, if_neg (by simp [registrationFromRumor])]
    | none =>
      cases hg : s.lookup d with
      | none => rfl
      | some g => exact (Option.filter_some ..).trans (if_pos (by simp [hn.noRegistration d g hg]))
  refine ⟨hmem, fun d => ?_⟩
  have hmem' := hmem d
  rw [hclaims] at hmem' ⊢
  rw [lookup_filed, hq, hstand]
  cases hw : ((t.claims h).insert r |>.settle E now).lookup d with
  | none => rfl
  | some w =>
    rw [hmem' w hw]
    rfl

theorem holding_adoptAll (hn : s.NewHost h) (ha : Arrivals E s now h l) :
    Holding s (s.adoptAll E now l) h := by
  refine adoptAll_induction (P := fun t => Holding s t h) ⟨fun d r hr => ?_, fun d => ?_⟩ ?_
  · rw [hn.noClaim] at hr
    cases hr
  · rw [hn.noClaim]
  · exact fun t r hr _ ht => ht.filed hn (ha.host r hr) (ha.free r hr)

/-- All rumors of the host arrive. -/
theorem Arrivals.arriving_eq (ha : Arrivals E s now h l) : arriving E now l h = l := by
  refine List.filter_eq_self.mpr fun r hr => ?_
  simp [ha.valid r hr, ha.host r hr]

theorem lookup_claims_adoptAll (hn : s.NewHost h) (ha : Arrivals E s now h l) :
    ((s.adoptAll E now l).claims h).lookup d = some r ↔
      r ∈ firstBy claimRank maxRegistrationsPerClient l ∧ r.domain = d := by
  rw [claims_adoptAll, ha.arriving_eq,
    ← ClaimTable.lookup_takeIn_empty_eq_some ha.distinct ha.valid]
  have hsame : ∀ (l : List RegistrationRumor) (d : DomainName),
      ((s.claims h).takeIn E now l).lookup d = (ClaimTable.empty.takeIn E now l).lookup d := by
    intro l
    induction l using List.reverseRecOn with
    | nil => exact fun d => hn.noClaim d
    | append_singleton l r ih =>
      intro d
      rw [ClaimTable.takeIn_concat, ClaimTable.takeIn_concat]
      exact ClaimTable.lookup_settle_congr fun d => ClaimTable.lookup_insert_congr ih
  rw [hsame]

/-- **What a new host holds**: the first five of its rumors, in the order of their
tokens and then their domains, whatever order they come in. -/
theorem adoptAll_first_five (E : Ed25519) (s : RegistryStore) (now : UInt64) (h : String)
    (l : List RegistrationRumor) (hn : s.NewHost h) (ha : Arrivals E s now h l) :
    (firstBy claimRank maxRegistrationsPerClient l).length =
        min maxRegistrationsPerClient l.length ∧
      (∀ d, (s.adoptAll E now l).lookup d =
        match (firstBy claimRank maxRegistrationsPerClient l).find? fun r => r.domain = d with
        | some r => some (registrationFromRumor r h)
        | none => s.lookup d) ∧
      ∀ l', l'.Perm l → ∀ d, (s.adoptAll E now l').lookup d = (s.adoptAll E now l).lookup d := by
  have hlookup : ∀ l', Arrivals E s now h l' → ∀ d, (s.adoptAll E now l').lookup d =
      match ((s.adoptAll E now l').claims h).lookup d with
      | some r => some (registrationFromRumor r h)
      | none => s.lookup d := fun l' ha' => (holding_adoptAll hn ha').lookup
  refine ⟨firstBy_length _ _ _, fun d => ?_, fun l' hp d => ?_⟩
  · rw [hlookup l ha d]
    cases hf : (firstBy claimRank maxRegistrationsPerClient l).find? fun r => r.domain = d with
    | some r =>
      have hmem := List.mem_of_find?_eq_some hf
      have hd : r.domain = d := by simpa using List.find?_some hf
      rw [(lookup_claims_adoptAll hn ha).mpr ⟨hmem, hd⟩]
    | none =>
      have hnone : ((s.adoptAll E now l).claims h).lookup d = none := by
        rw [Option.eq_none_iff_forall_ne_some]
        intro r hr
        obtain ⟨hmem, hd⟩ := (lookup_claims_adoptAll hn ha).mp hr
        simpa [hd] using List.find?_eq_none.mp hf r hmem
      rw [hnone]
  · have hclaim : ((s.adoptAll E now l').claims h).lookup d =
        ((s.adoptAll E now l).claims h).lookup d := by
      refine Option.ext fun r => ?_
      rw [lookup_claims_adoptAll hn (ha.perm hp), lookup_claims_adoptAll hn ha,
        mem_firstBy_congr (ClaimTable.nodup_claimRank ha.distinct) hp.symm]
    rw [hlookup l' (ha.perm hp) d, hlookup l ha d, hclaim]

/-- Six leases of the sample client, the last with the smallest token. -/
def sixLeases : List RegistrationRumor :=
  [("b", 2), ("c", 3), ("d", 4), ("e", 5), ("f", 6), ("a", 1)].map fun (name, byte) =>
    (sampleClient 1 "host").lease ⟨name⟩ (sampleToken 1000 byte) 1000 1000

theorem newHost_new : new.NewHost h := by
  refine ⟨fun d => rfl, fun d g hg => ?_⟩
  cases hg

/-- The fifth of those that came first makes room for the sixth. -/
theorem adoptAll_sixLeases :
    (new.adoptAll Ed25519.sample 1000 sixLeases).lookup ⟨"f"⟩ = none ∧
      (new.adoptAll Ed25519.sample 1000 sixLeases).lookup ⟨"a"⟩ =
        some (registrationFromRumor
          ((sampleClient 1 "host").lease ⟨"a"⟩ (sampleToken 1000 1) 1000 1000) "host") := by
  have ha : Arrivals Ed25519.sample new 1000 "host" sixLeases := by
    refine ⟨?_, ?_, ?_, fun _ _ => rfl⟩ <;> decide +kernel
  have hall := (adoptAll_first_five Ed25519.sample new 1000 "host" sixLeases newHost_new ha).2.1
  rw [hall ⟨"f"⟩, hall ⟨"a"⟩]
  decide +kernel

end RegistryStore

end Binda
