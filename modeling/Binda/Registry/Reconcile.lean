import Binda.Registry.Store

/-!
# What a reconciliation does

`ClaimTable.settle` is what `reconcile_quota` leaves of a host's claims, and
`lookup_settle` says which these are: the authorized and live ones with fewer
than five authorized and live claims before them.

`lookup_reconcileQuota` is the specification every later proof goes by.  For
each domain the host's leases are first dropped (`standing`), and the settled
claim on it, if there is one, meets whatever stands there (`contest`).
`claims_reclaimStale` says that reclaiming settles every host, and
`reclaimStale_induction` and `reclaimStale_visit` are its two induction rules.
-/

namespace Binda

open Select

namespace ClaimTable

variable {c : ClaimTable} {d d' : DomainName} {r r' : RegistrationRumor}

@[ext] theorem ext {c c' : ClaimTable} (h : c.table = c'.table) : c = c' := by
  cases c
  cases c'
  congr

@[simp] theorem lookup_empty (d : DomainName) : empty.lookup d = none := rfl

@[simp] theorem size_empty : empty.size = 0 := rfl

theorem lookup_insert : (c.insert r).lookup d = if d = r.domain then some r else c.lookup d :=
  Table.lookup_insert_eq _ _ _ _

theorem lookup_retain (p : DomainName → RegistrationRumor → Bool) :
    (c.retain p).lookup d = (c.lookup d).filter (p d) :=
  Table.lookup_retain _ _ _

theorem retain_eq_self {p : DomainName → RegistrationRumor → Bool}
    (h : ∀ d r, c.lookup d = some r → p d r = true) : c.retain p = c := by
  apply ext
  apply AList.ext
  exact List.filter_eq_self.mpr fun e he => h e.1 e.2 (Table.mem_entries_iff.mp he)

theorem lookup_mapValues {f : RegistrationRumor → RegistrationRumor}
    {hf : ∀ r, (f r).domain = r.domain} : (c.mapValues f hf).lookup d = (c.lookup d).map f :=
  Table.lookup_mapValues _ _ _

theorem lookup_modify {f : RegistrationRumor → RegistrationRumor}
    {hf : ∀ r, (f r).domain = r.domain} :
    (c.modify d f hf).lookup d' = if d' = d then (c.lookup d).map f else c.lookup d' :=
  Table.lookup_modify _ _ _ _

@[simp] theorem size_mapValues {f : RegistrationRumor → RegistrationRumor}
    {hf : ∀ r, (f r).domain = r.domain} : (c.mapValues f hf).size = c.size :=
  List.length_map _

@[simp] theorem size_modify {f : RegistrationRumor → RegistrationRumor}
    {hf : ∀ r, (f r).domain = r.domain} : (c.modify d f hf).size = c.size :=
  List.length_map _

theorem domain_of_lookup (h : c.lookup d = some r) : r.domain = d := c.keyed d r h

theorem mem_values : r ∈ c.values ↔ c.lookup r.domain = some r := by
  rw [values, Table.mem_values]
  exact ⟨fun ⟨d, h⟩ => (c.keyed d r h).symm ▸ h, fun h => ⟨r.domain, h⟩⟩

theorem values_length : c.values.length = c.size := Table.values_length _

/-- The claims are filed under their domains. -/
theorem map_domain_values : c.values.map RegistrationRumor.domain = c.table.keys := by
  rw [values, Table.values, List.map_map, AList.keys, List.keys]
  refine List.map_congr_left fun e he => ?_
  exact c.keyed e.1 e.2 (Table.mem_entries_iff.mp he)

theorem nodup_map_domain : (c.values.map RegistrationRumor.domain).Nodup := by
  rw [map_domain_values]
  exact c.table.keys_nodup

/-- No two claims on different domains rank alike. -/
theorem nodup_claimRank {l : List RegistrationRumor}
    (h : (l.map RegistrationRumor.domain).Nodup) : (l.map claimRank).Nodup := by
  refine List.Nodup.of_map (fun k => DomainName.mk (ofLex k).2) ?_
  rw [List.map_map]
  exact h

theorem nodup_map_claimRank : (c.values.map claimRank).Nodup := nodup_claimRank nodup_map_domain

theorem values_nodup : c.values.Nodup := nodup_map_domain.of_map _

/-! ### Settled claims -/

variable (E : Ed25519) (now : UInt64)

/-- The claim is authorized and its lease is live. -/
def Valid (r : RegistrationRumor) : Prop := r.isAuthorized E = true ∧ leaseIsLive r now = true

instance (r : RegistrationRumor) : Decidable (Valid E now r) :=
  inferInstanceAs (Decidable (_ ∧ _))

/-- The valid claims. -/
def valid (c : ClaimTable) : ClaimTable :=
  c.retain fun _ rumor => rumor.isAuthorized E && leaseIsLive rumor now

/-- The first five valid claims, in the order of their ranks. -/
def winners (c : ClaimTable) : List RegistrationRumor :=
  firstBy claimRank maxRegistrationsPerClient (c.valid E now).values

/-- What `reconcile_quota` leaves of the claims. -/
def settle (c : ClaimTable) : ClaimTable :=
  (c.valid E now).retain fun domain _ =>
    ((c.winners E now).map fun rumor => rumor.domain).contains domain

/-- How many valid claims come before `r`. -/
def place (c : ClaimTable) (r : RegistrationRumor) : Nat :=
  rankIn claimRank (c.valid E now).values r

variable {E now}

theorem lookup_valid :
    (c.valid E now).lookup d = some r ↔ c.lookup d = some r ∧ Valid E now r := by
  rw [valid, lookup_retain, Option.filter_eq_some_iff, Bool.and_eq_true, Valid]

theorem mem_winners :
    r ∈ c.winners E now ↔
      c.lookup r.domain = some r ∧ Valid E now r ∧ c.place E now r < maxRegistrationsPerClient := by
  rw [winners, mem_firstBy_iff nodup_map_claimRank, mem_values, lookup_valid, and_assoc]
  rfl

/-- **Which claims are left**: the valid ones with fewer than five valid ones
before them. -/
theorem lookup_settle :
    (c.settle E now).lookup d = some r ↔
      c.lookup d = some r ∧ Valid E now r ∧ c.place E now r < maxRegistrationsPerClient := by
  rw [settle, lookup_retain, Option.filter_eq_some_iff, lookup_valid]
  constructor
  · rintro ⟨⟨hr, hv⟩, hw⟩
    obtain ⟨w, hw, hd⟩ := List.mem_map.mp (List.contains_iff_mem.mp hw)
    obtain ⟨hwl, _, hplace⟩ := mem_winners.mp hw
    rw [hd, hr] at hwl
    obtain rfl := Option.some.inj hwl
    exact ⟨hr, hv, hplace⟩
  · rintro ⟨hr, hv, hplace⟩
    have hd := domain_of_lookup hr
    refine ⟨⟨hr, hv⟩, List.contains_iff_mem.mpr (List.mem_map.mpr ⟨r, ?_, hd⟩)⟩
    exact mem_winners.mpr ⟨by rwa [hd], hv, hplace⟩

/-- Settling brings no claim. -/
theorem lookup_settle_eq_none (h : c.lookup d = none) : (c.settle E now).lookup d = none := by
  rw [Option.eq_none_iff_forall_ne_some] at h ⊢
  exact fun r hr => h r (lookup_settle.mp hr).1

theorem mem_winners_iff_settle :
    r ∈ c.winners E now ↔ (c.settle E now).lookup r.domain = some r := by
  rw [mem_winners, lookup_settle]

theorem nodup_winners_domain : ((c.winners E now).map RegistrationRumor.domain).Nodup := by
  have hp : (sortOn claimRank (c.valid E now).values).Perm (c.valid E now).values := sortOn_perm _ _
  have hn : ((sortOn claimRank (c.valid E now).values).map RegistrationRumor.domain).Nodup :=
    (hp.map _).nodup_iff.mpr nodup_map_domain
  exact hn.sublist ((List.take_sublist _ _).map _)

/-- A settled host has at most five claims. -/
theorem size_settle_le : (c.settle E now).size ≤ maxRegistrationsPerClient := by
  rw [← values_length]
  refine le_trans ?_ (firstBy_length_le claimRank maxRegistrationsPerClient (c.valid E now).values)
  refine (List.subperm_of_subset values_nodup ?_).length_le
  intro r hr
  exact mem_winners_iff_settle.mpr (mem_values.mp hr)

/-- **A host that turns a claim down has five.** -/
theorem size_settle_eq (h : maxRegistrationsPerClient ≤ c.place E now r) :
    (c.settle E now).size = maxRegistrationsPerClient := by
  refine le_antisymm size_settle_le ?_
  have hlen : (c.winners E now).length = maxRegistrationsPerClient := firstBy_length_of_le_rankIn h
  rw [← hlen, ← values_length]
  refine (List.subperm_of_subset nodup_winners_domain.of_map ?_).length_le
  intro w hw
  exact mem_values.mpr (mem_winners_iff_settle.mp hw)

/-- Settling adds no claim. -/
theorem size_settle_le_valid : (c.settle E now).size ≤ (c.valid E now).size := by
  refine Table.size_le_size fun d r h => ⟨r, ?_⟩
  exact lookup_valid.mpr ⟨(lookup_settle.mp h).1, (lookup_settle.mp h).2.1⟩

theorem size_valid_le : (c.valid E now).size ≤ c.size :=
  Table.size_le_size fun _ r h => ⟨r, (lookup_valid.mp h).1⟩

/-- A claim's place is below the number of claims. -/
theorem place_lt_size (h : c.lookup d = some r) (hv : Valid E now r) :
    c.place E now r < c.size := by
  have hmem : r ∈ (c.valid E now).values := by
    rw [mem_values, lookup_valid, domain_of_lookup h]
    exact ⟨h, hv⟩
  have := rankIn_lt_length (f := claimRank) hmem
  rw [values_length] at this
  exact lt_of_lt_of_le this size_valid_le

/-- **Settling keeps a host that is settled.** -/
theorem settle_eq_self (hv : ∀ d r, c.lookup d = some r → Valid E now r)
    (hsize : c.size ≤ maxRegistrationsPerClient) : c.settle E now = c := by
  have hvalid : c.valid E now = c := retain_eq_self fun d r h => by
    simpa [Valid] using hv d r h
  rw [settle, hvalid]
  refine retain_eq_self fun d r h => ?_
  have hd := domain_of_lookup h
  have hw : r ∈ c.winners E now := mem_winners.mpr
    ⟨by rwa [hd], hv d r h, lt_of_lt_of_le (place_lt_size h (hv d r h)) hsize⟩
  exact List.contains_iff_mem.mpr (List.mem_map.mpr ⟨r, hw, hd⟩)

theorem settle_settle : (c.settle E now).settle E now = c.settle E now :=
  settle_eq_self (fun _ _ h => (lookup_settle.mp h).2.1) size_settle_le

/-- A host's only claim is settled. -/
theorem lookup_settle_single (hv : Valid E now r) :
    ((empty.insert r).settle E now).lookup r.domain = some r := by
  have hl : (empty.insert r).lookup r.domain = some r := by
    rw [lookup_insert, if_pos rfl]
  rw [settle_eq_self]
  · exact hl
  · intro d' r' h
    rw [lookup_insert] at h
    split at h
    · rwa [← Option.some.inj h]
    · cases h
  · exact (by decide : 1 ≤ maxRegistrationsPerClient)

/-- A settled claim that is still valid later is settled later. -/
theorem lookup_settle_settle {now' : UInt64} (h : (c.settle E now).lookup d = some r)
    (hv : Valid E now' r) : ((c.settle E now).settle E now').lookup d = some r :=
  lookup_settle.mpr ⟨h, hv, lt_of_lt_of_le (place_lt_size h hv) size_settle_le⟩

@[simp] theorem settle_empty : empty.settle E now = empty :=
  settle_eq_self (by simp) (by simp)

end ClaimTable

namespace RegistryStore

/-! ### One reconciliation -/

/-- A settled claim meets what stands on its domain. -/
def contest (quota : String) (standing : Option Registration) (r : RegistrationRumor) :
    Registration :=
  match standing with
  | none => registrationFromRumor r quota
  | some existing =>
    if negotiateLocally existing.token r.token = r.token then registrationFromRumor r quota
    else existing

theorem contest_eq_or (quota : String) (standing : Option Registration) (r : RegistrationRumor) :
    contest quota standing r = registrationFromRumor r quota ∨
      standing = some (contest quota standing r) := by
  cases standing with
  | none => exact Or.inl rfl
  | some existing =>
    rw [contest]
    split
    · exact Or.inl rfl
    · exact Or.inr rfl

theorem lookup_install {quota : String} {regs : Table DomainName Registration}
    {r : RegistrationRumor} (d : DomainName) :
    (install quota regs r).lookup d =
      if d = r.domain then some (contest quota (regs.lookup d) r) else regs.lookup d := by
  rw [install]
  by_cases hd : d = r.domain
  · rw [if_pos hd, hd]
    cases hl : regs.lookup r.domain with
    | none => simp [contest]
    | some existing =>
      simp only [contest, decide_eq_true_eq]
      split
      · rw [AList.lookup_insert]
      · exact hl
  · rw [if_neg hd, apply_ite (AList.lookup d), AList.lookup_insert_ne hd, ite_self]

/-- The winners are on different domains, so each meets what stood there. -/
theorem lookup_foldl_install (quota : String) : ∀ (ws : List RegistrationRumor)
    (regs : Table DomainName Registration), (ws.map RegistrationRumor.domain).Nodup →
      (∀ r ∈ ws, (ws.foldl (install quota) regs).lookup r.domain =
        some (contest quota (regs.lookup r.domain) r)) ∧
      ∀ d ∉ ws.map RegistrationRumor.domain,
        (ws.foldl (install quota) regs).lookup d = regs.lookup d := by
  intro ws
  induction ws with
  | nil => intro regs _; simp
  | cons w ws ih =>
    intro regs hnd
    rw [List.map_cons, List.nodup_cons] at hnd
    obtain ⟨hin, hout⟩ := ih (install quota regs w) hnd.2
    rw [List.foldl_cons]
    constructor
    · intro r hr
      rcases List.mem_cons.mp hr with rfl | hr
      · rw [hout r.domain hnd.1, lookup_install, if_pos rfl]
      · have hne : r.domain ≠ w.domain := fun he => hnd.1 (he ▸ List.mem_map.mpr ⟨r, hr, rfl⟩)
        rw [hin r hr, lookup_install, if_neg hne]
    · intro d hd
      rw [List.map_cons, List.mem_cons, not_or] at hd
      rw [hout d hd.2, lookup_install, if_neg hd.1]

variable {E : Ed25519} {s : RegistryStore} {now : UInt64} {q q' : String} {d : DomainName}

/-- What stands on a domain once the leases of host `q` are dropped. -/
def standing (s : RegistryStore) (q : String) (d : DomainName) : Option Registration :=
  (s.lookup d).filter fun reg => reg.quotaKey != q || reg.rumor.isNone

theorem standing_eq_some {g : Registration} :
    s.standing q d = some g ↔ s.lookup d = some g ∧ (g.quotaKey ≠ q ∨ g.rumor = none) := by
  rw [standing, Option.filter_eq_some_iff]
  simp

/-- Host `q` has an entry among the claims. -/
def Filed (s : RegistryStore) (q : String) : Prop := q ∈ s.quotaClaims

theorem claims_eq_of_filed (h : s.Filed q) : s.quotaClaims.lookup q = some (s.claims q) := by
  obtain ⟨c, hc⟩ := Option.isSome_iff_exists.mp (AList.lookup_isSome.mpr h)
  rw [claims, hc, Option.getD_some]

theorem claims_of_not_filed (h : ¬ s.Filed q) : s.claims q = ClaimTable.empty := by
  rw [claims, AList.lookup_eq_none.mpr h, Option.getD_none]

theorem filed_of_claim {r : RegistrationRumor} (h : (s.claims q).lookup d = some r) :
    s.Filed q := by
  by_contra hq
  rw [claims_of_not_filed hq] at h
  cases h

theorem reconcileQuota_of_not_filed (h : ¬ s.Filed q) : s.reconcileQuota E q now = s := by
  rw [reconcileQuota, AList.lookup_eq_none.mpr h]

theorem reconcileQuota_of_filed (h : s.Filed q) :
    s.reconcileQuota E q now =
      { s with
        quotaClaims := AList.insert q ((s.claims q).settle E now) s.quotaClaims
        registrations := ((s.claims q).winners E now).foldl (install q)
          (s.registrations.retain fun _ reg => reg.quotaKey != q || reg.rumor.isNone) } := by
  rw [reconcileQuota, claims_eq_of_filed h]
  rfl

/-- **What a reconciliation leaves on a domain.** -/
theorem lookup_reconcileQuota (h : s.Filed q) :
    (s.reconcileQuota E q now).lookup d =
      match ((s.claims q).settle E now).lookup d with
      | none => s.standing q d
      | some r => some (contest q (s.standing q d) r) := by
  have hbase : (s.registrations.retain fun _ reg => reg.quotaKey != q || reg.rumor.isNone).lookup d
      = s.standing q d := by
    rw [Table.lookup_retain]
    rfl
  obtain ⟨hin, hout⟩ := lookup_foldl_install q ((s.claims q).winners E now)
    (s.registrations.retain fun _ reg => reg.quotaKey != q || reg.rumor.isNone)
    ClaimTable.nodup_winners_domain
  rw [reconcileQuota_of_filed h, lookup]
  cases hr : ((s.claims q).settle E now).lookup d with
  | none =>
    refine (hout d fun hd => ?_).trans hbase
    obtain ⟨r, hr', rfl⟩ := List.mem_map.mp hd
    rw [ClaimTable.mem_winners_iff_settle, hr] at hr'
    cases hr'
  | some r =>
    obtain rfl := ClaimTable.domain_of_lookup hr
    rw [hin r (ClaimTable.mem_winners_iff_settle.mpr hr), hbase]

/-- **A reconciliation settles its host and no other.** -/
theorem claims_reconcileQuota :
    (s.reconcileQuota E q now).claims q' =
      if q' = q then (s.claims q).settle E now else s.claims q' := by
  by_cases h : s.Filed q
  · rw [reconcileQuota_of_filed h, claims, Table.lookup_insert_eq]
    split <;> rfl
  · rw [reconcileQuota_of_not_filed h]
    split
    · rename_i hq
      rw [hq, claims_of_not_filed h, ClaimTable.settle_empty]
    · rfl

@[simp] theorem liveness_reconcileQuota : (s.reconcileQuota E q now).liveness = s.liveness := by
  rw [reconcileQuota]
  split <;> rfl

@[simp] theorem probeEvidence_reconcileQuota :
    (s.reconcileQuota E q now).probeEvidence = s.probeEvidence := by
  rw [reconcileQuota]
  split <;> rfl

theorem filed_reconcileQuota : (s.reconcileQuota E q now).Filed q' ↔ s.Filed q' := by
  by_cases h : s.Filed q
  · rw [reconcileQuota_of_filed h, Filed, AList.mem_insert]
    exact or_iff_right_of_imp fun he => he ▸ h
  · rw [reconcileQuota_of_not_filed h]

/-! ### Submitting a claim -/

theorem claims_submit {r : RegistrationRumor} :
    (s.submit q r).claims q' = if q' = q then (s.claims q).insert r else s.claims q' := by
  rw [submit, claims, Table.lookup_insert_eq]
  split <;> rfl

theorem filed_submit (r : RegistrationRumor) : (s.submit q r).Filed q :=
  AList.mem_insert _ |>.mpr (Or.inl rfl)

@[simp] theorem lookup_submit {r : RegistrationRumor} : (s.submit q r).lookup d = s.lookup d := rfl

/-! ### Reclaiming -/

theorem lookup_dropExpired :
    (s.dropExpired now).lookup d =
      (s.lookup d).filter fun reg => !(s.liveness.expiredClients now).contains reg.quotaKey :=
  Table.lookup_retain _ _ _

theorem lookup_dropExpired_eq_some {g : Registration} :
    (s.dropExpired now).lookup d = some g ↔
      s.lookup d = some g ∧ g.quotaKey ∉ s.liveness.expiredClients now := by
  rw [lookup_dropExpired, Option.filter_eq_some_iff]
  simp

@[simp] theorem claims_dropExpired : (s.dropExpired now).claims q = s.claims q := rfl

theorem foldl_reconcile_induction {P : RegistryStore → Prop}
    (hstep : ∀ t q, t.Filed q → P t → P (t.reconcileQuota E q now)) :
    ∀ (keys : List String) (t : RegistryStore), P t →
      P (keys.foldl (fun s quota => s.reconcileQuota E quota now) t) := by
  intro keys
  induction keys with
  | nil => intro t ht; exact ht
  | cons q keys ih =>
    intro t ht
    rw [List.foldl_cons]
    refine ih _ ?_
    by_cases hq : t.Filed q
    · exact hstep t q hq ht
    · rwa [reconcileQuota_of_not_filed hq]

/-- **What every reconciliation keeps, reclaiming keeps.** -/
theorem reclaimStale_induction {P : RegistryStore → Prop} {order : VisitOrder String}
    (h0 : P (s.dropExpired now))
    (hstep : ∀ t q, t.Filed q → P t → P (t.reconcileQuota E q now)) :
    P (s.reclaimStale E order now) :=
  foldl_reconcile_induction hstep _ _ h0

/-- **A host with claims has its turn.**  `P` is what holds up to the turn of
host `q`, `Q` what holds from it on. -/
theorem reclaimStale_visit {P Q : RegistryStore → Prop} {order : VisitOrder String} (hq : s.Filed q)
    (h0 : P (s.dropExpired now))
    (hP : ∀ t q', t.Filed q' → q' ≠ q → P t → P (t.reconcileQuota E q' now))
    (hPQ : ∀ t, t.Filed q → P t → Q (t.reconcileQuota E q now))
    (hQ : ∀ t q', t.Filed q' → Q t → Q (t.reconcileQuota E q' now)) :
    Q (s.reclaimStale E order now) := by
  have key : ∀ (keys : List String) (t : RegistryStore), q ∈ keys → t.Filed q → P t →
      Q (keys.foldl (fun s quota => s.reconcileQuota E quota now) t) := by
    intro keys
    induction keys with
    | nil => intro t hq; exact absurd hq (by simp)
    | cons k keys ih =>
      intro t hmem hfiled ht
      rw [List.foldl_cons]
      by_cases hk : k = q
      · -- from here on `Q` has to be kept only
        subst hk
        exact foldl_reconcile_induction hQ keys _ (hPQ t hfiled ht)
      · refine ih _ ((List.mem_cons.mp hmem).resolve_left (Ne.symm hk))
          (filed_reconcileQuota.mpr hfiled) ?_
        by_cases hk' : t.Filed k
        · exact hP t k hk' hk ht
        · rwa [reconcileQuota_of_not_filed hk']
  exact key _ _ ((order.perm _).mem_iff.mpr (AList.mem_keys.mp hq)) hq h0

/-- **Reclaiming settles every host.** -/
theorem claims_reclaimStale {order : VisitOrder String} :
    (s.reclaimStale E order now).claims q = (s.claims q).settle E now := by
  by_cases hq : s.Filed q
  · refine reclaimStale_visit (P := fun t => t.claims q = s.claims q)
      (Q := fun t => t.claims q = (s.claims q).settle E now) hq rfl ?_ ?_ ?_
    · intro t q' _ hne ht
      rw [claims_reconcileQuota, if_neg (Ne.symm hne), ht]
    · intro t _ ht
      rw [claims_reconcileQuota, if_pos rfl, ht]
    · intro t q' _ ht
      rw [claims_reconcileQuota]
      split
      · rename_i he
        rw [← he, ht, ClaimTable.settle_settle]
      · exact ht
  · rw [claims_of_not_filed hq, ClaimTable.settle_empty]
    refine reclaimStale_induction (P := fun t => t.claims q = ClaimTable.empty) ?_ ?_
    · exact claims_of_not_filed hq
    · intro t q' _ ht
      rw [claims_reconcileQuota]
      split
      · rename_i he
        rw [← he, ht, ClaimTable.settle_empty]
      · exact ht

/-- A reconciliation makes up no claim. -/
theorem claim_of_reconcileQuota {q' : String}
    (h : ((s.reconcileQuota E q' now).claims q).lookup d = some r) :
    (s.claims q).lookup d = some r := by
  rw [claims_reconcileQuota] at h
  split at h
  · rename_i he
    rw [he]
    exact (ClaimTable.lookup_settle.mp h).1
  · exact h

theorem lookup_claims_reconcileQuota_eq_none (h : (s.claims q).lookup d = none) (q' : String) :
    ((s.reconcileQuota E q' now).claims q).lookup d = none := by
  rw [claims_reconcileQuota]
  split
  · rename_i hq
    exact ClaimTable.lookup_settle_eq_none (hq ▸ h)
  · exact h

/-- A settled claim is installed where nothing stands that does not carry its token. -/
theorem lookup_reconcileQuota_of_settled (hq : s.Filed q)
    (hr : ((s.claims q).settle E now).lookup d = some r)
    (hstand : ∀ g, s.lookup d = some g → (g.quotaKey ≠ q ∨ g.rumor = none) → g.token = r.token) :
    (s.reconcileQuota E q now).lookup d = some (registrationFromRumor r q) := by
  rw [lookup_reconcileQuota hq, hr]
  cases hg : s.standing q d with
  | none => rfl
  | some g =>
    obtain ⟨hg', hor⟩ := standing_eq_some.mp hg
    simp only [contest, hstand g hg' hor, negotiateLocally_self, if_true]

/-- **A settled claim that no other host contests is installed again**, if only a
lease of its own host or a registration under its own token stands there. -/
theorem lookup_reclaimStale_of_sole {order : VisitOrder String} {r : RegistrationRumor}
    (hr : ((s.claims q).settle E now).lookup d = some r)
    (hsole : ∀ q', q' ≠ q → (s.claims q').lookup d = none)
    (hstand : ∀ g, s.lookup d = some g → (g.quotaKey ≠ q ∨ g.rumor = none) → g.token = r.token) :
    (s.reclaimStale E order now).lookup d = some (registrationFromRumor r q) := by
  suffices hturn : (s.reclaimStale E order now).lookup d = some (registrationFromRumor r q) ∧
      (s.reclaimStale E order now).claims q = (s.claims q).settle E now ∧
      ∀ q', q' ≠ q → ((s.reclaimStale E order now).claims q').lookup d = none from hturn.1
  refine reclaimStale_visit
    (P := fun t => t.claims q = s.claims q ∧ (∀ q', q' ≠ q → (t.claims q').lookup d = none) ∧
      ∀ g, t.lookup d = some g → (g.quotaKey ≠ q ∨ g.rumor = none) → g.token = r.token)
    (Q := fun t => t.lookup d = some (registrationFromRumor r q) ∧
      t.claims q = (s.claims q).settle E now ∧ ∀ q', q' ≠ q → (t.claims q').lookup d = none)
    (filed_of_claim (ClaimTable.lookup_settle.mp hr).1) ?_ ?_ ?_ ?_
  · exact ⟨rfl, hsole, fun g hg => hstand g (lookup_dropExpired_eq_some.mp hg).1⟩
  · rintro t q' hq' hne ⟨hc, hs, hst⟩
    refine ⟨?_, fun q'' hq'' => lookup_claims_reconcileQuota_eq_none (hs q'' hq'') q', ?_⟩
    · rw [claims_reconcileQuota, if_neg (Ne.symm hne), hc]
    · intro g hg
      rw [lookup_reconcileQuota hq', ClaimTable.lookup_settle_eq_none (hs q' hne)] at hg
      exact hst g (standing_eq_some.mp hg).1
  · rintro t hq ⟨hc, hs, hst⟩
    refine ⟨lookup_reconcileQuota_of_settled hq (by rw [hc]; exact hr) hst, ?_,
      fun q' hq' => lookup_claims_reconcileQuota_eq_none (hs q' hq') q⟩
    rw [claims_reconcileQuota, if_pos rfl, hc]
  · rintro t q' hq' ⟨hl, hc, hs⟩
    have hothers : ∀ q'', q'' ≠ q → ((t.reconcileQuota E q' now).claims q'').lookup d = none :=
      fun q'' hq'' => lookup_claims_reconcileQuota_eq_none (hs q'' hq'') q'
    by_cases he : q' = q
    · subst he
      have hsettled : ((t.claims q').settle E now).lookup d = some r := by
        rw [hc, ClaimTable.settle_settle]
        exact hr
      refine ⟨lookup_reconcileQuota_of_settled hq' hsettled ?_, ?_, hothers⟩
      · intro g hg _
        rw [hl] at hg
        rw [← Option.some.inj hg]
        rfl
      · rw [claims_reconcileQuota, if_pos rfl, hc, ClaimTable.settle_settle]
    · refine ⟨?_, ?_, hothers⟩
      · rw [lookup_reconcileQuota hq', ClaimTable.lookup_settle_eq_none (hs q' he)]
        exact standing_eq_some.mpr ⟨hl, Or.inl (Ne.symm he)⟩
      · rw [claims_reconcileQuota, if_neg (Ne.symm he), hc]

@[simp] theorem liveness_reclaimStale {order : VisitOrder String} :
    (s.reclaimStale E order now).liveness =
      (s.liveness.expiredClients now).foldl LivenessTracker.forgetClientByKey s.liveness :=
  reclaimStale_induction (P := fun t => t.liveness =
    (s.liveness.expiredClients now).foldl LivenessTracker.forgetClientByKey s.liveness) rfl
    fun t q _ ht => by rw [liveness_reconcileQuota, ht]

theorem lastSeen_reclaimStale {order : VisitOrder String} :
    (s.reclaimStale E order now).liveness.lastSeenMillis.lookup q =
      if q ∈ s.liveness.expiredClients now then none else s.liveness.lastSeenMillis.lookup q := by
  rw [liveness_reclaimStale, LivenessTracker.foldl_forget_lastSeen]

@[simp] theorem probeEvidence_reclaimStale {order : VisitOrder String} :
    (s.reclaimStale E order now).probeEvidence = s.probeEvidence :=
  reclaimStale_induction (P := fun t => t.probeEvidence = s.probeEvidence) rfl
    fun t q _ ht => by rw [probeEvidence_reconcileQuota, ht]

/-- Reclaiming does not touch the host of a live client. -/
theorem isLive_reclaimStale {order : VisitOrder String} {client : ClientIdentity}
    (h : s.liveness.isLive client now = true) :
    (s.reclaimStale E order now).liveness.isLive client now = true := by
  obtain ⟨last, hlast, hw⟩ := LivenessTracker.isLive_iff.mp h
  refine LivenessTracker.isLive_iff.mpr ⟨last, ?_, hw⟩
  rw [liveness_reclaimStale, LivenessTracker.foldl_forget_lastSeen, if_neg, hlast]
  rw [LivenessTracker.mem_expiredClients]
  rintro ⟨last', hlast', hw'⟩
  rw [hlast] at hlast'
  rw [← Option.some.inj hlast', hw] at hw'
  cases hw'

end RegistryStore

end Binda
