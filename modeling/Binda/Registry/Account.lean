import Binda.Registry.Expiry
import Binda.Registry.Record

/-!
# What can have run out

Nothing removes a registration at the moment it runs out, so a lookup may find one that
has.  Whether it can is read off the events of the run: an `Account` of them has, for each
host and domain, the lease that was last brought in (by a registration that was granted or
by a rumor) with the last probe of its key; and for each registration that was granted
without a lease, its host with the host's last probe.  What has run out when an event
reclaims is struck off.  The account knows nothing of the table: it arbitrates nothing and
drops no claim for want of room.

`allLive_of_timely`: a lookup finds live registrations as long as nothing on the account has
run out (`Timely`); and exactly if nothing has run out of what is on the account of a name
that is still held.
-/

namespace Binda

/-- What the events of a run say of who was alive, and when. -/
structure Account where
  /-- When each host last probed. -/
  heard : Table String UInt64
  /-- The key that has a lease of the domain under the host, and the time of its last probe. -/
  leases : Table (String × DomainName) (String × UInt64)
  /-- The host that has a registration of the domain without a lease. -/
  bare : Table DomainName String

namespace Account

open RegistryStore

/-- Nothing has happened. -/
def new : Account := { heard := ∅, leases := ∅, bare := ∅ }

variable (a : Account) (now : UInt64)

/-- The host has probed within the window. -/
def isHeard (host : String) : Bool := (a.heard.lookup host).any fun last => withinWindow last now

/-- A probe is accepted. -/
def probed (client : ClientIdentity) (timestamp : UInt64) : Account :=
  { a with
    heard := AList.insert client.quotaKey now a.heard
    leases := a.leases.mapValues fun _ l => if l.1 = client.key then (l.1, timestamp) else l }

/-- The stale registrations are reclaimed. -/
def released : Account :=
  { heard := a.heard.retain fun _ last => withinWindow last now
    leases := a.leases.retain fun _ l => withinWindow l.2 now
    bare := a.bare.retain fun _ host => a.isHeard now host }

/-- A lease is put down. -/
def leased (r : RegistrationRumor) : Account :=
  { a with
    leases := AList.insert (quotaKey r.rdns, r.domain) (r.clientKey, r.probeTimestampMillis)
      a.leases }

/-- The leases of one host are gone through. -/
def reconciled (host : String) : Account :=
  { a with leases := a.leases.retain fun k l => decide (k.1 ≠ host) || withinWindow l.2 now }

/-- A lease is brought in. -/
def filed (r : RegistrationRumor) : Account := (a.leased r).reconciled now (quotaKey r.rdns)

/-- A registration is granted: it has no lease, or its lease is kept in the store `s`, or not. -/
def granted (E : Ed25519) (s : RegistryStore) (client : ClientIdentity) (d : DomainName)
    (lease : Option RegistrationRumor) : Account :=
  match lease with
  | none => { a with bare := AList.insert d client.quotaKey a.bare }
  | some r =>
    if Retained E s now r then { a.filed now r with bare := AList.erase d a.bare }
    else
      { a.reconciled now (quotaKey r.rdns) with bare := AList.insert d client.quotaKey a.bare }

/-- The account after an event. -/
def note (E : Ed25519) (s : RegistryStore) (a : Account) (e : Event) : Account :=
  let a :=
    match prober E e with
    | some p => a.probed e.now p.1 p.2
    | none => a
  let a := if Reclaims E s e then a.released e.now else a
  let a :=
    match s.grantee E e with
    | some p =>
      a.granted e.now E (s.reclaimStale E e.env.order e.now) p.2 p.1.body.domain
        ((s.lastProbeEvidence p.2).map (leaseFor p.1 p.2 e.token))
    | none => a
  match e.op with
  | .adoptRumor r => if ClaimTable.Valid E e.now r then a.filed e.now r else a
  | _ => a

/-- Nothing on the account has run out. -/
structure Timely : Prop where
  leases : ∀ q d l, a.leases.lookup (q, d) = some l → withinWindow l.2 now = true
  bare : ∀ d host, a.bare.lookup d = some host → a.isHeard now host = true

instance : Decidable (a.Timely now) :=
  decidable_of_iff
    ((∀ e ∈ a.leases.entries, withinWindow e.2.2 now = true) ∧
      ∀ e ∈ a.bare.entries, a.isHeard now e.2 = true)
    ⟨fun h => ⟨fun _ _ _ hl => h.1 _ (Table.mem_entries_iff.mpr hl),
        fun _ _ hl => h.2 _ (Table.mem_entries_iff.mpr hl)⟩,
      fun h => ⟨fun e he => h.leases e.1.1 e.1.2 e.2 (Table.mem_entries_iff.mp he),
        fun e he => h.bare e.1 e.2 (Table.mem_entries_iff.mp he)⟩⟩

/-- What is on the account of the registration has not run out. -/
def Vouches (d : DomainName) (g : Registration) : Prop :=
  match g.rumor with
  | some _ => ∃ t, a.leases.lookup (g.quotaKey, d) = some (g.clientKey, t) ∧
      withinWindow t now = true
  | none => a.isHeard now g.quotaKey = true

end Account

namespace RegistryStore

variable {E : Ed25519} {s : RegistryStore} {a : Account} {now : UInt64} {q : String}
  {d : DomainName} {g : Registration} {r : RegistrationRumor} {client : ClientIdentity}
  {e : Event}

/-- Whatever can be found is on the account: the hosts as they were last seen, every claim with
its key and probe, and every registration without a lease with its host. -/
structure OnAccount (s : RegistryStore) (a : Account) : Prop where
  heard : ∀ q, a.heard.lookup q = s.liveness.lastSeenMillis.lookup q
  leases : ∀ q d r, (s.claims q).lookup d = some r →
    a.leases.lookup (q, d) = some (r.clientKey, r.probeTimestampMillis)
  bare : ∀ d g, s.lookup d = some g → g.rumor = none → a.bare.lookup d = some g.quotaKey

theorem onAccount_new : new.OnAccount Account.new where
  heard _ := rfl
  leases q d r h := by cases h
  bare d g h := by cases h

theorem OnAccount.probed {t : UInt64} {sig : List UInt8} (h : s.OnAccount a) :
    (s.probed client now t sig).OnAccount (a.probed now client t) where
  heard q := by
    rw [lastSeen_probed, Account.probed, Table.lookup_insert_eq, h.heard]
  leases q d r hr := by
    obtain ⟨r₀, hr₀, rfl⟩ := lookup_claims_probed_eq_some.mp hr
    rw [Account.probed, Table.lookup_mapValues, h.leases q d r₀ hr₀, Option.map_some,
      RegistrationRumor.refreshed]
    split <;> rfl
  bare d g hg hn := by
    obtain ⟨g₀, hg₀, rfl⟩ := lookup_probed_eq_some.mp hg
    rw [Registration.refreshed_quotaKey]
    exact h.bare d g₀ hg₀ (Registration.refreshed_rumor_eq_none.mp hn)

theorem OnAccount.published {records : List Record} {t : UInt64} {sig : List UInt8}
    (h : s.OnAccount a) (hg : s.lookup d = some g) (hk : g.clientKey = client.key) :
    (s.published client d records t sig).OnAccount a where
  heard q := by rw [liveness_published, h.heard]
  leases q d' r hr := by
    obtain ⟨r₀, hr₀, rfl | rfl⟩ := exists_claim_of_published hg hk hr
    · exact h.leases q d' r hr₀
    · rw [h.leases q d' r₀ hr₀, RegistrationRumor.recordsSigned]
      split <;> rfl
  bare d' g' hg' hn := by
    rw [lookup_published hg hk] at hg'
    split at hg'
    · rename_i hd
      obtain rfl := Option.some.inj hg'
      rw [hd]
      exact h.bare d g hg (Option.map_eq_none_iff.mp hn)
    · exact h.bare d' g' hg' hn

theorem Account.isHeard_iff {host : String} :
    a.isHeard now host = true ↔
      ∃ last, a.heard.lookup host = some last ∧ withinWindow last now = true := by
  rw [Account.isHeard, Option.any_eq_true]

theorem OnAccount.released {order : VisitOrder String} (h : s.OnAccount a)
    (hc : Consistent E s) : (s.reclaimStale E order now).OnAccount (a.released now) where
  heard q := by
    rw [lastSeen_reclaimStale, Account.released, Table.lookup_retain, h.heard]
    cases hlast : s.liveness.lastSeenMillis.lookup q with
    | none => rw [Option.filter_none, ite_self]
    | some last =>
      have hexpired : q ∈ s.liveness.expiredClients now ↔ withinWindow last now = false := by
        rw [LivenessTracker.mem_expiredClients, hlast]
        simp
      rw [Option.filter_some]
      by_cases hw : withinWindow last now = true
      · rw [if_pos hw, if_neg (by rw [hexpired, hw]; exact Bool.noConfusion)]
      · rw [if_neg hw, if_pos (hexpired.mpr (Bool.eq_false_iff.mpr hw))]
  leases q d r hr := by
    rw [claims_reclaimStale] at hr
    obtain ⟨hr, hv, -⟩ := ClaimTable.lookup_settle.mp hr
    rw [Account.released, Table.lookup_retain, h.leases q d r hr, Option.filter_some]
    exact if_pos hv.2
  bare d g hg hn := by
    obtain ⟨hg, hlive⟩ := lookup_of_reclaimStale hg hn
    obtain ⟨-, -, -, last, hlast⟩ := hc.leaseless d g hg hn
    have hheard : a.isHeard now g.quotaKey = true := by
      refine Account.isHeard_iff.mpr ⟨last, (h.heard _).trans hlast, ?_⟩
      by_contra hw
      exact hlive (LivenessTracker.mem_expiredClients.mpr
        ⟨last, hlast, Bool.eq_false_iff.mpr hw⟩)
    rw [Account.released, Table.lookup_retain, h.bare d g hg hn, Option.filter_some]
    exact if_pos hheard

/-- A claim after filing `r` is `r` itself or was there before; and it is valid if it is one of
the host of `r`. -/
theorem lookup_claims_filed_cases {w : RegistrationRumor}
    (hw : ((s.filed E r now).claims q).lookup d = some w) :
    (q = quotaKey r.rdns → withinWindow w.probeTimestampMillis now = true) ∧
      (((q, d) = (quotaKey r.rdns, r.domain) ∧ w = r ∧ Retained E s now r) ∨
        ((q, d) ≠ (quotaKey r.rdns, r.domain) ∧ (s.claims q).lookup d = some w)) := by
  rw [claims_filed] at hw
  split at hw
  · rename_i hq
    obtain ⟨hw, hv, hplace⟩ := ClaimTable.lookup_settle.mp hw
    refine ⟨fun _ => hv.2, ?_⟩
    rw [ClaimTable.lookup_insert] at hw
    split at hw
    · rename_i hd
      obtain rfl := Option.some.inj hw
      subst hq
      exact Or.inl ⟨by rw [hd], rfl, hv, hplace⟩
    · rename_i hd
      exact Or.inr ⟨fun he => hd (Prod.mk.inj he).2, hw⟩
  · rename_i hq
    exact ⟨fun h => absurd h hq, Or.inr ⟨fun he => hq (Prod.mk.inj he).1, hw⟩⟩

@[simp] theorem Account.heard_filed : (a.filed now r).heard = a.heard := by
  rw [Account.filed, Account.reconciled, Account.leased]

@[simp] theorem Account.bare_filed : (a.filed now r).bare = a.bare := by
  rw [Account.filed, Account.reconciled, Account.leased]

theorem Account.lookup_reconciled {host : String} {w : RegistrationRumor}
    (h : a.leases.lookup (q, d) = some (w.clientKey, w.probeTimestampMillis))
    (hw : q = host → withinWindow w.probeTimestampMillis now = true) :
    (a.reconciled now host).leases.lookup (q, d) = some (w.clientKey, w.probeTimestampMillis) := by
  rw [Account.reconciled, Table.lookup_retain, h, Option.filter_some, if_pos]
  by_cases hq : q = host
  · rw [hw hq, Bool.or_true]
  · rw [decide_eq_true hq, Bool.true_or]

theorem Account.lookup_leased :
    (a.leased r).leases.lookup (q, d) =
      if (q, d) = (quotaKey r.rdns, r.domain) then some (r.clientKey, r.probeTimestampMillis)
      else a.leases.lookup (q, d) :=
  Table.lookup_insert_eq _ _ _ _

/-- Every claim after filing `r` is on the account on which `r` has been put down. -/
theorem OnAccount.lookup_filed {w : RegistrationRumor} (h : s.OnAccount a)
    (hw : ((s.filed E r now).claims q).lookup d = some w) :
    (a.filed now r).leases.lookup (q, d) = some (w.clientKey, w.probeTimestampMillis) := by
  obtain ⟨hv, ⟨heq, rfl, -⟩ | ⟨hne, hw⟩⟩ := lookup_claims_filed_cases hw
  · exact Account.lookup_reconciled (Account.lookup_leased.trans (if_pos heq)) hv
  · exact Account.lookup_reconciled
      ((Account.lookup_leased.trans (if_neg hne)).trans (h.leases q d w hw)) hv

theorem OnAccount.filed (h : s.OnAccount a) : (s.filed E r now).OnAccount (a.filed now r) where
  heard q := by rw [liveness_filed, Account.heard_filed, h.heard]
  leases q d w hw := h.lookup_filed hw
  bare d g hg hn := by
    rw [Account.bare_filed]
    exact h.bare d g (lookup_of_filed hg hn) hn

theorem OnAccount.bare_granted {token : RegistrationToken} {d' : DomainName} (h : s.OnAccount a)
    (hg : (s.granted client d token).lookup d' = some g) (hn : g.rumor = none) :
    (AList.insert d client.quotaKey a.bare : Table DomainName String).lookup d' =
      some g.quotaKey := by
  rw [lookup_granted] at hg
  rw [Table.lookup_insert_eq]
  split at hg
  · rename_i hd
    rw [if_pos hd, ← Option.some.inj hg]
  · rename_i hd
    rw [if_neg hd]
    exact h.bare d' g hg hn

theorem OnAccount.panicked {token : RegistrationToken} (h : s.OnAccount a) :
    (s.granted client d token).OnAccount (a.granted now E s client d none) where
  heard := h.heard
  leases := h.leases
  bare _ _ hg hn := h.bare_granted hg hn

/-- **A granted registration and its lease are on the account**, the one or the other. -/
theorem OnAccount.granted {token : RegistrationToken} (h : s.OnAccount a) (hd : r.domain = d)
    (ht : r.token = token) :
    ((s.granted client d token).filed E r now).OnAccount
      (a.granted now E s client d (some r)) := by
  rw [Account.granted]
  dsimp only
  by_cases hr : Retained E s now r
  · rw [if_pos hr]
    refine ⟨fun q => ?_, fun q d' w hw => ?_, fun d' g hg hn => ?_⟩
    · rw [liveness_filed, lastSeen_granted, Account.heard_filed, h.heard]
    · rw [claims_filed, claims_granted, ← claims_filed] at hw
      dsimp only
      exact h.lookup_filed hw
    · -- the registration itself has its lease
      have hne : d' ≠ d := by
        rintro rfl
        rw [lookup_granted_filed hd ht, if_pos hr] at hg
        rw [← Option.some.inj hg] at hn
        cases hn
      have hg := lookup_of_filed hg hn
      rw [lookup_granted, if_neg hne] at hg
      rw [Table.lookup_erase_eq, if_neg hne]
      exact h.bare d' g hg hn
  · rw [if_neg hr]
    refine ⟨fun q => ?_, fun q d' w hw => ?_, fun d' g hg hn => ?_⟩
    · rw [liveness_filed, lastSeen_granted, Account.reconciled, h.heard]
    · rw [claims_filed, claims_granted, ← claims_filed] at hw
      obtain ⟨hv, ⟨-, -, hkept⟩ | ⟨-, hw⟩⟩ := lookup_claims_filed_cases hw
      · exact absurd hkept hr
      · dsimp only
        exact Account.lookup_reconciled (h.leases q d' w hw) hv
    · exact h.bare_granted (lookup_of_filed hg hn) hn

/-- Neither a probe nor a grant: what is reclaimed is struck off, and a rumor is put down. -/
theorem Account.note_of_refused (ha : Refused (s.answer E e)) (hop : ∀ r, e.op ≠ .adoptRumor r) :
    a.note E s e = if Reclaims E s e then a.released e.now else a := by
  rw [Account.note, prober_of_refused ha, grantee_of_refused ha]
  dsimp only
  split
  · rename_i r hr
    exact absurd hr (hop r)
  · rfl

theorem Account.note_adoptRumor (hop : e.op = .adoptRumor r) :
    a.note E s e = if ClaimTable.Valid E e.now r then a.filed e.now r else a := by
  have hno : ¬ Reclaims E s e := not_reclaims_of_op hop (by simp) (by simp)
  have hprobe : prober E e = none := prober_eq_none fun envelope v h => by
    rw [hop] at h
    cases h
  rw [Account.note, hprobe, grantee_eq_none hno, if_neg hno, hop]

theorem Account.note_granted {envelope : SignedEnvelope RegisterBody}
    (h : GrantedBy E s e envelope client) :
    a.note E s e = (a.released e.now).granted e.now E (s.reclaimStale E e.env.order e.now)
      client envelope.body.domain
      ((s.lastProbeEvidence client).map (leaseFor envelope client e.token)) := by
  have hprobe : prober E e = none := prober_eq_none fun envelope' v h' => by
    rw [h.op] at h'
    cases h'
  rw [Account.note, hprobe, if_pos h.reclaims, grantee_eq_some.mpr h, h.op]

/-- **Every event is put on the account.** -/
theorem OnAccount.after (h : s.OnAccount a) (hc : Consistent E s) (e : Event) :
    (s.after E e).OnAccount (a.note E s e) := by
  by_cases hrumor : ∃ r, e.op = .adoptRumor r
  · obtain ⟨r, hop⟩ := hrumor
    have hafter : s.after E e = (s.adoptRumor E r e.now).2 := by rw [RegistryStore.after, hop]
    rw [Account.note_adoptRumor hop, hafter]
    by_cases hv : ClaimTable.Valid E e.now r
    · rw [if_pos hv, adoptRumor_snd_of_valid hv]
      exact h.filed
    · rw [if_neg hv, adoptRumor_of_not_valid hv]
      exact h
  · have hop : ∀ r, e.op ≠ .adoptRumor r := fun r he => hrumor ⟨r, he⟩
    obtain ⟨answer, t, hchange, hanswer, hafter⟩ :
        ∃ answer t, Change E s e answer t ∧ s.answer E e = answer ∧ s.after E e = t :=
      ⟨_, _, outcome E s e, rfl, rfl⟩
    rw [hafter]
    cases hchange with
    | idle ha hno =>
      rw [Account.note_of_refused (hanswer ▸ ha) hop, if_neg hno]
      exact h
    | @probed envelope v client hprobe ha =>
      have hno : ¬ Reclaims E s e := not_reclaims_of_op hprobe (by simp) (by simp)
      rw [Account.note, prober_eq_some.mpr ⟨envelope, v, hprobe, rfl, ha⟩, grantee_eq_none hno,
        if_neg hno, hprobe]
      exact h.probed
    | @published envelope v client g hset _ hg hk =>
      have hno : ¬ Reclaims E s e := not_reclaims_of_op hset (by simp) (by simp)
      have hprobe : prober E e = none := prober_eq_none fun envelope' v' he => by
        rw [hset] at he
        cases he
      rw [Account.note, hprobe, grantee_eq_none hno, if_neg hno, hset]
      exact h.published hg hk
    | adopted he _ => exact absurd he (hop _)
    | reclaimed ha hr =>
      rw [Account.note_of_refused (hanswer ▸ ha) hop, if_pos hr]
      exact h.released hc
    | panicked hg hn =>
      rw [Account.note_granted hg, hn]
      exact (h.released hc).panicked
    | leased hg hl =>
      rw [Account.note_granted hg, hl]
      exact (h.released hc).granted rfl rfl

/-! ### A run and its account -/

/-- The account of a run. -/
def accountAfter (E : Ed25519) (es : List Event) : Account :=
  Run.record (RegistryStore.after E) (Account.note E) new Account.new es

theorem consistent_onAccount (E : Ed25519) (es : List Event) :
    Consistent E (storeAfter E es) ∧ (storeAfter E es).OnAccount (accountAfter E es) :=
  Run.record_invariant (I := fun s a => Consistent E s ∧ s.OnAccount a)
    (fun _ _ e h => ⟨h.1.after e, h.2.after h.1 e⟩) ⟨consistent_new, onAccount_new⟩

/-- What is found is proven live if and only if what is on its account has not run out. -/
theorem OnAccount.provenLive_iff (h : s.OnAccount a) (hc : Consistent E s)
    (hg : s.lookup d = some g) : s.provenLive now g = true ↔ a.Vouches now d g := by
  rw [Account.Vouches]
  cases hr : g.rumor with
  | some r =>
    have hl := hc.leased d g r hg hr not_false
    obtain ⟨records, hcopy⟩ := hl.copy
    have hput := h.leases _ _ _ hcopy
    dsimp only at hput ⊢
    rw [provenLive_of_rumor hr, leaseIsLive, hl.clientKey, hput]
    constructor
    · exact fun hw => ⟨_, rfl, hw⟩
    · rintro ⟨t, ht, hw⟩
      rwa [(Prod.mk.inj (Option.some.inj ht)).2]
  | none =>
    dsimp only
    rw [provenLive_of_leaseless hr, Account.isHeard_iff]
    exact exists_congr fun last => and_congr_left fun _ => by rw [h.heard]

/-- **Only what has run out on the account is found when it is not live**, in every run. -/
theorem allLive_of_timely (E : Ed25519) (es : List Event) (now : UInt64) :
    ((accountAfter E es).Timely now → (storeAfter E es).AllLive now) ∧
    ((storeAfter E es).AllLive now ↔ ∀ d g, (storeAfter E es).lookup d = some g →
      (accountAfter E es).Vouches now d g) := by
  obtain ⟨hc, ha⟩ := consistent_onAccount E es
  have hiff : (storeAfter E es).AllLive now ↔ ∀ d g, (storeAfter E es).lookup d = some g →
      (accountAfter E es).Vouches now d g :=
    forall₃_congr fun d g hg => ha.provenLive_iff hc hg
  refine ⟨fun htimely => hiff.mpr fun d g hg => ?_, hiff⟩
  rw [Account.Vouches]
  cases hr : g.rumor with
  | some r =>
    have hl := hc.leased d g r hg hr not_false
    obtain ⟨records, hcopy⟩ := hl.copy
    have hput := ha.leases _ _ _ hcopy
    exact ⟨_, by rw [hl.clientKey]; exact hput, htimely.leases _ _ _ hput⟩
  | none => exact htimely.bare d _ (ha.bare d g hg hr)

/-- A name that was registered at seventy seconds is live for a minute. -/
theorem allLive_of_timely_registered :
    (storeAfter Ed25519.sample [(sampleClient 1 "host").probes 70000,
      (sampleClient 1 "host").registers 70000 ⟨"name"⟩ 0]).AllLive 130000 :=
  (allLive_of_timely Ed25519.sample _ 130000).1 (by decide +kernel)

end RegistryStore

end Binda
