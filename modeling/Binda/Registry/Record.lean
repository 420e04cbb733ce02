import Binda.Registry.Invariant
import Binda.Registry.Sample

/-!
# What can be read off an event

An event and the store it meets say by themselves whose probe is accepted
(`prober`), whether stale registrations are reclaimed (`Reclaims`), and to whom a
registration is granted (`grantee`).  This is all that a record of a run writes
down which is kept beside the store.
-/

namespace Binda

namespace RegistryStore

variable {E : Ed25519} {s : RegistryStore} {e : Event} {client : ClientIdentity}

instance (env : Ambient) (d : DomainName) : Decidable (s.Grants E env d client) :=
  decidable_of_iff
    (s.liveness.isLive client env.now = true ∧
      (s.reclaimStale E env.order env.now).lookup d = none ∧
      s.liveness.registrationCount client < maxRegistrationsPerClient)
    ⟨fun h => ⟨h.1, h.2.1, h.2.2⟩, fun h => ⟨h.live, h.free, h.slot⟩⟩

/-- The client whose probe the event is, if it is accepted, and the time stamp. -/
def prober (E : Ed25519) (e : Event) : Option (ClientIdentity × UInt64) :=
  match e.op with
  | .request (.probe envelope) _ =>
    match authenticate E envelope (probeMessage envelope.timestampMillis) e.now with
    | .ok client => some (client, envelope.timestampMillis)
    | .error _ => none
  | _ => none

/-- The client that registers in the event, if it is verified. -/
def registrant (E : Ed25519) (e : Event) :
    Option (SignedEnvelope RegisterBody × ClientIdentity) :=
  match e.op with
  | .request (.register envelope) true =>
    match authenticate E envelope
        (registerMessage envelope.body.domain envelope.timestampMillis) e.now with
    | .ok client => some (envelope, client)
    | .error _ => none
  | _ => none

/-- The client to which the event grants a registration. -/
def grantee (E : Ed25519) (s : RegistryStore) (e : Event) :
    Option (SignedEnvelope RegisterBody × ClientIdentity) :=
  (registrant E e).filter fun p => decide (s.Grants E e.env p.1.body.domain p.2)

theorem prober_eq_some {t : UInt64} :
    prober E e = some (client, t) ↔
      ∃ envelope v, e.op = .request (.probe envelope) v ∧ envelope.timestampMillis = t ∧
        authenticate E envelope (probeMessage envelope.timestampMillis) e.now = .ok client := by
  constructor
  · intro h
    rw [prober] at h
    split at h
    · rename_i envelope v hop
      split at h
      · rename_i c ha
        obtain ⟨rfl, rfl⟩ := Prod.mk.inj (Option.some.inj h)
        exact ⟨envelope, v, hop, rfl, ha⟩
      · cases h
    · cases h
  · rintro ⟨envelope, v, hop, rfl, ha⟩
    rw [prober, hop]
    dsimp only
    rw [ha]

theorem registrant_eq_some {envelope : SignedEnvelope RegisterBody} :
    registrant E e = some (envelope, client) ↔
      e.op = .request (.register envelope) true ∧
        authenticate E envelope
          (registerMessage envelope.body.domain envelope.timestampMillis) e.now = .ok client := by
  constructor
  · intro h
    rw [registrant] at h
    split at h
    · rename_i envelope' hop
      split at h
      · rename_i c ha
        obtain ⟨rfl, rfl⟩ := Prod.mk.inj (Option.some.inj h)
        exact ⟨hop, ha⟩
      · cases h
    · cases h
  · rintro ⟨hop, ha⟩
    rw [registrant, hop]
    dsimp only
    rw [ha]

/-- **Whom a registration is granted to can be read off the event.** -/
theorem grantee_eq_some {envelope : SignedEnvelope RegisterBody} :
    s.grantee E e = some (envelope, client) ↔ GrantedBy E s e envelope client := by
  rw [grantee, Option.filter_eq_some_iff, registrant_eq_some, decide_eq_true_eq]
  exact ⟨fun h => ⟨h.1.1, h.1.2, h.2⟩, fun h => ⟨⟨h.op, h.authentic⟩, h.grants⟩⟩

theorem reclaims_iff_registrant :
    Reclaims E s e ↔ e.op = .reclaimStale ∨
      (registrant E e).any (fun p => s.liveness.isLive p.2 e.now) = true := by
  rw [Reclaims]
  refine or_congr_right ?_
  rw [Option.any_eq_true]
  constructor
  · rintro ⟨envelope, client, hop, ha, hlive⟩
    exact ⟨(envelope, client), registrant_eq_some.mpr ⟨hop, ha⟩, hlive⟩
  · rintro ⟨⟨envelope, client⟩, hr, hlive⟩
    obtain ⟨hop, ha⟩ := registrant_eq_some.mp hr
    exact ⟨envelope, client, hop, ha, hlive⟩

instance : Decidable (e.op = .reclaimStale) :=
  match h : e.op with
  | .reclaimStale => isTrue rfl
  | .request _ _ => isFalse fun h => by cases h
  | .adoptRumor _ => isFalse fun h => by cases h

instance : Decidable (Reclaims E s e) := decidable_of_iff _ reclaims_iff_registrant.symm

/-! ### What each kind of event has on it -/

theorem GrantedBy.reclaims {envelope : SignedEnvelope RegisterBody}
    (h : GrantedBy E s e envelope client) : Reclaims E s e :=
  Or.inr ⟨envelope, client, h.op, h.authentic, h.grants.live⟩

theorem grantee_eq_none (h : ¬ Reclaims E s e) : s.grantee E e = none := by
  rw [Option.eq_none_iff_forall_ne_some]
  rintro ⟨envelope, client⟩ hg
  exact h (grantee_eq_some.mp hg).reclaims

/-- What is granted is answered. -/
theorem grantee_of_refused (h : Refused (s.answer E e)) : s.grantee E e = none := by
  rw [Option.eq_none_iff_forall_ne_some]
  rintro ⟨envelope, client⟩ hg
  have hgranted := grantee_eq_some.mp hg
  cases hev : s.lastProbeEvidence client with
  | none =>
    rw [(step_of_panicked hgranted hev).1] at h
    rcases h with h | ⟨message, h⟩ <;> cases h
  | some evidence =>
    rw [(step_of_leased hgranted hev).1] at h
    rcases h with h | ⟨message, h⟩ <;> cases h

/-- What is accepted is answered. -/
theorem prober_of_refused (h : Refused (s.answer E e)) : prober E e = none := by
  rw [Option.eq_none_iff_forall_ne_some]
  rintro ⟨client, t⟩ hp
  obtain ⟨envelope, v, hop, -, ha⟩ := prober_eq_some.mp hp
  rw [(step_of_probed hop ha).1] at h
  rcases h with h | ⟨message, h⟩ <;> cases h

theorem prober_eq_none (h : ∀ envelope v, e.op ≠ .request (.probe envelope) v) :
    prober E e = none := by
  rw [Option.eq_none_iff_forall_ne_some]
  rintro ⟨client, t⟩ hp
  obtain ⟨envelope, v, hop, -, -⟩ := prober_eq_some.mp hp
  exact h envelope v hop

/-- A run keeps the invariant. -/
theorem consistent_storeAfter (E : Ed25519) (es : List Event) : Consistent E (storeAfter E es) :=
  List.foldlRecOn es _ consistent_new fun _ h e _ => h.after e

end RegistryStore

end Binda
