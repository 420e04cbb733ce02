import Binda.Registry.Sample
import Binda.Registry.Step

/-!
# When a request crashes the node

`handle_register` expects every live client to have a signed probe on record.
Liveness goes by the canonical host, the evidence by the owner's key and the
RDNS name as the client spells it, so a client can be live by a neighbour's
probe.  `handleClientRequest_returns_iff` says that this is the one way to
crash: a request is answered if and only if it is not granted a registration
without probe evidence of its own.
-/

namespace Binda

namespace RegistryStore

/-- **A request is answered unless a registration is granted to a client that
has no probe evidence.** -/
theorem handleClientRequest_returns_iff (E : Ed25519) (s : RegistryStore) (env : Ambient)
    (request : ClientRequest) (v : Bool) :
    (∃ response, (s.handleClientRequest E env request v).1 = .ok response) ↔
      ∀ envelope client, GrantedBy E s { env, op := .request request v } envelope client →
        ∃ evidence, s.lastProbeEvidence client = some evidence := by
  have hanswer : s.answer E { env, op := .request request v } =
      some (s.handleClientRequest E env request v).1 := rfl
  constructor
  · rintro ⟨response, hr⟩ envelope client hg
    rw [hr] at hanswer
    by_contra hno
    have hnone : s.lastProbeEvidence client = none :=
      Option.eq_none_iff_forall_ne_some.mpr fun evidence he => hno ⟨evidence, he⟩
    rw [(step_of_panicked hg hnone).1] at hanswer
    cases hanswer
  · intro h
    have ho := outcome E s { env, op := .request request v }
    rw [hanswer] at ho
    revert ho
    generalize (s.handleClientRequest E env request v).1 = result
    generalize s.after E { env, op := .request request v } = s'
    intro ho
    cases ho with
    | idle ha _ | reclaimed ha _ =>
      rcases ha with ha | ⟨message, ha⟩
      · cases ha
      · exact ⟨_, Option.some.inj ha⟩
    | probed _ _ | published _ _ _ _ | leased _ _ => exact ⟨_, rfl⟩
    | panicked hg hnone =>
      obtain ⟨evidence, he⟩ := h _ _ hg
      rw [hnone] at he
      cases he

/-- Two clients on one host, of which only the first has probed. -/
def neighbourProbed : List Event := [(sampleClient 1 "host").probes 1000]

/-- **A reachable crash**: the second client registers a free domain. -/
theorem handleClientRequest_can_panic :
    ¬ ∀ (E : Ed25519) (c : Clocked) (env : Ambient) (request : ClientRequest) (v : Bool),
      Reachable E c → c.clock ≤ env.now →
        ∃ response, (c.store.handleClientRequest E env request v).1 = .ok response := by
  intro h
  have hr := reachable_of_events Ed25519.sample neighbourProbed (by decide)
  obtain ⟨response, hresponse⟩ := h _ _ (sampleAmbient 1000 0)
    ((sampleClient 2 "host").registerRequest 1000 ⟨"name"⟩) true hr (by decide)
  have hp : ((storeAfter Ed25519.sample neighbourProbed).handleClientRequest
      Ed25519.sample (sampleAmbient 1000 0)
      ((sampleClient 2 "host").registerRequest 1000 ⟨"name"⟩) true).1.isOk = false := by
    decide +kernel
  rw [hresponse] at hp
  cases hp

end RegistryStore

end Binda
