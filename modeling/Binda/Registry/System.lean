import Binda.Lib.Run
import Binda.Registry.Api

/-!
# Runs of a store

A node works on its store through three operations: it answers a client
request, adopts a rumor, or reclaims what is stale.  An `Event` is one of them
together with what it takes from outside, and a run is a sequence of events at
clock readings that do not go back.

`Reachable E c` says that the store `c.store` is reached from the empty one by
some run whose last event was at the reading `c.clock`.  After a panic the run
goes on with the store the panic left.
-/

namespace Binda

/-- What is done to a store. -/
inductive Operation
  | request (request : ClientRequest) (rdnsVerified : Bool)
  | adoptRumor (rumor : RegistrationRumor)
  | reclaimStale

/-- An operation and what it takes from outside. -/
structure Event where
  env : Ambient
  op : Operation

/-- The clock reading at which the event happens. -/
def Event.now (e : Event) : UInt64 := e.env.now

/-- The store after an event. -/
def RegistryStore.after (E : Ed25519) (s : RegistryStore) (e : Event) : RegistryStore :=
  match e.op with
  | .request request rdnsVerified => (s.handleClientRequest E e.env request rdnsVerified).2
  | .adoptRumor rumor => (s.adoptRumor E rumor e.now).2
  | .reclaimStale => s.reclaimStale E e.env.order e.now

/-- A store and the clock reading of the last event. -/
structure Clocked where
  clock : UInt64
  store : RegistryStore

/-- A fresh node. -/
def Clocked.start : Clocked := { clock := 0, store := RegistryStore.new }

/-- The next event. -/
def Clocked.next (E : Ed25519) (c : Clocked) (e : Event) : Clocked :=
  { clock := e.now, store := c.store.after E e }

/-- The clock does not go back, and the event meets `cond`. -/
def Clocked.May (cond : RegistryStore → Event → Prop) (c : Clocked) (e : Event) : Prop :=
  c.clock ≤ e.now ∧ cond c.store e

/-- A run whose events all meet `cond`. -/
def Clocked.Runs (E : Ed25519) (cond : RegistryStore → Event → Prop) : Clocked → Clocked → Prop :=
  Run.Reaches (Clocked.next E) (Clocked.May cond)

/-- Reached from the empty store. -/
def Reachable (E : Ed25519) (c : Clocked) : Prop :=
  Clocked.Runs E (fun _ _ => True) Clocked.start c

end Binda
