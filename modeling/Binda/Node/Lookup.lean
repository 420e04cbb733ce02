import Binda.Core.Question
import Binda.Registry.Store

/-!
# The name-lookup listener

`run_dns` in `node.rs`: what the listener sends back for a message that has passed its rate
limiter.  A message that is no query is answered too, as long as it has an identifier.

`reply_reply` says that a reply is answered like the message it replies to: the flag that
marks a response is written and never read.  So the exchange between two listeners does not
end once it has begun (`bounce_succ`), and `reply_silent_iff` says that it does not begin
for a message of less than two bytes alone.
-/

namespace Binda

/-- The response to a query, under the lock of the store. -/
def answerQuery (store : RegistryStore) (query : DnsQuery) : List UInt8 :=
  match store.lookup query.domain with
  | some reg =>
    buildResponse query true
      (reg.records.filter fun record => recordMatchesQtype record query.qtype)
  | none => buildResponse query false []

/-- What `run_dns` sends back for an admitted message. -/
def reply (store : RegistryStore) (bytes : List UInt8) : Option (List UInt8) :=
  match parseQuery bytes with
  | .error _ =>
    -- the identifier is echoed where there is one
    if h : 2 ≤ bytes.length then
      some (buildErrorResponse (UInt16.ofBeBytes [bytes[0], bytes[1]]) RCODE_FORMAT_ERROR)
    else none
  | .ok query => some (answerQuery store query)

variable {store store' : RegistryStore} {bytes response : List UInt8} {query : DnsQuery}

/-! ### One reply -/

/-- A query is answered with a response to it. -/
theorem reply_of_ok (h : parseQuery bytes = .ok query) :
    reply store bytes = some (answerQuery store query) := by
  rw [reply, h]

/-- Anything else is answered with an error, if it has an identifier. -/
theorem reply_of_error {e : DnsError} (h : parseQuery bytes = .error e) :
    reply store bytes =
      if 2 ≤ bytes.length then
        some (buildErrorResponse (UInt16.ofBeBytes (bytes.take 2)) RCODE_FORMAT_ERROR)
      else none := by
  rw [reply, h]
  dsimp only
  split_ifs with hlen
  · match bytes, hlen with
    | a :: b :: rest, _ => rfl
  · rfl

theorem length_of_parseQuery (h : parseQuery bytes = .ok query) : 12 ≤ bytes.length := by
  rw [parseQuery] at h
  split at h
  · cases h
  · omega

/-- **Every message with an identifier is answered**, and no other. -/
theorem isSome_reply_iff : (reply store bytes).isSome ↔ 2 ≤ bytes.length := by
  cases h : parseQuery bytes with
  | error e =>
    rw [reply_of_error h]
    split_ifs with hlen <;> simp [hlen]
  | ok query =>
    have := length_of_parseQuery h
    rw [reply_of_ok h, Option.isSome_some]
    exact ⟨fun _ => by omega, fun _ => rfl⟩

/-! ### The reply to a reply -/

/-- A response asks the question it answers. -/
theorem parseQuery_answerQuery (h : parseQuery bytes = .ok query) :
    parseQuery (answerQuery store query) = .ok query := by
  obtain ⟨labels, hask⟩ := parseQuery_eq_ok.mp h
  have hresponse : ∀ domainExists matching,
      parseQuery (buildResponse query domainExists matching) = .ok query :=
    fun domainExists matching => parseQuery_eq_ok.mpr ⟨_, hask.response domainExists matching⟩
  rw [answerQuery]
  split <;> exact hresponse _ _

/-- An error response is no query: it has no question. -/
theorem parseQuery_buildErrorResponse (id rcode : UInt16) :
    ∃ e, parseQuery (buildErrorResponse id rcode) = .error e := by
  cases h : parseQuery (buildErrorResponse id rcode) with
  | error e => exact ⟨e, rfl⟩
  | ok query =>
    obtain ⟨labels, hask⟩ := parseQuery_eq_ok.mp h
    have hcount : ([0, 0] : List UInt8) = (1 : UInt16).toBeBytes := hask.qdcount_eq
    exact absurd hcount (by decide)

/-- An error response is answered with itself. -/
theorem reply_buildErrorResponse (id : UInt16) :
    reply store (buildErrorResponse id RCODE_FORMAT_ERROR) =
      some (buildErrorResponse id RCODE_FORMAT_ERROR) := by
  obtain ⟨e, he⟩ := parseQuery_buildErrorResponse id RCODE_FORMAT_ERROR
  have hid : (buildErrorResponse id RCODE_FORMAT_ERROR).take 2 = id.toBeBytes := rfl
  have hlen : 2 ≤ (buildErrorResponse id RCODE_FORMAT_ERROR).length := by
    show 2 ≤ 12
    decide
  rw [reply_of_error he, if_pos hlen, hid, UInt16.ofBeBytes_toBeBytes]

/-- **A reply is answered like the message it replies to.** -/
theorem reply_reply (h : reply store bytes = some response) :
    reply store' response = reply store' bytes := by
  cases hparse : parseQuery bytes with
  | error e =>
    rw [reply_of_error hparse] at h ⊢
    split_ifs at h ⊢ with hlen
    rw [← Option.some.inj h]
    exact reply_buildErrorResponse _
  | ok query =>
    rw [reply_of_ok hparse] at h
    rw [← Option.some.inj h, reply_of_ok (parseQuery_answerQuery hparse), reply_of_ok hparse]

/-! ### Two listeners -/

/-- The messages that go back and forth after the first, each listener with the registry it
has when its turn comes. -/
def bounce (stores : Nat → RegistryStore) (bytes : List UInt8) : Nat → Option (List UInt8)
  | 0 => some bytes
  | n + 1 => (bounce stores bytes n).bind (reply (stores n))

/-- **The exchange does not end**: each message is the reply to the first. -/
theorem bounce_succ (stores : Nat → RegistryStore) (hlen : 2 ≤ bytes.length) (n : Nat) :
    bounce stores bytes (n + 1) = reply (stores n) bytes := by
  induction n with
  | zero => rfl
  | succ n ih =>
    obtain ⟨response, hresponse⟩ := Option.isSome_iff_exists.mp
      (isSome_reply_iff.mpr hlen : (reply (stores n) bytes).isSome = true)
    rw [bounce, ih, hresponse, Option.bind_some, reply_reply hresponse]

/-- **A reply goes unanswered exactly when there is none**, for a message of less than two
bytes. -/
theorem reply_silent_iff (store store' : RegistryStore) (bytes : List UInt8) :
    (∀ response, reply store bytes = some response → reply store' response = none) ↔
      bytes.length < 2 := by
  constructor
  · intro h
    by_contra hlen
    obtain ⟨response, hresponse⟩ := Option.isSome_iff_exists.mp
      (isSome_reply_iff.mpr (by omega) : (reply store bytes).isSome = true)
    have hnone := h response hresponse
    rw [reply_reply hresponse] at hnone
    have hsome : (reply store' bytes).isSome = true := isSome_reply_iff.mpr (by omega)
    rw [hnone] at hsome
    cases hsome
  · intro hlen response hresponse
    have hsome : (reply store bytes).isSome = true := by rw [hresponse]; rfl
    have := isSome_reply_iff.mp hsome
    omega

/-- **Two empty nodes answer each other**, on a query for `a` with the response that there is
no such name, and on two stray bytes with the format error. -/
theorem empty_nodes_answer_each_other :
    (∃ response, reply RegistryStore.new (buildQueryBytes 7 ["a"] 1) = some response ∧
        reply RegistryStore.new response = some response) ∧
      ∃ response, reply RegistryStore.new [0, 7] = some response ∧
        reply RegistryStore.new response = some response := by
  refine ⟨⟨buildResponse ⟨7, ⟨"a"⟩, 1, CLASS_IN⟩ false [], ?_, ?_⟩,
    buildErrorResponse 7 RCODE_FORMAT_ERROR, ?_, reply_buildErrorResponse 7⟩
  · decide +kernel
  · decide +kernel
  · decide +kernel

end Binda
