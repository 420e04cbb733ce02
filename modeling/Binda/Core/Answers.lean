import Mathlib.Data.List.Forall2
import Binda.Core.Canonical

/-!
# The answers of a response

A response is read back from its own bytes alone: `ANCOUNT` answers from the end
of the question on, each the labels of its owner, type, class, time to live, the
length of its data in four bytes and the data (`answersOf`).  The data is read by
the type of the answer (`Rdata.read`).

What a record has to say is a function of its text (`Record.rdata`), and what
`encode_rdata` writes for it is read back as that (`read_encodeRdata`).

* `answersOf_buildResponse`: the answers are the records that can be encoded, in
  their order, with what they have to say, and nothing follows them.
-/

namespace Binda

open Reader (framed frames Framable)

/-! ### The data of a record -/

/-- What the data of an answer says. -/
inductive Rdata
  | ipv4 (octets : Vector UInt8 4)
  | ipv6 (octets : Vector UInt8 16)
  | target (labels : List (List UInt8))
  | exchange (preference : UInt16) (labels : List (List UInt8))
  | text (bytes : List UInt8)
  deriving DecidableEq

/-- What a record has to say, by its type. -/
def Record.rdata (record : Record) : Option Rdata :=
  match record.recordType with
  | .a => (Ipv4Addr.fromStr record.value).map fun addr => .ipv4 addr.octets
  | .aaaa => (Ipv6Addr.fromStr record.value).map fun addr => .ipv6 addr.octets
  | .cname | .ns =>
    (DomainName.new record.value).toOption.map fun target =>
      .target (target.labels.map String.asBytes)
  | .mx =>
    (DomainName.new (mailExchange record.value).2).toOption.map fun target =>
      .exchange (mailExchange record.value).1 (target.labels.map String.asBytes)
  | .txt => some (.text record.value.asBytes)

/-- Chunks, each behind its length in one byte, up to the end. -/
def readChunks : List UInt8 → Option (List UInt8)
  | [] => some []
  | n :: l =>
    if n.toNat ≤ l.length then (readChunks (l.drop n.toNat)).map fun text => l.take n.toNat ++ text
    else none
termination_by l => l.length
decreasing_by simp only [List.length_drop, List.length_cons]; omega

/-- A reader that must use up the data. -/
def whole {α : Type} (r : Reader α) (bytes : List UInt8) : Option α :=
  match r bytes with
  | some (a, []) => some a
  | _ => none

/-- A preference, and the labels of an exchange. -/
def readExchange : Reader (UInt16 × List (List UInt8)) := do
  let preference ← Reader.u16
  let labels ← frames
  pure (preference, labels)

/-- The data of an answer, read by its type. -/
def Rdata.read (rtype : UInt16) (bytes : List UInt8) : Option Rdata :=
  if rtype = 1 then (Vector.ofBytes? 4 bytes).map .ipv4
  else if rtype = 28 then (Vector.ofBytes? 16 bytes).map .ipv6
  else if rtype = 5 ∨ rtype = 2 then (whole frames bytes).map .target
  else if rtype = 15 then (whole readExchange bytes).map fun p => .exchange p.1 p.2
  else if rtype = 16 then (readChunks bytes).map .text
  else none

theorem whole_of_reads {α : Type} {r : Reader α} {code : List UInt8} {a : α} (h : Reads r code a) :
    whole r code = some a := by
  have := h []
  rw [List.append_nil] at this
  rw [whole, this]

theorem readChunks_flatMap {chunks : List (List UInt8)} (h : ∀ c ∈ chunks, c.length < 256) :
    readChunks (chunks.flatMap fun chunk => UInt8.ofNat chunk.length :: chunk) =
      some chunks.flatten := by
  induction chunks with
  | nil => rw [List.flatMap_nil, readChunks, List.flatten_nil]
  | cons c chunks ih =>
    have hc : (UInt8.ofNat c.length).toNat = c.length :=
      UInt8.toNat_ofNat_of_lt' (h c (List.mem_cons_self ..))
    rw [List.flatMap_cons, List.cons_append, readChunks, hc, if_pos (by simp), List.drop_left,
      List.take_left, ih fun d hd => h d (List.mem_cons_of_mem c hd), List.flatten_cons]
    rfl

/-- The labels of a name that was written into short data fit into frames. -/
theorem reads_encodeDomainLabels {d : DomainName} (hv : d.Valid)
    (hlen : (encodeDomainLabels d).length < 2 ^ 32) :
    Reads frames (encodeDomainLabels d) (d.labels.map String.asBytes) := by
  rw [DomainName.encodeDomainLabels_eq] at hlen ⊢
  refine Reader.reads_frames fun b hb => ⟨?_, Nat.lt_of_le_of_lt (Reader.length_le_framed hb) hlen⟩
  obtain ⟨label, hlabel, rfl⟩ := List.mem_map.mp hb
  exact hv.asBytes_ne_nil hlabel

/-- Data that is written for a name is written for a valid one. -/
theorem exists_of_bind_new {raw : String} {write : DomainName → List UInt8} {bytes : List UInt8}
    (h : ((DomainName.new raw).mapError DnsError.invalidDomain >>= fun target =>
      pure (write target)) = .ok bytes) :
    ∃ target, DomainName.new raw = .ok target ∧ target.Valid ∧ write target = bytes := by
  obtain ⟨target, htarget, h⟩ := Except.bind_eq_ok.mp h
  have hnew := Except.mapError_eq_ok.mp htarget
  exact ⟨target, hnew, DomainName.valid_of_new hnew, Except.ok.inj h⟩

/-- **The data of a record is read back as what the record has to say.** -/
theorem read_encodeRdata {record : Record} {bytes : List UInt8} (h : encodeRdata record = .ok bytes)
    (hlen : bytes.length < 2 ^ 32) :
    ∃ said, record.rdata = some said ∧
      Rdata.read (recordTypeCode record.recordType) bytes = some said := by
  obtain ⟨name, recordType, ttlSecs, value⟩ := record
  cases recordType with
  | a =>
    cases haddr : Ipv4Addr.fromStr value with
    | none =>
      simp only [encodeRdata, haddr] at h
      cases h
    | some addr =>
      simp only [encodeRdata, haddr] at h
      rw [← Except.ok.inj h]
      exact ⟨.ipv4 addr.octets, by simp only [Record.rdata, haddr, Option.map_some],
        congrArg (Option.map Rdata.ipv4) (Vector.ofBytes?_eq_some.mpr rfl)⟩
  | aaaa =>
    cases haddr : Ipv6Addr.fromStr value with
    | none =>
      simp only [encodeRdata, haddr] at h
      cases h
    | some addr =>
      simp only [encodeRdata, haddr] at h
      rw [← Except.ok.inj h]
      exact ⟨.ipv6 addr.octets, by simp only [Record.rdata, haddr, Option.map_some],
        congrArg (Option.map Rdata.ipv6) (Vector.ofBytes?_eq_some.mpr rfl)⟩
  | cname | ns =>
    obtain ⟨target, hnew, hv, rfl⟩ := exists_of_bind_new h
    refine ⟨.target (target.labels.map String.asBytes), by rw [Record.rdata, hnew]; rfl, ?_⟩
    show (whole frames _).map Rdata.target = _
    rw [whole_of_reads (reads_encodeDomainLabels hv hlen)]
    rfl
  | mx =>
    have hmx : encodeRdata ⟨name, .mx, ttlSecs, value⟩ =
        (DomainName.new (mailExchange value).2).mapError .invalidDomain >>= fun target =>
          pure ((mailExchange value).1.toBeBytes ++ encodeDomainLabels target) := rfl
    rw [hmx] at h
    obtain ⟨target, hnew, hv, rfl⟩ := exists_of_bind_new h
    refine ⟨.exchange (mailExchange value).1 (target.labels.map String.asBytes), ?_, ?_⟩
    · show (DomainName.new (mailExchange value).2).toOption.map _ = _
      rw [hnew]
      rfl
    · rw [List.length_append] at hlen
      have hread : Reads readExchange _ _ := (Reader.reads_u16 (mailExchange value).1).bind
        (reads_encodeDomainLabels hv (by omega)).bind_pure
      show (whole readExchange _).map _ = _
      rw [whole_of_reads hread]
      rfl
  | txt =>
    obtain rfl := Except.ok.inj h
    refine ⟨.text value.asBytes, rfl, ?_⟩
    show (readChunks _).map Rdata.text = _
    rw [readChunks_flatMap, List.flatten_chunks]
    · rfl
    · intro c hc
      have := (List.length_of_mem_chunks (by decide) hc).2
      omega

/-! ### Answers -/

/-- One answer, as it stands in a message. -/
structure Answer where
  owner : List (List UInt8)
  rtype : UInt16
  rclass : UInt16
  ttl : UInt32
  rdata : List UInt8
  deriving DecidableEq

namespace Answer

/-- An answer, written. -/
def code (answer : Answer) : List UInt8 :=
  framed answer.owner ++ (answer.rtype.toBeBytes ++ (answer.rclass.toBeBytes ++
    (answer.ttl.toBeBytes ++ ((UInt32.ofNat answer.rdata.length).toBeBytes ++ answer.rdata))))

/-- An answer, read. -/
def read : Reader Answer := do
  let owner ← frames
  let rtype ← Reader.u16
  let rclass ← Reader.u16
  let ttl ← Reader.u32
  let rdlength ← Reader.u32
  let rdata ← Reader.bytes rdlength.toNat
  pure ⟨owner, rtype, rclass, ttl, rdata⟩

theorem reads {answer : Answer} (howner : ∀ label ∈ answer.owner, Framable label)
    (hrdata : answer.rdata.length < 2 ^ 32) : Reads read answer.code answer := by
  have hlen : (UInt32.ofNat answer.rdata.length).toNat = answer.rdata.length :=
    UInt32.toNat_ofNat_of_lt' hrdata
  have hbytes := Reader.reads_bytes answer.rdata
  rw [← hlen] at hbytes
  exact (Reader.reads_frames howner).bind <| (Reader.reads_u16 _).bind <|
    (Reader.reads_u16 _).bind <| (Reader.reads_u32 _).bind <| (Reader.reads_u32 _).bind
      hbytes.bind_pure

/-- The answer a record is to become. -/
def ofRecord (q : DnsQuery) (record : Record) : Answer where
  owner := q.domain.labels.map String.asBytes
  rtype := recordTypeCode record.recordType
  rclass := CLASS_IN
  ttl := record.ttlSecs
  rdata := (encodeRdata record).toOption.getD []

/-- **What an answer says of a record**: the owner is the name that was asked for, the type,
the class and the time to live are the record's, and the data reads as what the record says. -/
structure Carries (q : DnsQuery) (record : Record) (answer : Answer) : Prop where
  owner : answer.owner = q.domain.labels.map String.asBytes
  rtype : answer.rtype = recordTypeCode record.recordType
  rclass : answer.rclass = 1
  ttl : answer.ttl = record.ttlSecs
  rdata : ∃ said, record.rdata = some said ∧ Rdata.read answer.rtype answer.rdata = some said

end Answer

/-- `ANCOUNT`. -/
def ancount (bytes : List UInt8) : UInt16 := UInt16.ofBeBytes ((bytes.drop 6).take 2)

/-- The answers of a message, and what follows them: `ANCOUNT` of them, behind the question. -/
def answersOf (bytes : List UInt8) : Option (List Answer × List UInt8) :=
  (questionOf bytes).bind fun (_, rest) => Reader.times Answer.read (ancount bytes).toNat rest

theorem encodeAnswer_eq (q : DnsQuery) (record : Record) :
    encodeAnswer q record =
      if (encodeRdata record).isOk then some (Answer.ofRecord q record).code else none := by
  rw [encodeAnswer]
  cases h : encodeRdata record with
  | error e => rfl
  | ok rdata =>
    simp only [Answer.code, Answer.ofRecord, h, Except.toOption, Option.getD_some,
      DomainName.encodeDomainLabels_eq, List.append_assoc]
    rfl

theorem filterMap_encodeAnswer (q : DnsQuery) (records : List Record) :
    records.filterMap (encodeAnswer q) =
      (records.filter fun r => (encodeRdata r).isOk).map fun r => (Answer.ofRecord q r).code := by
  rw [← List.filterMap_eq_map', List.filterMap_filter]
  exact List.filterMap_congr fun r _ => encodeAnswer_eq q r

theorem Answer.carries_ofRecord (q : DnsQuery) {record : Record}
    (hok : (encodeRdata record).isOk = true)
    (hlen : ∀ rdata, encodeRdata record = .ok rdata → rdata.length < 2 ^ 32) :
    Answer.Carries q record (Answer.ofRecord q record) ∧
      (Answer.ofRecord q record).rdata.length < 2 ^ 32 := by
  cases h : encodeRdata record with
  | error e =>
    rw [h] at hok
    cases hok
  | ok rdata =>
    have hrdata : (Answer.ofRecord q record).rdata = rdata := by
      rw [Answer.ofRecord, h]
      rfl
    rw [hrdata]
    refine ⟨⟨rfl, rfl, rfl, rfl, ?_⟩, hlen rdata h⟩
    rw [hrdata]
    exact read_encodeRdata h (hlen rdata h)

theorem ancount_buildResponse (q : DnsQuery) (domainExists : Bool) {records : List Record}
    (hcount : records.length ≤ 65535) :
    (ancount (buildResponse q domainExists records)).toNat =
      (records.filter fun r => (encodeRdata r).isOk).length := by
  have hle := List.length_filter_le (fun r => (encodeRdata r).isOk) records
  show (UInt16.ofBeBytes (UInt16.ofNat _).toBeBytes).toNat = _
  rw [UInt16.ofBeBytes_toBeBytes, filterMap_encodeAnswer, List.length_map,
    UInt16.toNat_ofNat_of_lt' (by rw [UInt16.size]; omega)]

/-- Behind the question of a response stand the encoded records. -/
theorem AsksFor.questionOf_response {bytes : List UInt8} {labels : List String} {q : DnsQuery}
    (h : AsksFor bytes labels q) (domainExists : Bool) (records : List Record) :
    questionOf (buildResponse q domainExists records) =
      some (⟨q.domain.labels.map String.asBytes, q.qtype, q.qclass⟩,
        (records.filter fun r => (encodeRdata r).isOk).flatMap fun r =>
          (Answer.ofRecord q r).code) := by
  obtain ⟨rest, hcode, hquestion⟩ := (h.response domainExists records).questionOf_eq
  rw [drop_buildResponse, DomainName.encodeDomainLabels_eq, Question.code,
    List.append_assoc (framed _), filterMap_encodeAnswer, ← List.flatMap_def] at hcode
  rw [hquestion, List.append_cancel_left hcode]

/-- **The answers of a response are the records that can be encoded**, in their order, each with
what it has to say, and the message ends behind the last of them. -/
theorem answersOf_buildResponse {bytes : List UInt8} {q : DnsQuery} (h : parseQuery bytes = .ok q)
    (domainExists : Bool) {records : List Record} (hcount : records.length ≤ 65535)
    (hlen : ∀ r ∈ records, ∀ rdata, encodeRdata r = .ok rdata → rdata.length < 2 ^ 32) :
    ∃ answers, answersOf (buildResponse q domainExists records) = some (answers, []) ∧
      List.Forall₂ (Answer.Carries q) (records.filter fun r => (encodeRdata r).isOk) answers := by
  obtain ⟨labels, hask⟩ := parseQuery_eq_ok.mp h
  have hmem : ∀ r ∈ records.filter fun r => (encodeRdata r).isOk,
      Answer.Carries q r (Answer.ofRecord q r) ∧
        (Answer.ofRecord q r).rdata.length < 2 ^ 32 := by
    intro r hr
    obtain ⟨hr, hok⟩ := List.mem_filter.mp hr
    exact Answer.carries_ofRecord q hok (hlen r hr)
  have hread : Reads (Reader.times Answer.read _) _ _ := Reader.reads_times fun r hr =>
    Answer.reads (List.forall_mem_map.mpr hask.framable_labels) (hmem r hr).2
  refine ⟨(records.filter fun r => (encodeRdata r).isOk).map (Answer.ofRecord q), ?_, ?_⟩
  · rw [answersOf, hask.questionOf_response, Option.bind_some, ancount_buildResponse q _ hcount]
    have := hread []
    rwa [List.append_nil] at this
  · rw [List.forall₂_map_right_iff, List.forall₂_same]
    exact fun r hr => (hmem r hr).1

/-- A record that cannot be encoded is skipped, and the one behind it is not. -/
theorem answersOf_buildResponse_skipped :
    ∃ answers, answersOf (buildResponse ⟨1, ⟨"example.binda"⟩, 1, CLASS_IN⟩ true
        [⟨"@", .a, 300, "not-an-ip-address"⟩, ⟨"@", .a, 300, "203.0.113.10"⟩]) =
          some (answers, []) ∧
      List.Forall₂ (Answer.Carries ⟨1, ⟨"example.binda"⟩, 1, CLASS_IN⟩)
        [⟨"@", .a, 300, "203.0.113.10"⟩] answers := by
  have h : parseQuery (buildQueryBytes 1 ["example", "binda"] 1) =
      .ok ⟨1, ⟨"example.binda"⟩, 1, CLASS_IN⟩ :=
    parseQuery_eq_ok.mpr ⟨_, asksFor_buildQueryBytes (by decide +kernel) (by decide +kernel)⟩
  have hbad : encodeRdata ⟨"@", .a, 300, "not-an-ip-address"⟩ = .error .malformedLabel := by
    decide +kernel
  have hgood : encodeRdata ⟨"@", .a, 300, "203.0.113.10"⟩ = .ok [203, 0, 113, 10] := by
    decide +kernel
  have hlen : ∀ r ∈ ([⟨"@", .a, 300, "not-an-ip-address"⟩, ⟨"@", .a, 300, "203.0.113.10"⟩] :
      List Record), ∀ rdata, encodeRdata r = .ok rdata → rdata.length < 2 ^ 32 := by
    intro r hr rdata hrdata
    rcases List.mem_pair.mp hr with rfl | rfl
    · rw [hbad] at hrdata
      cases hrdata
    · rw [hgood] at hrdata
      rw [← Except.ok.inj hrdata]
      decide
  have hresponse := answersOf_buildResponse h true (by decide) hlen
  rwa [List.filter_cons_of_neg (by rw [hbad]; decide), List.filter_cons_of_pos (by rw [hgood]; rfl),
    List.filter_nil] at hresponse

end Binda
