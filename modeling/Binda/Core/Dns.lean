import Binda.Core.Domain
import Binda.Core.Zone
import Binda.Lib.Address
import Binda.Lib.Utf8

/-!
# The name-lookup protocol

`dns.rs`: reading a query and writing the response.  A name is a list of labels
on the wire, each behind its length in four bytes and closed by the length zero,
and a text with dots everywhere else: `parseQuery` joins the labels with dots,
`encodeDomainLabels` cuts the name at its dots.
-/

namespace Binda

/-- `DnsError`. -/
inductive DnsError
  | tooShort
  | unsupportedQuestionCount
  | malformedLabel
  | invalidUtf8
  | invalidDomain (error : DomainNameError)
  deriving DecidableEq, Repr

/-- The text `thiserror` gives it. -/
def DnsError.text : DnsError → String
  | .tooShort => "message shorter than a header"
  | .unsupportedQuestionCount => "message does not contain exactly one question"
  | .malformedLabel => "malformed domain name label in message"
  | .invalidUtf8 => "label is not valid UTF-8"
  | .invalidDomain error => s!"decoded domain name is invalid: {error.text}"

/-- `DnsQuery`. -/
structure DnsQuery where
  id : UInt16
  domain : DomainName
  qtype : UInt16
  qclass : UInt16
  deriving DecidableEq, Repr

/-- `record_type_code`. -/
def recordTypeCode : RecordType → UInt16
  | .a => 1
  | .aaaa => 28
  | .cname => 5
  | .mx => 15
  | .txt => 16
  | .ns => 2

/-- `CLASS_IN`. -/
def CLASS_IN : UInt16 := 1

/-- `RCODE_NXDOMAIN`: the queried domain does not exist at all. -/
def RCODE_NXDOMAIN : UInt16 := 3

/-- `QTYPE_ANY`. -/
def QTYPE_ANY : UInt16 := 255

/-- `RCODE_FORMERR`: the request itself was malformed. -/
def RCODE_FORMERR : UInt16 := 1

/-- `RCODE_FORMAT_ERROR`, under which the listener knows it. -/
def RCODE_FORMAT_ERROR : UInt16 := RCODE_FORMERR

/-! ### Reading a query -/

/-- A word of `n` bytes in the message at `pos`. -/
def readWord {α : Type} (n : Nat) (ofBytes : List UInt8 → α) (bytes : List UInt8) (pos : Nat) :
    Except DnsError α :=
  match bytes.getRange? pos (pos + n) with
  | some slice => .ok (ofBytes slice)
  | none => .error .malformedLabel

/-- `read_u16`. -/
def readU16 : List UInt8 → Nat → Except DnsError UInt16 := readWord 2 UInt16.ofBeBytes

/-- `read_u32`. -/
def readU32 : List UInt8 → Nat → Except DnsError UInt32 := readWord 4 UInt32.ofBeBytes

/-- **A word is read where its bytes stand.** -/
theorem readWord_eq_ok {α : Type} {n : Nat} (hn : 0 < n) {ofBytes : List UInt8 → α}
    {toBytes : α → List UInt8} (hlen : ∀ a, (toBytes a).length = n)
    (hof : ∀ a, ofBytes (toBytes a) = a) (hto : ∀ {l}, l.length = n → toBytes (ofBytes l) = l)
    {bytes : List UInt8} {pos : Nat} {a : α} :
    readWord n ofBytes bytes pos = .ok a ↔ ∃ rest, bytes.drop pos = toBytes a ++ rest := by
  rw [readWord]
  constructor
  · intro h
    split at h
    · rename_i slice hslice
      obtain ⟨hslice, rest, hdrop⟩ := (List.getRange?_eq_some hn).mp hslice
      rw [← Except.ok.inj h, hto hslice]
      exact ⟨rest, hdrop⟩
    · cases h
  · rintro ⟨rest, hdrop⟩
    rw [(List.getRange?_eq_some hn).mpr ⟨hlen a, rest, hdrop⟩]
    exact congrArg Except.ok (hof a)

theorem readU16_eq_ok {bytes : List UInt8} {pos : Nat} {a : UInt16} :
    readU16 bytes pos = .ok a ↔ ∃ rest, bytes.drop pos = a.toBeBytes ++ rest :=
  readWord_eq_ok (by decide) UInt16.toBeBytes_length UInt16.ofBeBytes_toBeBytes
    UInt16.toBeBytes_ofBeBytes

theorem readU32_eq_ok {bytes : List UInt8} {pos : Nat} {a : UInt32} :
    readU32 bytes pos = .ok a ↔ ∃ rest, bytes.drop pos = a.toBeBytes ++ rest :=
  readWord_eq_ok (by decide) UInt32.toBeBytes_length UInt32.ofBeBytes_toBeBytes
    UInt32.toBeBytes_ofBeBytes

theorem add_four_le_of_readU32 {bytes : List UInt8} {pos : Nat} {a : UInt32}
    (h : readU32 bytes pos = .ok a) : pos + 4 ≤ bytes.length := by
  obtain ⟨rest, hdrop⟩ := readU32_eq_ok.mp h
  have := congrArg List.length hdrop
  rw [List.length_drop, List.length_append, UInt32.toBeBytes_length] at this
  omega

/-- The loop of `parse_query`: the labels, and the position behind the length zero. -/
def parseLabels (bytes : List UInt8) (pos : Nat) (labels : List String) :
    Except DnsError (List String × Nat) :=
  match _hread : readU32 bytes pos with
  | .error e => .error e
  | .ok len =>
    if len.toNat = 0 then .ok (labels, pos + 4)
    else
      match bytes.getRange? (pos + 4) (pos + 4 + len.toNat) with
      | none => .error .malformedLabel
      | some labelBytes =>
        match String.ofBytes? labelBytes with
        | none => .error .invalidUtf8
        | some label => parseLabels bytes (pos + 4 + len.toNat) (labels ++ [label])
termination_by bytes.length - pos
decreasing_by
  have := add_four_le_of_readU32 _hread
  omega

/-- One round of the loop, without the evidence that it ends. -/
theorem parseLabels_step (bytes : List UInt8) (pos : Nat) (labels : List String) :
    parseLabels bytes pos labels =
      match readU32 bytes pos with
      | .error e => .error e
      | .ok len =>
        if len.toNat = 0 then .ok (labels, pos + 4)
        else
          match bytes.getRange? (pos + 4) (pos + 4 + len.toNat) with
          | none => .error .malformedLabel
          | some labelBytes =>
            match String.ofBytes? labelBytes with
            | none => .error .invalidUtf8
            | some label => parseLabels bytes (pos + 4 + len.toNat) (labels ++ [label]) := by
  rw [parseLabels]
  split
  · rename_i e he
    rw [he]
  · rename_i len hlen
    rw [hlen]

/-- `parse_query`. -/
def parseQuery (bytes : List UInt8) : Except DnsError DnsQuery :=
  if h : bytes.length < 12 then .error .tooShort
  else
    let id := UInt16.ofBeBytes [bytes[0], bytes[1]]
    let qdcount := UInt16.ofBeBytes [bytes[4], bytes[5]]
    if qdcount ≠ 1 then .error .unsupportedQuestionCount
    else do
      let (labels, pos) ← parseLabels bytes 12 []
      let qtype ← readU16 bytes pos
      let qclass ← readU16 bytes (pos + 2)
      let domain ← (DomainName.new (".".intercalate labels)).mapError .invalidDomain
      return ⟨id, domain, qtype, qclass⟩

/-! ### Writing a response -/

/-- `encode_domain_labels`: what it appends to the message. -/
def encodeDomainLabels (domain : DomainName) : List UInt8 :=
  (domain.labels.flatMap fun label =>
    (UInt32.ofNat label.asBytes.length).toBeBytes ++ label.asBytes) ++ (0 : UInt32).toBeBytes

/-- The preference and the exchange of a mail record's value: without a number before the
first space the preference is zero and the whole value is the exchange. -/
def mailExchange (value : String) : UInt16 × String :=
  ((splitOnce ' ' value).bind fun (p, e) => (parseU16 p).map fun p => (p, e)).getD (0, value)

/-- `encode_rdata`. -/
def encodeRdata (record : Record) : Except DnsError (List UInt8) :=
  match record.recordType with
  | .a =>
    match Ipv4Addr.fromStr record.value with
    | some addr => .ok addr.octets.toList
    | none => .error .malformedLabel
  | .aaaa =>
    match Ipv6Addr.fromStr record.value with
    | some addr => .ok addr.octets.toList
    | none => .error .malformedLabel
  | .cname | .ns => do
    let target ← (DomainName.new record.value).mapError .invalidDomain
    return encodeDomainLabels target
  | .mx => do
    let (preference, exchange) := mailExchange record.value
    let target ← (DomainName.new exchange).mapError .invalidDomain
    return preference.toBeBytes ++ encodeDomainLabels target
  | .txt =>
    .ok ((record.value.asBytes.chunks 255).flatMap fun chunk =>
      UInt8.ofNat chunk.length :: chunk)

/-- One answer: a record whose data cannot be encoded has none. -/
def encodeAnswer (query : DnsQuery) (record : Record) : Option (List UInt8) :=
  match encodeRdata record with
  | .error _ => none
  | .ok rdata =>
    some (encodeDomainLabels query.domain ++ (recordTypeCode record.recordType).toBeBytes ++
      CLASS_IN.toBeBytes ++ record.ttlSecs.toBeBytes ++
      (UInt32.ofNat rdata.length).toBeBytes ++ rdata)

/-- `build_response`. -/
def buildResponse (query : DnsQuery) (domainExists : Bool) (matching : List Record) :
    List UInt8 :=
  let rcode : UInt16 := if !domainExists then RCODE_NXDOMAIN else 0
  let flags : UInt16 := 0x8400 ||| rcode
  let answers := matching.filterMap (encodeAnswer query)
  query.id.toBeBytes ++ flags.toBeBytes ++ (1 : UInt16).toBeBytes ++
    (UInt16.ofNat answers.length).toBeBytes ++ (0 : UInt16).toBeBytes ++ (0 : UInt16).toBeBytes ++
    encodeDomainLabels query.domain ++ query.qtype.toBeBytes ++ query.qclass.toBeBytes ++
    answers.flatten

/-- `build_error_response`. -/
def buildErrorResponse (id : UInt16) (rcode : UInt16) : List UInt8 :=
  id.toBeBytes ++ ((0x8000 : UInt16) ||| rcode).toBeBytes ++ List.replicate 8 0

/-- `record_matches_qtype`. -/
def recordMatchesQtype (record : Record) (qtype : UInt16) : Bool :=
  qtype == QTYPE_ANY || recordTypeCode record.recordType == qtype

end Binda
