import Binda.Lib.Address
import Binda.Lib.Lossy
import Binda.Lib.Text

/-!
# Forward-confirmed reverse DNS

`fcrdns.rs`: the query a node sends to a public resolver, and what it reads from the
reply.  Names on this wire are those of classic DNS: labels behind a length of one byte,
closed by the length zero or by a pointer to the rest of the name elsewhere in the message.

`readName` follows pointers by rounds of one loop, `readNameRound`; it ends because a round
that follows no pointer moves ahead in the message and only 32 pointers are followed.  A
resolver is a parameter: what comes back for the bytes sent to it, if anything does.
`isForwardConfirmed_iff` says which two directions have to agree for a name to be confirmed.
-/

namespace Binda.Fcrdns

/-- `TYPE_A`. -/
def TYPE_A : UInt16 := 1

/-- `TYPE_PTR`. -/
def TYPE_PTR : UInt16 := 12

/-- `TYPE_AAAA`. -/
def TYPE_AAAA : UInt16 := 28

/-- `CLASS_IN`. -/
def CLASS_IN : UInt16 := 1

/-- `normalize`. -/
def normalize (hostname : String) : String := toAsciiLowercase (trimEndMatches '.' hostname)

/-! ### The query -/

/-- The labels of a name that `encode_query` writes: those between the dots that are not
empty. -/
def queryLabels (name : String) : List String :=
  ((name.toList.splitOn '.').map String.ofList).filter fun label => !label.isEmpty

/-- One label on the wire: its length cut to one byte, and its bytes. -/
def encodeLabel (label : String) : List UInt8 :=
  UInt8.ofNat label.asBytes.length :: label.asBytes

/-- The twelve bytes in front of the question. -/
def queryHeader (id : UInt16) : List UInt8 :=
  id.toBeBytes ++ (0x0100 : UInt16).toBeBytes ++ (1 : UInt16).toBeBytes ++ List.replicate 6 0

/-- `encode_query`. -/
def encodeQuery (id : UInt16) (name : String) (qtype : UInt16) : List UInt8 :=
  queryHeader id ++ (queryLabels name).flatMap encodeLabel ++ [0] ++ qtype.toBeBytes ++
    CLASS_IN.toBeBytes

/-! ### Reading a name -/

/-- Where the loop of `read_name` stands. -/
structure NameState where
  labels : List String
  pos : Nat
  endPos : Option Nat
  jumps : Nat
  deriving DecidableEq, Repr

/-- What one round of the loop comes to. -/
inductive NameRound
  | failed
  | finished (name : String × Nat)
  | next (s : NameState)
  deriving DecidableEq, Repr

/-- `len & 0xC0 == 0xC0`: the byte starts a pointer. -/
def isPointer (len : UInt8) : Bool := len &&& 0xC0 == 0xC0

/-- Where a pointer leads. -/
def pointerTarget (len second : UInt8) : Nat :=
  ((len.toNat &&& 0x3F) <<< 8) ||| second.toNat

/-- One round of the loop of `read_name`. -/
def readNameRound (buf : List UInt8) (s : NameState) : NameRound :=
  match buf[s.pos]? with
  | none => .failed
  | some len =>
    if len = 0 then
      .finished (".".intercalate s.labels, (s.endPos.or (some (s.pos + 1))).getD s.pos)
    else if isPointer len then
      match buf[s.pos + 1]? with
      | none => .failed
      | some second =>
        if 32 < s.jumps + 1 then .failed
        else .next { s with
          pos := pointerTarget len second
          endPos := s.endPos.or (some (s.pos + 2))
          jumps := s.jumps + 1 }
    else
      match buf.getRange? (s.pos + 1) (s.pos + 1 + len.toNat) with
      | none => .failed
      | some label => .next { s with
          labels := s.labels ++ [String.fromUtf8Lossy label]
          pos := s.pos + 1 + len.toNat }

/-- The two ways on: behind a label, or at the target of a pointer. -/
theorem readNameRound_eq_next {buf : List UInt8} {s t : NameState}
    (h : readNameRound buf s = .next t) :
    (∃ len label, buf[s.pos]? = some len ∧ len ≠ 0 ∧ isPointer len = false ∧
        buf.getRange? (s.pos + 1) (s.pos + 1 + len.toNat) = some label ∧
        t = { s with
          labels := s.labels ++ [String.fromUtf8Lossy label]
          pos := s.pos + 1 + len.toNat }) ∨
      ∃ len second, buf[s.pos]? = some len ∧ len ≠ 0 ∧ isPointer len = true ∧
        buf[s.pos + 1]? = some second ∧ s.jumps < 32 ∧
        t = { s with
          pos := pointerTarget len second
          endPos := s.endPos.or (some (s.pos + 2))
          jumps := s.jumps + 1 } := by
  rw [readNameRound] at h
  split at h
  · cases h
  rename_i len hlen
  by_cases hzero : len = 0
  · rw [if_pos hzero] at h
    cases h
  rw [if_neg hzero] at h
  by_cases hptr : isPointer len = true
  · rw [if_pos hptr] at h
    split at h
    · cases h
    rename_i second hsecond
    by_cases hjumps : 32 < s.jumps + 1
    · rw [if_pos hjumps] at h
      cases h
    · rw [if_neg hjumps] at h
      exact Or.inr ⟨len, second, hlen, hzero, hptr, hsecond, by omega, (NameRound.next.inj h).symm⟩
  · rw [if_neg hptr] at h
    split at h
    · cases h
    rename_i label hlabel
    exact Or.inl ⟨len, label, hlen, hzero, Bool.eq_false_iff.mpr hptr, hlabel,
      (NameRound.next.inj h).symm⟩


/-- The one way to finish: at the length zero. -/
theorem readNameRound_eq_finished {buf : List UInt8} {s : NameState} {name : String × Nat}
    (h : readNameRound buf s = .finished name) :
    buf[s.pos]? = some 0 ∧ name = (".".intercalate s.labels, s.endPos.getD (s.pos + 1)) := by
  rw [readNameRound] at h
  split at h
  · cases h
  rename_i len hlen
  by_cases hzero : len = 0
  · rw [if_pos hzero] at h
    refine ⟨by rw [hlen, hzero], ?_⟩
    rw [← NameRound.finished.inj h]
    cases s.endPos <;> rfl
  rw [if_neg hzero] at h
  by_cases hptr : isPointer len = true
  · rw [if_pos hptr] at h
    split at h
    · cases h
    · split at h <;> cases h
  · rw [if_neg hptr] at h
    split at h <;> cases h

/-- What is left for the loop to do: the pointers it may still follow, and then the bytes
behind it, as one number. -/
def NameState.remaining (buf : List UInt8) (s : NameState) : Nat :=
  (32 - s.jumps) * (buf.length + 1) + (buf.length - s.pos)

/-- **Every round that goes on leaves less to do.**  A pointer may lead back, but one fewer
is left to follow. -/
theorem remaining_lt {buf : List UInt8} {s t : NameState} (h : readNameRound buf s = .next t) :
    t.remaining buf < s.remaining buf := by
  rcases readNameRound_eq_next h with ⟨_, _, hlen, _, _, _, rfl⟩ | ⟨_, _, _, _, _, _, hj, rfl⟩
  · obtain ⟨hlt, -⟩ := List.getElem?_eq_some_iff.mp hlen
    simp only [NameState.remaining]
    omega
  · have hsplit : (32 - s.jumps) * (buf.length + 1) =
        (32 - (s.jumps + 1)) * (buf.length + 1) + (buf.length + 1) := by
      rw [← Nat.succ_mul]
      congr 1
      omega
    simp only [NameState.remaining, hsplit]
    omega

/-- The loop of `read_name`, from the round at `s` on. -/
def readNameFrom (buf : List UInt8) (s : NameState) : Option (String × Nat) :=
  match _hround : readNameRound buf s with
  | .failed => none
  | .finished name => some name
  | .next t => readNameFrom buf t
termination_by s.remaining buf
decreasing_by exact remaining_lt _hround

/-- Where the loop starts. -/
def NameState.start (pos : Nat) : NameState where
  labels := []
  pos := pos
  endPos := none
  jumps := 0

/-- `read_name`. -/
def readName (buf : List UInt8) (start : Nat) : Option (String × Nat) :=
  readNameFrom buf (.start start)

/-- The loop goes on with the state its round leaves. -/
theorem readNameFrom_eq (buf : List UInt8) (s : NameState) :
    readNameFrom buf s =
      match readNameRound buf s with
      | .failed => none
      | .finished name => some name
      | .next t => readNameFrom buf t := by
  rw [readNameFrom]
  split
  · rename_i h
    rw [h]
  · rename_i name h
    rw [h]
  · rename_i t h
    rw [h]

/-! ### Reading a response -/

/-- `u16::from_be_bytes(*buf.get(pos..pos + 2)?.first_chunk()?)`. -/
def readU16 (buf : List UInt8) (pos : Nat) : Option UInt16 :=
  (buf.getRange? pos (pos + 2)).map UInt16.ofBeBytes

/-- The two bytes of the header at `i`, read behind the check of its length. -/
def headerWord (buf : List UInt8) (i : Nat) : UInt16 :=
  UInt16.ofBeBytes [buf.getD i 0, buf.getD (i + 1) 0]

/-- The loop over the questions: the position behind the last. -/
def skipQuestions (buf : List UInt8) : Nat → Nat → Option Nat
  | 0, pos => some pos
  | n + 1, pos =>
    match readName buf pos with
    | none => none
    | some (_, next) => skipQuestions buf n (next + 4)

/-- One round of the loop over the answers: the type and the data of the record at `pos`,
and the position behind it, which its length says. -/
def readAnswer (buf : List UInt8) (pos : Nat) : Option ((UInt16 × List UInt8) × Nat) := do
  let (_, next) ← readName buf pos
  let rtype ← readU16 buf next
  let rdlength ← readU16 buf (next + 8)
  let rdataStart := next + 10
  let data ←
    if rtype = TYPE_PTR then (readName buf rdataStart).map fun (name, _) => name.asBytes
    else buf.getRange? rdataStart (rdataStart + rdlength.toNat)
  return ((rtype, data), rdataStart + rdlength.toNat)

/-- The loop over the answers. -/
def readAnswers (buf : List UInt8) :
    Nat → Nat → List (UInt16 × List UInt8) → Option (List (UInt16 × List UInt8))
  | 0, _, answers => some answers
  | n + 1, pos, answers =>
    match readAnswer buf pos with
    | none => none
    | some (answer, next) => readAnswers buf n next (answers ++ [answer])

/-- `parse_response`. -/
def parseResponse (buf : List UInt8) (expectedId : UInt16) :
    Option (List (UInt16 × List UInt8)) :=
  if buf.length < 12 then none
  else if headerWord buf 0 ≠ expectedId then none
  else
    let flags := headerWord buf 2
    let qr := (flags >>> 15) &&& 1
    let rcode := flags &&& 0x000F
    if qr ≠ 1 ∨ rcode ≠ 0 then some []
    else
      match skipQuestions buf (headerWord buf 4).toNat 12 with
      | none => none
      | some pos => readAnswers buf (headerWord buf 6).toNat pos []

/-! ### The check -/

/-- `IpAddr`. -/
inductive IpAddr
  | v4 (addr : Ipv4Addr)
  | v6 (addr : Ipv6Addr)
  deriving DecidableEq

/-- `parse_a`. -/
def parseA (data : List UInt8) : Option IpAddr := (Vector.ofBytes? 4 data).map fun o => .v4 ⟨o⟩

/-- `parse_aaaa`. -/
def parseAaaa (data : List UInt8) : Option IpAddr :=
  (Vector.ofBytes? 16 data).map fun o => .v6 ⟨o⟩

/-- `ptr_query_name`. -/
def ptrQueryName : IpAddr → String
  | .v4 addr =>
    let o := addr.octets
    s!"{o[3].toNat}.{o[2].toNat}.{o[1].toNat}.{o[0].toNat}.in-addr.arpa"
  | .v6 addr =>
    let nibbles := addr.octets.toList.reverse.flatMap fun byte : UInt8 =>
      [hexDigit (byte &&& 0x0F).toNat, '.', hexDigit (byte >>> 4).toNat, '.']
    String.ofList nibbles ++ "ip6.arpa"

/-- `send_and_receive` to one resolver: what came back for the bytes sent, if anything did. -/
abbrev Resolver := List UInt8 → Option (List UInt8)

/-- `query`, with the identifier it draws. -/
def query (id : UInt16) (name : String) (qtype : UInt16) (resolvers : List Resolver) :
    Option (List (UInt16 × List UInt8)) :=
  resolvers.findSome? fun resolver =>
    (resolver (encodeQuery id name qtype)).bind fun response => parseResponse response id

/-- `reverse_lookup`. -/
def reverseLookup (id : UInt16) (ip : IpAddr) (resolvers : List Resolver) :
    Option (List String) :=
  (query id (ptrQueryName ip) TYPE_PTR resolvers).map fun response =>
    response.filterMap fun (rtype, data) =>
      if rtype = TYPE_PTR then String.ofBytes? data else none

/-- `forward_lookup`: what the two queries yield, of the type asked for. -/
def forwardLookup (idA idAaaa : UInt16) (hostname : String) (resolvers : List Resolver) :
    List IpAddr :=
  [(idA, TYPE_A, parseA), (idAaaa, TYPE_AAAA, parseAaaa)].flatMap fun (id, qtype, parse) =>
    ((query id hostname qtype resolvers).getD []).filterMap fun (rtype, data) =>
      if rtype = qtype then parse data else none

/-- `is_forward_confirmed`, with the identifiers its three queries draw. -/
def isForwardConfirmed (id idA idAaaa : UInt16) (sourceIp : IpAddr) (claimedRdns : String)
    (resolvers : List Resolver) : Bool :=
  let claimed := normalize claimedRdns
  match reverseLookup id sourceIp resolvers with
  | none => false
  | some ptrNames =>
    if !ptrNames.any fun name => normalize name == claimed then false
    else (forwardLookup idA idAaaa claimedRdns resolvers).contains sourceIp

/-- An answer is what one of the resolvers replied. -/
theorem exists_reply_of_query {id : UInt16} {name : String} {qtype : UInt16}
    {resolvers : List Resolver} {answers : List (UInt16 × List UInt8)}
    (h : query id name qtype resolvers = some answers) :
    ∃ resolver ∈ resolvers, ∃ response, resolver (encodeQuery id name qtype) = some response ∧
      parseResponse response id = some answers := by
  obtain ⟨resolver, hmem, hanswers⟩ := List.exists_of_findSome?_eq_some h
  obtain ⟨response, hresponse, hparse⟩ := Option.bind_eq_some_iff.mp hanswers
  exact ⟨resolver, hmem, response, hresponse, hparse⟩

/-- The two directions that have to agree. -/
theorem isForwardConfirmed_iff {id idA idAaaa : UInt16} {sourceIp : IpAddr} {claimedRdns : String}
    {resolvers : List Resolver} :
    isForwardConfirmed id idA idAaaa sourceIp claimedRdns resolvers = true ↔
      (∃ ptrNames, reverseLookup id sourceIp resolvers = some ptrNames ∧
        ∃ name ∈ ptrNames, normalize name = normalize claimedRdns) ∧
      sourceIp ∈ forwardLookup idA idAaaa claimedRdns resolvers := by
  rw [isForwardConfirmed]
  cases reverseLookup id sourceIp resolvers with
  | none => simp
  | some ptrNames =>
    cases hany : ptrNames.any fun name => normalize name == normalize claimedRdns with
    | false =>
      have hnone : ¬ ∃ name ∈ ptrNames, normalize name = normalize claimedRdns := by
        simpa using hany
      simp [hany, hnone]
    | true =>
      have hsome : ∃ name ∈ ptrNames, normalize name = normalize claimedRdns := by
        simpa using hany
      simp [hany, hsome]

end Binda.Fcrdns
