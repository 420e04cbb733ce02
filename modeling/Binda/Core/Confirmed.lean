import Binda.Core.Compression
import Binda.Lib.PrefixCode

/-!
# What a confirmation is worth

`is_forward_confirmed` beside what the DNS says (`Zone`): which hosts are listed under the name
of an address, and which addresses under the name of a host.  A resolver is honest if every
reply it gives to a standard query is a message of the grammar with the data of the zone, or
says that there is no such name; how it compresses names, and what it adds, is left open.

* `confirms_of_isForwardConfirmed`: on honest replies only what the zone confirms is confirmed.
* `confirmed_iff`: if to each query some resolver replies, exactly that is.
-/

namespace Binda.Fcrdns

variable {buf : List UInt8}

/-! ### Names -/

/-- A label that a name server knows: not empty, and of at most 63 bytes. -/
structure DnsLabel where
  bytes : List UInt8
  ne_nil : bytes ≠ []
  short : bytes.length < 64
  deriving DecidableEq

namespace DnsLabel

theorem eq_of_bytes : Function.Injective bytes := by
  rintro ⟨a, _, _⟩ ⟨b, _, _⟩ h
  obtain rfl : a = b := h
  rfl

/-- A label on the wire. -/
def encode (label : DnsLabel) : List UInt8 := UInt8.ofNat label.bytes.length :: label.bytes

theorem toNat_length (label : DnsLabel) :
    (UInt8.ofNat label.bytes.length).toNat = label.bytes.length := by
  have hshort := label.short
  rw [UInt8.toNat_ofNat']
  omega

theorem length_ne_zero (label : DnsLabel) : UInt8.ofNat label.bytes.length ≠ 0 := by
  intro h
  have hlen := label.toNat_length
  have hpos := List.length_pos_of_ne_nil label.ne_nil
  rw [h] at hlen
  have : (0 : UInt8).toNat = 0 := rfl
  omega

theorem prefixCode_encode : PrefixCode encode := by
  intro a b u v h
  obtain ⟨hlen, hrest⟩ := List.cons.inj h
  have hnat := congrArg UInt8.toNat hlen
  rw [a.toNat_length, b.toNat_length] at hnat
  obtain ⟨hbytes, hu⟩ := List.append_inj hrest hnat
  exact ⟨eq_of_bytes hbytes, hu⟩

end DnsLabel

/-- A name on the wire, without pointers. -/
def encodeName (name : List DnsLabel) : List UInt8 := name.flatMap DnsLabel.encode ++ [0]

theorem prefixCode_encodeName : PrefixCode encodeName :=
  DnsLabel.prefixCode_encode.list_until fun label => ⟨_, _, rfl, label.length_ne_zero⟩

/-- The query for the data of a name. -/
def standardQuery (id : UInt16) (name : List DnsLabel) (qtype : UInt16) : List UInt8 :=
  queryHeader id ++ encodeName name ++ qtype.toBeBytes ++ CLASS_IN.toBeBytes

/-- The text is the name, dots between its labels. -/
def Spells (name : List DnsLabel) (text : String) : Prop :=
  name.map DnsLabel.bytes = (queryLabels text).map String.asBytes

/-- **The query for a text that spells a name is the standard one.** -/
theorem encodeQuery_eq {name : List DnsLabel} {text : String} (h : Spells name text)
    (id qtype : UInt16) : encodeQuery id text qtype = standardQuery id name qtype := by
  have hlabels : (queryLabels text).flatMap encodeLabel = name.flatMap DnsLabel.encode := by
    have hbytes := congrArg (List.flatMap fun l : List UInt8 => UInt8.ofNat l.length :: l) h
    rw [List.flatMap_map, List.flatMap_map] at hbytes
    exact hbytes.symm
  rw [encodeQuery, standardQuery, hlabels, encodeName, ← List.append_assoc]

/-- A name that stands in the message without pointers. -/
theorem nameAt_encodeName {name : List DnsLabel} {pos : Nat} {rest : List UInt8}
    (h : buf.drop pos = encodeName name ++ rest) :
    NameAt buf pos (name.map DnsLabel.bytes) 0 ∧
      nameEnd? buf pos = some (pos + (encodeName name).length) := by
  induction name generalizing pos with
  | nil =>
    have hzero : buf[pos]? = some 0 := getElem?_of_drop h
    exact ⟨.root hzero, nameEnd?_zero hzero⟩
  | cons label name ih =>
    have hsplit : encodeName (label :: name) = label.encode ++ encodeName name := by
      rw [encodeName, List.flatMap_cons, List.append_assoc]
      rfl
    rw [hsplit, List.append_assoc, DnsLabel.encode, List.cons_append] at h
    have hlen := label.toNat_length
    have hptr : isPointer (UInt8.ofNat label.bytes.length) = false := by
      have hshort := label.short
      rw [isPointer_eq_false_iff]
      omega
    have hdrop : buf.drop (pos + 1) = label.bytes ++ (encodeName name ++ rest) := by
      rw [← List.drop_drop, h, List.drop_one, List.tail_cons]
    have hnext : buf.drop (pos + 1 + label.bytes.length) = encodeName name ++ rest := by
      rw [← List.drop_drop, hdrop, List.drop_left]
    have hrange : buf.getRange? (pos + 1) (pos + 1 + label.bytes.length) = some label.bytes :=
      (List.getRange?_eq_some (List.length_pos_of_ne_nil label.ne_nil)).mpr ⟨rfl, _, hdrop⟩
    have hin : pos + 1 + label.bytes.length ≤ buf.length := by
      have hcount := congrArg List.length hdrop
      rw [List.length_drop, List.length_append] at hcount
      have hpos := List.length_pos_of_ne_nil label.ne_nil
      omega
    obtain ⟨hname, hends⟩ := ih hnext
    rw [← hlen] at hname hends hrange hin
    refine ⟨.label (getElem?_of_drop h) label.length_ne_zero hptr hrange hname, ?_⟩
    rw [nameEnd?_label (getElem?_of_drop h) label.length_ne_zero hptr hin, hends, hlen, hsplit,
      List.length_append, DnsLabel.encode, List.length_cons]
    congr 1
    omega

theorem hostAt_encodeName {name : List DnsLabel} {pos : Nat} {rest : List UInt8}
    (h : buf.drop pos = encodeName name ++ rest) :
    HostAt buf pos (name.map DnsLabel.bytes) (pos + (encodeName name).length) := by
  obtain ⟨hname, hends⟩ := nameAt_encodeName h
  exact ⟨⟨0, Nat.zero_le 32, hname⟩, hends⟩

/-! ### The name of an address -/

/-- A byte as a label, in decimal. -/
def decimalLabel (b : UInt8) : DnsLabel where
  bytes := (toString b.toNat).asBytes
  ne_nil := by
    have key : ∀ n : Fin 256, (toString n.val).asBytes ≠ [] := by decide +kernel
    exact key ⟨b.toNat, b.toNat_lt⟩
  short := by
    have key : ∀ n : Fin 256, (toString n.val).asBytes.length < 64 := by decide +kernel
    exact key ⟨b.toNat, b.toNat_lt⟩

/-- A label of one hexadecimal digit. -/
def nibbleLabel (n : Fin 16) : DnsLabel where
  bytes := (String.ofList [hexDigit n]).asBytes
  ne_nil := by revert n; decide +kernel
  short := by revert n; decide +kernel

/-- The name under which the hosts of an address are listed. -/
def addressName : IpAddr → List DnsLabel
  | .v4 addr => addr.octets.toList.reverse.map decimalLabel ++
      [⟨"in-addr".asBytes, by decide, by decide⟩, ⟨"arpa".asBytes, by decide, by decide⟩]
  | .v6 addr => addr.octets.toList.reverse.flatMap (fun b =>
        [nibbleLabel (Fin.ofNat 16 b.toNat), nibbleLabel (Fin.ofNat 16 (b.toNat / 16))]) ++
      [⟨"ip6".asBytes, by decide, by decide⟩, ⟨"arpa".asBytes, by decide, by decide⟩]

/-- Parts behind each of which stands a dot. -/
theorem queryLabels_dotted {parts : List (List Char)} (rest : String)
    (h : ∀ part ∈ parts, part ≠ [] ∧ '.' ∉ part) :
    queryLabels (String.ofList (parts.flatMap (fun part => part ++ ['.']) ++ rest.toList)) =
      parts.map String.ofList ++ queryLabels rest := by
  induction parts with
  | nil =>
    rw [List.flatMap_nil, List.nil_append, String.ofList_toList, List.map_nil, List.nil_append]
  | cons part parts ih =>
    obtain ⟨⟨hne, hdot⟩, hparts⟩ := List.forall_mem_cons.mp h
    have hkeep : (!(String.ofList part).isEmpty) = true := by
      rw [Bool.not_eq_true', ← Bool.not_eq_true, String.isEmpty_iff]
      intro he
      exact hne (by simpa using congrArg String.toList he)
    rw [List.flatMap_cons, List.append_assoc, List.append_assoc, List.singleton_append, queryLabels,
      String.toList_ofList, List.splitOn_append_cons_self_of_not_mem hdot, List.map_cons,
      List.filter_cons, if_pos hkeep, List.map_cons, List.cons_append, ← ih hparts, queryLabels,
      String.toList_ofList]

/-- A name that is written part by part. -/
theorem spells_dotted {parts : List DnsLabel} {texts : List String} {suffix : List DnsLabel}
    {rest : String} (hparts : parts.map DnsLabel.bytes = texts.map String.asBytes)
    (htexts : ∀ text ∈ texts, text.toList ≠ [] ∧ '.' ∉ text.toList) (hrest : Spells suffix rest) :
    Spells (parts ++ suffix) (String.ofList
      ((texts.map String.toList).flatMap (fun part => part ++ ['.']) ++ rest.toList)) := by
  have hdots : ∀ part ∈ texts.map String.toList, part ≠ [] ∧ '.' ∉ part := by
    intro part hpart
    obtain ⟨text, htext, rfl⟩ := List.mem_map.mp hpart
    exact htexts text htext
  have hid : String.ofList ∘ String.toList = id := funext fun text => String.ofList_toList
  rw [Spells, queryLabels_dotted rest hdots, List.map_map, hid, List.map_id, List.map_append,
    List.map_append, hparts, hrest]

/-- **An address is looked up under its name.** -/
theorem spells_addressName (ip : IpAddr) : Spells (addressName ip) (ptrQueryName ip) := by
  cases ip with
  | v4 addr =>
    have hdecimal : ∀ n : Fin 256,
        (toString n.val).toList ≠ [] ∧ '.' ∉ (toString n.val).toList := by decide +kernel
    have htext : ptrQueryName (.v4 addr) = String.ofList
        (((addr.octets.toList.reverse.map fun o : UInt8 => toString o.toNat).map
          String.toList).flatMap (fun part => part ++ ['.']) ++ "in-addr.arpa".toList) := by
      obtain ⟨⟨⟨l⟩, hl⟩⟩ := addr
      match l, hl with
      | [a, b, c, d], _ =>
        apply String.toList_injective
        rw [String.toList_ofList]
        simp [ptrQueryName]
        rfl
    rw [htext]
    refine spells_dotted ?_ ?_ (by rw [Spells]; decide +kernel)
    · rw [List.map_map, List.map_map]
      rfl
    · intro text htext
      obtain ⟨o, -, rfl⟩ := List.mem_map.mp htext
      exact hdecimal ⟨o.toNat, o.toNat_lt⟩
  | v6 addr =>
    have hdigit : ∀ n : Fin 16, '.' ∉ [hexDigit n] := by decide
    have hnibbles : ∀ b : Fin 256, (UInt8.ofNat b &&& 0x0F).toNat = b % 16 ∧
        (UInt8.ofNat b >>> 4).toNat = b / 16 := by decide +kernel
    have htext : ptrQueryName (.v6 addr) = String.ofList
        (((addr.octets.toList.reverse.flatMap fun b : UInt8 =>
          [String.ofList [hexDigit (Fin.ofNat 16 b.toNat)],
            String.ofList [hexDigit (Fin.ofNat 16 (b.toNat / 16))]]).map
          String.toList).flatMap (fun part => part ++ ['.']) ++ "ip6.arpa".toList) := by
      apply String.toList_injective
      rw [String.toList_ofList, ptrQueryName, String.toList_append, String.toList_ofList,
        List.map_flatMap, List.flatMap_assoc]
      congr 2
      funext b
      obtain ⟨hlow, hhigh⟩ := hnibbles ⟨b.toNat, b.toNat_lt⟩
      rw [UInt8.ofNat_toNat] at hlow hhigh
      rw [hlow, hhigh]
      have hlt : b.toNat / 16 % 16 = b.toNat / 16 := Nat.mod_eq_of_lt (by have := b.toNat_lt; omega)
      simp [Fin.ofNat, hlt]
    rw [htext]
    refine spells_dotted ?_ ?_ (by rw [Spells]; decide +kernel)
    · rw [List.map_flatMap, List.map_flatMap]
      rfl
    · intro text htext
      obtain ⟨b, -, hmem⟩ := List.mem_flatMap.mp htext
      simp only [List.mem_cons, List.not_mem_nil, or_false] at hmem
      rcases hmem with rfl | rfl
      · rw [String.toList_ofList]
        exact ⟨List.cons_ne_nil _ _, hdigit _⟩
      · rw [String.toList_ofList]
        exact ⟨List.cons_ne_nil _ _, hdigit _⟩

/-! ### What the DNS says -/

/-- The data of the names: the hosts of an address, and the addresses of a host. -/
structure Zone where
  hosts : List DnsLabel → List (List DnsLabel)
  v4 : List DnsLabel → List Ipv4Addr
  v6 : List DnsLabel → List Ipv6Addr

namespace Zone

variable {zone : Zone}

/-- A name as the text a reader makes of it. -/
def text (name : List DnsLabel) : String := hostName (name.map DnsLabel.bytes)

/-- What a name has of a type, as `parse_response` returns it. -/
def data (zone : Zone) (name : List DnsLabel) (qtype : UInt16) : List (List UInt8) :=
  if qtype = TYPE_PTR then (zone.hosts name).map fun host => (text host).asBytes
  else if qtype = TYPE_A then (zone.v4 name).map fun addr => addr.octets.toList
  else if qtype = TYPE_AAAA then (zone.v6 name).map fun addr => addr.octets.toList
  else []

/-- The address is one of the name. -/
def HasAddress (zone : Zone) (name : List DnsLabel) : IpAddr → Prop
  | .v4 addr => addr ∈ zone.v4 name
  | .v6 addr => addr ∈ zone.v6 name

/-- The host is listed for the address, up to case and a final dot. -/
def Lists (zone : Zone) (ip : IpAddr) (claimed : String) : Prop :=
  ∃ host ∈ zone.hosts (addressName ip), normalize (text host) = normalize claimed

/-- **The two directions agree**: the host is listed for the address, and the address for the
host. -/
structure Confirms (zone : Zone) (ip : IpAddr) (claimed : String) (name : List DnsLabel) :
    Prop where
  reverse : zone.Lists ip claimed
  forward : zone.HasAddress name ip

end Zone

/-- The data of the answers that are of a type. -/
def ofType (answers : List (UInt16 × List UInt8)) (qtype : UInt16) : List (List UInt8) :=
  answers.filterMap fun answer => if answer.1 = qtype then some answer.2 else none

/-- The reply to a query for this data: a message with it, and whatever else, or one that says
that there is no such name. -/
inductive Tells (zone : Zone) (reply : List UInt8) (id : UInt16) (name : List DnsLabel)
    (qtype : UInt16) : Prop
  | answers {answers : List (UInt16 × List UInt8)} (message : Message reply id answers)
      (same : ofType answers qtype = zone.data name qtype)
  | noName (long : 12 ≤ reply.length) (identifier : headerWord reply 0 = id)
      (isReply : (headerWord reply 2 >>> 15) &&& 1 = 1) (rcode : headerWord reply 2 &&& 0x000F = 3)
      (empty : zone.data name qtype = [])

/-- The resolver gives no reply to a standard query that is not true to the zone. -/
def Honest (zone : Zone) (resolver : Resolver) : Prop :=
  ∀ id name qtype reply, resolver (standardQuery id name qtype) = some reply →
    Tells zone reply id name qtype

/-- To each standard query some resolver replies. -/
def Available (resolvers : List Resolver) : Prop :=
  ∀ id name qtype, ∃ resolver ∈ resolvers, (resolver (standardQuery id name qtype)).isSome

/-! ### The check -/

variable {zone : Zone} {resolvers : List Resolver}

/-- What is read of a reply that is true to the zone. -/
theorem Tells.parseResponse {reply : List UInt8} {id qtype : UInt16} {name : List DnsLabel}
    (h : Tells zone reply id name qtype) :
    ∃ answers, Fcrdns.parseResponse reply id = some answers ∧
      ofType answers qtype = zone.data name qtype := by
  cases h with
  | answers message same => exact ⟨_, message.parseResponse, same⟩
  | noName long identifier isReply rcode empty =>
    refine ⟨[], ?_, empty.symm⟩
    rw [Fcrdns.parseResponse, if_neg (Nat.not_lt.mpr long), if_neg (not_not.mpr identifier)]
    dsimp only
    rw [if_pos (Or.inr (by rw [rcode]; decide))]

/-- **What a query to honest resolvers yields** is what the zone has. -/
theorem data_of_query {name : List DnsLabel} {text : String} {id qtype : UInt16}
    {answers : List (UInt16 × List UInt8)} (hhonest : ∀ resolver ∈ resolvers, Honest zone resolver)
    (hname : Spells name text) (h : query id text qtype resolvers = some answers) :
    ofType answers qtype = zone.data name qtype := by
  obtain ⟨resolver, hmem, reply, hreply, hparse⟩ := exists_reply_of_query h
  rw [encodeQuery_eq hname] at hreply
  obtain ⟨answers', hparse', hsame⟩ :=
    (hhonest resolver hmem id name qtype reply hreply).parseResponse
  rw [hparse] at hparse'
  rw [Option.some.inj hparse']
  exact hsame

/-- A query to which some resolver replies yields something. -/
theorem exists_query {name : List DnsLabel} {text : String} (id qtype : UInt16)
    (hhonest : ∀ resolver ∈ resolvers, Honest zone resolver) (hname : Spells name text)
    (havailable : Available resolvers) :
    ∃ answers, query id text qtype resolvers = some answers := by
  obtain ⟨resolver, hmem, hsome⟩ := havailable id name qtype
  obtain ⟨reply, hreply⟩ := Option.isSome_iff_exists.mp hsome
  obtain ⟨answers, hparse, -⟩ := (hhonest resolver hmem id name qtype reply hreply).parseResponse
  rw [← Option.isSome_iff_exists, query, List.isSome_findSome?, List.any_eq_true]
  refine ⟨resolver, hmem, ?_⟩
  rw [encodeQuery_eq hname, hreply, Option.bind_some, hparse]
  rfl

/-- A pass over the answers that looks at those of one type. -/
theorem filterMap_ofType {α : Type} {answers : List (UInt16 × List UInt8)} {qtype : UInt16}
    {parse : List UInt8 → Option α} {f : UInt16 × List UInt8 → Option α}
    (hf : ∀ rtype data, f (rtype, data) = if rtype = qtype then parse data else none) :
    answers.filterMap f = (ofType answers qtype).filterMap parse := by
  rw [ofType, List.filterMap_filterMap]
  congr 1
  funext answer
  obtain ⟨rtype, data⟩ := answer
  rw [hf]
  by_cases htype : rtype = qtype
  · rw [if_pos htype, if_pos htype, Option.bind_some]
  · rw [if_neg htype, if_neg htype, Option.bind_none]

/-- The hosts that are read for an address. -/
theorem filterMap_hosts (hosts : List (List DnsLabel)) :
    (hosts.map fun host => (Zone.text host).asBytes).filterMap String.ofBytes? =
      hosts.map Zone.text := by
  rw [List.filterMap_map, ← List.filterMap_eq_map]
  congr 1
  funext host
  exact String.ofBytes?_asBytes _

theorem parseA_octets (addr : Ipv4Addr) : parseA addr.octets.toList = some (.v4 addr) := by
  rw [parseA, Vector.ofBytes?_eq_some.mpr rfl]
  rfl

theorem parseAaaa_octets (addr : Ipv6Addr) : parseAaaa addr.octets.toList = some (.v6 addr) := by
  rw [parseAaaa, Vector.ofBytes?_eq_some.mpr rfl]
  rfl

/-- The addresses that are read for a host. -/
theorem mem_addresses_iff {name : List DnsLabel} {ip : IpAddr} :
    ip ∈ (zone.data name TYPE_A).filterMap parseA ∨
        ip ∈ (zone.data name TYPE_AAAA).filterMap parseAaaa ↔ zone.HasAddress name ip := by
  have ha : zone.data name TYPE_A = (zone.v4 name).map fun addr => addr.octets.toList := by
    rw [Zone.data, if_neg (by decide), if_pos rfl]
  have haaaa : zone.data name TYPE_AAAA = (zone.v6 name).map fun addr => addr.octets.toList := by
    rw [Zone.data, if_neg (by decide), if_neg (by decide), if_pos rfl]
  rw [ha, haaaa, List.filterMap_map, List.filterMap_map]
  simp only [List.mem_filterMap, Function.comp_apply, parseA_octets, parseAaaa_octets,
    Option.some.injEq]
  cases ip with
  | v4 addr =>
    constructor
    · rintro (⟨addr', hmem, he⟩ | ⟨_, _, he⟩)
      · obtain rfl := IpAddr.v4.inj he
        exact hmem
      · cases he
    · exact fun hmem => Or.inl ⟨addr, hmem, rfl⟩
  | v6 addr =>
    constructor
    · rintro (⟨_, _, he⟩ | ⟨addr', hmem, he⟩)
      · cases he
      · obtain rfl := IpAddr.v6.inj he
        exact hmem
    · exact fun hmem => Or.inr ⟨addr, hmem, rfl⟩

variable {id idA idAaaa : UInt16} {ip : IpAddr} {claimed : String} {name : List DnsLabel}

theorem mem_forwardLookup :
    ip ∈ forwardLookup idA idAaaa claimed resolvers ↔
      ip ∈ (ofType ((query idA claimed TYPE_A resolvers).getD []) TYPE_A).filterMap parseA ∨
        ip ∈ (ofType ((query idAaaa claimed TYPE_AAAA resolvers).getD []) TYPE_AAAA).filterMap
          parseAaaa := by
  rw [forwardLookup, List.flatMap_cons, List.flatMap_cons, List.flatMap_nil, List.append_nil,
    List.mem_append]
  dsimp only
  rw [filterMap_ofType fun _ _ => rfl, filterMap_ofType fun _ _ => rfl]

/-- What an unanswered query yields is nothing, and that of an answered one what the zone has. -/
theorem mem_ofType_query {qtype : UInt16} {data : List UInt8}
    (hhonest : ∀ resolver ∈ resolvers, Honest zone resolver) (hname : Spells name claimed)
    (h : data ∈ ofType ((query id claimed qtype resolvers).getD []) qtype) :
    data ∈ zone.data name qtype := by
  cases hquery : query id claimed qtype resolvers with
  | none =>
    rw [hquery] at h
    cases h
  | some answers =>
    rw [hquery, Option.getD_some, data_of_query hhonest hname hquery] at h
    exact h

/-- On honest replies a host is confirmed only if it is listed for the address, whatever its name
looks like. -/
theorem lists_of_isForwardConfirmed (hhonest : ∀ resolver ∈ resolvers, Honest zone resolver)
    (h : isForwardConfirmed id idA idAaaa ip claimed resolvers = true) :
    zone.Lists ip claimed := by
  obtain ⟨⟨ptrNames, hreverse, host, hhost, hsame⟩, -⟩ := isForwardConfirmed_iff.mp h
  obtain ⟨answers, hquery, rfl⟩ := Option.map_eq_some_iff.mp hreverse
  rw [filterMap_ofType fun _ _ => rfl, data_of_query hhonest (spells_addressName ip) hquery,
    Zone.data, if_pos rfl, filterMap_hosts] at hhost
  obtain ⟨host', hmem, rfl⟩ := List.mem_map.mp hhost
  exact ⟨host', hmem, hsame⟩

/-- **On honest replies only what the zone confirms is confirmed.** -/
theorem confirms_of_isForwardConfirmed
    (hhonest : ∀ resolver ∈ resolvers, Honest zone resolver) (hname : Spells name claimed)
    (h : isForwardConfirmed id idA idAaaa ip claimed resolvers = true) :
    zone.Confirms ip claimed name := by
  refine ⟨lists_of_isForwardConfirmed hhonest h, ?_⟩
  have hforward := (isForwardConfirmed_iff.mp h).2
  rw [mem_forwardLookup, List.mem_filterMap, List.mem_filterMap] at hforward
  rw [← mem_addresses_iff, List.mem_filterMap, List.mem_filterMap]
  refine hforward.imp ?_ ?_
  · rintro ⟨data, hdata, hip⟩
    exact ⟨data, mem_ofType_query hhonest hname hdata, hip⟩
  · rintro ⟨data, hdata, hip⟩
    exact ⟨data, mem_ofType_query hhonest hname hdata, hip⟩

/-- And all of it is, if to each query some resolver replies. -/
theorem isForwardConfirmed_of_confirms
    (hhonest : ∀ resolver ∈ resolvers, Honest zone resolver) (havailable : Available resolvers)
    (hname : Spells name claimed) (h : zone.Confirms ip claimed name) :
    isForwardConfirmed id idA idAaaa ip claimed resolvers = true := by
  obtain ⟨⟨host, hhost, hsame⟩, hforward⟩ := h
  refine isForwardConfirmed_iff.mpr ⟨?_, ?_⟩
  · obtain ⟨answers, hquery⟩ :=
      exists_query id TYPE_PTR hhonest (spells_addressName ip) havailable
    refine ⟨zone.hosts (addressName ip) |>.map Zone.text, ?_, Zone.text host,
      List.mem_map_of_mem hhost, hsame⟩
    rw [reverseLookup, hquery, Option.map_some, filterMap_ofType fun _ _ => rfl,
      data_of_query hhonest (spells_addressName ip) hquery, Zone.data, if_pos rfl,
      filterMap_hosts]
  · obtain ⟨answersA, hA⟩ := exists_query idA TYPE_A hhonest hname havailable
    obtain ⟨answersAaaa, hAaaa⟩ := exists_query idAaaa TYPE_AAAA hhonest hname havailable
    rw [mem_forwardLookup, hA, hAaaa, Option.getD_some, Option.getD_some,
      data_of_query hhonest hname hA, data_of_query hhonest hname hAaaa, mem_addresses_iff]
    exact hforward

/-- **What is confirmed is what the DNS says.**  If the resolvers are honest and to each query
some of them replies, a host name of labels that name servers know is confirmed for an
address exactly if the zone lists it for the address and the address for it: whichever
resolver replies, whatever identifiers are drawn, and however the replies are compressed. -/
theorem confirmed_iff (id idA idAaaa : UInt16) (ip : IpAddr)
    (hhonest : ∀ resolver ∈ resolvers, Honest zone resolver) (havailable : Available resolvers)
    (hname : Spells name claimed) :
    isForwardConfirmed id idA idAaaa ip claimed resolvers = true ↔
      zone.Confirms ip claimed name :=
  ⟨confirms_of_isForwardConfirmed hhonest hname,
    isForwardConfirmed_of_confirms hhonest havailable hname⟩

/-! ### A resolver -/

/-- Behind the question of a reply with one record: its type and class, and the record, whose
owner is a pointer to the question. -/
def recordTail (qtype : UInt16) (rdata : List UInt8) : List UInt8 :=
  qtype.toBeBytes ++ CLASS_IN.toBeBytes ++ [0xC0, 12] ++ qtype.toBeBytes ++ CLASS_IN.toBeBytes ++
    [0, 0, 1, 44] ++ (UInt16.ofNat rdata.length).toBeBytes ++ rdata

/-- A reply with one record. -/
def recordReply (id : UInt16) (name : List DnsLabel) (qtype : UInt16) (rdata : List UInt8) :
    List UInt8 :=
  id.toBeBytes ++ ((0x8180 : UInt16).toBeBytes ++ ((1 : UInt16).toBeBytes ++
    ((1 : UInt16).toBeBytes ++ ([0, 0, 0, 0] ++ (encodeName name ++ recordTail qtype rdata)))))

/-- A reply that says that there is no such name. -/
def noNameReply (id : UInt16) (question : List UInt8) : List UInt8 :=
  id.toBeBytes ++ ((0x8183 : UInt16).toBeBytes ++ ((1 : UInt16).toBeBytes ++
    ([0, 0, 0, 0, 0, 0] ++ question)))

theorem headerWord_of_drop {i : Nat} {w : UInt16} {rest : List UInt8}
    (h : buf.drop i = w.toBeBytes ++ rest) : headerWord buf i = w := by
  obtain ⟨hi, lo, hw⟩ : ∃ hi lo, w.toBeBytes = [hi, lo] := ⟨_, _, rfl⟩
  rw [hw] at h
  have hfirst : buf.getD i 0 = hi := by
    have := congrArg (fun l => l.getD 0 0) h
    simpa using this
  have hsecond : buf.getD (i + 1) 0 = lo := by
    have := congrArg (fun l => l.getD 1 0) h
    simpa using this
  rw [headerWord, hfirst, hsecond, ← hw, UInt16.ofBeBytes_toBeBytes]

theorem readU16_of_drop {pos : Nat} {w : UInt16} {rest : List UInt8}
    (h : buf.drop pos = w.toBeBytes ++ rest) : readU16 buf pos = some w := by
  have hrange : buf.getRange? pos (pos + 2) = some w.toBeBytes :=
    (List.getRange?_eq_some (by decide)).mpr ⟨rfl, rest, h⟩
  rw [readU16, hrange, Option.map_some, UInt16.ofBeBytes_toBeBytes]

/-- **A reply with one record is a message with its data.** -/
theorem message_record {qtype : UInt16} {rdata data : List UInt8} (id : UInt16)
    (name : List DnsLabel) (hlen : rdata.length < 65536)
    (hdata : if qtype = TYPE_PTR then
        ∃ host, rdata = encodeName host ∧ data = (Zone.text host).asBytes
      else data = rdata) : Message (recordReply id name qtype rdata) id [(qtype, data)] := by
  have hquestion : (recordReply id name qtype rdata).drop 12 =
      encodeName name ++ recordTail qtype rdata := rfl
  have htail : ∀ k, (recordReply id name qtype rdata).drop (12 + (encodeName name).length + k) =
      (recordTail qtype rdata).drop k := by
    intro k
    rw [← List.drop_drop, ← List.drop_drop, hquestion, List.drop_left]
  have htotal : (recordReply id name qtype rdata).length =
      12 + (encodeName name).length + 16 + rdata.length := by
    simp only [recordReply, recordTail, List.length_append, UInt16.toBeBytes_length,
      List.length_cons, List.length_nil]
    omega
  obtain ⟨hname, hends⟩ := nameAt_encodeName hquestion
  have hid : headerWord (recordReply id name qtype rdata) 0 = id := headerWord_of_drop rfl
  have hflags : headerWord (recordReply id name qtype rdata) 2 = 0x8180 := headerWord_of_drop rfl
  have hquestions : headerWord (recordReply id name qtype rdata) 4 = 1 := headerWord_of_drop rfl
  have hrecords : headerWord (recordReply id name qtype rdata) 6 = 1 := headerWord_of_drop rfl
  generalize recordReply id name qtype rdata = buf at *
  generalize 12 + (encodeName name).length = mid at htail htotal hends
  -- the owner is a pointer to the question
  have hfirst : buf[mid + 4]? = some 0xC0 := getElem?_of_drop (htail 4)
  have hsecond : buf[mid + 5]? = some 12 := getElem?_of_drop (htail 5)
  have howner : HostAt buf (mid + 4) (name.map DnsLabel.bytes) (mid + 6) := by
    refine ⟨⟨1, by decide, .pointer hfirst (by decide) hsecond hname⟩, ?_⟩
    exact nameEnd?_pointer hfirst (by decide) (by decide) (by omega)
  have hrtype : readU16 buf (mid + 6) = some qtype := readU16_of_drop (htail 6)
  have hrdlength : readU16 buf (mid + 6 + 8) = some (UInt16.ofNat rdata.length) :=
    readU16_of_drop (htail 14)
  have hnat : (UInt16.ofNat rdata.length).toNat = rdata.length :=
    UInt16.toNat_ofNat_of_lt' hlen
  have hrdata : buf.drop (mid + 6 + 10) = rdata := htail 16
  have hresource : ResourceAt buf (mid + 4) (qtype, data) (mid + 16 + rdata.length) := by
    refine ⟨_, mid + 6, _, howner, hrtype, hrdlength, by omega, by omega, ?_⟩
    dsimp only
    by_cases hptr : qtype = TYPE_PTR
    · rw [if_pos hptr] at hdata ⊢
      obtain ⟨host, rfl, rfl⟩ := hdata
      have hbehind : buf.drop (mid + 6 + 10) = encodeName host ++ [] := by
        rw [hrdata, List.append_nil]
      have hhost := hostAt_encodeName hbehind
      rw [Nat.add_assoc mid 6 10] at hhost ⊢
      exact ⟨_, hhost, rfl⟩
    · rw [if_neg hptr] at hdata ⊢
      rw [hdata, hrdata, hnat, List.take_length]
  refine ⟨by omega, hid, by rw [hflags]; decide, by rw [hflags]; decide, by rw [hrecords]; rfl, ?_⟩
  rw [hquestions]
  exact ⟨mid + 4, _, ⟨_, mid, ⟨⟨0, by decide, hname⟩, hends⟩, by omega, rfl⟩, _, hresource, rfl⟩

/-- The address of the sample. -/
def sampleAddress : Ipv4Addr := ⟨#v[203, 0, 113, 10]⟩

/-- The host of the sample. -/
def sampleHost : List DnsLabel :=
  [⟨"h".asBytes, by decide, by decide⟩, ⟨"net".asBytes, by decide, by decide⟩]

/-- One host with one address. -/
def sampleZone : Zone where
  hosts name := if name = addressName (.v4 sampleAddress) then [sampleHost] else []
  v4 name := if name = sampleHost then [sampleAddress] else []
  v6 _ := []

/-- A question as it stands behind the header. -/
def questionBytes (name : List DnsLabel) (qtype : UInt16) : List UInt8 :=
  encodeName name ++ (qtype.toBeBytes ++ CLASS_IN.toBeBytes)

/-- A resolver for the zone of the sample. -/
def sampleResolver : Resolver := fun request =>
  let id := headerWord request 0
  let question := request.drop 12
  some (if question = questionBytes (addressName (.v4 sampleAddress)) TYPE_PTR then
      recordReply id (addressName (.v4 sampleAddress)) TYPE_PTR (encodeName sampleHost)
    else if question = questionBytes sampleHost TYPE_A then
      recordReply id sampleHost TYPE_A sampleAddress.octets.toList
    else noNameReply id question)

theorem questionBytes_inj {name name' : List DnsLabel} {qtype qtype' : UInt16}
    (h : questionBytes name qtype = questionBytes name' qtype') :
    name = name' ∧ qtype = qtype' := by
  obtain ⟨hname, hrest⟩ := prefixCode_encodeName name name' _ _ h
  have hbytes := congrArg UInt16.ofBeBytes (List.append_inj_left hrest rfl)
  rw [UInt16.ofBeBytes_toBeBytes, UInt16.ofBeBytes_toBeBytes] at hbytes
  exact ⟨hname, hbytes⟩

/-- What the sample has not. -/
theorem data_sampleZone {name : List DnsLabel} {qtype : UInt16}
    (hptr : ¬ questionBytes name qtype = questionBytes (addressName (.v4 sampleAddress)) TYPE_PTR)
    (ha : ¬ questionBytes name qtype = questionBytes sampleHost TYPE_A) :
    sampleZone.data name qtype = [] := by
  rw [Zone.data]
  split_ifs with h h' h''
  · have hne : name ≠ addressName (.v4 sampleAddress) := fun he => hptr (by rw [he, h])
    have hnone : sampleZone.hosts name = [] := if_neg hne
    rw [hnone]
    rfl
  · have hne : name ≠ sampleHost := fun he => ha (by rw [he, h'])
    have hnone : sampleZone.v4 name = [] := if_neg hne
    rw [hnone]
    rfl
  · rfl
  · rfl

theorem honest_sampleResolver : Honest sampleZone sampleResolver := by
  intro id name qtype reply hreply
  have hid : headerWord (standardQuery id name qtype) 0 = id := headerWord_of_drop rfl
  have hquestion : (standardQuery id name qtype).drop 12 = questionBytes name qtype := by
    rw [standardQuery, questionBytes, List.append_assoc, List.append_assoc]
    rfl
  rw [sampleResolver] at hreply
  simp only [hid, hquestion, Option.some.injEq] at hreply
  split_ifs at hreply with hptr ha
  · obtain ⟨rfl, rfl⟩ := questionBytes_inj hptr
    subst hreply
    exact .answers (message_record id _ (by decide) ⟨sampleHost, rfl, rfl⟩) (by decide +kernel)
  · obtain ⟨rfl, rfl⟩ := questionBytes_inj ha
    subst hreply
    exact .answers (message_record id _ (by decide) rfl) (by decide +kernel)
  · subst hreply
    have hflags : headerWord (noNameReply id (questionBytes name qtype)) 2 = 0x8183 :=
      headerWord_of_drop rfl
    refine .noName ?_ (headerWord_of_drop rfl) (by rw [hflags]; decide) (by rw [hflags]; decide)
      (data_sampleZone hptr ha)
    show 12 ≤ (questionBytes name qtype).length + 12
    omega

theorem honest_samples : ∀ resolver ∈ [sampleResolver], Honest sampleZone resolver := by
  intro resolver hmem
  rw [List.mem_singleton.mp hmem]
  exact honest_sampleResolver

theorem available_samples : Available [sampleResolver] := fun _ _ _ =>
  ⟨sampleResolver, List.mem_singleton_self _, rfl⟩

theorem spells_sampleHost : Spells sampleHost "h.net." := by
  rw [Spells]
  decide +kernel

theorem confirms_sampleZone :
    sampleZone.Confirms (.v4 sampleAddress) "h.net." sampleHost where
  reverse := ⟨sampleHost, List.mem_singleton_self _, by decide +kernel⟩
  forward := List.mem_singleton_self _

/-- The host is confirmed for its address. -/
theorem confirmed_iff_sample :
    isForwardConfirmed 1 2 3 (.v4 sampleAddress) "h.net." [sampleResolver] = true :=
  (confirmed_iff 1 2 3 (.v4 sampleAddress) honest_samples available_samples
    spells_sampleHost).mpr confirms_sampleZone

end Binda.Fcrdns
