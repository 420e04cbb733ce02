import Binda.Core.Dns
import Binda.Lib.Reader

/-!
# The question of a message

`parseQuery_eq_ok` says what `parse_query` accepts: a message with one question
(`AsksFor`), written as the labels of a name, a type and a class.  What follows the
question is not read.  The labels of the name a query carries are those on the
wire cut at their dots (`AsksFor.labels_domain`), so they fit into frames again and
a response asks the question it answers (`AsksFor.response`).

* `parseQuery_buildResponse`: reading back a response gives the query.
-/

theorem Except.bind_eq_ok {ε α β : Type} {x : Except ε α} {f : α → Except ε β} {b : β} :
    (x >>= f) = .ok b ↔ ∃ a, x = .ok a ∧ f a = .ok b := by
  cases x with
  | error e =>
    refine ⟨fun h => (by cases h), ?_⟩
    rintro ⟨a, h, -⟩
    cases h
  | ok a =>
    refine ⟨fun h => ⟨a, rfl, h⟩, ?_⟩
    rintro ⟨a', h, hf⟩
    rw [Except.ok.inj h]
    exact hf

theorem Except.mapError_eq_ok {ε ε' α : Type} {x : Except ε α} {f : ε → ε'} {a : α} :
    x.mapError f = .ok a ↔ x = .ok a := by
  cases x with
  | error e => exact ⟨fun h => (by cases h), fun h => (by cases h)⟩
  | ok b =>
    rw [Except.mapError]
    exact ⟨fun h => congrArg _ (Except.ok.inj h), fun h => congrArg _ (Except.ok.inj h)⟩

namespace Binda

open Reader (framed frame frames Framable)

/-! ### The labels of a name -/

namespace DomainName

theorem encodeDomainLabels_eq (d : DomainName) :
    encodeDomainLabels d = framed (d.labels.map String.asBytes) := by
  rw [encodeDomainLabels, framed, List.flatMap_map]
  rfl

/-- The labels joined are the name. -/
theorem intercalate_labels (d : DomainName) : ".".intercalate d.labels = d.raw := by
  apply String.toList_injective
  rw [String.toList_intercalate, labels, List.map_map]
  have hid : String.toList ∘ String.ofList = id := funext fun l => String.toList_ofList
  rw [hid, List.map_id]
  exact List.intercalate_splitOn '.'

/-- **A name joined from some labels has the labels of each.** -/
theorem labels_intercalate {ls : List String} (hls : ls ≠ []) :
    labels ⟨".".intercalate ls⟩ = ls.flatMap fun l => labels ⟨l⟩ := by
  rw [labels, String.toList_intercalate]
  have hne : ls.map String.toList ≠ [] := fun h => hls (List.map_eq_nil_iff.mp h)
  show (['.'].intercalate _ |>.splitOn '.').map String.ofList = _
  rw [List.splitOn_intercalate_eq_flatMap '.' hne, List.flatMap_map, List.map_flatMap]
  rfl

theorem length_asBytes_le_of_mem_labels {d : DomainName} {label : String} (h : label ∈ d.labels) :
    label.asBytes.length ≤ d.raw.asBytes.length := by
  obtain ⟨part, hpart, rfl⟩ := List.mem_map.mp h
  rw [String.asBytes_ofList, String.asBytes_eq d.raw]
  exact ((List.sublist_of_mem_splitOn hpart).flatMap _).length_le

theorem Valid.asBytes_ne_nil {d : DomainName} (h : d.Valid) {label : String}
    (hl : label ∈ d.labels) : label.asBytes ≠ [] := by
  intro he
  obtain ⟨part, hpart, rfl⟩ := List.mem_map.mp hl
  rw [String.asBytes_eq_nil, String.toList_ofList] at he
  exact (valid_iff.mp h).2.2 part hpart he

end DomainName

/-! ### The loop of `parse_query` -/

theorem parseLabels_of_zero {bytes rest : List UInt8} {pos : Nat}
    (h : bytes.drop pos = (0 : UInt32).toBeBytes ++ rest) (labels : List String) :
    parseLabels bytes pos labels = .ok (labels, pos + 4) := by
  rw [parseLabels_step, readU32_eq_ok.mpr ⟨rest, h⟩]
  exact if_pos UInt32.toNat_zero

theorem parseLabels_of_frame {bytes rest : List UInt8} {pos : Nat} {label : String}
    (hf : Framable label.asBytes) (h : bytes.drop pos = frame label.asBytes ++ rest)
    (labels : List String) :
    parseLabels bytes pos labels =
      parseLabels bytes (pos + (frame label.asBytes).length) (labels ++ [label]) := by
  have hn : (UInt32.ofNat label.asBytes.length).toNat = label.asBytes.length :=
    UInt32.toNat_ofNat_of_lt' hf.2
  have hpos := List.length_pos_of_ne_nil hf.1
  rw [frame, List.append_assoc] at h
  have hslice :
      bytes.getRange? (pos + 4) (pos + 4 + label.asBytes.length) = some label.asBytes := by
    refine (List.getRange?_eq_some hpos).mpr ⟨rfl, rest, ?_⟩
    rw [← List.drop_drop, h]
    rfl
  rw [parseLabels_step, readU32_eq_ok.mpr ⟨_, h⟩]
  simp only [hn, hslice, String.ofBytes?_asBytes]
  rw [if_neg (by omega), Reader.frame_length, Nat.add_assoc]

/-- **Labels on the wire are read.** -/
theorem parseLabels_framed {bytes rest : List UInt8} {ls : List String}
    (hf : ∀ l ∈ ls, Framable l.asBytes) : ∀ {pos : Nat} {labels : List String},
    bytes.drop pos = framed (ls.map String.asBytes) ++ rest →
      parseLabels bytes pos labels =
        .ok (labels ++ ls, pos + (framed (ls.map String.asBytes)).length) := by
  induction ls with
  | nil =>
    intro pos labels h
    rw [parseLabels_of_zero h, List.append_nil]
    rfl
  | cons l ls ih =>
    intro pos labels h
    rw [List.map_cons, Reader.framed_cons, List.append_assoc] at h
    have hdrop : bytes.drop (pos + (frame l.asBytes).length) =
        framed (ls.map String.asBytes) ++ rest := by
      rw [← List.drop_drop, h, List.drop_left]
    rw [parseLabels_of_frame (hf l (List.mem_cons_self ..)) h,
      ih (fun m hm => hf m (List.mem_cons_of_mem l hm)) hdrop, List.map_cons, Reader.framed_cons,
      List.length_append, Nat.add_assoc, List.append_assoc, List.singleton_append]

/-- **What was read is labels on the wire.** -/
theorem of_parseLabels {bytes : List UInt8} {pos pos' : Nat} {labels labels' : List String}
    (h : parseLabels bytes pos labels = .ok (labels', pos')) :
    ∃ ls, labels' = labels ++ ls ∧ (∀ l ∈ ls, Framable l.asBytes) ∧
      pos' = pos + (framed (ls.map String.asBytes)).length ∧
      bytes.drop pos = framed (ls.map String.asBytes) ++ bytes.drop pos' := by
  fun_induction parseLabels bytes pos labels with
  | case1 pos labels e he => cases h
  | case2 pos labels len hread hn =>
    obtain ⟨rfl, rfl⟩ := Prod.mk.inj (Except.ok.inj h)
    obtain ⟨rest, hdrop⟩ := readU32_eq_ok.mp hread
    obtain rfl : len = 0 := UInt32.toNat_inj.mp hn
    refine ⟨[], (List.append_nil labels).symm, fun l hl => absurd hl List.not_mem_nil, rfl, ?_⟩
    rw [← List.drop_drop, hdrop]
    rfl
  | case3 => cases h
  | case4 => cases h
  | case5 pos labels len hread hn labelBytes hslice label hlabel ih =>
    obtain ⟨rest, hdrop⟩ := readU32_eq_ok.mp hread
    obtain ⟨hlen, rest', hdrop'⟩ := (List.getRange?_eq_some (Nat.pos_of_ne_zero hn)).mp hslice
    obtain rfl := String.ofBytes?_eq_some.mp hlabel
    obtain ⟨ls, rfl, hf, rfl, htail⟩ := ih h
    have hrest : rest = label.asBytes ++ rest' := by
      rw [← List.drop_drop, hdrop] at hdrop'
      exact hdrop'
    have hafter : bytes.drop (pos + 4 + len.toNat) = rest' := by
      rw [← List.drop_drop, hdrop', ← hlen, List.drop_left]
    have hframe : len.toBeBytes ++ label.asBytes = frame label.asBytes := by
      rw [frame, hlen, UInt32.ofNat_toNat]
    refine ⟨label :: ls, by simp, List.forall_mem_cons.mpr ⟨⟨?_, ?_⟩, hf⟩, ?_, ?_⟩
    · intro he
      rw [he] at hlen
      exact hn hlen.symm
    · rw [hlen]
      exact len.toNat_lt
    · rw [List.map_cons, Reader.framed_cons, List.length_append, Reader.frame_length, hlen]
      omega
    · rw [List.map_cons, Reader.framed_cons, List.append_assoc, ← htail, ← hframe, hdrop, hrest,
        hafter, List.append_assoc]

/-! ### What `parse_query` accepts -/

/-- `bytes` asks `q`, and these are the labels of its question on the wire. -/
structure AsksFor (bytes : List UInt8) (labels : List String) (q : DnsQuery) : Prop where
  id_eq : (bytes.drop 0).take 2 = q.id.toBeBytes
  qdcount_eq : (bytes.drop 4).take 2 = (1 : UInt16).toBeBytes
  framable : ∀ l ∈ labels, Framable l.asBytes
  question : ∃ rest, bytes.drop 12 =
    framed (labels.map String.asBytes) ++ q.qtype.toBeBytes ++ q.qclass.toBeBytes ++ rest
  domain : DomainName.new (".".intercalate labels) = .ok q.domain

theorem take_two_drop {bytes : List UInt8} {i : Nat} (h : i + 1 < bytes.length) :
    (bytes.drop i).take 2 = [bytes[i], bytes[i + 1]] := by
  rw [List.drop_eq_getElem_cons (by omega), List.drop_eq_getElem_cons h]
  rfl

theorem ofBeBytes_eq_iff {bytes : List UInt8} {i : Nat} (h : i + 1 < bytes.length) {a : UInt16} :
    UInt16.ofBeBytes [bytes[i], bytes[i + 1]] = a ↔ (bytes.drop i).take 2 = a.toBeBytes := by
  rw [take_two_drop h]
  constructor
  · rintro rfl
    exact (UInt16.toBeBytes_ofBeBytes rfl).symm
  · intro ha
    rw [ha, UInt16.ofBeBytes_toBeBytes]

/-- **What `parse_query` accepts.** -/
theorem parseQuery_eq_ok {bytes : List UInt8} {q : DnsQuery} :
    parseQuery bytes = .ok q ↔ ∃ labels, AsksFor bytes labels q := by
  rw [parseQuery]
  constructor
  · intro h
    split at h
    · cases h
    rename_i hlen
    simp only at h
    split at h
    · cases h
    rename_i hq
    rw [ne_eq, not_not] at hq
    obtain ⟨⟨labels, pos⟩, hlabels, h⟩ := Except.bind_eq_ok.mp h
    obtain ⟨qtype, hqtype, h⟩ := Except.bind_eq_ok.mp h
    obtain ⟨qclass, hqclass, h⟩ := Except.bind_eq_ok.mp h
    obtain ⟨domain, hdomain, h⟩ := Except.bind_eq_ok.mp h
    obtain rfl := Except.ok.inj h
    obtain ⟨ls, hls, hf, -, hdrop⟩ := of_parseLabels hlabels
    obtain rfl : labels = ls := hls
    obtain ⟨rest, hrest⟩ := readU16_eq_ok.mp hqtype
    obtain ⟨rest', hrest'⟩ := readU16_eq_ok.mp hqclass
    rw [← List.drop_drop, hrest] at hrest'
    have hclass : rest = qclass.toBeBytes ++ rest' := hrest'
    exact ⟨labels, (ofBeBytes_eq_iff (by omega)).mp rfl, (ofBeBytes_eq_iff (by omega)).mp hq, hf,
      ⟨rest', by simp only [hdrop, hrest, hclass, List.append_assoc]⟩,
      Except.mapError_eq_ok.mp hdomain⟩
  · rintro ⟨labels, hask⟩
    obtain ⟨rest, hdrop⟩ := hask.question
    have hlen := congrArg List.length hdrop
    simp only [List.length_drop, List.length_append, UInt16.toBeBytes_length] at hlen
    rw [dif_neg (by omega)]
    simp only
    rw [if_neg (not_not.mpr ((ofBeBytes_eq_iff (by omega)).mpr hask.qdcount_eq)),
      (ofBeBytes_eq_iff (by omega)).mpr hask.id_eq]
    simp only [List.append_assoc] at hdrop
    -- behind the labels stand the type and the class
    have htype := congrArg (List.drop (framed (labels.map String.asBytes)).length) hdrop
    rw [List.drop_drop, List.drop_left] at htype
    have hclass := congrArg (List.drop 2) htype
    rw [List.drop_drop] at hclass
    refine Except.bind_eq_ok.mpr ⟨_, parseLabels_framed hask.framable hdrop, ?_⟩
    refine Except.bind_eq_ok.mpr ⟨_, readU16_eq_ok.mpr ⟨_, htype⟩, ?_⟩
    refine Except.bind_eq_ok.mpr ⟨_, readU16_eq_ok.mpr ⟨_, hclass⟩, ?_⟩
    exact Except.bind_eq_ok.mpr ⟨_, Except.mapError_eq_ok.mpr hask.domain, rfl⟩

/-! ### Writing a question and reading it -/

namespace AsksFor

variable {bytes : List UInt8} {labels : List String} {q : DnsQuery}

theorem domain_eq (h : AsksFor bytes labels q) : q.domain = ⟨".".intercalate labels⟩ :=
  DomainName.eq_of_new h.domain

theorem valid (h : AsksFor bytes labels q) : q.domain.Valid := DomainName.valid_of_new h.domain

theorem ne_nil (h : AsksFor bytes labels q) : labels ≠ [] := by
  rintro rfl
  have hd := h.domain
  rw [String.intercalate_nil] at hd
  cases hd

/-- **The labels of the name**: those on the wire, cut at their dots. -/
theorem labels_domain (h : AsksFor bytes labels q) :
    q.domain.labels = labels.flatMap fun l => DomainName.labels ⟨l⟩ := by
  rw [h.domain_eq, DomainName.labels_intercalate h.ne_nil]

theorem framable_labels (h : AsksFor bytes labels q) : ∀ l ∈ q.domain.labels, Framable l.asBytes := by
  intro l hl
  refine ⟨h.valid.asBytes_ne_nil hl, ?_⟩
  rw [h.labels_domain, List.mem_flatMap] at hl
  obtain ⟨wire, hwire, hl⟩ := hl
  exact Nat.lt_of_le_of_lt (DomainName.length_asBytes_le_of_mem_labels hl)
    (h.framable wire hwire).2

end AsksFor

theorem drop_buildResponse (q : DnsQuery) (domainExists : Bool) (matching : List Record) :
    (buildResponse q domainExists matching).drop 12 =
      encodeDomainLabels q.domain ++ q.qtype.toBeBytes ++ q.qclass.toBeBytes ++
        (matching.filterMap (encodeAnswer q)).flatten := rfl

/-- **A response asks its own question**, with the labels of the name. -/
theorem AsksFor.response {bytes : List UInt8} {labels : List String} {q : DnsQuery}
    (h : AsksFor bytes labels q) (domainExists : Bool) (matching : List Record) :
    AsksFor (buildResponse q domainExists matching) q.domain.labels q where
  id_eq := rfl
  qdcount_eq := rfl
  framable := h.framable_labels
  question := by
    rw [drop_buildResponse, DomainName.encodeDomainLabels_eq]
    exact ⟨_, rfl⟩
  domain := by
    rw [DomainName.intercalate_labels]
    exact h.valid

/-! ### A message asks its question -/

/-- `build_query_bytes` of the tests, on the labels of a name. -/
def buildQueryBytes (id : UInt16) (labels : List String) (qtype : UInt16) : List UInt8 :=
  id.toBeBytes ++ (0x0100 : UInt16).toBeBytes ++ (1 : UInt16).toBeBytes ++ List.replicate 6 0 ++
    framed (labels.map String.asBytes) ++ qtype.toBeBytes ++ CLASS_IN.toBeBytes

theorem asksFor_buildQueryBytes {id qtype : UInt16} {labels : List String} {domain : DomainName}
    (hf : ∀ l ∈ labels, Framable l.asBytes)
    (hd : DomainName.new (".".intercalate labels) = .ok domain) :
    AsksFor (buildQueryBytes id labels qtype) labels ⟨id, domain, qtype, CLASS_IN⟩ where
  id_eq := rfl
  qdcount_eq := rfl
  framable := hf
  question := ⟨[], by rw [List.append_nil]; rfl⟩
  domain := hd

/-- **Encoding a question and decoding it is the identity**, whatever answers follow it. -/
theorem parseQuery_buildResponse {bytes : List UInt8} {q : DnsQuery}
    (h : parseQuery bytes = .ok q) (domainExists : Bool) (matching : List Record) :
    parseQuery (buildResponse q domainExists matching) = .ok q := by
  obtain ⟨labels, hask⟩ := parseQuery_eq_ok.mp h
  exact parseQuery_eq_ok.mpr ⟨q.domain.labels, hask.response domainExists matching⟩

/-- A query for two labels that are not ASCII, and a record that cannot be encoded. -/
theorem parseQuery_buildResponse_fire :
    parseQuery (buildQueryBytes 5 ["🔥", "binda"] 1) = .ok ⟨5, ⟨"🔥.binda"⟩, 1, CLASS_IN⟩ ∧
      parseQuery (buildResponse ⟨5, ⟨"🔥.binda"⟩, 1, CLASS_IN⟩ true
        [⟨"@", .a, 300, "not-an-ip-address"⟩, ⟨"@", .a, 300, "203.0.113.10"⟩]) =
          .ok ⟨5, ⟨"🔥.binda"⟩, 1, CLASS_IN⟩ := by
  have h : parseQuery (buildQueryBytes 5 ["🔥", "binda"] 1) =
      .ok ⟨5, ⟨"🔥.binda"⟩, 1, CLASS_IN⟩ :=
    parseQuery_eq_ok.mpr ⟨_, asksFor_buildQueryBytes (by decide +kernel) (by decide +kernel)⟩
  exact ⟨h, parseQuery_buildResponse h true _⟩

end Binda
