import Binda.Core.Question

/-!
# The question as it came

`build_response` echoes the question "verbatim", written anew from the name it
was read as.  The question section of a message is cut out with a reader of its
own (`questionSection`), which leaves the labels alone.

A label may carry a dot.  Joined with the others it is no longer told apart from
two labels, and it is written back as two.

* `question_verbatim_iff`: the question is echoed as it came exactly when no
  label on the wire carries a dot, and then it is the only such question that
  parses to its name.
* `dotted_label_is_split`: one label `a.b` and the two labels `a` and `b` parse
  to the same query.
-/

namespace Binda

open Reader (framed frames Framable)

/-- A question: the labels of the name, the type and the class. -/
structure Question where
  labels : List (List UInt8)
  qtype : UInt16
  qclass : UInt16
  deriving DecidableEq

namespace Question

/-- A question, written. -/
def code (asked : Question) : List UInt8 :=
  framed asked.labels ++ (asked.qtype.toBeBytes ++ asked.qclass.toBeBytes)

/-- A question, read. -/
def read : Reader Question := do
  let labels ← frames
  let qtype ← Reader.u16
  let qclass ← Reader.u16
  pure ⟨labels, qtype, qclass⟩

theorem reads {asked : Question} (h : ∀ label ∈ asked.labels, Framable label) :
    Reads read asked.code asked :=
  (Reader.reads_frames h).bind
    ((Reader.reads_u16 asked.qtype).bind (Reader.reads_u16 asked.qclass).bind_pure)

end Question

/-- The question of a message, and what follows it. -/
def questionOf (bytes : List UInt8) : Option (Question × List UInt8) :=
  Question.read (bytes.drop 12)

/-- The bytes of a message from offset 12 through the end of its QCLASS. -/
def questionSection (bytes : List UInt8) : Option (List UInt8) :=
  (questionOf bytes).map fun (_, rest) =>
    (bytes.drop 12).take ((bytes.drop 12).length - rest.length)

/-- The labels of a message's question. -/
def wireLabels (bytes : List UInt8) : List (List UInt8) :=
  ((questionOf bytes).map fun (asked, _) => asked.labels).getD []

/-- No label of the message's question carries a dot. -/
def Dotless (bytes : List UInt8) : Prop := ∀ label ∈ wireLabels bytes, 0x2E ∉ label

instance (bytes : List UInt8) : Decidable (Dotless bytes) :=
  inferInstanceAs (Decidable (∀ label ∈ _, _))

/-- The question of the message is the one that is written for the query, and the one every
response to it carries. -/
def Verbatim (bytes : List UInt8) (q : DnsQuery) : Prop :=
  questionSection bytes =
      some (encodeDomainLabels q.domain ++ (q.qtype.toBeBytes ++ q.qclass.toBeBytes)) ∧
    ∀ domainExists matching,
      questionSection (buildResponse q domainExists matching) = questionSection bytes

/-! ### What the question of an accepted message is -/

namespace AsksFor

variable {bytes : List UInt8} {labels : List String} {q : DnsQuery}

theorem questionOf_eq (h : AsksFor bytes labels q) :
    ∃ rest, bytes.drop 12 = Question.code ⟨labels.map String.asBytes, q.qtype, q.qclass⟩ ++ rest ∧
      questionOf bytes = some (⟨labels.map String.asBytes, q.qtype, q.qclass⟩, rest) := by
  obtain ⟨rest, hdrop⟩ := h.question
  have hcode : bytes.drop 12 =
      Question.code ⟨labels.map String.asBytes, q.qtype, q.qclass⟩ ++ rest := by
    rw [hdrop, Question.code]
    simp only [List.append_assoc]
  refine ⟨rest, hcode, ?_⟩
  rw [questionOf, hcode]
  exact Question.reads (List.forall_mem_map.mpr h.framable) rest

theorem wireLabels_eq (h : AsksFor bytes labels q) : wireLabels bytes = labels.map String.asBytes := by
  obtain ⟨rest, -, heq⟩ := h.questionOf_eq
  rw [wireLabels, heq]
  rfl

theorem questionSection_eq (h : AsksFor bytes labels q) :
    questionSection bytes =
      some (Question.code ⟨labels.map String.asBytes, q.qtype, q.qclass⟩) := by
  obtain ⟨rest, hcode, heq⟩ := h.questionOf_eq
  rw [questionSection, heq, hcode]
  simp

/-- **No label carries a dot** when the labels of the name are those on the wire. -/
theorem dotless_iff (h : AsksFor bytes labels q) : Dotless bytes ↔ labels = q.domain.labels := by
  have hdot : Dotless bytes ↔ ∀ l ∈ labels.map String.toList, '.' ∉ l := by
    rw [Dotless, h.wireLabels_eq, List.forall_mem_map, List.forall_mem_map]
    exact forall₂_congr fun l _ => not_congr (String.mem_asBytes (c := '.') (by decide))
  have hlabels : q.domain.labels =
      ((labels.map String.toList).flatMap fun l => l.splitOn '.').map String.ofList := by
    rw [h.labels_domain, List.flatMap_map, List.map_flatMap]
    rfl
  rw [hdot, ← List.flatMap_splitOn_eq_self, hlabels]
  constructor
  · intro hsplit
    rw [hsplit, List.map_map, show String.ofList ∘ String.toList = id from
      funext fun l => String.ofList_toList, List.map_id]
  · intro hjoined
    have := congrArg (List.map String.toList) hjoined
    rwa [List.map_map, show String.toList ∘ String.ofList = id from
      funext fun l => String.toList_ofList, List.map_id, eq_comm] at this

theorem section_buildResponse (h : AsksFor bytes labels q) (domainExists : Bool)
    (matching : List Record) :
    questionSection (buildResponse q domainExists matching) =
      some (encodeDomainLabels q.domain ++ (q.qtype.toBeBytes ++ q.qclass.toBeBytes)) := by
  rw [(h.response domainExists matching).questionSection_eq,
    DomainName.encodeDomainLabels_eq]
  rfl

theorem verbatim_iff (h : AsksFor bytes labels q) : Verbatim bytes q ↔ labels = q.domain.labels := by
  have hsection : Verbatim bytes q ↔ questionSection bytes =
      some (encodeDomainLabels q.domain ++ (q.qtype.toBeBytes ++ q.qclass.toBeBytes)) :=
    ⟨And.left, fun hs => ⟨hs, fun domainExists matching => by
      rw [h.section_buildResponse, hs]⟩⟩
  rw [hsection, h.questionSection_eq, DomainName.encodeDomainLabels_eq, Option.some_inj]
  constructor
  · intro hcode
    obtain ⟨hmap, -⟩ := Reader.framed_inj (List.forall_mem_map.mpr h.framable)
      (List.forall_mem_map.mpr h.framable_labels) hcode
    exact List.map_injective_iff.mpr String.asBytes_injective hmap
  · rintro hlabels
    rw [← hlabels]
    rfl

end AsksFor

/-- **The question is echoed as it came** exactly when no label on the wire carries a dot; and
exactly then every other such question for the name has the same labels. -/
theorem question_verbatim_iff {bytes : List UInt8} {q : DnsQuery}
    (h : parseQuery bytes = .ok q) :
    (Verbatim bytes q ↔ Dotless bytes) ∧
      ((∀ bytes' q', parseQuery bytes' = .ok q' → Dotless bytes' → q'.domain = q.domain →
        wireLabels bytes' = wireLabels bytes) ↔ Dotless bytes) := by
  obtain ⟨labels, hask⟩ := parseQuery_eq_ok.mp h
  refine ⟨by rw [hask.verbatim_iff, hask.dotless_iff], ?_, ?_⟩
  · intro hunique
    -- a response to the query is a question without dotted labels
    have hresponse := hask.response true []
    have hsame := hunique _ q (parseQuery_eq_ok.mpr ⟨_, hresponse⟩)
      (hresponse.dotless_iff.mpr rfl) rfl
    rw [hresponse.wireLabels_eq, hask.wireLabels_eq] at hsame
    exact hask.dotless_iff.mpr (List.map_injective_iff.mpr String.asBytes_injective hsame).symm
  · intro hdot bytes' q' h' hdot' hdomain
    obtain ⟨labels', hask'⟩ := parseQuery_eq_ok.mp h'
    rw [hask.wireLabels_eq, hask'.wireLabels_eq, hask.dotless_iff.mp hdot,
      hask'.dotless_iff.mp hdot', hdomain]

theorem question_verbatim_iff_plain :
    parseQuery (buildQueryBytes 1 ["a", "b"] 1) = .ok ⟨1, ⟨"a.b"⟩, 1, CLASS_IN⟩ ∧
      (Verbatim (buildQueryBytes 1 ["a", "b"] 1) ⟨1, ⟨"a.b"⟩, 1, CLASS_IN⟩ ↔
        Dotless (buildQueryBytes 1 ["a", "b"] 1)) := by
  have h : parseQuery (buildQueryBytes 1 ["a", "b"] 1) = .ok ⟨1, ⟨"a.b"⟩, 1, CLASS_IN⟩ :=
    parseQuery_eq_ok.mpr ⟨_, asksFor_buildQueryBytes (by decide +kernel) (by decide +kernel)⟩
  exact ⟨h, (question_verbatim_iff h).1⟩

/-- **A label with a dot comes back as two.**  The message with the one label `a.b` and the
message with the labels `a` and `b` parse to one query; the first question is three bytes
shorter than the one every response to it carries. -/
theorem dotted_label_is_split :
    parseQuery (buildQueryBytes 1 ["a.b"] 1) = .ok ⟨1, ⟨"a.b"⟩, 1, CLASS_IN⟩ ∧
      parseQuery (buildQueryBytes 1 ["a", "b"] 1) = .ok ⟨1, ⟨"a.b"⟩, 1, CLASS_IN⟩ ∧
      wireLabels (buildQueryBytes 1 ["a.b"] 1) ≠ wireLabels (buildQueryBytes 1 ["a", "b"] 1) ∧
      questionSection (buildQueryBytes 1 ["a.b"] 1) =
        some ([0, 0, 0, 3, 0x61, 0x2E, 0x62, 0, 0, 0, 0] ++ [0, 1, 0, 1]) ∧
      encodeDomainLabels ⟨"a.b"⟩ = [0, 0, 0, 1, 0x61, 0, 0, 0, 1, 0x62, 0, 0, 0, 0] ∧
      ¬ Verbatim (buildQueryBytes 1 ["a.b"] 1) ⟨1, ⟨"a.b"⟩, 1, CLASS_IN⟩ := by
  have h : AsksFor (buildQueryBytes 1 ["a.b"] 1) ["a.b"] ⟨1, ⟨"a.b"⟩, 1, CLASS_IN⟩ :=
    asksFor_buildQueryBytes (by decide +kernel) (by decide +kernel)
  have h' : AsksFor (buildQueryBytes 1 ["a", "b"] 1) ["a", "b"] ⟨1, ⟨"a.b"⟩, 1, CLASS_IN⟩ :=
    asksFor_buildQueryBytes (by decide +kernel) (by decide +kernel)
  refine ⟨parseQuery_eq_ok.mpr ⟨_, h⟩, parseQuery_eq_ok.mpr ⟨_, h'⟩, ?_, ?_, by decide +kernel, ?_⟩
  · rw [h.wireLabels_eq, h'.wireLabels_eq]
    decide +kernel
  · rw [h.questionSection_eq]
    decide +kernel
  · rw [h.verbatim_iff]
    decide +kernel

end Binda
