import Binda.Core.Hostname
import Binda.Core.Records

/-!
# Names with pointers

A name on the wire of classic DNS, as a grammar: labels, then the length zero, or a pointer to
where the rest of the name stands (`NameAt`).  The pointers may lead anywhere, and a name may
lie inside another.

* `readName_iff`: `read_name` accepts the names of this grammar with at most 32 pointers, and
  returns their labels, and the position behind the first pointer.
* `parseResponse_iff`: of the messages that are well cut, `parse_response` accepts those whose
  names are all of this kind, and returns their records.
-/

namespace Binda.Fcrdns

variable {buf : List UInt8} {pos stop : Nat} {s t : NameState}

/-! ### The grammar -/

/-- A name of these labels stands at `pos`; so many pointers have to be followed for it. -/
inductive NameAt (buf : List UInt8) : Nat → List (List UInt8) → Nat → Prop
  | root {pos : Nat} (hzero : buf[pos]? = some 0) : NameAt buf pos [] 0
  | label {pos jumps : Nat} {len : UInt8} {label : List UInt8} {labels : List (List UInt8)}
      (hlen : buf[pos]? = some len) (hne : len ≠ 0) (hptr : isPointer len = false)
      (hlabel : buf.getRange? (pos + 1) (pos + 1 + len.toNat) = some label)
      (rest : NameAt buf (pos + 1 + len.toNat) labels jumps) :
      NameAt buf pos (label :: labels) jumps
  | pointer {pos jumps : Nat} {len second : UInt8} {labels : List (List UInt8)}
      (hlen : buf[pos]? = some len) (hptr : isPointer len = true)
      (hsecond : buf[pos + 1]? = some second)
      (rest : NameAt buf (pointerTarget len second) labels jumps) :
      NameAt buf pos labels (jumps + 1)

/-- The labels as a host name. -/
def hostName (host : List (List UInt8)) : String :=
  ".".intercalate (host.map String.fromUtf8Lossy)

/-- A host name stands at `pos` that ends at `stop`, and few enough pointers lead to its labels. -/
structure HostAt (buf : List UInt8) (pos : Nat) (host : List (List UInt8)) (stop : Nat) :
    Prop where
  name : ∃ jumps, jumps ≤ 32 ∧ NameAt buf pos host jumps
  ends : nameEnd? buf pos = some stop

/-- The byte of a pointer is not zero. -/
theorem ne_zero_of_isPointer {len : UInt8} (h : isPointer len = true) : len ≠ 0 := by
  rintro rfl
  cases h

/-- **A name of the grammar is read.** -/
theorem NameAt.readNameFrom {labels : List (List UInt8)} {jumps : Nat}
    (h : NameAt buf pos labels jumps) (hs : s.pos = pos) (hjumps : s.jumps + jumps ≤ 32) :
    ∃ stop, Fcrdns.readNameFrom buf s =
      some (".".intercalate (s.labels ++ labels.map String.fromUtf8Lossy), stop) := by
  induction h generalizing s with
  | root hzero =>
    rw [readNameFrom_eq, readNameRound, hs, hzero]
    exact ⟨_, by rw [List.map_nil, List.append_nil]; rfl⟩
  | @label pos jumps len label labels hlen hne hptr hlabel rest ih =>
    have hround : readNameRound buf s = .next { s with
        labels := s.labels ++ [String.fromUtf8Lossy label]
        pos := s.pos + 1 + len.toNat } := by
      rw [readNameRound, hs, hlen]
      simp only [if_neg hne, hptr, hlabel, Bool.false_eq_true, if_false]
    obtain ⟨stop, hstop⟩ := ih (s := { s with
      labels := s.labels ++ [String.fromUtf8Lossy label]
      pos := s.pos + 1 + len.toNat }) (by rw [← hs]) hjumps
    refine ⟨stop, ?_⟩
    rw [readNameFrom_eq, hround]
    dsimp only
    rw [hstop, List.append_assoc]
    rfl
  | @pointer pos jumps len second labels hlen hptr hsecond rest ih =>
    have hround : readNameRound buf s = .next { s with
        pos := pointerTarget len second
        endPos := s.endPos.or (some (s.pos + 2))
        jumps := s.jumps + 1 } := by
      rw [readNameRound, hs, hlen]
      simp only [if_neg (ne_zero_of_isPointer hptr), hptr, hsecond, if_true]
      rw [if_neg (by omega)]
    obtain ⟨stop, hstop⟩ := ih (s := { s with
      pos := pointerTarget len second
      endPos := s.endPos.or (some (s.pos + 2))
      jumps := s.jumps + 1 }) rfl (by dsimp only; omega)
    refine ⟨stop, ?_⟩
    rw [readNameFrom_eq, hround]
    exact hstop

/-- **What is read is a name of the grammar.** -/
theorem exists_nameAt {name : String} (h : readNameFrom buf s = some (name, stop))
    (hjumps : s.jumps ≤ 32) :
    ∃ labels jumps, NameAt buf s.pos labels jumps ∧ s.jumps + jumps ≤ 32 ∧
      name = ".".intercalate (s.labels ++ labels.map String.fromUtf8Lossy) := by
  obtain ⟨ss, hvisits, -⟩ := visits_readNameFrom buf s
  rw [h] at hvisits
  generalize hr : some (name, stop) = r at hvisits
  clear h
  induction hvisits with
  | failed _ => cases hr
  | @finished s r hround =>
    obtain ⟨hzero, hname⟩ := readNameRound_eq_finished hround
    rw [← Option.some.inj hr, Prod.mk.injEq] at hname
    exact ⟨[], 0, .root hzero, hjumps, by rw [hname.1, List.map_nil, List.append_nil]⟩
  | @next s t ss r hround _ ih =>
    rcases readNameRound_eq_next hround with ⟨len, label, hlen, hne, hptr, hlabel, rfl⟩ |
      ⟨len, second, hlen, -, hptr, hsecond, hlt, rfl⟩
    · obtain ⟨labels, jumps, hname, hle, rfl⟩ := ih hjumps hr
      refine ⟨label :: labels, jumps, .label hlen hne hptr hlabel hname, hle, ?_⟩
      rw [List.append_assoc]
      rfl
    · obtain ⟨labels, jumps, hname, hle, rfl⟩ := ih (Nat.succ_le_of_lt hlt) hr
      dsimp only at hle
      exact ⟨labels, jumps + 1, .pointer hlen hptr hsecond hname, by omega, rfl⟩

/-- **The names `read_name` accepts**, and what it returns. -/
theorem readName_iff {name : String} :
    readName buf pos = some (name, stop) ↔
      ∃ host, HostAt buf pos host stop ∧ name = hostName host := by
  constructor
  · intro h
    obtain ⟨labels, jumps, hname, hle, rfl⟩ := exists_nameAt h (Nat.zero_le 32)
    exact ⟨labels, ⟨⟨jumps, (Nat.zero_add jumps) ▸ hle, hname⟩, nameEnd?_of_readName h⟩, rfl⟩
  · rintro ⟨host, ⟨⟨jumps, hle, hname⟩, hends⟩, rfl⟩
    obtain ⟨stop', hread⟩ := hname.readNameFrom (s := .start pos) rfl
      ((Nat.zero_add jumps).symm ▸ hle)
    have hstop := nameEnd?_of_readName hread
    rw [hends] at hstop
    rw [readName, hread, Option.some.inj hstop]
    rfl

theorem HostAt.readName {host : List (List UInt8)} (h : HostAt buf pos host stop) :
    readName buf pos = some (hostName host, stop) := readName_iff.mpr ⟨host, h, rfl⟩

/-! ### Messages -/

/-- So many questions stand end to end from `pos` to `stop`, each a name and four bytes. -/
def QuestionsIn (buf : List UInt8) : Nat → Nat → Nat → Prop
  | 0, pos, stop => stop = pos
  | n + 1, pos, stop => ∃ host e, HostAt buf pos host e ∧ e + 4 ≤ buf.length ∧
      QuestionsIn buf n (e + 4) stop

/-- A record stands at `pos` and ends at `stop`: the name of its owner, ten bytes, and its
data, which for `PTR` is a name as well. -/
def ResourceAt (buf : List UInt8) (pos : Nat) (answer : UInt16 × List UInt8) (stop : Nat) :
    Prop :=
  ∃ owner e rdlength, HostAt buf pos owner e ∧ readU16 buf e = some answer.1 ∧
    readU16 buf (e + 8) = some rdlength ∧ stop = e + 10 + rdlength.toNat ∧ stop ≤ buf.length ∧
    if answer.1 = TYPE_PTR then
      ∃ host, HostAt buf (e + 10) host stop ∧ answer.2 = (hostName host).asBytes
    else answer.2 = (buf.drop (e + 10)).take rdlength.toNat

/-- The records of these answers stand end to end from `pos` to `stop`. -/
def ResourcesIn (buf : List UInt8) : List (UInt16 × List UInt8) → Nat → Nat → Prop
  | [], pos, stop => stop = pos
  | answer :: answers, pos, stop =>
    ∃ mid, ResourceAt buf pos answer mid ∧ ResourcesIn buf answers mid stop

/-- A reply with this identifier, without an error, and with these answers.  What follows them
is not looked at. -/
structure Message (buf : List UInt8) (id : UInt16) (answers : List (UInt16 × List UInt8)) :
    Prop where
  long : 12 ≤ buf.length
  identifier : headerWord buf 0 = id
  isReply : (headerWord buf 2 >>> 15) &&& 1 = 1
  noError : headerWord buf 2 &&& 0x000F = 0
  count : answers.length = (headerWord buf 6).toNat
  layout : ∃ mid stop, QuestionsIn buf (headerWord buf 4).toNat 12 mid ∧
    ResourcesIn buf answers mid stop

/-! ### Reading them -/

theorem QuestionsIn.skipQuestions {n : Nat} (h : QuestionsIn buf n pos stop) :
    Fcrdns.skipQuestions buf n pos = some stop := by
  induction n generalizing pos with
  | zero =>
    obtain rfl : stop = pos := h
    rfl
  | succ n ih =>
    obtain ⟨host, e, hhost, -, hrest⟩ := h
    rw [Fcrdns.skipQuestions, hhost.readName]
    exact ih hrest

/-- Questions that have been skipped are there, if the message goes on that far. -/
theorem questionsIn_of_skipQuestions {n : Nat} (h : skipQuestions buf n pos = some stop)
    (hstop : stop ≤ buf.length) : QuestionsIn buf n pos stop := by
  induction n generalizing pos with
  | zero => exact (Option.some.inj h).symm
  | succ n ih =>
    rw [skipQuestions] at h
    split at h
    · cases h
    rename_i name next hname
    obtain ⟨host, hhost, -⟩ := readName_iff.mp hname
    have hle := le_questionsEnd? (questionsEnd?_of_skipQuestions h)
    exact ⟨host, next, hhost, hle.trans hstop, ih h⟩

theorem ResourceAt.readAnswer {answer : UInt16 × List UInt8} (h : ResourceAt buf pos answer stop) :
    Fcrdns.readAnswer buf pos = some (answer, stop) := by
  obtain ⟨rtype, data⟩ := answer
  obtain ⟨owner, e, rdlength, howner, hrtype, hrdlength, rfl, hin, hdata⟩ := h
  dsimp only at hrtype hdata
  simp only [Fcrdns.readAnswer, howner.readName, hrtype, hrdlength, Option.bind_eq_bind,
    Option.bind_some]
  by_cases hptr : rtype = TYPE_PTR
  · rw [if_pos hptr] at hdata
    obtain ⟨host, hhost, rfl⟩ := hdata
    rw [if_pos hptr, hhost.readName]
    rfl
  · rw [if_neg hptr] at hdata
    rw [if_neg hptr, List.getRange?, if_pos ⟨by omega, hin⟩, Nat.add_sub_cancel_left, ← hdata]
    rfl

/-- A record that has been read is there, if the length it states is that of its name. -/
theorem resourceAt_of_readAnswer {answer : UInt16 × List UInt8}
    (h : readAnswer buf pos = some (answer, stop)) (hmatch : ptrLengthMatches buf pos = true) :
    ResourceAt buf pos answer stop := by
  obtain ⟨e, rdlength, hname, hrtype, hrdlength, hstop, hin, hdata⟩ :=
    (recordAt_iff h).mpr ⟨rfl, hmatch⟩
  have howner : ∃ owner, HostAt buf pos owner e := by
    rw [readAnswer] at h
    obtain ⟨⟨name, next⟩, hread, -⟩ := Option.bind_eq_some_iff.mp h
    obtain ⟨owner, howner, -⟩ := readName_iff.mp hread
    have hends := howner.ends
    rw [hname] at hends
    exact ⟨owner, Option.some.inj hends ▸ howner⟩
  obtain ⟨owner, howner⟩ := howner
  refine ⟨owner, e, rdlength, howner, hrtype, hrdlength, hstop, hin, ?_⟩
  by_cases hptr : answer.1 = TYPE_PTR
  · rw [if_pos hptr] at hdata ⊢
    obtain ⟨name, hread, hbytes⟩ := hdata
    obtain ⟨host, hhost, rfl⟩ := readName_iff.mp hread
    exact ⟨host, hhost, hbytes⟩
  · rw [if_neg hptr] at hdata ⊢
    exact hdata

theorem ResourcesIn.readAnswers {answers before : List (UInt16 × List UInt8)}
    (h : ResourcesIn buf answers pos stop) :
    Fcrdns.readAnswers buf answers.length pos before = some (before ++ answers) := by
  induction answers generalizing pos before with
  | nil => rw [List.append_nil]; rfl
  | cons answer answers ih =>
    obtain ⟨mid, hanswer, hrest⟩ := h
    rw [List.length_cons, Fcrdns.readAnswers, hanswer.readAnswer]
    dsimp only
    rw [ih hrest, List.append_assoc, List.singleton_append]

theorem resourcesIn_of_readAnswers {n : Nat} {before answers : List (UInt16 × List UInt8)}
    (h : readAnswers buf n pos before = some answers)
    (hmatch : ptrLengthsMatch buf n pos = true) :
    ∃ added stop, answers = before ++ added ∧ added.length = n ∧
      ResourcesIn buf added pos stop := by
  induction n generalizing pos before with
  | zero => exact ⟨[], pos, by rw [List.append_nil]; exact (Option.some.inj h).symm, rfl, rfl⟩
  | succ n ih =>
    rw [readAnswers] at h
    split at h
    · cases h
    rename_i answer next hanswer
    rw [ptrLengthsMatch, recordEnd?_of_readAnswer hanswer, Option.all_some,
      Bool.and_eq_true] at hmatch
    obtain ⟨added, stop, rfl, hlen, hrest⟩ := ih h hmatch.2
    refine ⟨answer :: added, stop, by rw [List.append_assoc, List.singleton_append],
      by rw [List.length_cons, hlen], next, resourceAt_of_readAnswer hanswer hmatch.1, hrest⟩

/-- **A message of the grammar is read in full**, however its names are compressed. -/
theorem Message.parseResponse {id : UInt16} {answers : List (UInt16 × List UInt8)}
    (h : Message buf id answers) : Fcrdns.parseResponse buf id = some answers := by
  obtain ⟨mid, stop, hquestions, hanswers⟩ := h.layout
  have hread : readAnswers buf answers.length mid [] = some ([] ++ answers) :=
    hanswers.readAnswers
  rw [Fcrdns.parseResponse, if_neg (Nat.not_lt.mpr h.long), if_neg (not_not.mpr h.identifier)]
  dsimp only
  rw [if_neg (by rw [h.isReply, h.noError]; decide), hquestions.skipQuestions]
  dsimp only
  rw [← h.count, hread, List.nil_append]

/-- The identifier of an accepted reply. -/
theorem identifier_of_parseResponse {id : UInt16} {answers : List (UInt16 × List UInt8)}
    (h : parseResponse buf id = some answers) : headerWord buf 0 = id := by
  by_contra hne
  rw [parseResponse] at h
  split_ifs at h

/-- **The replies `parse_response` accepts.**  Of the messages without an error that are well
cut, it accepts those of the grammar with this identifier, and returns their answers. -/
theorem parseResponse_iff {id : UInt16} {answers : List (UInt16 × List UInt8)}
    (hcut : wellCut buf = true) (hqr : (headerWord buf 2 >>> 15) &&& 1 = 1)
    (hrcode : headerWord buf 2 &&& 0x000F = 0) :
    parseResponse buf id = some answers ↔ Message buf id answers := by
  constructor
  · intro h
    obtain ⟨hlong, mid, hquestions, hanswers⟩ := parseResponse_eq_some h hqr hrcode
    rw [wellCut, questionsEnd?_of_skipQuestions hquestions, Option.all_some,
      Bool.and_eq_true, decide_eq_true_iff] at hcut
    obtain ⟨added, stop, hadded, hlen, hresources⟩ := resourcesIn_of_readAnswers hanswers hcut.2
    rw [List.nil_append] at hadded
    subst hadded
    exact ⟨hlong, identifier_of_parseResponse h, hqr, hrcode, hlen, mid, stop,
      questionsIn_of_skipQuestions hquestions hcut.1, hresources⟩
  · exact Message.parseResponse

/-- The owner of the record is a pointer to the question. -/
theorem parseResponse_iff_ptr : Message (ptrReply 3) 7 [(TYPE_PTR, [98])] :=
  (parseResponse_iff (by decide +kernel) (by decide +kernel) (by decide +kernel)).mp
    (by decide +kernel)

end Binda.Fcrdns
