import Binda.Core.ReadName

/-!
# The records of a reply

What `parse_response` takes for an answer, beside what a reply with whole records looks like
(`CompleteRecords`): the questions and then the records, end to end from the byte 12 on and
inside the message, each answer the data of its own record.

`parseResponse_complete_iff` says which accepted replies are such: those that are not cut
inside the last question and whose `PTR` records state the length of the name in them
(`wellCut`).  The loop moves behind a record by its stated length, and reads a name without
looking at that length (`readAnswer_eq_some`).
-/

namespace Binda.Fcrdns

variable {buf : List UInt8}

/-! ### Whole records -/

/-- A question stands at `pos` and ends at `stop`: a name and four bytes. -/
def QuestionAt (buf : List UInt8) (pos stop : Nat) : Prop :=
  ∃ e, nameEnd? buf pos = some e ∧ stop = e + 4 ∧ stop ≤ buf.length

/-- So many questions stand end to end from `pos` to `stop`. -/
def QuestionsAt (buf : List UInt8) : Nat → Nat → Nat → Prop
  | 0, pos, stop => stop = pos
  | n + 1, pos, stop => ∃ mid, QuestionAt buf pos mid ∧ QuestionsAt buf n mid stop

/-- A record stands at `pos` and ends at `stop`: a name, ten bytes with its type and the
length of its data, and the data.  The answer is its type with its data: for `PTR`, the name
that fills it. -/
def RecordAt (buf : List UInt8) (pos : Nat) (answer : UInt16 × List UInt8) (stop : Nat) : Prop :=
  ∃ e rdlength, nameEnd? buf pos = some e ∧ readU16 buf e = some answer.1 ∧
    readU16 buf (e + 8) = some rdlength ∧ stop = e + 10 + rdlength.toNat ∧ stop ≤ buf.length ∧
    if answer.1 = TYPE_PTR then
      ∃ host, readName buf (e + 10) = some (host, stop) ∧ answer.2 = host.asBytes
    else answer.2 = (buf.drop (e + 10)).take rdlength.toNat

/-- The records of these answers stand end to end from `pos` to `stop`. -/
def RecordsAt (buf : List UInt8) : List (UInt16 × List UInt8) → Nat → Nat → Prop
  | [], pos, stop => stop = pos
  | answer :: answers, pos, stop =>
    ∃ mid, RecordAt buf pos answer mid ∧ RecordsAt buf answers mid stop

/-- The message holds its questions and, for each answer, a record of its own. -/
def CompleteRecords (buf : List UInt8) (answers : List (UInt16 × List UInt8)) : Prop :=
  answers.length = (headerWord buf 6).toNat ∧
    ∃ mid stop, QuestionsAt buf (headerWord buf 4).toNat 12 mid ∧ RecordsAt buf answers mid stop

/-! ### Replies that are cut well -/

/-- The position behind so many questions, wherever the message ends. -/
def questionsEnd? (buf : List UInt8) : Nat → Nat → Option Nat
  | 0, pos => some pos
  | n + 1, pos => (nameEnd? buf pos).bind fun e => questionsEnd? buf n (e + 4)

/-- The position behind the record at `pos`, by the length it states. -/
def recordEnd? (buf : List UInt8) (pos : Nat) : Option Nat :=
  (nameEnd? buf pos).bind fun e =>
    (readU16 buf (e + 8)).map fun rdlength => e + 10 + rdlength.toNat

/-- If the record at `pos` is a `PTR`, then the name in it ends where the record does. -/
def ptrLengthMatches (buf : List UInt8) (pos : Nat) : Bool :=
  match nameEnd? buf pos with
  | none => true
  | some e => readU16 buf e != some TYPE_PTR || nameEnd? buf (e + 10) == recordEnd? buf pos

/-- So are the records from `pos` on, as many as there are. -/
def ptrLengthsMatch (buf : List UInt8) : Nat → Nat → Bool
  | 0, _ => true
  | n + 1, pos =>
    ptrLengthMatches buf pos && (recordEnd? buf pos).all fun next => ptrLengthsMatch buf n next

/-- The message goes on to the end of its last question, and its `PTR` records state the
lengths of their names. -/
def wellCut (buf : List UInt8) : Bool :=
  (questionsEnd? buf (headerWord buf 4).toNat 12).all fun mid =>
    mid ≤ buf.length && ptrLengthsMatch buf (headerWord buf 6).toNat mid

/-! ### The questions -/

theorem questionsEnd?_of_skipQuestions {n pos mid : Nat}
    (h : skipQuestions buf n pos = some mid) : questionsEnd? buf n pos = some mid := by
  induction n generalizing pos with
  | zero => exact h
  | succ n ih =>
    rw [skipQuestions] at h
    split at h
    · cases h
    rename_i name next hname
    rw [questionsEnd?, nameEnd?_of_readName hname, Option.bind_some]
    exact ih h

theorem le_questionsEnd? {n pos mid : Nat} (h : questionsEnd? buf n pos = some mid) :
    pos ≤ mid := by
  induction n generalizing pos with
  | zero => exact (Option.some.inj h).le
  | succ n ih =>
    obtain ⟨e, he, hrest⟩ := Option.bind_eq_some_iff.mp h
    have h1 := lt_and_le_of_nameEnd? he
    have h2 := ih hrest
    omega

/-- **The questions stand in the message when it goes on to the end of the last.** -/
theorem questionsAt_iff {n pos mid stop : Nat} (h : questionsEnd? buf n pos = some mid)
    (hpos : pos ≤ buf.length) : QuestionsAt buf n pos stop ↔ stop = mid ∧ mid ≤ buf.length := by
  induction n generalizing pos with
  | zero =>
    obtain rfl := Option.some.inj h
    exact ⟨fun he => ⟨he, hpos⟩, fun he => he.1⟩
  | succ n ih =>
    obtain ⟨e, he, hrest⟩ := Option.bind_eq_some_iff.mp h
    have hle := le_questionsEnd? hrest
    constructor
    · rintro ⟨next, ⟨e', he', rfl, hin⟩, hqs⟩
      rw [he] at he'
      obtain rfl := Option.some.inj he'
      exact (ih hrest hin).mp hqs
    · rintro ⟨rfl, hmid⟩
      have hin : e + 4 ≤ buf.length := by omega
      exact ⟨e + 4, ⟨e, he, rfl, hin⟩, (ih hrest hin).mpr ⟨rfl, hmid⟩⟩

/-! ### The answers -/

/-- **What one round of the loop over the answers reads.** -/
theorem readAnswer_eq_some {pos next : Nat} {answer : UInt16 × List UInt8}
    (h : readAnswer buf pos = some (answer, next)) :
    ∃ e rdlength, nameEnd? buf pos = some e ∧ readU16 buf e = some answer.1 ∧
      readU16 buf (e + 8) = some rdlength ∧ next = e + 10 + rdlength.toNat ∧
      if answer.1 = TYPE_PTR then
        ∃ host stop, readName buf (e + 10) = some (host, stop) ∧ answer.2 = host.asBytes
      else buf.getRange? (e + 10) next = some answer.2 := by
  simp only [readAnswer, Option.bind_eq_bind, Option.bind_eq_some_iff, Prod.exists] at h
  obtain ⟨name, e, hname, rtype, hrtype, rdlength, hrdlength, h⟩ := h
  by_cases hptr : rtype = TYPE_PTR
  · rw [if_pos hptr] at h
    obtain ⟨data, hdata, h⟩ := Option.bind_eq_some_iff.mp h
    obtain ⟨⟨host, stop⟩, hhost, hbytes⟩ := Option.map_eq_some_iff.mp hdata
    obtain ⟨rfl, rfl⟩ := Prod.mk.inj (Option.some.inj h)
    refine ⟨e, rdlength, nameEnd?_of_readName hname, hrtype, hrdlength, rfl, ?_⟩
    rw [if_pos hptr]
    exact ⟨host, stop, hhost, hbytes.symm⟩
  · rw [if_neg hptr] at h
    obtain ⟨data, hdata, h⟩ := Option.bind_eq_some_iff.mp h
    obtain ⟨rfl, rfl⟩ := Prod.mk.inj (Option.some.inj h)
    refine ⟨e, rdlength, nameEnd?_of_readName hname, hrtype, hrdlength, rfl, ?_⟩
    rw [if_neg hptr]
    exact hdata

/-- The loop goes on behind the record as it states its length. -/
theorem recordEnd?_of_readAnswer {pos next : Nat} {answer : UInt16 × List UInt8}
    (h : readAnswer buf pos = some (answer, next)) : recordEnd? buf pos = some next := by
  obtain ⟨e, rdlength, hname, _, hrdlength, hnext, _⟩ := readAnswer_eq_some h
  rw [recordEnd?, hname, Option.bind_some, hrdlength, hnext]
  rfl

/-- **An answer is that of a whole record when the name in a `PTR` ends with it.** -/
theorem recordAt_iff {pos next stop : Nat} {answer : UInt16 × List UInt8}
    (h : readAnswer buf pos = some (answer, next)) :
    RecordAt buf pos answer stop ↔ stop = next ∧ ptrLengthMatches buf pos = true := by
  obtain ⟨e, rdlength, hname, hrtype, hrdlength, hnext, hdata⟩ := readAnswer_eq_some h
  rw [ptrLengthMatches, hname]
  simp only [recordEnd?_of_readAnswer h, hrtype]
  constructor
  · rintro ⟨e', rdlength', hname', hrtype', hrdlength', rfl, hin, hdata'⟩
    rw [hname] at hname'
    obtain rfl := Option.some.inj hname'
    rw [hrdlength] at hrdlength'
    obtain rfl := Option.some.inj hrdlength'
    refine ⟨hnext.symm, ?_⟩
    by_cases hptr : answer.1 = TYPE_PTR
    · rw [if_pos hptr] at hdata'
      obtain ⟨host, hhost, -⟩ := hdata'
      rw [nameEnd?_of_readName hhost, hnext, Bool.or_eq_true]
      exact Or.inr (beq_self_eq_true _)
    · rw [Bool.or_eq_true]
      exact Or.inl (bne_iff_ne.mpr fun he => hptr (Option.some.inj he))
  · rintro ⟨rfl, hmatch⟩
    by_cases hptr : answer.1 = TYPE_PTR
    · rw [if_pos hptr] at hdata
      obtain ⟨host, stop', hhost, hbytes⟩ := hdata
      -- the name ends with the record, so the record ends inside
      have hstop := nameEnd?_of_readName hhost
      rw [hptr, hstop] at hmatch
      obtain rfl : stop' = stop := by simpa using hmatch
      refine ⟨e, rdlength, hname, hrtype, hrdlength, hnext, (lt_and_le_of_nameEnd? hstop).2, ?_⟩
      rw [if_pos hptr]
      exact ⟨host, hhost, hbytes⟩
    · rw [if_neg hptr, List.getRange?] at hdata
      split_ifs at hdata with hin
      refine ⟨e, rdlength, hname, hrtype, hrdlength, hnext, hin.2, ?_⟩
      rw [if_neg hptr, ← Option.some.inj hdata, hnext, Nat.add_sub_cancel_left]

/-- **The answers, as many as were counted, are those of whole records when the lengths of
their `PTR` names match.** -/
theorem recordsAt_iff {n pos : Nat} {before answers : List (UInt16 × List UInt8)}
    (h : readAnswers buf n pos before = some answers) :
    ∃ added, answers = before ++ added ∧ added.length = n ∧
      ((∃ stop, RecordsAt buf added pos stop) ↔ ptrLengthsMatch buf n pos = true) := by
  induction n generalizing pos before with
  | zero =>
    refine ⟨[], ?_, rfl, ?_⟩
    · rw [List.append_nil]
      exact (Option.some.inj h).symm
    · exact ⟨fun _ => rfl, fun _ => ⟨pos, rfl⟩⟩
  | succ n ih =>
    rw [readAnswers] at h
    split at h
    · cases h
    rename_i answer next hanswer
    obtain ⟨added, rfl, hlen, hiff⟩ := ih h
    refine ⟨answer :: added, ?_, by rw [List.length_cons, hlen], ?_⟩
    · rw [List.append_assoc, List.singleton_append]
    rw [ptrLengthsMatch, recordEnd?_of_readAnswer hanswer, Option.all_some, Bool.and_eq_true, ← hiff]
    constructor
    · rintro ⟨stop, mid, hrecord, hrest⟩
      obtain ⟨rfl, hmatch⟩ := (recordAt_iff hanswer).mp hrecord
      exact ⟨hmatch, stop, hrest⟩
    · rintro ⟨hmatch, stop, hrest⟩
      exact ⟨stop, next, (recordAt_iff hanswer).mpr ⟨rfl, hmatch⟩, hrest⟩

/-- What `parse_response` has read of a reply without an error. -/
theorem parseResponse_eq_some {id : UInt16} {answers : List (UInt16 × List UInt8)}
    (h : parseResponse buf id = some answers) (hqr : (headerWord buf 2 >>> 15) &&& 1 = 1)
    (hrcode : headerWord buf 2 &&& 0x000F = 0) :
    12 ≤ buf.length ∧ ∃ mid, skipQuestions buf (headerWord buf 4).toNat 12 = some mid ∧
      readAnswers buf (headerWord buf 6).toNat mid [] = some answers := by
  rw [parseResponse] at h
  dsimp only at h
  split_ifs at h with h1 h2 h3
  · exact absurd h3 (by rw [hqr, hrcode]; decide)
  · refine ⟨by omega, ?_⟩
    split at h
    · cases h
    rename_i mid hmid
    exact ⟨mid, hmid, h⟩

/-- **An accepted reply holds whole records exactly when it is cut well.** -/
theorem parseResponse_complete_iff {id : UInt16} {answers : List (UInt16 × List UInt8)}
    (h : parseResponse buf id = some answers) (hqr : (headerWord buf 2 >>> 15) &&& 1 = 1)
    (hrcode : headerWord buf 2 &&& 0x000F = 0) :
    CompleteRecords buf answers ↔ wellCut buf = true := by
  obtain ⟨hheader, mid, hmid, hanswers⟩ := parseResponse_eq_some h hqr hrcode
  have hend := questionsEnd?_of_skipQuestions hmid
  obtain ⟨added, hadded, hlen, hrecords⟩ := recordsAt_iff hanswers
  rw [List.nil_append] at hadded
  subst hadded
  rw [CompleteRecords, wellCut, hend, Option.all_some, Bool.and_eq_true, decide_eq_true_iff,
    ← hrecords]
  constructor
  · rintro ⟨_, mid', stop, hqs, hrs⟩
    obtain ⟨rfl, hin⟩ := (questionsAt_iff hend hheader).mp hqs
    exact ⟨hin, stop, hrs⟩
  · rintro ⟨hin, stop, hrs⟩
    exact ⟨hlen, mid, stop, (questionsAt_iff hend hheader).mpr ⟨rfl, hin⟩, hrs⟩

/-- A reply with the `PTR` name `b` for the question `a`, which states `rdlength` for it. -/
def ptrReply (rdlength : UInt8) : List UInt8 :=
  [0, 7, 0x81, 0x80, 0, 1, 0, 1, 0, 0, 0, 0] ++ [1, 97, 0, 0, 12, 0, 1] ++
    [0xC0, 12, 0, 12, 0, 1, 0, 0, 1, 44, 0, rdlength, 1, 98, 0]

theorem parseResponse_complete_iff_ptr : CompleteRecords (ptrReply 3) [(TYPE_PTR, [98])] :=
  (parseResponse_complete_iff (by decide +kernel : parseResponse (ptrReply 3) 7 = _)
    (by decide +kernel) (by decide +kernel)).mpr (by decide +kernel)

/-- A reply that stops behind the name of its question. -/
def cutReply : List UInt8 := [0, 7, 0x81, 0x80, 0, 1, 0, 0, 0, 0, 0, 0] ++ [1, 97, 0]

/-- **Replies are accepted without their records**: one whose record says that it goes on for
200 bytes, and one that ends inside its question. -/
theorem incomplete_replies_are_accepted :
    (parseResponse (ptrReply 200) 7 = some [(TYPE_PTR, [98])] ∧
        (headerWord (ptrReply 200) 2 >>> 15) &&& 1 = 1 ∧
        headerWord (ptrReply 200) 2 &&& 0x000F = 0 ∧
        ¬ CompleteRecords (ptrReply 200) [(TYPE_PTR, [98])]) ∧
      parseResponse cutReply 7 = some [] ∧ (headerWord cutReply 2 >>> 15) &&& 1 = 1 ∧
        headerWord cutReply 2 &&& 0x000F = 0 ∧ ¬ CompleteRecords cutReply [] := by
  refine ⟨⟨by decide +kernel, by decide +kernel, by decide +kernel, ?_⟩, by decide +kernel,
    by decide +kernel, by decide +kernel, ?_⟩
  · rintro ⟨_, mid, stop, hqs, next, hrecord, _⟩
    have hend : questionsEnd? (ptrReply 200) (headerWord (ptrReply 200) 4).toNat 12 = some 19 := by
      decide +kernel
    obtain ⟨rfl, _⟩ := (questionsAt_iff hend (by decide)).mp hqs
    have hanswer : readAnswer (ptrReply 200) 19 = some ((TYPE_PTR, [98]), 231) := by
      decide +kernel
    exact absurd ((recordAt_iff hanswer).mp hrecord).2 (by decide +kernel)
  · rintro ⟨_, mid, stop, hqs, _⟩
    have hend : questionsEnd? cutReply (headerWord cutReply 4).toNat 12 = some 19 := by
      decide +kernel
    exact absurd ((questionsAt_iff hend (by decide)).mp hqs).2 (by decide)

end Binda.Fcrdns
