import Binda.Lib.Scan
import Binda.Core.ClientApi

/-!
# The signed messages

The three canonical messages of `client_api.rs` are put together with `:` and no
lengths, around a domain that may contain anything.  `SignedMessage.bytes_injective`
says that they are unambiguous all the same: the bytes name the kind of the
message and every field.

The one hard case is a message about records.  Another way to split it would put
the end of the domain into the JSON of the records, where `:`, a time stamp and
`:` can stand inside a string only (`Scan.scan_stamped`); but the records that
would follow start with a quote, which closes the string, and an `n`, which
cannot come after it.
-/

namespace Binda

open Scan

/-! ### Scanning records -/

theorem scan_nameKey : scan out "\x7b\"name\":".toList = colon := by decide

theorem scan_typeKey : scan closed ",\"type\":".toList = colon := by decide

theorem scan_ttlKey : scan closed ",\"ttl_secs\":".toList = colon := by decide

theorem scan_valueKey : scan out "\"value\":".toList = colon := by decide

theorem scan_recordJson (r : Record) : scan out (recordJson r) = out := by
  have hstr : ∀ t : String, scan colon (jsonString t) = closed := fun t => scan_jsonString t rfl
  have hname : scan out (nameAndTypeJson (r.name, r.recordType)) = closed := by
    unfold nameAndTypeJson
    rw [scan_append, scan_append, scan_append, scan_nameKey, hstr, scan_typeKey, hstr]
  unfold recordJson ttlAndValueJson
  rw [scan_append, hname, scan_append, scan_append, scan_append, scan_append, scan_append,
    scan_ttlKey, scan_digits_colon (digits_toDigits _)]
  rw [show scan number [','] = out from rfl, scan_valueKey, hstr]
  rfl

theorem scan_recordsJson (rs : List Record) : scan out (recordsJson rs) = out := by
  have htail : ∀ l : List Record,
      scan out (l.flatMap (fun r => ',' :: recordJson r) ++ [']']) = out := by
    intro l
    induction l with
    | nil => rfl
    | cons r l ih =>
      rw [List.flatMap_cons, List.append_assoc, scan_append, scan_cons,
        show step out ',' = out from rfl, scan_recordJson, ih]
  cases rs with
  | nil => rfl
  | cons r l =>
    rw [recordsJson, scan_cons, show step out '[' = out from rfl, PrefixCode.separated, scan_append,
      scan_recordJson, htail]

theorem scan_nameKey_string : scan (step string '[') "\x7b\"name\":".toList = bad := by decide

/-- Inside a string no list of records follows. -/
theorem scan_string_recordsJson (rs : List Record) : scan string (recordsJson rs) ≠ out := by
  cases rs with
  | nil => decide
  | cons r l =>
    have hbad : scan string (recordsJson (r :: l)) = bad := by
      unfold recordsJson PrefixCode.separated recordJson nameAndTypeJson
      rw [scan_cons, scan_append, scan_append, scan_append, scan_append, scan_append, scan_append,
        scan_nameKey_string, scan_bad, scan_bad, scan_bad, scan_bad, scan_bad, scan_bad]
    rw [hbad]
    decide

/-- **No list of records ends in a time stamp and a list of records.** -/
theorem recordsJson_ne_stamped {rs rs' : List Record} {u l : List Char} (hl : Digits l) :
    recordsJson rs ≠ u ++ ':' :: (l ++ ':' :: recordsJson rs') := by
  intro h
  have hscan := scan_recordsJson rs
  rw [h, scan_append] at hscan
  have hstamped := scan_stamped hl (by rw [hscan]; decide)
  exact scan_string_recordsJson rs' (hstamped.symm.trans hscan)

theorem recordsJson_ne_digits {rs : List Record} {l m : List Char} (hl : Digits l) :
    recordsJson rs ≠ l ++ m := by
  obtain ⟨hne, hd⟩ := hl
  intro h
  cases l with
  | nil => exact hne rfl
  | cons c l =>
    rw [recordsJson, List.cons_append] at h
    have hc := hd c List.mem_cons_self
    rw [← (List.cons.inj h).1] at hc
    cases hc

/-! ### Where the domain ends -/

/-- A time stamp and records split off what follows the domain in one way. -/
theorem append_stamped_eq {d a l l' : List Char} {rs rs' : List Record} (hl : Digits l)
    (hl' : Digits l') (h : d ++ ':' :: (l ++ ':' :: recordsJson rs) =
      (d ++ a) ++ ':' :: (l' ++ ':' :: recordsJson rs')) : a = [] := by
  have hcolon : (':' : Char) ∉ l := fun hm => by
    have := hl.2 _ hm
    cases this
  rw [List.append_assoc, List.append_cancel_left_eq] at h
  cases a with
  | nil => rfl
  | cons x a =>
    exfalso
    obtain rfl := (List.cons.inj h).1
    have h : l ++ ':' :: recordsJson rs = a ++ ':' :: (l' ++ ':' :: recordsJson rs') :=
      (List.cons.inj h).2
    -- the second colon is where the digits end, or in the records
    rcases List.append_eq_append_iff.mp h with ⟨b, _, hb⟩ | ⟨b, hb, hb'⟩
    · cases b with
      | nil => exact recordsJson_ne_digits hl' (List.cons.inj hb).2
      | cons y b =>
        obtain rfl := (List.cons.inj hb).1
        exact recordsJson_ne_stamped hl' (List.cons.inj hb).2
    · cases b with
      | nil => exact recordsJson_ne_digits hl' (List.cons.inj hb').2.symm
      | cons y b =>
        obtain ⟨rfl, _⟩ := List.cons.inj hb'
        exact hcolon (hb ▸ List.mem_append_right a List.mem_cons_self)

/-- The characters of a message about records. -/
theorem toList_setRecordsMessage (d : DomainName) (rs : List Record) (t : UInt64) :
    setRecordsMessage d rs t = (String.ofList ("binda-set-records:".toList ++
      (d.raw.toList ++ ':' :: (Nat.toDigits 10 t.toNat ++ ':' :: recordsJson rs)))).toUTF8 := by
  have hs : "binda-set-records:" ++ d.raw ++ ":" ++ toString t ++ ":" ++
      String.ofList (recordsJson rs) = String.ofList ("binda-set-records:".toList ++
        (d.raw.toList ++ ':' :: (Nat.toDigits 10 t.toNat ++ ':' :: recordsJson rs))) := by
    refine String.toList_injective ?_
    simp only [String.toList_append, String.toList_ofList, toList_toString, List.append_assoc]
    rfl
  rw [setRecordsMessage, String.toUTF8, String.toUTF8, ← String.toByteArray_append, String.toUTF8,
    ← hs]
  rfl

theorem domain_eq_of_setRecordsMessage {d d' : DomainName} {rs rs' : List Record} {t t' : UInt64}
    (h : setRecordsMessage d rs t = setRecordsMessage d' rs' t') : d = d' := by
  rw [toList_setRecordsMessage, toList_setRecordsMessage] at h
  have hl := String.ofList_injective (toUTF8_inj h)
  rw [List.append_cancel_left_eq] at hl
  have hd : d.raw.toList = d'.raw.toList := by
    rcases List.append_eq_append_iff.mp hl with ⟨a, ha, _⟩ | ⟨a, ha, _⟩
    · rw [ha] at hl ⊢
      rw [append_stamped_eq (digits_toDigits _) (digits_toDigits _) hl, List.append_nil]
    · rw [ha] at hl ⊢
      rw [append_stamped_eq (digits_toDigits _) (digits_toDigits _) hl.symm, List.append_nil]
  cases d
  cases d'
  exact congrArg _ (String.toList_injective hd)

/-! ### All messages -/

/-- What a client signs. -/
inductive SignedMessage
  | probe (timestampMillis : UInt64)
  | register (domain : DomainName) (timestampMillis : UInt64)
  | setRecords (domain : DomainName) (records : List Record) (timestampMillis : UInt64)
  deriving DecidableEq

/-- The bytes the signature covers. -/
def SignedMessage.bytes : SignedMessage → ByteArray
  | .probe timestampMillis => probeMessage timestampMillis
  | .register domain timestampMillis => registerMessage domain timestampMillis
  | .setRecords domain records timestampMillis => setRecordsMessage domain records timestampMillis

/-- The letter in which the three prefixes differ. -/
def SignedMessage.letter : SignedMessage → Char
  | .probe _ => 'p'
  | .register _ _ => 'r'
  | .setRecords _ _ _ => 's'

theorem SignedMessage.bytes_eq (m : SignedMessage) :
    ∃ rest, m.bytes = (String.ofList ("binda-".toList ++ m.letter :: rest)).toUTF8 := by
  have key : ∀ (s : String) (rest : List Char), s.toList = "binda-".toList ++ m.letter :: rest →
      s.toUTF8 = (String.ofList ("binda-".toList ++ m.letter :: rest)).toUTF8 := by
    intro s rest h
    rw [← h, String.ofList_toList]
  cases m with
  | probe t =>
    refine ⟨"robe:".toList ++ (toString t).toList, key _ _ ?_⟩
    exact String.toList_append
  | register d t =>
    refine ⟨"egister:".toList ++ (d.raw.toList ++ ':' :: (toString t).toList), key _ _ ?_⟩
    change ("binda-register:" ++ d.raw ++ ":" ++ toString t).toList = _
    simp only [String.toList_append, List.append_assoc]
    rfl
  | setRecords d rs t =>
    exact ⟨_, toList_setRecordsMessage d rs t⟩

/-- **The bytes name the kind of the message and every field.** -/
theorem SignedMessage.bytes_injective : Function.Injective SignedMessage.bytes := by
  intro m m' h
  have hletter : m.letter = m'.letter := by
    obtain ⟨rest, hm⟩ := m.bytes_eq
    obtain ⟨rest', hm'⟩ := m'.bytes_eq
    rw [hm, hm'] at h
    have hl := String.ofList_injective (toUTF8_inj h)
    rw [List.append_cancel_left_eq] at hl
    exact (List.cons.inj hl).1
  cases m <;> cases m' <;> try simp [SignedMessage.letter] at hletter
  case probe.probe t t' => exact congrArg _ (probeMessage_injective h)
  case register.register d t d' t' =>
    obtain ⟨rfl, rfl⟩ := registerMessage_injective h
    rfl
  case setRecords.setRecords d rs t d' rs' t' =>
    obtain rfl := domain_eq_of_setRecordsMessage h
    obtain ⟨rfl, rfl⟩ := setRecordsMessage_injective h
    rfl

end Binda
