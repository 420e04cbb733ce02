import Binda.Lib.Text

/-!
# Records

`zone.rs`: the records a domain carries, and how `serde_json` writes a list of
them (compact, fields in the order they are declared, `type` for the record
type, the type's name in upper case).

`recordsJson_prefixCode`: a list of records can be read back from the front of
a text in one way only, so `recordsJson` is injective.
-/

namespace Binda

/-- `RecordType`. -/
inductive RecordType
  | a
  | aaaa
  | cname
  | mx
  | txt
  | ns
  deriving DecidableEq, Repr

/-- `#[serde(rename_all = "UPPERCASE")]`. -/
def RecordType.name : RecordType → String
  | .a => "A"
  | .aaaa => "AAAA"
  | .cname => "CNAME"
  | .mx => "MX"
  | .txt => "TXT"
  | .ns => "NS"

theorem RecordType.name_injective : Function.Injective RecordType.name := by
  intro s t h
  cases s <;> cases t <;> first | rfl | exact absurd h (by decide)

/-- `Record`. -/
structure Record where
  name : String
  recordType : RecordType
  ttlSecs : UInt32
  value : String
  deriving DecidableEq, Repr

/-! ### Compact JSON -/

/-- The fields `name` and `type`, up to the comma. -/
def nameAndTypeJson (p : String × RecordType) : List Char :=
  ("\x7b\"name\":".toList ++ jsonString p.1) ++ (",\"type\":".toList ++ jsonString p.2.name)

/-- The fields `ttl_secs` and `value`, from the comma to the closing brace. -/
def ttlAndValueJson (p : UInt32 × String) : List Char :=
  (",\"ttl_secs\":".toList ++ (Nat.toDigits 10 p.1.toNat ++ [','])) ++
    (("\"value\":".toList ++ jsonString p.2) ++ "\x7d".toList)

/-- One record. -/
def recordJson (r : Record) : List Char :=
  nameAndTypeJson (r.name, r.recordType) ++ ttlAndValueJson (r.ttlSecs, r.value)

/-- `serde_json::to_vec` on a list of records, as characters. -/
def recordsJson (records : List Record) : List Char :=
  '[' :: PrefixCode.separated recordJson ',' ']' records

theorem nameAndTypeJson_prefixCode : PrefixCode nameAndTypeJson :=
  (jsonString_prefixCode.const_append _).pair
    ((jsonString_prefixCode.comp RecordType.name_injective).const_append _)

theorem ttlAndValueJson_prefixCode : PrefixCode ttlAndValueJson := by
  have httl : PrefixCode fun n : UInt32 => Nat.toDigits 10 n.toNat ++ [','] :=
    (PrefixCode.decimal_then (by decide)).comp fun _ _ h => UInt32.toNat_inj.mp h
  exact (httl.const_append _).pair ((jsonString_prefixCode.const_append _).append_const _)

theorem recordJson_prefixCode : PrefixCode recordJson := by
  have h := nameAndTypeJson_prefixCode.pair ttlAndValueJson_prefixCode
  refine h.comp (f := fun r : Record => ((r.name, r.recordType), r.ttlSecs, r.value)) ?_
  intro r s hrs
  cases r
  cases s
  simpa [and_assoc] using hrs

theorem recordJson_head (r : Record) : ∃ x t, recordJson r = x :: t ∧ x ≠ ']' :=
  ⟨'\x7b', _, rfl, by decide⟩

/-- **A list of records is read back in one way only.** -/
theorem recordsJson_prefixCode : PrefixCode recordsJson :=
  (recordJson_prefixCode.bracketed (by decide) recordJson_head).const_append ['[']

example : String.ofList (recordsJson [⟨"@", .a, 300, "203.0.113.1"⟩]) =
    "[\x7b\"name\":\"@\",\"type\":\"A\",\"ttl_secs\":300,\"value\":\"203.0.113.1\"\x7d]" := by decide

end Binda
