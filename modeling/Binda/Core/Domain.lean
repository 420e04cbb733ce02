import Binda.Core.Token

/-!
# Valid domain names

`domain.rs`: what `DomainName::new` enforces.  A name is valid when `new` accepts
its text; `valid_iff` spells that out.
-/

namespace Binda

/-- `DomainNameError`. -/
inductive DomainNameError
  | empty
  | nonPrintableChar (offset : Nat)
  | emptyLabel
  deriving DecidableEq, Repr

/-- The text `thiserror` gives it. -/
def DomainNameError.text : DomainNameError → String
  | .empty => "domain name must not be empty"
  | .nonPrintableChar offset =>
    s!"domain name contains a non-printable character at byte offset {offset}"
  | .emptyLabel => "domain label must not be empty (found consecutive or leading/trailing '.')"

/-- `char::is_control`: the general category `Cc`. -/
def isControl (c : Char) : Bool :=
  c.toNat < 0x20 || (0x7F ≤ c.toNat && c.toNat < 0xA0)

/-- The first control character or space, by its byte offset, in a text that starts
at `offset`. -/
def firstNonPrintable (offset : Nat) : List Char → Option Nat
  | [] => none
  | c :: cs =>
    if isControl c || c == ' ' then some offset else firstNonPrintable (offset + c.utf8Size) cs

namespace DomainName

/-- `DomainName::new`. -/
def new (raw : String) : Except DomainNameError DomainName :=
  if raw.toList.isEmpty then .error .empty
  else
    match firstNonPrintable 0 raw.toList with
    | some offset => .error (.nonPrintableChar offset)
    | none =>
      if (raw.toList.splitOn '.').any List.isEmpty then .error .emptyLabel else .ok ⟨raw⟩

/-- `DomainName::labels`. -/
def labels (d : DomainName) : List String := (d.raw.toList.splitOn '.').map String.ofList

/-- `DomainName::new` accepts the text of the name. -/
def Valid (d : DomainName) : Prop := new d.raw = .ok d

theorem eq_of_new {raw : String} {d : DomainName} (h : new raw = .ok d) : d = ⟨raw⟩ := by
  rw [new] at h
  split at h
  · cases h
  split at h
  · cases h
  split at h
  · cases h
  · exact (Except.ok.inj h).symm

theorem valid_of_new {raw : String} {d : DomainName} (h : new raw = .ok d) : d.Valid := by
  obtain rfl := eq_of_new h
  exact h

theorem firstNonPrintable_eq_none {cs : List Char} : ∀ {offset : Nat},
    firstNonPrintable offset cs = none ↔ ∀ c ∈ cs, isControl c = false ∧ c ≠ ' ' := by
  induction cs with
  | nil => simp [firstNonPrintable]
  | cons c cs ih =>
    intro offset
    rw [firstNonPrintable, List.forall_mem_cons]
    split
    · rename_i hc
      rw [Bool.or_eq_true, beq_iff_eq] at hc
      refine ⟨fun h => (by cases h), fun h => ?_⟩
      rcases hc with hc | hc
      · rw [hc] at h
        cases h.1.1
      · exact absurd hc h.1.2
    · rename_i hc
      rw [Bool.or_eq_true, beq_iff_eq, not_or, Bool.not_eq_true] at hc
      rw [ih]
      exact ⟨fun h => ⟨hc, h⟩, fun h => h.2⟩

/-- **What `DomainName::new` enforces.** -/
theorem valid_iff {d : DomainName} :
    d.Valid ↔ d.raw.toList ≠ [] ∧ (∀ c ∈ d.raw.toList, isControl c = false ∧ c ≠ ' ') ∧
      ∀ label ∈ d.raw.toList.splitOn '.', label ≠ [] := by
  rw [Valid, new]
  split
  · rename_i he
    exact ⟨fun h => (by cases h), fun h => absurd (List.isEmpty_iff.mp he) h.1⟩
  rename_i he
  rw [List.isEmpty_iff] at he
  split
  · rename_i offset hoff
    refine ⟨fun h => (by cases h), fun h => ?_⟩
    rw [firstNonPrintable_eq_none.mpr h.2.1] at hoff
    cases hoff
  rename_i hprint
  rw [firstNonPrintable_eq_none] at hprint
  split
  · rename_i hany
    refine ⟨fun h => (by cases h), fun h => ?_⟩
    obtain ⟨label, hl, hempty⟩ := List.any_eq_true.mp hany
    exact absurd (List.isEmpty_iff.mp hempty) (h.2.2 label hl)
  · rename_i hany
    refine ⟨fun _ => ⟨he, hprint, fun label hl hempty => hany ?_⟩, fun _ => rfl⟩
    exact List.any_eq_true.mpr ⟨label, hl, List.isEmpty_iff.mpr hempty⟩

instance (d : DomainName) : Decidable d.Valid := inferInstanceAs (Decidable (new d.raw = .ok d))

example : Valid ⟨"example.binda"⟩ ∧ ¬ Valid ⟨""⟩ ∧ ¬ Valid ⟨"a..b"⟩ ∧ ¬ Valid ⟨"a b"⟩ := by
  decide

end DomainName

end Binda
