import Binda.Lib.Bytes

/-!
# Names, tokens and arbitration

`domain.rs`, `token.rs` and `collision.rs`: a domain name as it travels (derived
deserialization does not run `DomainName::new`, so any string may arrive), the
registration token, and the pairwise rule that decides between two tokens.

`rawOrderingKey_lt_iff` says the bytes of a token's key compare as the pair of
issue time and nonce, and `negotiateLocally_eq` says what the derived condition
amounts to: the larger token wins between two tokens of one parity, the smaller
one between tokens of different parity.
-/

namespace Binda

/-- `DomainName`: a string and nothing more, as serde builds it. -/
structure DomainName where
  raw : String
  deriving DecidableEq, Repr

/-! ### Tokens -/

/-- `RegistrationToken`. -/
structure RegistrationToken where
  issuedAtMillis : UInt64
  nonce : Vector UInt8 8
  deriving DecidableEq, Repr

namespace RegistrationToken

/-- `RegistrationToken::issue`; the nonce is what the random generator yields. -/
def issue (issuedAtMillis : UInt64) (nonce : Vector UInt8 8) : RegistrationToken :=
  { issuedAtMillis, nonce }

/-- `RegistrationToken::raw_ordering_key`: sixteen bytes, compared in order. -/
def rawOrderingKey (t : RegistrationToken) : List UInt8 :=
  t.issuedAtMillis.toBeBytes ++ t.nonce.toList

@[simp] theorem rawOrderingKey_length (t : RegistrationToken) : t.rawOrderingKey.length = 16 := by
  simp [rawOrderingKey]

/-- **No two tokens have one key.** -/
theorem rawOrderingKey_injective : Function.Injective rawOrderingKey := by
  intro a b h
  obtain ⟨h1, h2⟩ := List.append_inj h (by simp)
  cases a
  cases b
  congr
  · exact toBeBytes_injective h1
  · exact Vector.toList_inj.mp h2

/-- The number a key writes: the issue time above the nonce. -/
theorem beValue_rawOrderingKey (t : RegistrationToken) :
    beValue t.rawOrderingKey = t.issuedAtMillis.toNat * 256 ^ 8 + beValue t.nonce.toList := by
  rw [rawOrderingKey, beValue_append, beValue_toBeBytes, Vector.length_toList]

/-- **The bytes of the keys compare as the pairs of issue time and nonce.** -/
theorem rawOrderingKey_lt_iff {a b : RegistrationToken} :
    a.rawOrderingKey < b.rawOrderingKey ↔
      a.issuedAtMillis < b.issuedAtMillis ∨
        a.issuedAtMillis = b.issuedAtMillis ∧ a.nonce.toList < b.nonce.toList := by
  have ha := beValue_lt a.nonce.toList
  have hb := beValue_lt b.nonce.toList
  rw [Vector.length_toList] at ha hb
  rw [lt_iff_beValue_lt (by simp), lt_iff_beValue_lt (by simp), beValue_rawOrderingKey,
    beValue_rawOrderingKey, UInt64.lt_iff_toNat_lt, ← UInt64.toNat_inj]
  omega

end RegistrationToken

/-! ### Arbitration -/

/-- `WinCondition`. -/
inductive WinCondition
  | higherWins
  | lowerWins
  deriving DecidableEq, Repr

/-- `collision::resolve`. -/
def resolve (condition : WinCondition) (a b : RegistrationToken) : RegistrationToken :=
  match condition with
  | .higherWins => if b.rawOrderingKey ≤ a.rawOrderingKey then a else b
  | .lowerWins => if a.rawOrderingKey ≤ b.rawOrderingKey then a else b

/-- `collision::mutually_derived_condition`: the parity of all bytes of both
tokens, of which the issue times give the low byte of their XOR. -/
def mutuallyDerivedCondition (a b : RegistrationToken) : WinCondition :=
  let parity := (a.nonce.toList ++ b.nonce.toList).foldl (fun acc byte => acc ^^^ byte)
    (a.issuedAtMillis ^^^ b.issuedAtMillis).toUInt8
  if parity &&& 1 = 0 then .higherWins else .lowerWins

/-- `collision::negotiate_locally`. -/
def negotiateLocally (a b : RegistrationToken) : RegistrationToken :=
  resolve (mutuallyDerivedCondition a b) a b

/-- The bit one token contributes to the derived condition. -/
def RegistrationToken.parity (t : RegistrationToken) : UInt8 :=
  t.nonce.toList.foldl (fun acc byte => acc ^^^ byte) t.issuedAtMillis.toUInt8 &&& 1

private theorem foldl_xor (l : List UInt8) (x y : UInt8) :
    l.foldl (fun acc byte => acc ^^^ byte) (x ^^^ y) =
      x ^^^ l.foldl (fun acc byte => acc ^^^ byte) y := by
  induction l generalizing y with
  | nil => rfl
  | cons b l ih => rw [List.foldl_cons, List.foldl_cons, UInt8.xor_assoc, ih]

/-- **The derived condition compares two parities.** -/
theorem mutuallyDerivedCondition_eq (a b : RegistrationToken) :
    mutuallyDerivedCondition a b =
      if a.parity = b.parity then .higherWins else .lowerWins := by
  have hfold : (a.nonce.toList ++ b.nonce.toList).foldl (fun acc byte => acc ^^^ byte)
      (a.issuedAtMillis ^^^ b.issuedAtMillis).toUInt8 =
        a.nonce.toList.foldl (fun acc byte => acc ^^^ byte) a.issuedAtMillis.toUInt8 ^^^
          b.nonce.toList.foldl (fun acc byte => acc ^^^ byte) b.issuedAtMillis.toUInt8 := by
    rw [UInt64.toUInt8_xor, List.foldl_append,
      UInt8.xor_comm a.issuedAtMillis.toUInt8, foldl_xor, UInt8.xor_comm, foldl_xor]
  rw [mutuallyDerivedCondition]
  simp only [hfold, UInt8.xor_and_right, UInt8.xor_eq_zero_iff]
  rfl

/-- **What the rule amounts to**: between tokens of one parity the larger wins,
between tokens of different parity the smaller. -/
theorem negotiateLocally_eq (a b : RegistrationToken) :
    negotiateLocally a b =
      if a.parity = b.parity then
        if b.rawOrderingKey ≤ a.rawOrderingKey then a else b
      else if a.rawOrderingKey ≤ b.rawOrderingKey then a else b := by
  rw [negotiateLocally, mutuallyDerivedCondition_eq]
  by_cases h : a.parity = b.parity
  · rw [if_pos h, if_pos h]
    rfl
  · rw [if_neg h, if_neg h]
    rfl

theorem negotiateLocally_pick (a b : RegistrationToken) :
    negotiateLocally a b = a ∨ negotiateLocally a b = b := by
  rw [negotiateLocally_eq]
  split_ifs <;> simp

@[simp] theorem negotiateLocally_self (a : RegistrationToken) : negotiateLocally a a = a := by
  rcases negotiateLocally_pick a a with h | h <;> exact h

/-- Whoever is asked first, the same token wins. -/
theorem negotiateLocally_symm (a b : RegistrationToken) :
    negotiateLocally a b = negotiateLocally b a := by
  by_cases hab : a = b
  · rw [hab]
  have hkey : a.rawOrderingKey ≠ b.rawOrderingKey := fun he =>
    hab (RegistrationToken.rawOrderingKey_injective he)
  rw [negotiateLocally_eq, negotiateLocally_eq]
  by_cases hp : a.parity = b.parity
  · rw [if_pos hp, if_pos hp.symm]
    rcases lt_or_gt_of_ne hkey with h | h
    · rw [if_neg (not_le.mpr h), if_pos h.le]
    · rw [if_pos h.le, if_neg (not_le.mpr h)]
  · rw [if_neg hp, if_neg (Ne.symm hp)]
    rcases lt_or_gt_of_ne hkey with h | h
    · rw [if_pos h.le, if_neg (not_le.mpr h)]
    · rw [if_neg (not_le.mpr h), if_pos h.le]

/-- **Two tokens are ordered by issue time and then nonce, and arbitration is well defined.**
The key is one token's alone, so asking in the other order names the same winner, and the
winner is one of the two. -/
theorem tokenOrder_and_arbitration (a b : RegistrationToken) :
    (a.rawOrderingKey < b.rawOrderingKey ↔
        a.issuedAtMillis < b.issuedAtMillis ∨
          a.issuedAtMillis = b.issuedAtMillis ∧ a.nonce.toList < b.nonce.toList) ∧
      (a.rawOrderingKey = b.rawOrderingKey → a = b) ∧
      negotiateLocally a b = negotiateLocally b a ∧
      (negotiateLocally a b = a ∨ negotiateLocally a b = b) := by
  refine ⟨RegistrationToken.rawOrderingKey_lt_iff, ?_, negotiateLocally_symm a b,
    negotiateLocally_pick a b⟩
  intro h
  exact RegistrationToken.rawOrderingKey_injective h

end Binda
