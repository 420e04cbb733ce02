import Binda.Lib.Bytes

/-!
# Internet addresses

`Ipv4Addr::from_str` and `Ipv6Addr::from_str` of Rust's standard library.  Its
parser takes a value off the front of the text and leaves the text alone where
it fails; an address must use up the whole text.

* Four decimal numbers of at most three digits, below `256` and without leading
  zeros, between dots.
* Eight groups of at most four hexadecimal digits between colons, of which one
  run may be left out as `::` and the last two may be written as an IPv4 address.
-/

/-- A parser takes a value off the front of a text. -/
abbrev TextParser (α : Type) := StateT (List Char) Option α

/-- `char::to_digit`. -/
def toDigit (radix : Nat) (c : Char) : Option Nat :=
  let value :=
    if '0' ≤ c ∧ c ≤ '9' then some (c.toNat - 48)
    else if 'a' ≤ c ∧ c ≤ 'z' then some (c.toNat - 87)
    else if 'A' ≤ c ∧ c ≤ 'Z' then some (c.toNat - 55)
    else none
  value.filter (· < radix)

/-- The number some digits write. -/
def digitsValue (radix : Nat) (digits : List Char) : Nat :=
  digits.foldl (fun acc c => acc * radix + ((toDigit radix c).getD 0)) 0

namespace TextParser

/-- `Parser::read_given_char`. -/
def readGivenChar (x : Char) : TextParser Unit
  | c :: cs => if c = x then some ((), cs) else none
  | [] => none

/-- `Parser::read_separator`: the separator stands before every value but the first. -/
def readSeparator {α : Type} (sep : Char) (index : Nat) (inner : TextParser α) : TextParser α := do
  if index > 0 then readGivenChar sep
  inner

/-- `Parser::read_number` with a bound on the digits, for a type of values below `size`. -/
def readNumber (radix maxDigits : Nat) (allowZeroPrefix : Bool) (size : Nat) : TextParser Nat :=
  fun text =>
    let digits := text.takeWhile fun c => (toDigit radix c).isSome
    let value := digitsValue radix digits
    if digits.length > maxDigits then none
    else if digits.length = 0 then none
    else if !allowZeroPrefix && digits.head? == some '0' && digits.length > 1 then none
    else if value < size then some (value, text.drop digits.length)
    else none

/-- `Parser::parse_with`: nothing may be left over. -/
def parseWith {α : Type} (inner : TextParser α) (s : String) : Option α :=
  match inner s.toList with
  | some (a, []) => some a
  | _ => none

end TextParser

open TextParser

/-! ### IPv4 -/

/-- `Ipv4Addr`. -/
structure Ipv4Addr where
  octets : Vector UInt8 4
  deriving DecidableEq

/-- `Parser::read_ipv4_addr`. -/
def TextParser.readIpv4Addr : TextParser Ipv4Addr := do
  let a ← readSeparator '.' 0 (readNumber 10 3 false 256)
  let b ← readSeparator '.' 1 (readNumber 10 3 false 256)
  let c ← readSeparator '.' 2 (readNumber 10 3 false 256)
  let d ← readSeparator '.' 3 (readNumber 10 3 false 256)
  pure ⟨#v[UInt8.ofNat a, UInt8.ofNat b, UInt8.ofNat c, UInt8.ofNat d]⟩

/-- `Ipv4Addr::from_str`: no address is longer than fifteen bytes. -/
def Ipv4Addr.fromStr (s : String) : Option Ipv4Addr :=
  if s.utf8ByteSize > 15 then none else parseWith readIpv4Addr s

example : Ipv4Addr.fromStr "203.0.113.10" = some ⟨#v[203, 0, 113, 10]⟩ ∧
    Ipv4Addr.fromStr "203.0.113.010" = none ∧ Ipv4Addr.fromStr "203.0.113.256" = none := by decide

/-! ### IPv6 -/

/-- `Ipv6Addr`. -/
structure Ipv6Addr where
  octets : Vector UInt8 16
  deriving DecidableEq

/-- `Ipv6Addr::from` on eight groups. -/
def Ipv6Addr.ofSegments (segments : Vector UInt16 8) : Ipv6Addr :=
  ⟨(segments.map fun group : UInt16 => #v[(group >>> 8).toUInt8, group.toUInt8]).flatten⟩

/-- `read_groups`, from the group `index` on with `slots` groups left to fill: the groups
that were read, and whether the last two of them were written as an IPv4 address. -/
def TextParser.readGroups (index : Nat) :
    Nat → List Char → (List UInt16 × Bool) × List Char
  | 0, text => (([], false), text)
  | slots + 1, text =>
    -- an IPv4 address takes two groups
    match if slots = 0 then none else readSeparator ':' index readIpv4Addr text with
    | some (v4, text) =>
      (([UInt16.ofBeBytes (v4.octets.toList.take 2), UInt16.ofBeBytes (v4.octets.toList.drop 2)],
        true), text)
    | none =>
      match readSeparator ':' index (readNumber 16 4 true 65536) text with
      | some (group, text) =>
        let ((groups, ipv4), text) := readGroups (index + 1) slots text
        ((UInt16.ofNat group :: groups, ipv4), text)
      | none => (([], false), text)

/-- Eight groups that start with `head` and end with `tail`. -/
def Ipv6Addr.ofGroups (head tail : List UInt16) : Ipv6Addr :=
  .ofSegments <| Vector.ofFn fun i : Fin 8 =>
    if 8 - tail.length ≤ i then tail.getD (i - (8 - tail.length)) 0 else head.getD i 0

/-- `Parser::read_ipv6_addr`. -/
def TextParser.readIpv6Addr : TextParser Ipv6Addr := fun text =>
  let ((head, headIpv4), text) := readGroups 0 8 text
  if head.length = 8 then some (Ipv6Addr.ofGroups head [], text)
  else if headIpv4 then none
  else do
    let ((), text) ← readGivenChar ':' text
    let ((), text) ← readGivenChar ':' text
    -- `::` stands for one group at least
    let ((tail, _), text) := readGroups 0 (8 - (head.length + 1)) text
    some (Ipv6Addr.ofGroups head tail, text)

/-- `Ipv6Addr::from_str`. -/
def Ipv6Addr.fromStr (s : String) : Option Ipv6Addr := parseWith readIpv6Addr s

example : (Ipv6Addr.fromStr "2001:db8::ffff:192.0.2.1").map (·.octets.toList) =
    some [0x20, 1, 0xd, 0xb8, 0, 0, 0, 0, 0, 0, 0xff, 0xff, 192, 0, 2, 1] := by decide +kernel
