import Binda.Lib.Bytes

/-!
# Network time

`ntp.rs`: the eight bytes of an NTP timestamp, seconds since 1900 and a fraction
in units of `2^-32` seconds, each in 32 bits, and the clock offset computed from
four readings.

`fraction_roundTrip` is the rounding argument: two floor divisions between `10^9`
and `2^32` lose at most one nanosecond.  `readSeconds_writeNtpTimestamp` says
which second comes back: the seconds wrap at `2^32` on the way out and are never
unwrapped, so from the year 2036 on a timestamp is read as one of an earlier date
(`ntp_roundTrip_iff`).
-/

namespace Binda

/-- Nanoseconds in a second. -/
def NANOS_PER_SEC : UInt32 := 1000000000

/-- `std::time::Duration`. -/
structure Duration where
  secs : UInt64
  subsecNanos : UInt32
  subsecNanos_lt : subsecNanos < NANOS_PER_SEC
  deriving DecidableEq

namespace Duration

/-- `Duration::new`: whole seconds among the nanoseconds are carried, and a carry that
overflows panics. -/
def new (secs : UInt64) (nanos : UInt32) : Option Duration :=
  if h : nanos < NANOS_PER_SEC then some ⟨secs, nanos, h⟩
  else if secs.toNat + (nanos / NANOS_PER_SEC).toNat < UInt64.size then
    some ⟨secs + (nanos / NANOS_PER_SEC).toUInt64, nanos % NANOS_PER_SEC,
      UInt32.mod_lt _ (by decide)⟩
  else none

/-- `Duration::as_nanos`. -/
def asNanos (d : Duration) : Nat := d.secs.toNat * 1000000000 + d.subsecNanos.toNat

/-- `Duration::as_millis`. -/
def asMillis (d : Duration) : Nat := d.asNanos / 1000000

theorem toNat_subsecNanos_lt (d : Duration) : d.subsecNanos.toNat < 1000000000 :=
  UInt32.lt_iff_toNat_lt.mp d.subsecNanos_lt

end Duration

/-! ### The timestamp -/

/-- `NTP_UNIX_EPOCH_DELTA_SECS`: seconds between 1900-01-01 and 1970-01-01. -/
def NTP_UNIX_EPOCH_DELTA_SECS : UInt64 := 2208988800

/-- `write_ntp_timestamp`: what it leaves in the eight bytes of the buffer.  Both words
are cut to their low 32 bits. -/
def writeNtpTimestamp (sinceUnixEpoch : Duration) : Vector UInt8 8 :=
  let secs := sinceUnixEpoch.secs + NTP_UNIX_EPOCH_DELTA_SECS
  let frac := (sinceUnixEpoch.subsecNanos.toUInt64 <<< 32) / 1000000000
  ⟨(secs.toUInt32.toBeBytes ++ frac.toUInt32.toBeBytes).toArray, by simp⟩

/-- The seconds `read_ntp_timestamp` hands to `Duration::new`. -/
def readSeconds (buf : Vector UInt8 8) : UInt64 :=
  (UInt32.ofBeBytes (buf.toList.take 4)).toUInt64.saturatingSub NTP_UNIX_EPOCH_DELTA_SECS

/-- The nanoseconds `read_ntp_timestamp` hands to `Duration::new`. -/
def readNanos (buf : Vector UInt8 8) : UInt32 :=
  (((UInt32.ofBeBytes (buf.toList.drop 4)).toUInt64 * 1000000000) >>> 32).toUInt32

/-- `read_ntp_timestamp`. -/
def readNtpTimestamp (buf : Vector UInt8 8) : Option Duration :=
  Duration.new (readSeconds buf) (readNanos buf)

/-- The second from which the NTP seconds no longer fit in 32 bits, in February 2036. -/
def ntpEraEnd : Nat := 2 ^ 32 - NTP_UNIX_EPOCH_DELTA_SECS.toNat

/-- **Two floor divisions lose at most one nanosecond.** -/
theorem fraction_roundTrip (n : Nat) :
    n * 4294967296 / 1000000000 * 1000000000 / 4294967296 ≤ n ∧
      n ≤ n * 4294967296 / 1000000000 * 1000000000 / 4294967296 + 1 := by
  constructor <;> omega

theorem toNat_readNanos (buf : Vector UInt8 8) :
    (readNanos buf).toNat =
      (UInt32.ofBeBytes (buf.toList.drop 4)).toNat * 1000000000 / 4294967296 := by
  have h := (UInt32.ofBeBytes (buf.toList.drop 4)).toNat_lt
  rw [readNanos, UInt64.toNat_toUInt32, UInt64.toNat_shiftRight, UInt64.toNat_mul,
    UInt32.toNat_toUInt64, Nat.shiftRight_eq_div_pow]
  simp only [UInt64.reduceToNat, Nat.reduceMod, Nat.reducePow]
  rw [Nat.mod_eq_of_lt (b := 18446744073709551616) (by omega), Nat.mod_eq_of_lt (by omega)]

/-- **No reply makes the reader carry.** -/
theorem readNanos_lt (buf : Vector UInt8 8) : readNanos buf < NANOS_PER_SEC := by
  have h := (UInt32.ofBeBytes (buf.toList.drop 4)).toNat_lt
  have hmax : NANOS_PER_SEC.toNat = 1000000000 := rfl
  rw [UInt32.lt_iff_toNat_lt, toNat_readNanos, hmax]
  omega

theorem readNtpTimestamp_eq (buf : Vector UInt8 8) :
    readNtpTimestamp buf = some ⟨readSeconds buf, readNanos buf, readNanos_lt buf⟩ := by
  rw [readNtpTimestamp, Duration.new, dif_pos (readNanos_lt buf)]

/-- The fraction survives the wire up to one nanosecond. -/
theorem readNanos_writeNtpTimestamp (d : Duration) :
    (readNanos (writeNtpTimestamp d)).toNat ≤ d.subsecNanos.toNat ∧
      d.subsecNanos.toNat ≤ (readNanos (writeNtpTimestamp d)).toNat + 1 := by
  have hd := d.toNat_subsecNanos_lt
  have hfrac : UInt32.ofBeBytes ((writeNtpTimestamp d).toList.drop 4) =
      ((d.subsecNanos.toUInt64 <<< 32) / 1000000000).toUInt32 := by
    exact UInt32.ofBeBytes_toBeBytes _
  have hnat : (((d.subsecNanos.toUInt64 <<< 32) / 1000000000).toUInt32).toNat =
      d.subsecNanos.toNat * 4294967296 / 1000000000 := by
    rw [UInt64.toNat_toUInt32, UInt64.toNat_div, UInt64.toNat_shiftLeft, UInt32.toNat_toUInt64,
      Nat.shiftLeft_eq]
    simp only [UInt64.reduceToNat, Nat.reduceMod, Nat.reducePow]
    rw [Nat.mod_eq_of_lt (b := 18446744073709551616) (by omega), Nat.mod_eq_of_lt (by omega)]
  rw [toNat_readNanos, hfrac, hnat]
  exact fraction_roundTrip d.subsecNanos.toNat

/-- **Which second comes back**: the NTP second modulo `2^32`, no earlier than 1970. -/
theorem readSeconds_writeNtpTimestamp (d : Duration)
    (h : d.secs.toNat + NTP_UNIX_EPOCH_DELTA_SECS.toNat < 2 ^ 64) :
    (readSeconds (writeNtpTimestamp d)).toNat =
      (d.secs.toNat + NTP_UNIX_EPOCH_DELTA_SECS.toNat) % 2 ^ 32 -
        NTP_UNIX_EPOCH_DELTA_SECS.toNat := by
  have hsecs : UInt32.ofBeBytes ((writeNtpTimestamp d).toList.take 4) =
      (d.secs + NTP_UNIX_EPOCH_DELTA_SECS).toUInt32 := by
    exact UInt32.ofBeBytes_toBeBytes _
  rw [readSeconds, hsecs, UInt64.toNat_saturatingSub, UInt32.toNat_toUInt64,
    UInt64.toNat_toUInt32, UInt64.toNat_add, Nat.mod_eq_of_lt h]

/-- Before the wrap a timestamp comes back at most a nanosecond early. -/
theorem asNanos_readNtpTimestamp {d r : Duration} (h : d.secs.toNat < ntpEraEnd)
    (hr : readNtpTimestamp (writeNtpTimestamp d) = some r) :
    r.asNanos ≤ d.asNanos ∧ d.asNanos ≤ r.asNanos + 1 := by
  have hdelta : NTP_UNIX_EPOCH_DELTA_SECS.toNat = 2208988800 := rfl
  have hera : ntpEraEnd = 2085978496 := rfl
  have hsecs := readSeconds_writeNtpTimestamp d (by omega)
  obtain ⟨hle, hge⟩ := readNanos_writeNtpTimestamp d
  rw [readNtpTimestamp_eq] at hr
  simp only [← Option.some.inj hr, Duration.asNanos, hsecs]
  omega

/-- From the wrap on it comes back more than a nanosecond early. -/
theorem asNanos_add_one_lt {d r : Duration}
    (h : d.secs.toNat + NTP_UNIX_EPOCH_DELTA_SECS.toNat < 2 ^ 64)
    (hlate : ntpEraEnd ≤ d.secs.toNat)
    (hr : readNtpTimestamp (writeNtpTimestamp d) = some r) : r.asNanos + 1 < d.asNanos := by
  have hdelta : NTP_UNIX_EPOCH_DELTA_SECS.toNat = 2208988800 := rfl
  have hera : ntpEraEnd = 2085978496 := rfl
  have hsecs := readSeconds_writeNtpTimestamp d h
  obtain ⟨hle, hge⟩ := readNanos_writeNtpTimestamp d
  rw [readNtpTimestamp_eq] at hr
  simp only [← Option.some.inj hr, Duration.asNanos, hsecs]
  -- what comes back lies in the first era, at least a whole second too early
  omega

/-- The timestamp written for `d` is read back at most `d` and at most one nanosecond
earlier, and the reader needs no carry. -/
def SurvivesWire (d : Duration) : Prop :=
  (∃ r, readNtpTimestamp (writeNtpTimestamp d) = some r ∧
    r.asNanos ≤ d.asNanos ∧ d.asNanos ≤ r.asNanos + 1) ∧
  readNanos (writeNtpTimestamp d) < NANOS_PER_SEC

/-- **A timestamp survives the wire before the NTP seconds wrap, and at no later date.** -/
theorem ntp_roundTrip_iff (d : Duration)
    (h : d.secs.toNat + NTP_UNIX_EPOCH_DELTA_SECS.toNat < 2 ^ 64) :
    SurvivesWire d ↔ d.secs.toNat < ntpEraEnd := by
  constructor
  · rintro ⟨⟨r, hr, -, hclose⟩, -⟩
    by_contra hlate
    have := asNanos_add_one_lt h (Nat.le_of_not_lt hlate) hr
    omega
  · intro hearly
    have hread := readNtpTimestamp_eq (writeNtpTimestamp d)
    exact ⟨⟨_, hread, asNanos_readNtpTimestamp hearly hread⟩, readNanos_lt _⟩

/-- The round trip of a date before the wrap. -/
theorem ntp_roundTrip_iff_2023 :
    SurvivesWire ⟨1700000000, 500000000, by decide⟩ ↔ 1700000000 < ntpEraEnd :=
  ntp_roundTrip_iff ⟨1700000000, 500000000, by decide⟩ (by decide)

/-- **The first second past the wrap is read back as 1970.** -/
theorem era_end_is_read_as_1970 :
    ∃ d : Duration, d.secs.toNat = 2085978496 ∧
      d.secs.toNat + NTP_UNIX_EPOCH_DELTA_SECS.toNat < 2 ^ 64 ∧
      readNtpTimestamp (writeNtpTimestamp d) = some ⟨0, 0, by decide⟩ ∧ ¬ SurvivesWire d := by
  have hread : readNtpTimestamp (writeNtpTimestamp ⟨2085978496, 0, by decide⟩) =
      some ⟨0, 0, by decide⟩ := by decide
  refine ⟨⟨2085978496, 0, by decide⟩, rfl, by decide, hread, ?_⟩
  rintro ⟨⟨r, hr, -, hclose⟩, -⟩
  rw [hread] at hr
  rw [← Option.some.inj hr] at hclose
  exact absurd hclose (by decide)

/-! ### The offset -/

/-- `as i64` on a number of milliseconds. -/
def asI64 (n : Nat) : Int := Int.bmod n (2 ^ 64)

/-- The arithmetic of `query_offset_millis`: `((T2 - T1) + (T3 - T4)) / 2`. -/
def queryOffsetMillis (t1 t2 t3 t4 : Duration) : Int :=
  ((asI64 t2.asMillis - asI64 t1.asMillis) + (asI64 t3.asMillis - asI64 t4.asMillis)).tdiv 2

theorem asI64_of_lt {n : Nat} (h : n < 2 ^ 63) : asI64 n = n := by
  exact Int.bmod_eq_of_le_mul_two (by omega) (by omega)

end Binda
