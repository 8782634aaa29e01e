import Mathlib.Algebra.GroupWithZero.Nat
import Outbox.Config

namespace Outbox

/-!
# Times of a configuration

A configuration keeps each of its times as a number of milliseconds in a word of 64 bits.

* `Duration.Rounds` — a span rounded down to whole milliseconds, or the longest one that a word
  holds if there are more of them.
* `Duration.totalNanos_ofMillis`, `Duration.toNat_toMillis` — a word keeps the remainder of the
  milliseconds.
* `Duration.Survives`, `Duration.rounds_iff`, `Duration.never_shorter_iff` — for which spans that is
  what rounding leaves, and for which no longer span comes out shorter.
* `TimeSetting` — one of the times, with what sets it and what reads it.
* `keeps_millis_iff` — a time is read as rounded if and only if it is one of those spans.
* `long_time_cut_short` — one that is not.
-/

/-! ### Spans -/

namespace Duration

/-- The whole milliseconds in a span, however many they are. -/
def millis (d : Duration) : Nat := d.totalNanos / 1000000

/-- The greatest number of milliseconds that a word holds. -/
def maxMillis : Nat := 2 ^ 64 - 1

/-- The longest span that fits, without a fraction of a millisecond. -/
def longest : Duration := ⟨18446744073709551, 615000000⟩

/-- The second span is the first one rounded down to whole milliseconds, or the longest one that a
    word holds if the first one is longer. -/
def Rounds (d rounded : Duration) : Prop :=
  rounded.nanos.toNat < 1000000000 ∧ rounded.totalNanos = min d.millis maxMillis * 1000000

/-- The span comes out of a word of milliseconds as rounding leaves it: it fits, or it is too long
    and what is left of it happens to be the greatest number. -/
def Survives (d : Duration) : Prop :=
  d.millis ≤ maxMillis ∨ d.millis % 2 ^ 64 = maxMillis

theorem millis_longest : longest.millis = maxMillis := by decide

instance (d rounded : Duration) : Decidable (Rounds d rounded) :=
  inferInstanceAs (Decidable (_ ∧ _))

instance (d : Duration) : Decidable d.Survives :=
  inferInstanceAs (Decidable (_ ∨ _))

/-- A word keeps the remainder of the milliseconds. -/
@[simp] theorem toNat_toMillis (d : Duration) : d.toMillis.toNat = d.millis % 2 ^ 64 := by
  simp [toMillis, millis]

theorem seconds_ofMillis (ms : UInt64) : (ofMillis ms).seconds.toNat = ms.toNat / 1000 := by
  simp [ofMillis]

theorem nanos_ofMillis (ms : UInt64) :
    (ofMillis ms).nanos.toNat = ms.toNat % 1000 * 1000000 := by
  have hlt : ms.toNat % 1000 < 1000 := Nat.mod_lt _ (by decide)
  simp only [ofMillis, UInt64.toNat_toUInt32, UInt64.toNat_mul, UInt64.toNat_mod,
    UInt64.reduceToNat]
  omega

/-- A span made of milliseconds is as long as they are. -/
theorem totalNanos_ofMillis (ms : UInt64) : (ofMillis ms).totalNanos = ms.toNat * 1000000 := by
  rw [totalNanos, seconds_ofMillis, nanos_ofMillis]
  omega

variable {d : Duration}

/-- What comes out is the span as rounded if and only if the span survives. -/
theorem rounds_iff : Rounds d (ofMillis d.toMillis) ↔ d.Survives := by
  have hlt : (ofMillis d.toMillis).nanos.toNat < 1000000000 := by
    rw [nanos_ofMillis]
    omega
  simp only [Rounds, Survives, maxMillis, totalNanos_ofMillis, toNat_toMillis, hlt, true_and]
  omega

/-- The spans that are no longer than one come out no longer than it if and only if it survives. -/
theorem never_shorter_iff :
    (∀ shorter : Duration, shorter.totalNanos ≤ d.totalNanos →
      (ofMillis shorter.toMillis).totalNanos ≤ (ofMillis d.toMillis).totalNanos) ↔ d.Survives := by
  simp only [totalNanos_ofMillis, toNat_toMillis]
  constructor
  · intro h
    -- the longest span that fits comes out as it is, and is shorter than one that does not
    by_cases hfits : d.millis ≤ maxMillis
    · exact .inl hfits
    · have hshorter : longest.totalNanos ≤ d.totalNanos := by
        have hnanos : longest.totalNanos = maxMillis * 1000000 := by decide
        simp only [millis, maxMillis] at hfits hnanos
        omega
      have hle := h longest hshorter
      rw [millis_longest] at hle
      simp only [Survives, maxMillis] at hle ⊢
      omega
  · intro hsurvives shorter hle
    have hmillis : shorter.millis ≤ d.millis := Nat.div_le_div_right hle
    simp only [Survives, maxMillis] at hsurvives
    omega

end Duration

/-! ### Settings -/

/-- A time of a configuration. -/
inductive TimeSetting where
  | delay
  | commitWait
  | shutdownTimeout
  deriving DecidableEq

namespace TimeSetting

/-- The configuration with another value of the time. -/
def assign : TimeSetting → QueueConfig → Duration → QueueConfig
  | .delay => QueueConfig.withDelay
  | .commitWait => QueueConfig.withCommitWait
  | .shutdownTimeout => QueueConfig.withShutdownTimeout

/-- The value of the time. -/
def read : TimeSetting → QueueConfig → Duration
  | .delay => QueueConfig.delay
  | .commitWait => QueueConfig.commitWait
  | .shutdownTimeout => QueueConfig.shutdownTimeout

/-- The configuration with another word of milliseconds for the time. -/
def put : TimeSetting → QueueConfig → UInt64 → QueueConfig
  | .delay, c, ms => { c with delayMs := ms }
  | .commitWait, c, ms => { c with commitWaitMs := ms }
  | .shutdownTimeout, c, ms => { c with shutdownTimeoutMs := ms }

variable (s : TimeSetting) (c : QueueConfig) (d : Duration) (ms : UInt64)

theorem assign_eq : s.assign c d = s.put c d.toMillis := by
  cases s <;> rfl

theorem read_put : s.read (s.put c ms) = .ofMillis ms := by
  cases s <;> rfl

theorem read_put_of_ne {other : TimeSetting} (h : other ≠ s) :
    other.read (s.put c ms) = other.read c := by
  cases s <;> cases other <;> simp at h <;> rfl

theorem put_keeps : (s.put c ms).store = c.store ∧ (s.put c ms).batchSize = c.batchSize ∧
    (s.put c ms).keyProvider = c.keyProvider := by
  cases s <;> exact ⟨rfl, rfl, rfl⟩

end TimeSetting

/-- A time that has been set is read as a span of whole milliseconds: so many as are left of those
    of the span that it has been set to, modulo `2 ^ 64`. That is the span rounded down to
    milliseconds, or the longest one that can be kept, if and only if the span survives; and it is
    no shorter than what is read after any shorter span has been set if and only if the span
    survives, which every span does that fits. Nothing else in the configuration changes. -/
theorem keeps_millis_iff (s : TimeSetting) (c : QueueConfig) (d : Duration) :
    ((s.read (s.assign c d)).totalNanos = d.millis % 2 ^ 64 * 1000000 ∧
      (s.read (s.assign c d)).nanos.toNat < 1000000000) ∧
    (Duration.Rounds d (s.read (s.assign c d)) ↔ d.Survives) ∧
    ((∀ shorter : Duration, shorter.totalNanos ≤ d.totalNanos →
      (s.read (s.assign c shorter)).totalNanos ≤ (s.read (s.assign c d)).totalNanos) ↔
        d.Survives) ∧
    (d.totalNanos < 2 ^ 64 * 1000000 → d.Survives) ∧
    (∀ other, other ≠ s → other.read (s.assign c d) = other.read c) ∧
    (s.assign c d).store = c.store ∧ (s.assign c d).batchSize = c.batchSize ∧
    (s.assign c d).keyProvider = c.keyProvider := by
  simp only [TimeSetting.assign_eq, TimeSetting.read_put]
  refine ⟨⟨?_, ?_⟩, Duration.rounds_iff, Duration.never_shorter_iff, ?_, ?_,
    TimeSetting.put_keeps s c _⟩
  · rw [Duration.totalNanos_ofMillis, Duration.toNat_toMillis]
  · rw [Duration.nanos_ofMillis]
    omega
  · intro hfits
    left
    simp only [Duration.millis, Duration.maxMillis]
    omega
  · exact fun other hne => TimeSetting.read_put_of_ne s c _ hne

/-- The longest span that fits, and a fraction of a millisecond. -/
theorem keeps_millis_of_longest :
    let d : Duration := ⟨18446744073709551, 615999999⟩
    let c := TimeSetting.delay.assign .default d
    d.totalNanos < 2 ^ 64 * 1000000 ∧ d.Survives ∧
      Duration.Rounds d (TimeSetting.delay.read c) ∧
      TimeSetting.commitWait ≠ .delay ∧
      TimeSetting.commitWait.read c = TimeSetting.commitWait.read .default := by
  intro d c
  have hfits : d.totalNanos < 2 ^ 64 * 1000000 := by decide
  obtain ⟨-, hrounds, -, hsurvives, hother, -⟩ := keeps_millis_iff .delay .default d
  exact ⟨hfits, hsurvives hfits, hrounds.2 (hsurvives hfits), by decide,
    hother .commitWait (by decide)⟩

/-- A time of half a billion years and more is read as 384 milliseconds, and one second as one
    second. -/
theorem long_time_cut_short :
    let d : Duration := ⟨18446744073709552, 0⟩
    ∀ s : TimeSetting, s.read (s.assign .default d) = ⟨0, 384000000⟩ ∧
      ¬ Duration.Rounds d (s.read (s.assign .default d)) ∧
      (⟨1, 0⟩ : Duration).totalNanos < d.totalNanos ∧
      s.read (s.assign .default ⟨1, 0⟩) = ⟨1, 0⟩ ∧
      (s.read (s.assign .default d)).totalNanos <
        (s.read (s.assign .default ⟨1, 0⟩)).totalNanos := by
  intro d s
  cases s <;> decide

-- the longest span of all is too long, and survives
example : (⟨18446744073709551615, 999999999⟩ : Duration).Survives := by decide

end Outbox
