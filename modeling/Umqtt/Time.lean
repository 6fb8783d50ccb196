/-
Umqtt/Time.lean

Points in time (`time.rs`), and what the code uses of `core::time::Duration`.

An `Instant` counts milliseconds in 64 bits.  Adding and subtracting saturate,
but the conversion of a duration to milliseconds drops the high bits of the
count, and the two functions that take seconds multiply without a check, which
panics when it overflows.  The operators are those of a saturating count, and
follow the order of durations, as long as nothing is dropped (`saturates_iff`).
-/
import Mathlib.Algebra.Group.Nat.Defs
import Umqtt.Lib.Effects

namespace Umqtt

open Effects

/-- A span of time: seconds, and nanoseconds below one second. -/
structure Duration where
  secs : UInt64
  nanos : Nat
  lt : nanos < 1000000000
  deriving DecidableEq

namespace Duration

def fromSecs (secs : UInt64) : Duration := ⟨secs, 0, by decide⟩

def fromMillis (millis : UInt64) : Duration :=
  ⟨UInt64.ofNat (millis.toNat / 1000), millis.toNat % 1000 * 1000000, by omega⟩

/-- Whole milliseconds, in 128 bits. -/
def asMillis (d : Duration) : Nat := d.secs.toNat * 1000 + d.nanos / 1000000

def isPositive (d : Duration) : Bool := d.secs != 0 || d.nanos != 0

/-- By seconds, then by nanoseconds. -/
instance : LE Duration := ⟨fun d d' => d.secs < d'.secs ∨ d.secs = d'.secs ∧ d.nanos ≤ d'.nanos⟩

instance (d d' : Duration) : Decidable (d ≤ d') :=
  inferInstanceAs (Decidable (d.secs < d'.secs ∨ d.secs = d'.secs ∧ d.nanos ≤ d'.nanos))

@[simp] theorem asMillis_fromMillis (millis : UInt64) :
    (fromMillis millis).asMillis = millis.toNat := by
  have := millis.toNat_lt
  simp only [fromMillis, asMillis, UInt64.toNat_ofNat']
  omega

@[simp] theorem asMillis_fromSecs (secs : UInt64) :
    (fromSecs secs).asMillis = secs.toNat * 1000 := by
  simp [fromSecs, asMillis]

theorem asMillis_mono {d d' : Duration} (h : d ≤ d') : d.asMillis ≤ d'.asMillis := by
  have hlt := d.lt
  simp only [asMillis]
  rcases h with hsecs | ⟨hsecs, hnanos⟩
  · rw [UInt64.lt_iff_toNat_lt] at hsecs
    omega
  · rw [hsecs]
    omega

end Duration

structure Instant where
  milliseconds : UInt64
  deriving DecidableEq

namespace Instant

/-- `a.saturating_add(b)` -/
def saturatingAdd (a b : UInt64) : UInt64 := UInt64.ofNat (min (a.toNat + b.toNat) (2 ^ 64 - 1))

/-- `a.saturating_sub(b)` -/
def saturatingSub (a b : UInt64) : UInt64 := UInt64.ofNat (a.toNat - b.toNat)

theorem toNat_saturatingAdd (a b : UInt64) :
    (saturatingAdd a b).toNat = min (a.toNat + b.toNat) (2 ^ 64 - 1) :=
  UInt64.toNat_ofNat_of_lt' (Nat.lt_of_le_of_lt (Nat.min_le_right _ _) (by decide))

theorem toNat_saturatingSub (a b : UInt64) : (saturatingSub a b).toNat = a.toNat - b.toNat :=
  UInt64.toNat_ofNat_of_lt' (Nat.lt_of_le_of_lt (Nat.sub_le _ _) a.toNat_lt)

instance : LE Instant := ⟨fun t t' => t.milliseconds ≤ t'.milliseconds⟩

instance (t t' : Instant) : Decidable (t ≤ t') :=
  inferInstanceAs (Decidable (t.milliseconds ≤ t'.milliseconds))

theorem le_iff {t t' : Instant} : t ≤ t' ↔ t.milliseconds.toNat ≤ t'.milliseconds.toNat :=
  UInt64.le_iff_toNat_le

def fromMillisSinceEpoch (milliseconds : UInt64) : Instant := { milliseconds }

def fromDurationSinceEpoch (duration : Duration) : Instant :=
  fromMillisSinceEpoch (UInt64.ofNat duration.asMillis)

/-- A panic when the product overflows. -/
def fromSecondsSinceEpoch {ε : Type} (seconds : UInt64) : Outcome ε Instant :=
  if seconds.toNat * 1000 < 2 ^ 64 then .ok { milliseconds := seconds * 1000 } else .panic

/-- A panic when the product or the sum overflows. -/
def addSeconds {ε : Type} (self : Instant) (seconds : UInt64) : Outcome ε Instant :=
  if self.milliseconds.toNat + 1000 * seconds.toNat < 2 ^ 64 then
    .ok { milliseconds := self.milliseconds + 1000 * seconds }
  else .panic

def since (self rhs : Instant) : Duration :=
  Duration.fromMillis (saturatingSub self.milliseconds rhs.milliseconds)

def sub (self : Instant) (rhs : Duration) : Instant :=
  fromMillisSinceEpoch (saturatingSub self.milliseconds (UInt64.ofNat rhs.asMillis))

def subAssign (self : Instant) (rhs : Duration) : Instant :=
  { self with milliseconds := saturatingSub self.milliseconds (UInt64.ofNat rhs.asMillis) }

def add (self : Instant) (rhs : Duration) : Instant :=
  fromMillisSinceEpoch (saturatingAdd self.milliseconds (UInt64.ofNat rhs.asMillis))

def addAssign (self : Instant) (rhs : Duration) : Instant :=
  { self with milliseconds := saturatingAdd self.milliseconds (UInt64.ofNat rhs.asMillis) }

/-- `Instant::from_seconds_since_epoch(0)` -/
def epoch : Instant := ⟨0⟩

theorem fromSecondsSinceEpoch_zero {ε : Type} :
    (fromSecondsSinceEpoch 0 : Outcome ε Instant) = .ok epoch := by
  simp [fromSecondsSinceEpoch, epoch]

/-- What is left until a point in time, in milliseconds. -/
theorem asMillis_since (a b : Instant) :
    (a.since b).asMillis = a.milliseconds.toNat - b.milliseconds.toNat := by
  rw [since, Duration.asMillis_fromMillis, toNat_saturatingSub]

/-- The sum is that of the low 64 bits of the milliseconds. -/
theorem toNat_add (t : Instant) (d : Duration) :
    (t.add d).milliseconds.toNat =
      min (t.milliseconds.toNat + d.asMillis % 2 ^ 64) (2 ^ 64 - 1) := by
  show (saturatingAdd t.milliseconds (UInt64.ofNat d.asMillis)).toNat = _
  rw [toNat_saturatingAdd, UInt64.toNat_ofNat']

theorem toNat_sub (t : Instant) (d : Duration) :
    (t.sub d).milliseconds.toNat = t.milliseconds.toNat - d.asMillis % 2 ^ 64 := by
  show (saturatingSub t.milliseconds (UInt64.ofNat d.asMillis)).toNat = _
  rw [toNat_saturatingSub, UInt64.toNat_ofNat']

theorem toNat_add_of_lt {t : Instant} {d : Duration}
    (h : t.milliseconds.toNat + d.asMillis < 2 ^ 64) :
    (t.add d).milliseconds.toNat = t.milliseconds.toNat + d.asMillis := by
  rw [toNat_add]
  omega

/-! ### Sums and differences that saturate -/

/-- Sum and difference are those of the whole milliseconds, cut off at the ends
of the range, and the assigning operators agree with them. -/
structure Exact (t : Instant) (d : Duration) : Prop where
  add : (t.add d).milliseconds.toNat = min (t.milliseconds.toNat + d.asMillis) (2 ^ 64 - 1)
  sub : ((t.sub d).milliseconds.toNat : Int) = max (t.milliseconds.toNat - d.asMillis) 0
  addAssign : t.addAssign d = t.add d
  subAssign : t.subAssign d = t.sub d

/-- The milliseconds of `d` fit 64 bits, or what is left of them there takes both
the sum and the difference to the ends of the range all the same. -/
def Covers (t : Instant) (d : Duration) : Prop :=
  d.asMillis < 2 ^ 64 ∨
    2 ^ 64 - 1 ≤ t.milliseconds.toNat + d.asMillis % 2 ^ 64 ∧
      t.milliseconds.toNat ≤ d.asMillis % 2 ^ 64

theorem exact_iff {t : Instant} {d : Duration} : t.Exact d ↔ t.Covers d := by
  have ht := t.milliseconds.toNat_lt
  have hadd := t.toNat_add d
  have hsub := t.toNat_sub d
  constructor
  · intro h
    have h₁ := hadd.symm.trans h.add
    have h₂ := h.sub
    rw [hsub] at h₂
    unfold Covers
    omega
  · intro h
    refine ⟨?_, ?_, rfl, rfl⟩
    · rw [hadd]
      unfold Covers at h
      omega
    · rw [hsub]
      unfold Covers at h
      omega

theorem Exact.add_le_add {t : Instant} {d d' : Duration} (h : t.Exact d) (h' : t.Exact d')
    (hle : d ≤ d') : t.add d ≤ t.add d' := by
  have hmono := Duration.asMillis_mono hle
  rw [le_iff, h.add, h'.add]
  omega

theorem Exact.sub_le_sub {t : Instant} {d d' : Duration} (h : t.Exact d) (h' : t.Exact d')
    (hle : d ≤ d') : t.sub d' ≤ t.sub d := by
  have hmono := Duration.asMillis_mono hle
  have h₁ := h.sub
  have h₂ := h'.sub
  rw [le_iff]
  omega

/-- Adding seconds agrees with adding a duration of as many seconds iff the sum
does not overflow. -/
theorem addSeconds_eq_add {ε : Type} {t : Instant} {seconds : UInt64} :
    (t.addSeconds seconds : Outcome ε Instant) = .ok (t.add (Duration.fromSecs seconds)) ↔
      t.milliseconds.toNat + 1000 * seconds.toNat < 2 ^ 64 := by
  rw [addSeconds]
  split
  · rename_i h
    have hlt : t.milliseconds.toNat + (Duration.fromSecs seconds).asMillis < 2 ^ 64 := by
      rw [Duration.asMillis_fromSecs]
      omega
    have hmillis : t.milliseconds + 1000 * seconds =
        (t.add (Duration.fromSecs seconds)).milliseconds := by
      apply UInt64.toNat_inj.mp
      rw [toNat_add_of_lt hlt, Duration.asMillis_fromSecs, UInt64.toNat_add, UInt64.toNat_mul]
      simp only [UInt64.reduceToNat]
      omega
    have hsum : (⟨t.milliseconds + 1000 * seconds⟩ : Instant) =
        t.add (Duration.fromSecs seconds) := congrArg Instant.mk hmillis
    exact iff_of_true (congrArg Outcome.ok hsum) h
  · rename_i h
    exact iff_of_false (fun hok => by cases hok) h

theorem fromSecondsSinceEpoch_ne_panic {ε : Type} {seconds : UInt64} :
    (fromSecondsSinceEpoch seconds : Outcome ε Instant) ≠ .panic ↔
      seconds.toNat * 1000 < 2 ^ 64 := by
  rw [fromSecondsSinceEpoch]
  split
  · rename_i h
    exact iff_of_true (fun hok => by cases hok) h
  · rename_i h
    exact iff_of_false (fun hne => hne rfl) h

/-- The arithmetic of points in time, for two durations and a number of seconds. -/
structure Saturates (t : Instant) (d d' : Duration) (seconds : UInt64) : Prop where
  add_le_add : t.add d ≤ t.add d'
  sub_le_sub : t.sub d' ≤ t.sub d
  exact : t.Exact d ∧ t.Exact d'
  addSeconds : (t.addSeconds seconds : Outcome Empty Instant) =
    .ok (t.add (Duration.fromSecs seconds))
  fromSeconds : (fromSecondsSinceEpoch seconds : Outcome Empty Instant) ≠ .panic

/-- All of it holds iff neither duration loses bits that matter at `t`, and `t`
and the seconds stay in range together. -/
theorem saturates_iff {t : Instant} {d d' : Duration} {seconds : UInt64} (hle : d ≤ d') :
    t.Saturates d d' seconds ↔ t.Covers d ∧ t.Covers d' ∧
      t.milliseconds.toNat + 1000 * seconds.toNat < 2 ^ 64 := by
  constructor
  · intro h
    exact ⟨exact_iff.mp h.exact.1, exact_iff.mp h.exact.2, addSeconds_eq_add.mp h.addSeconds⟩
  · rintro ⟨hd, hd', hseconds⟩
    have h := exact_iff.mpr hd
    have h' := exact_iff.mpr hd'
    exact {
      add_le_add := h.add_le_add h' hle
      sub_le_sub := h.sub_le_sub h' hle
      exact := ⟨h, h'⟩
      addSeconds := addSeconds_eq_add.mpr hseconds
      fromSeconds := fromSecondsSinceEpoch_ne_panic.mpr (by omega) }

/-- One and two seconds, and three. -/
theorem saturates_seconds : epoch.Saturates (Duration.fromSecs 1) (Duration.fromSecs 2) 3 :=
  (saturates_iff (by decide)).mpr ⟨.inl (by decide), .inl (by decide), by decide⟩

/-- One second, and the first number of seconds whose milliseconds leave 64 bits:
the larger duration gives the smaller sum. -/
theorem saturates_truncated : ¬∀ (t : Instant) (d d' : Duration) (seconds : UInt64),
    d ≤ d' → t.Saturates d d' seconds := by
  intro h
  have hle := (h epoch (Duration.fromSecs 1) (Duration.fromSecs 18446744073709552) 0
    (by decide)).add_le_add
  exact absurd hle (by decide)

end Instant

end Umqtt
