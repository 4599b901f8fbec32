import NodeHealth.Backoff

/-!
# Reconnect delays in closed form

After `count` delays the next one is the first one times `2 ^ count`, or the cap if that is
less. No word overflows on the way: doubling saturates at the largest word, and the cap is no
larger. The limits can be any words: the cap is brought to one second at least before the first
delay is brought between one second and the cap, so that these bounds are always in order.

-/

namespace NodeHealth

theorem toNat_max (a b : UInt64) : (max a b).toNat = max a.toNat b.toNat := by
  rw [Nat.max_def]
  change (if a ≤ b then b else a).toNat = _
  simp only [UInt64.le_iff_toNat_le]
  split <;> rfl

theorem toNat_min (a b : UInt64) : (min a b).toNat = min a.toNat b.toNat := by
  rw [Nat.min_def]
  change (if a ≤ b then a else b).toNat = _
  simp only [UInt64.le_iff_toNat_le]
  split <;> rfl

theorem toNat_saturatingDouble (word : UInt64) :
    (saturatingDouble word).toNat = min (word.toNat * 2) (UInt64.size - 1) := by
  unfold saturatingDouble
  split
  · rename_i hfits
    rw [UInt64.toNat_mul, show (2 : UInt64).toNat = 2 from rfl, Nat.mod_eq_of_lt hfits]
    omega
  · rename_i hlarge
    rw [show (UInt64.ofNat (UInt64.size - 1)).toNat = UInt64.size - 1 from rfl]
    omega

/-- A word brought between two bounds, which have to be in order. -/
def clamp? (low high word : UInt64) : Option UInt64 :=
  if high < low then none
  else if word < low then some low
  else if high < word then some high
  else some word

theorem clamp?_of_le {low high : UInt64} (h : low ≤ high) (word : UInt64) :
    clamp? low high word = some (max low (min word high)) := by
  have hvalue : (max low (min word high)).toNat = max low.toNat (min word.toNat high.toNat) := by
    rw [toNat_max, toNat_min]
  have hsome (other : UInt64) (hother : other.toNat = max low.toNat (min word.toNat high.toNat)) :
      some other = some (max low (min word high)) :=
    congrArg some (UInt64.toNat_inj.mp (hother.trans hvalue.symm))
  rw [UInt64.le_iff_toNat_le] at h
  simp only [clamp?, UInt64.lt_iff_toNat_lt]
  rw [if_neg (Nat.not_lt.mpr h)]
  split
  · exact hsome low (by omega)
  · split
    · exact hsome high (by omega)
    · exact hsome word (by omega)

namespace Backoff

/-- The largest delay, in seconds. -/
def most (cap : UInt64) : Nat :=
  max cap.toNat 1

/-- The first delay, in seconds. -/
def first (initial cap : UInt64) : Nat :=
  max 1 (min initial.toNat (most cap))

/-- The delay behind `count` others, in seconds. -/
def delay (initial cap : UInt64) (count : Nat) : Nat :=
  min (most cap) (first initial cap * Nat.pow 2 count)

/-- A schedule after `count` more delays. -/
def after (backoff : Backoff) : (count : Nat) → Backoff
  | 0 => backoff
  | count + 1 => (backoff.after count).advance

variable (initial cap : UInt64)

theorem cap_after (backoff : Backoff) (count : Nat) : (backoff.after count).cap = backoff.cap := by
  induction count with
  | zero => rfl
  | succ count ih => exact ih

/-- The cap times two is no less than the cap, so that a delay that has reached it stays. -/
theorem delay_succ (count : Nat) :
    delay initial cap (count + 1) = min (delay initial cap count * 2) (most cap) := by
  have hpow : Nat.pow 2 (count + 1) = Nat.pow 2 count * 2 := rfl
  simp only [delay, hpow, ← Nat.mul_assoc]
  omega

theorem toNat_current_after (count : Nat) :
    ((ofLimits initial cap).after count).current.toNat = delay initial cap count := by
  have hcap : (ofLimits initial cap).cap.toNat = most cap := toNat_max cap 1
  induction count with
  | zero =>
      have hfirst : (ofLimits initial cap).current.toNat = first initial cap := by
        rw [ofLimits, toNat_max, toNat_min]
        rw [show (max cap 1).toNat = most cap from toNat_max cap 1]
        rfl
      have hle : first initial cap ≤ most cap := by
        simp only [first, most]
        omega
      have hpow : Nat.pow 2 0 = 1 := rfl
      rw [after, hfirst, delay, hpow, Nat.mul_one, Nat.min_eq_right hle]
  | succ count ih =>
      have hsize : most cap ≤ UInt64.size - 1 := by
        have hlt := cap.toNat_lt
        simp only [most, UInt64.size]
        omega
      rw [after, advance, toNat_min, toNat_saturatingDouble, ih, cap_after, hcap, delay_succ]
      omega

/-- No delay is less than a second. -/
theorem one_le_delay (count : Nat) : 1 ≤ delay initial cap count := by
  have hpow : 0 < Nat.pow 2 count := Nat.two_pow_pos count
  have hfirst : 1 ≤ first initial cap := Nat.le_max_left _ _
  have hmost : 1 ≤ most cap := Nat.le_max_right _ _
  exact Nat.le_min.mpr ⟨hmost, Nat.mul_pos hfirst hpow⟩

theorem delay_le_most (count : Nat) : delay initial cap count ≤ most cap :=
  Nat.min_le_left _ _

theorem delay_le_add (count more : Nat) :
    delay initial cap count ≤ delay initial cap (count + more) := by
  have hpow : Nat.pow 2 count ≤ Nat.pow 2 (count + more) :=
    Nat.pow_le_pow_right Nat.two_pos (Nat.le_add_right _ _)
  have hproduct := Nat.mul_le_mul_left (first initial cap) hpow
  simp only [delay]
  omega

/-- The bounds of the first delay are in order, whatever the limits. -/
theorem clamp?_limits :
    (clamp? 1 (max cap 1) initial).map (Backoff.mk (max cap 1)) = some (ofLimits initial cap) := by
  have hordered : 1 ≤ max cap 1 := by
    rw [UInt64.le_iff_toNat_le, toNat_max]
    exact Nat.le_max_right _ _
  rw [clamp?_of_le hordered, Option.map_some, ofLimits]

theorem after_advance (backoff : Backoff) (count : Nat) :
    backoff.advance.after count = backoff.after (count + 1) := by
  induction count with
  | zero => rfl
  | succ count ih => exact congrArg advance ih

/-- The delays that a schedule lists are the ones it comes to, one after another. -/
theorem delays_eq_map_after (backoff : Backoff) (count : Nat) :
    backoff.delays count =
      (List.range (count + 1)).map fun past => (backoff.after past).current := by
  -- The list advances the schedule before it goes on, `after` once it is there.
  induction count generalizing backoff with
  | zero => rfl
  | succ count ih =>
      rw [List.range_succ_eq_map (n := count + 1), List.map_cons, List.map_map, delays, ih]
      simp only [after_advance]
      rfl

/-- Any two words can be the limits of a schedule. The delay behind `count` others is the first
one times `2 ^ count` in unbounded arithmetic, or the cap if that is less, in what the schedule
comes to as in what it lists; it is between one second and the cap, and never less than an
earlier one. Each is twice the one before or the cap, so that no doubling wraps around. -/
theorem doubles_up_to_cap (initial cap : UInt64) :
    (clamp? 1 (max cap 1) initial).map (Backoff.mk (max cap 1)) = some (ofLimits initial cap) ∧
      (∀ count, ((ofLimits initial cap).after count).current.toNat =
        min (most cap) (first initial cap * Nat.pow 2 count)) ∧
      (∀ count, ((ofLimits initial cap).delays count).map UInt64.toNat =
        (List.range (count + 1)).map (delay initial cap)) ∧
      (∀ count, 1 ≤ ((ofLimits initial cap).after count).current.toNat ∧
        ((ofLimits initial cap).after count).current.toNat ≤ most cap) ∧
      (∀ count more, ((ofLimits initial cap).after count).current ≤
        ((ofLimits initial cap).after (count + more)).current) ∧
      ∀ count, ((ofLimits initial cap).after count).advance.current.toNat =
        min (((ofLimits initial cap).after count).current.toNat * 2) (most cap) := by
  have hvalue := toNat_current_after initial cap
  refine ⟨clamp?_limits initial cap, hvalue, fun count => ?_, fun count => ?_,
    fun count more => ?_, fun count => ?_⟩
  · rw [delays_eq_map_after, List.map_map]
    exact List.map_congr_left fun past _ => hvalue past
  · rw [hvalue]
    exact ⟨one_le_delay initial cap count, delay_le_most initial cap count⟩
  · rw [UInt64.le_iff_toNat_le, hvalue, hvalue]
    exact delay_le_add initial cap count more
  · rw [hvalue, ← delay_succ]
    exact hvalue (count + 1)

/-- Twice the first delay is more than the largest word. -/
example : (ofLimits 0x8000000000000001 0xFFFFFFFFFFFFFFFF).delays 2 =
    [0x8000000000000001, 0xFFFFFFFFFFFFFFFF, 0xFFFFFFFFFFFFFFFF] := by
  decide

end Backoff

end NodeHealth
