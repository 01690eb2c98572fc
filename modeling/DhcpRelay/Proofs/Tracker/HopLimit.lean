import DhcpRelay.Tracker

/-!
# The limit of hops

Whatever limit is configured, no more than `maxHopCount` hops are enforced. So one hop more is
counted as one more: the octet that counts them does not wrap round.
-/

namespace DhcpRelay.Tracker

variable {t : Tracker} {hops : UInt8}

/-- The configured limit up to the largest there is, and the largest there is if none is
configured. -/
def enforcedLimit (t : Tracker) : Nat :=
  min ((t.global.map (·.hopCountLimit.toNat)).getD 32) 32

/-- That limit is enforced. -/
theorem toNat_hopLimit (t : Tracker) : t.hopLimit.toNat = t.enforcedLimit := by
  unfold hopLimit GlobalConfig.effectiveHopLimit enforcedLimit
  cases t.global with
  | none => rfl
  | some g =>
    show (if g.hopCountLimit ≤ maxHopCount then g.hopCountLimit else maxHopCount).toNat = _
    have hmax : maxHopCount.toNat = 32 := rfl
    split
    · next h =>
      have hle := UInt8.le_iff_toNat_le.1 h
      simp only [Option.map_some, Option.getD_some]
      omega
    · next h =>
      have hlt := UInt8.lt_iff_toNat_lt.1 (UInt8.not_le.1 h)
      simp only [Option.map_some, Option.getD_some]
      omega

/-- One hop more than what is below the limit is no more than it. -/
theorem add_one_le_enforcedLimit (h : hops < t.hopLimit) : hops.toNat + 1 ≤ t.enforcedLimit := by
  rw [← toNat_hopLimit]
  exact UInt8.lt_iff_toNat_lt.1 h

/-- The limit that is enforced is never larger than the largest there is. -/
theorem hopLimit_le (t : Tracker) : t.hopLimit ≤ maxHopCount := by
  rw [UInt8.le_iff_toNat_le, toNat_hopLimit]
  exact Nat.min_le_right _ _

/-- Below the limit one hop more is counted as one more. -/
theorem toNat_add_one (h : hops < t.hopLimit) : (hops + 1).toNat = hops.toNat + 1 := by
  have hle := UInt8.le_iff_toNat_le.1 t.hopLimit_le
  have hlt := UInt8.lt_iff_toNat_lt.1 h
  have hmax : maxHopCount.toNat = 32 := rfl
  rw [UInt8.toNat_add, UInt8.toNat_one, Nat.mod_eq_of_lt (by omega)]

end DhcpRelay.Tracker
