-- SUMMARY: Limit enforcement of the Solana reserve program: transfer bounds, the rolling volume window, the protected minimum.
import ReserveBridge.Solana.Types

/-!
# Limits

`programs/glc-reserve-bridge/src/limits.rs`.
-/

namespace Solana
open Guard

def enforceTransferAmount (config : BridgeConfig) (amount : UInt64) : Except BridgeError Unit := do
  require (0 < amount) .zeroAmount
  require (config.minTransferAmount ≤ amount) .belowMinimumTransfer
  require (amount ≤ config.perTransferLimit) .exceedsPerTransferLimit

/-- The outcome, and the window it leaves behind: the source takes the window
by mutable reference. -/
def enforceAndRecordRollingVolume (config : BridgeConfig) (window : RollingVolumeWindow)
    (amount : UInt64) (now : Int64) : Except BridgeError Unit × RollingVolumeWindow :=
  let bucketAge := saturatingSubI64 now window.windowStart
  let (start, total) :=
    if config.rollingWindowSeconds ≤ bucketAge then (now, 0)
    else (window.windowStart, window.windowTotal)
  match checkedAddU64 total amount with
  | none => (.error .arithmeticOverflow, window)
  | some projected =>
    if projected ≤ config.rollingVolumeLimit then
      (.ok (), { window with windowStart := start, windowTotal := projected })
    else
      (.error .exceedsRollingVolumeLimit, window)

def enforceProtectedMinimum (reserveBalance protectedMinimum amount : UInt64) :
    Except BridgeError Unit := do
  let requiredFloor ← orFail (checkedAddU64 amount protectedMinimum) .arithmeticOverflow
  require (requiredFloor ≤ reserveBalance) .insufficientReserveBalance

theorem enforceProtectedMinimum_ok {reserveBalance protectedMinimum amount : UInt64} {u : Unit}
    (h : enforceProtectedMinimum reserveBalance protectedMinimum amount = .ok u) :
    amount.toNat + protectedMinimum.toNat ≤ reserveBalance.toNat := by
  simp only [enforceProtectedMinimum, bind_eq_ok, orFail_eq_ok, require_eq_ok] at h
  obtain ⟨floor, hfloor, hle⟩ := h
  rw [← checkedAddU64_eq_some hfloor]
  exact UInt64.le_iff_toNat_le.mp hle

/-- Saturation does not change how an age compares with a positive window
length. -/
theorem le_saturatingSubI64 {a b w : Int64} (hw : 0 < w.toInt) :
    w ≤ saturatingSubI64 a b ↔ w.toInt ≤ a.toInt - b.toInt := by
  have hmin : Int64.minValue.toInt = -2 ^ 63 := rfl
  have hmax : Int64.maxValue.toInt = 2 ^ 63 - 1 := rfl
  have hhi := w.toInt_lt
  rw [Int64.le_iff_toInt_le, saturatingSubI64, Int64.ofIntClamp]
  split_ifs with hlow hhigh
  · rw [Int64.toInt_ofIntLE]
  · -- the age exceeds every window
    omega
  · -- the age is far below zero
    omega

/-- An accepted call leaves the window at the bucket it fell in, within the
limit. -/
theorem enforceAndRecordRollingVolume_ok {config : BridgeConfig}
    {window window' : RollingVolumeWindow} {amount : UInt64} {now : Int64}
    (hw : 0 < config.rollingWindowSeconds.toInt)
    (h : enforceAndRecordRollingVolume config window amount now = (.ok (), window')) :
    window'.windowTotal.toNat ≤ config.rollingVolumeLimit.toNat ∧
    if config.rollingWindowSeconds.toInt ≤ now.toInt - window.windowStart.toInt then
      window'.windowStart = now ∧ window'.windowTotal.toNat = amount.toNat
    else
      window'.windowStart = window.windowStart ∧
        window'.windowTotal.toNat = window.windowTotal.toNat + amount.toNat := by
  simp only [enforceAndRecordRollingVolume, le_saturatingSubI64 hw] at h
  split_ifs at h ⊢ with hage
  all_goals
    split at h
    · simp at h
    next projected hadd =>
      split_ifs at h with hle
      · obtain ⟨-, rfl⟩ := Prod.mk.inj h
        have hsum := checkedAddU64_eq_some hadd
        exact ⟨UInt64.le_iff_toNat_le.mp hle, rfl, by simpa using hsum⟩
      · simp at h

/-- A rejected call leaves the window as it was. -/
theorem enforceAndRecordRollingVolume_error {config : BridgeConfig}
    {window : RollingVolumeWindow} {amount : UInt64} {now : Int64} {e : BridgeError}
    (h : (enforceAndRecordRollingVolume config window amount now).1 = .error e) :
    (enforceAndRecordRollingVolume config window amount now).2 = window := by
  revert h
  simp only [enforceAndRecordRollingVolume]
  split
  · exact fun _ => rfl
  · split
    · simp
    · exact fun _ => rfl

end Solana
