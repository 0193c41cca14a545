-- SUMMARY: The fixed-bucket rolling limits of both implementations refine one abstract limiter, and therefore its bounds hold for both.
import ReserveBridge.Evm.Bridge
import ReserveBridge.Lib.Bucket
import ReserveBridge.Solana.Limits

/-!
# The rolling limit, on both chains

`enforce_and_record_rolling_volume` works on saturating 64-bit times and
checked 64-bit totals, `_consumeWindow` on unsigned times and 256-bit totals.
Both are instances of the limiter in `Lib.Bucket`: an overflow or a clock
before the window's start only refuses more.
-/

/-! ## Solana -/

namespace Solana

/-- A call of the Solana limiter. -/
structure VolumeCall where
  amount : UInt64
  now : Int64

/-- One call under a fixed configuration. -/
def recordVolume (config : BridgeConfig) (window : RollingVolumeWindow) (call : VolumeCall) :
    Option RollingVolumeWindow :=
  match enforceAndRecordRollingVolume config window call.amount call.now with
  | (.ok (), window') => some window'
  | (.error _, _) => none

def RollingVolumeWindow.bucket (window : RollingVolumeWindow) : Bucket.State :=
  ⟨window.windowStart.toInt, window.windowTotal.toNat⟩

def VolumeCall.event (call : VolumeCall) : Bucket.Event := ⟨call.now.toInt, call.amount.toNat⟩

theorem recordVolume_eq_some {config : BridgeConfig} {window window' : RollingVolumeWindow}
    {call : VolumeCall} (h : recordVolume config window call = some window') :
    enforceAndRecordRollingVolume config window call.amount call.now = (.ok (), window') := by
  unfold recordVolume at h
  split at h
  next window'' heq =>
    obtain rfl := Option.some.inj h
    exact heq
  next => simp at h

/-- A run of the limiter moves the window exactly as the calls do. -/
theorem advance_recordVolume {config : BridgeConfig} {window : RollingVolumeWindow}
    {call : VolumeCall} :
    Run.advance (recordVolume config) window call =
      (enforceAndRecordRollingVolume config window call.amount call.now).2 := by
  cases h : recordVolume config window call with
  | some window' => rw [Run.advance_of_some h, recordVolume_eq_some h]
  | none =>
    rw [Run.advance_of_none h]
    simp only [recordVolume] at h
    split at h
    · simp at h
    next e _ heq => exact (enforceAndRecordRollingVolume_error (by rw [heq])).symm

theorem recordVolume_refines {config : BridgeConfig} {window window' : RollingVolumeWindow}
    {call : VolumeCall} (hw : 0 < config.rollingWindowSeconds.toInt)
    (h : recordVolume config window call = some window') :
    Bucket.take config.rollingWindowSeconds.toInt config.rollingVolumeLimit.toNat window.bucket
      call.event = some window'.bucket := by
  obtain ⟨hle, hcases⟩ := enforceAndRecordRollingVolume_ok hw (recordVolume_eq_some h)
  split_ifs at hcases with hage
  · obtain ⟨hstart, htotal⟩ := hcases
    have hroll := Bucket.roll_of_le (s := window.bucket) hage
    rw [Bucket.take_of_roll (e := call.event) hroll (by simp [VolumeCall.event]; omega)]
    simp [RollingVolumeWindow.bucket, VolumeCall.event, hstart, htotal]
  · obtain ⟨hstart, htotal⟩ := hcases
    have hroll := Bucket.roll_of_lt (s := window.bucket) hage
    rw [Bucket.take_of_roll (e := call.event) hroll
      (by simp [RollingVolumeWindow.bucket, VolumeCall.event]; omega)]
    simp [RollingVolumeWindow.bucket, VolumeCall.event, hstart, htotal]

end Solana

/-! ## EVM -/

namespace Evm

/-- A call of the EVM limiter under a fixed limit. -/
structure WindowCall where
  env : CallEnv
  amount : ℕ

def recordWindow (limit : ℕ) (window : Window) (call : WindowCall) : Option Window :=
  (consumeWindow window call.env call.amount limit).toOption

def Window.bucket (window : Window) : Bucket.State := ⟨window.windowStart, window.total⟩

def WindowCall.event (call : WindowCall) : Bucket.Event := ⟨call.env.timestamp, call.amount⟩

theorem recordWindow_refines {limit : ℕ} {window window' : Window} {call : WindowCall}
    (h : recordWindow limit window call = some window') :
    Bucket.take rollingWindowSeconds limit window.bucket call.event = some window'.bucket := by
  simp only [recordWindow, Guard.toOption_eq_some, consumeWindow, now64, Guard.bind_eq_ok,
    Guard.require_eq_ok, Guard.pure_eq_ok, Guard.exists_unit, checkedSub_eq_ok,
    checkedAdd_eq_ok] at h
  obtain ⟨now, ⟨-, rfl⟩, age, ⟨hstart, rfl⟩, projected, ⟨-, rfl⟩, hle, rfl⟩ := h
  by_cases hage : rollingWindowSeconds ≤ call.env.timestamp - window.windowStart
  · have hroll := Bucket.roll_of_le (s := window.bucket) (t := call.event.time)
      (W := rollingWindowSeconds) (by simp [Window.bucket, WindowCall.event]; omega)
    simp only [if_pos hage, Nat.zero_add] at hle ⊢
    rw [Bucket.take_of_roll hroll (by simpa [WindowCall.event] using hle)]
    simp [Window.bucket, WindowCall.event]
  · have hroll := Bucket.roll_of_lt (s := window.bucket) (t := call.event.time)
      (W := rollingWindowSeconds) (by simp [Window.bucket, WindowCall.event]; omega)
    simp only [if_neg hage] at hle ⊢
    rw [Bucket.take_of_roll hroll (by simpa [Window.bucket, WindowCall.event] using hle)]
    simp [Window.bucket, WindowCall.event]

end Evm

/-! ## The bounds -/

namespace RollingLimit
open Bucket (accepted)

/-- Under a constant configuration and at non-decreasing times, both limiters
accept at most twice the limit over any closed span as long as the window, and
at most the limit among the calls that leave one bucket open. A rejected call
leaves the window as it was. -/
theorem rolling_limit_bounds :
    (∀ (config : Solana.BridgeConfig) (window : Solana.RollingVolumeWindow)
        (calls : List Solana.VolumeCall), 0 < config.rollingWindowSeconds.toInt →
      (calls.map fun c => c.now.toInt).Pairwise (· ≤ ·) →
      (∀ t : ℤ, accepted (Solana.recordVolume config) (fun c => c.amount.toNat) window calls
        (fun x => t ≤ x.2.now.toInt ∧ x.2.now.toInt ≤ t + config.rollingWindowSeconds.toInt) ≤
          2 * config.rollingVolumeLimit.toNat) ∧
      (∀ b : ℤ, accepted (Solana.recordVolume config) (fun c => c.amount.toNat) window calls
        (fun x => (Solana.recordVolume config x.1 x.2).map (fun w => w.windowStart.toInt) =
          some b) ≤ config.rollingVolumeLimit.toNat) ∧
      (∀ (w : Solana.RollingVolumeWindow) (c : Solana.VolumeCall), Run.advance (Solana.recordVolume config) w c =
        (Solana.enforceAndRecordRollingVolume config w c.amount c.now).2) ∧
      (∀ (w : Solana.RollingVolumeWindow) (c : Solana.VolumeCall) (e : Solana.BridgeError),
        (Solana.enforceAndRecordRollingVolume config w c.amount c.now).1 = .error e →
        (Solana.enforceAndRecordRollingVolume config w c.amount c.now).2 = w)) ∧
    (∀ (limit : ℕ) (window : Evm.Window) (calls : List Evm.WindowCall),
      (calls.map fun c => c.env.timestamp).Pairwise (· ≤ ·) →
      (∀ t : ℤ, accepted (Evm.recordWindow limit) (fun c => c.amount) window calls
        (fun x => t ≤ x.2.env.timestamp ∧ x.2.env.timestamp ≤ t + Evm.rollingWindowSeconds) ≤
          2 * limit) ∧
      (∀ b : ℤ, accepted (Evm.recordWindow limit) (fun c => c.amount) window calls
        (fun x => (Evm.recordWindow limit x.1 x.2).map (fun w => (w.windowStart : ℤ)) =
          some b) ≤ limit) ∧
      (∀ (w : Evm.Window) (c : Evm.WindowCall) (e : Evm.Revert), Evm.consumeWindow w c.env c.amount limit = .error e →
        Run.advance (Evm.recordWindow limit) w c = w)) := by
  refine ⟨fun config window calls hw hsorted => ?_, fun limit window calls hsorted => ?_⟩
  · obtain ⟨hspan, hbucket⟩ := Bucket.accepted_le (Solana.recordVolume config)
      Solana.RollingVolumeWindow.bucket Solana.VolumeCall.event hw
      (fun _ _ _ => Solana.recordVolume_refines hw) hsorted window
    exact ⟨hspan, hbucket, fun w c => Solana.advance_recordVolume,
      fun w c e => Solana.enforceAndRecordRollingVolume_error⟩
  · have htimes : (calls.map fun c => c.event.time).Pairwise (· ≤ ·) := by
      rw [List.pairwise_map] at hsorted ⊢
      exact hsorted.imp Int.ofNat_le.mpr
    obtain ⟨hspan, hbucket⟩ := Bucket.accepted_le (Evm.recordWindow limit) Evm.Window.bucket
      Evm.WindowCall.event (W := Evm.rollingWindowSeconds) (by decide)
      (fun _ _ _ => Evm.recordWindow_refines) htimes window
    refine ⟨hspan, hbucket, fun w c e he => Run.advance_of_none ?_⟩
    rw [Evm.recordWindow, he]
    rfl

/-- Limit 10 over 100 seconds. -/
def sampleLimits : Solana.BridgeConfig where
  protocolVersion := Solana.protocolVersion
  admin := Solana.Pubkey.default
  pendingAdmin := none
  paused := false
  releasePaused := false
  depositPaused := false
  bump := 0
  reserveTokenMint := Solana.Pubkey.default
  reserveTokenProgram := Solana.Pubkey.default
  reserveAuthorityBump := 0
  obligationCount := 0
  governanceTimelockSeconds := 1
  minTransferAmount := 1
  perTransferLimit := 10
  protectedMinimum := 0
  rollingVolumeLimit := 10
  rollingWindowSeconds := 100
  upgradeTimelockSeconds := 1

def sampleVolumeWindow : Solana.RollingVolumeWindow :=
  ⟨.goldcoinToSolana, 0, 0, 0, Vector.replicate 16 0⟩

/-- Fills the first bucket, opens the second one at exactly the window's length
and fills it too, and is refused after that. -/
def sampleVolumeCalls : List Solana.VolumeCall := [⟨10, 0⟩, ⟨10, 100⟩, ⟨1, 100⟩]

/-- The factor two is reached, at the boundary, and not exceeded. -/
theorem rolling_limit_bounds_reached :
    accepted (Solana.recordVolume sampleLimits) (fun c => c.amount.toNat) sampleVolumeWindow
      sampleVolumeCalls (fun x => 0 ≤ x.2.now.toInt ∧
        x.2.now.toInt ≤ 0 + sampleLimits.rollingWindowSeconds.toInt) = 20 ∧
    accepted (Solana.recordVolume sampleLimits) (fun c => c.amount.toNat) sampleVolumeWindow
      sampleVolumeCalls (fun x => 0 ≤ x.2.now.toInt ∧
        x.2.now.toInt ≤ 0 + sampleLimits.rollingWindowSeconds.toInt) ≤
      2 * sampleLimits.rollingVolumeLimit.toNat :=
  ⟨by decide,
    (rolling_limit_bounds.1 sampleLimits sampleVolumeWindow sampleVolumeCalls (by decide)
      (by decide)).1 0⟩

end RollingLimit
