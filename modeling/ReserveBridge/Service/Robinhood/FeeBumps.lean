-- SUMMARY: The fees a stuck broadcast is replaced at: what the raised suggestion of the moment offers over the version before, and when every replacement of a run outbids the one before it.
import ReserveBridge.Service.Robinhood.Replacement

/-!
# The fees of the replacements

A node takes a replacement only at a higher fee than that of the version it
replaces. `read_fees` raises what the endpoint suggests at the moment, once for
each replacement so far; what was signed before is not read.
-/

namespace Service.Robinhood
open Guard

/-! ## Raising a fee -/

section Bumps

variable {fee fee' bumps : ℕ}

theorem bumpFee_succ : bumpFee fee (bumps + 1) =
    min (bumpFee fee bumps + bumpFee fee bumps / 8 + 1) u128Max := by
  simp only [bumpFee, satAdd]
  omega

theorem bumpFee_mono (h : fee ≤ fee') : bumpFee fee bumps ≤ bumpFee fee' bumps := by
  induction bumps with
  | zero => exact h
  | succ bumps ih =>
    rw [bumpFee_succ, bumpFee_succ]
    omega

/-- Short of saturation the order of two fees is kept strictly. -/
theorem bumpFee_lt (h : fee < fee') (hroom : bumpFee fee' bumps < u128Max) :
    bumpFee fee bumps < bumpFee fee' bumps := by
  induction bumps with
  | zero => exact h
  | succ bumps ih =>
    rw [bumpFee_succ] at hroom
    have hlt := ih (by omega)
    rw [bumpFee_succ, bumpFee_succ]
    omega

theorem le_bumpFee (hroom : bumpFee fee bumps < u128Max) : fee ≤ bumpFee fee bumps := by
  induction bumps with
  | zero => exact le_rfl
  | succ bumps ih =>
    rw [bumpFee_succ] at hroom
    have hle := ih (by omega)
    rw [bumpFee_succ]
    omega

/-- One bump more is an eighth more, unless the fee that is raised is lower or the
sum saturates. -/
theorem bumpFee_outbids_iff : 9 * bumpFee fee bumps ≤ 8 * bumpFee fee' (bumps + 1) ↔
    fee ≤ fee' ∧ 9 * bumpFee fee bumps ≤ 8 * u128Max := by
  have hpos : 0 < u128Max := by decide
  rw [bumpFee_succ]
  constructor
  · intro h
    refine ⟨?_, by omega⟩
    by_contra hlower
    have hlt : bumpFee fee' bumps < bumpFee fee bumps :=
      bumpFee_lt (Nat.lt_of_not_le hlower) (by omega)
    omega
  · rintro ⟨hle, hroom⟩
    have hmono : bumpFee fee bumps ≤ bumpFee fee' bumps := bumpFee_mono hle
    omega

end Bumps

/-! ## What is asked -/

/-- Every fee is an eighth above that of the other. -/
def TxFees.Outbids : TxFees → TxFees → Prop
  | .legacy gasPrice, .legacy before => 9 * before ≤ 8 * gasPrice
  | .eip1559 maxFee tip, .eip1559 maxFeeBefore tipBefore =>
    9 * maxFeeBefore ≤ 8 * maxFee ∧ 9 * tipBefore ≤ 8 * tip
  | _, _ => False

/-- The fees keep to the ceiling, and the tip is paid out of the maximum. -/
def Submitter.Admits (u : Submitter) : TxFees → Prop
  | .legacy gasPrice => gasPrice ≤ u.maxFeePerGas
  | .eip1559 maxFee tip => maxFee ≤ u.maxFeePerGas ∧ tip ≤ maxFee

namespace Submitter

/-- The tip before it is raised: the suggested one, and at least the configured. -/
def tip (u : Submitter) (w : SendAnswers) : ℕ :=
  max ((w.priorityFee.getD none).getD u.priorityFee) u.priorityFee

/-- The fee before it is raised: the suggested price, or twice the base fee and the
raised tip. -/
def suggested (u : Submitter) (w : SendAnswers) (bumps : ℕ) : ℕ :=
  match u.envelope with
  | .legacy => w.gasPrice.getD 0
  | .eip1559 =>
    satAdd (min ((w.baseFee.getD none).getD 0 * 2) u128Max) (bumpFee (u.tip w) bumps)

variable {u : Submitter} {w w' : SendAnswers} {bumps : ℕ} {fees fees' : TxFees}

/-- The endpoint answers what the envelope needs. -/
def Answered (u : Submitter) (w : SendAnswers) : Prop :=
  match u.envelope with
  | .legacy => w.baseFee = some none ∧ w.gasPrice.isSome
  | .eip1559 => (∃ base, w.baseFee = some (some base)) ∧ w.priorityFee.isSome

/-- It does, and the raised suggestion keeps to the ceiling. -/
def Priceable (u : Submitter) (w : SendAnswers) (bumps : ℕ) : Prop :=
  u.Answered w ∧ bumpFee (u.suggested w bumps) bumps ≤ u.maxFeePerGas

theorem readFees_legacy (henvelope : u.envelope = .legacy) :
    u.readFees w bumps = some fees ↔
      u.Priceable w bumps ∧ fees = .legacy (bumpFee (u.suggested w bumps) bumps) := by
  simp only [readFees, Priceable, Answered, suggested, henvelope]
  match w.baseFee, w.gasPrice with
  | none, _ => simp
  | some (some base), _ => simp
  | some none, none => simp
  | some none, some price =>
    simp only [Option.bind_eq_bind, Option.bind_some, Option.getD_some, Option.isSome_some,
      and_self, true_and]
    split_ifs with hceiling
    · simp [Nat.not_le_of_lt hceiling]
    · simp [Nat.le_of_not_lt hceiling, eq_comm]

theorem readFees_eip1559 (henvelope : u.envelope = .eip1559) :
    u.readFees w bumps = some fees ↔
      u.Priceable w bumps ∧ fees = .eip1559 (bumpFee (u.suggested w bumps) bumps)
        (min (bumpFee (u.tip w) bumps) (bumpFee (u.suggested w bumps) bumps)) := by
  simp only [readFees, Priceable, Answered, suggested, tip, henvelope]
  match w.baseFee, w.priorityFee with
  | none, _ => simp
  | some none, _ => simp
  | some (some base), none => simp
  | some (some base), some tip =>
    simp only [Option.bind_eq_bind, Option.bind_some, Option.getD_some, Option.isSome_some,
      Option.some.injEq, exists_eq', and_self, true_and]
    split_ifs with hceiling
    · simp [Nat.not_le_of_lt hceiling]
    · simp [Nat.le_of_not_lt hceiling, eq_comm]

/-- The fees are refused unless they are answered and within the ceiling. -/
theorem readFees_isSome : (u.readFees w bumps).isSome ↔ u.Priceable w bumps := by
  rw [Option.isSome_iff_exists]
  cases henvelope : u.envelope with
  | legacy => simp only [readFees_legacy henvelope, exists_and_left, exists_eq, and_true]
  | eip1559 => simp only [readFees_eip1559 henvelope, exists_and_left, exists_eq, and_true]

/-- What is read keeps to the limits. -/
theorem readFees_admits (h : u.readFees w bumps = some fees) : u.Admits fees := by
  cases henvelope : u.envelope with
  | legacy =>
    obtain ⟨⟨-, hceiling⟩, rfl⟩ := (readFees_legacy henvelope).mp h
    exact hceiling
  | eip1559 =>
    obtain ⟨⟨-, hceiling⟩, rfl⟩ := (readFees_eip1559 henvelope).mp h
    exact ⟨hceiling, min_le_right _ _⟩

/-- Short of saturation the maximum covers the raised tip. -/
theorem bump_tip_le (henvelope : u.envelope = .eip1559)
    (hroom : bumpFee (u.suggested w bumps) bumps < u128Max) :
    bumpFee (u.tip w) bumps ≤ bumpFee (u.suggested w bumps) bumps := by
  have hle := le_bumpFee hroom
  simp only [suggested, henvelope, satAdd] at hle hroom ⊢
  omega

/-- The raised tip never overflows, and the maximum covers it. -/
theorem bump_tip_succ_le (henvelope : u.envelope = .eip1559) :
    bumpFee (u.tip w) (bumps + 1) ≤ bumpFee (u.suggested w (bumps + 1)) (bumps + 1) := by
  by_cases hroom : bumpFee (u.suggested w (bumps + 1)) (bumps + 1) < u128Max
  · exact bump_tip_le henvelope hroom
  · rw [bumpFee_succ]
    omega

/-- What is suggested has not fallen since: the price, or the tip and, with twice the
base fee, the raised tip. And an eighth more than the fee then fits. -/
structure Holds (u : Submitter) (bumps : ℕ) (before w : SendAnswers) : Prop where
  suggested : u.suggested before bumps ≤ u.suggested w (bumps + 1)
  tip : u.envelope = .eip1559 → u.tip before ≤ u.tip w
  room : 9 * bumpFee (u.suggested before bumps) bumps ≤ 8 * u128Max

/-- The next version outbids the last exactly when the suggestions hold. -/
theorem readFees_outbids_iff (h : u.readFees w bumps = some fees)
    (h' : u.readFees w' (bumps + 1) = some fees') : fees'.Outbids fees ↔ u.Holds bumps w w' := by
  have hfee : 9 * bumpFee (u.suggested w bumps) bumps ≤
      8 * bumpFee (u.suggested w' (bumps + 1)) (bumps + 1) ↔
      u.suggested w bumps ≤ u.suggested w' (bumps + 1) ∧
        9 * bumpFee (u.suggested w bumps) bumps ≤ 8 * u128Max := bumpFee_outbids_iff
  cases henvelope : u.envelope with
  | legacy =>
    obtain ⟨-, rfl⟩ := (readFees_legacy henvelope).mp h
    obtain ⟨-, rfl⟩ := (readFees_legacy henvelope).mp h'
    rw [TxFees.Outbids, hfee]
    constructor
    · rintro ⟨hheld, hroom⟩
      exact ⟨hheld, fun hother => (by cases henvelope.symm.trans hother), hroom⟩
    · intro hholds
      exact ⟨hholds.suggested, hholds.room⟩
  | eip1559 =>
    obtain ⟨-, rfl⟩ := (readFees_eip1559 henvelope).mp h
    obtain ⟨-, rfl⟩ := (readFees_eip1559 henvelope).mp h'
    have hpos : 0 < u128Max := by decide
    have htip : 9 * bumpFee (u.tip w) bumps ≤ 8 * bumpFee (u.tip w') (bumps + 1) ↔
        u.tip w ≤ u.tip w' ∧ 9 * bumpFee (u.tip w) bumps ≤ 8 * u128Max := bumpFee_outbids_iff
    rw [TxFees.Outbids, hfee, min_eq_left (bump_tip_succ_le henvelope)]
    constructor
    · rintro ⟨⟨hheld, hroom⟩, houtbids⟩
      rw [min_eq_left (bump_tip_le henvelope (by omega)), htip] at houtbids
      exact ⟨hheld, fun _ => houtbids.1, hroom⟩
    · intro hholds
      have hroom := hholds.room
      have hle : bumpFee (u.tip w) bumps ≤ bumpFee (u.suggested w bumps) bumps :=
        bump_tip_le henvelope (by omega)
      rw [min_eq_left hle, htip]
      exact ⟨⟨hholds.suggested, hroom⟩, hholds.tip henvelope, by omega⟩

end Submitter

/-! ## What a tick does to the bytes of a row -/

/-- The calls that store no signed bytes. -/
def Op.keepsBytes : Op → Bool
  | .recordSigned .. | .recordReplacement .. => false
  | _ => true

/-- The two rows have the same bytes, and as many replacements. -/
structure SameBytes (t t' : Tx) : Prop where
  rawTx : t'.rawTx = t.rawTx
  counted : t'.replacementAttempts = t.replacementAttempts

section Bytes

variable {P : Op → Bool} {T : Tables} {D D' : Daemon} {op : Op} {id : ℕ} {t t' t'' : Tx}

theorem SameBytes.refl : SameBytes t t := ⟨rfl, rfl⟩

theorem SameBytes.trans (h : SameBytes t t') (h' : SameBytes t' t'') : SameBytes t t'' :=
  ⟨h'.rawTx.trans h.rawTx, h'.counted.trans h.counted⟩

theorem Edge.sameBytes (h : Edge T id t op t') (hop : op.keepsBytes) : SameBytes t t' := by
  cases h with
  | signed hnone hstate => cases hop
  | replaced hstate hnonce => cases hop
  | _ => exact ⟨rfl, rfl⟩

theorem Daemon.Moves.sameBytes (h : D.Moves P id D') (hP : ∀ op, P op → op.keepsBytes)
    (hrow : D.row id = some t) : ∃ t', D'.row id = some t' ∧ SameBytes t t' := by
  induction h with
  | refl => exact ⟨t, hrow, .refl⟩
  | tail _ hmove ih =>
    obtain ⟨t₁, hrow₁, hsame⟩ := ih
    cases hmove with
    | wrote op hop hpermitted happly =>
      rcases (Tables.effect_of_apply happly).cases_row hrow₁ with hkept | ⟨t₂, hget, hedge, -⟩
      · exact ⟨t₁, hkept, hsame⟩
      · exact ⟨t₂, hget, hsame.trans (hedge.sameBytes (hP op hpermitted))⟩
    | asked x hid => exact ⟨t₁, hrow₁, hsame⟩
    | reconciled landed settledAt hok =>
      rcases Daemon.reconcileFromChain_eq_ok hok with rfl | ⟨t₂, hget, -, hsets⟩
      · exact ⟨t₁, hrow₁, hsame⟩
      · obtain rfl := Option.some.inj (hget.symm.trans hrow₁)
        exact ⟨_, (hsets.get? id).trans (if_pos rfl), hsame.trans ⟨rfl, rfl⟩⟩
    | finished l completed hcompleted => exact ⟨t₁, hrow₁, hsame⟩

end Bytes

/-- The row is replaced: it is due, it can be priced, and the process gets to it. -/
structure Replacing (s : Settler) (u : Submitter) (w : SendAnswers) (stop : Option ℕ) (now : ℤ)
    (t : Tx) : Prop where
  callable : s.Callable t
  resolvable : broadcastIsStale t now = false
  due : u.replacementDue t now = some true
  priced : u.Priceable w (t.replacementAttempts.toNat + 1)
  reached : Reaches stop 1

/-- What the turn of a row may do to its bytes: leave them, sign the first, or replace
them. -/
inductive Turn (s : Settler) (u : Submitter) (w : SendAnswers) (stop : Option ℕ) (now : ℤ) (t : Tx) :
    Tx → Prop
  | kept {t' : Tx} (hnot : ¬ Replacing s u w stop now t) (hsame : SameBytes t t') :
    Turn s u w stop now t t'
  | first {t' : Tx} {fees : TxFees} {nonce gasLimit : ℕ} {call : EvmCall} (hnone : t.rawTx = none)
    (hfees : u.readFees w 0 = some fees)
    (hrawTx : t'.rawTx = some (u.sign nonce gasLimit fees call).1)
    (hcounted : t'.replacementAttempts = t.replacementAttempts) : Turn s u w stop now t t'
  | replaced {t' : Tx} (hsome : t.rawTx.isSome) (hreplacing : Replacing s u w stop now t)
    (hreplaced : Settler.Replaced s u w t t') : Turn s u w stop now t t'

theorem Replacing.state {s : Settler} {u : Submitter} {w : SendAnswers} {stop : Option ℕ} {now : ℤ}
    {t : Tx} (h : Replacing s u w stop now t) : t.state = .broadcast := by
  have hdue := h.due
  unfold Submitter.replacementDue at hdue
  split at hdue
  · cases hdue
  · rename_i hstate
    exact not_not.mp hstate

namespace Settler
open Daemon

variable {s : Settler} {u : Submitter} {D D' : Daemon} {id n : ℕ} {t t' : Tx} {w : SendAnswers}
  {stop : Option ℕ} {now : ℤ}

theorem not_replacing (hstate : t.state ≠ .broadcast) : ¬ Replacing s u w stop now t :=
  fun h => hstate h.state

theorem turn_of_moves (hnot : ¬ Replacing s u w stop now t)
    (hmoves : D.Moves Op.keepsBytes id D') (hrow : D.row id = some t) :
    ∃ t', D'.row id = some t' ∧ Turn s u w stop now t t' := by
  obtain ⟨t', hrow', hsame⟩ := hmoves.sameBytes (fun _ hop => hop) hrow
  exact ⟨t', hrow', .kept hnot hsame⟩

theorem recordBroadcast_moves :
    D.Moves Op.keepsBytes id (D.write stop n (D.tables.recordBroadcast id now) fun D => D) :=
  write_moves (.recordBroadcast id now) rfl rfl rfl fun _ _ => .refl

/-- After the bytes are stored they are sent, and the broadcast is recorded. -/
theorem sent_moves : D.Moves Op.keepsBytes id
    (if Reaches stop 3 then
      match D.tables.transactions.get? id with
      | none => D
      | some refreshed =>
        let D := (D.sends u id refreshed).getD D
        D.write stop 4 (D.tables.recordBroadcast id now) fun D => D
    else D) := by
  split
  · split
    · exact .refl
    · rename_i refreshed _
      have hsent : D.Moves Op.keepsBytes id ((D.sends u id refreshed).getD D) := by
        cases h : D.sends u id refreshed with
        | none => exact .refl
        | some D' => exact sends_moves h
      exact hsent.trans recordBroadcast_moves
  · exact .refl

/-- What is cleared has the fees of the first version. -/
theorem clear_fees {call : EvmCall} {c : Clearance} (h : clear u w call = some c) :
    u.readFees w 0 = some c.fees := by
  unfold clear at h
  obtain ⟨balance, -, h⟩ := Option.bind_eq_some_iff.mp h
  dsimp only at h
  split_ifs at h
  · cases h
  · obtain ⟨estimate, -, h⟩ := Option.bind_eq_some_iff.mp h
    obtain ⟨fees, hfees, h⟩ := Option.bind_eq_some_iff.mp h
    obtain rfl := Option.some.inj h
    exact hfees

theorem allocateAndSend_turn {c : Clearance} (hrow : D.row id = some t)
    (hstate : t.state = .authorized) (hfees : u.readFees w 0 = some c.fees) :
    ∃ t', (s.allocateAndSend u D id c stop now).row id = some t' ∧ Turn s u w stop now t t' := by
  have hnot : ¬ Replacing s u w stop now t := not_replacing (by rw [hstate]; decide)
  unfold allocateAndSend
  split
  · split
    · exact ⟨t, hrow, .kept hnot .refl⟩
    · rename_i nonce T hallocated
      have hmove : D.Moves Op.keepsBytes id { D with tables := T } :=
        .single (.wrote _ rfl rfl (Tables.apply_allocateNonce hallocated))
      obtain ⟨t₁, hrow₁, hsame₁⟩ := hmove.sameBytes (fun _ hop => hop) hrow
      dsimp only
      by_cases hsigns : Reaches stop 2
      · cases hsigned : T.recordSigned id u.envelope.asStr c.gasLimit (describeFees c.fees)
          (u.sign nonce c.gasLimit c.fees c.call).1 (u.sign nonce c.gasLimit c.fees c.call).2 now with
        | error e =>
          rw [write_of_error rfl]
          exact ⟨t₁, hrow₁, .kept hnot hsame₁⟩
        | ok T₂ =>
          -- the first bytes, or those that were stored already
          obtain ⟨t₂, hrow₂, hturn⟩ : ∃ t₂, T₂.transactions.get? id = some t₂ ∧
              ∀ t₃, SameBytes t₂ t₃ → Turn s u w stop now t t₃ := by
            have heffect := @Tables.effect_of_apply T T₂ (.recordSigned id u.envelope.asStr c.gasLimit
              (describeFees c.fees) _ _ now) hsigned
            rcases heffect.cases_row hrow₁ with hkept | ⟨t₂, hget, hedge, -⟩
            · exact ⟨t₁, hkept, fun t₃ hsame => .kept hnot (hsame₁.trans hsame)⟩
            · refine ⟨t₂, hget, fun t₃ hsame => ?_⟩
              cases hedge with
              | signed hnone =>
                rw [hsame₁.rawTx] at hnone
                exact .first hnone hfees hsame.rawTx
                  (hsame.counted.trans hsame₁.counted)
          rw [write_of_ok hsigns rfl]
          obtain ⟨t₃, hrow₃, hsame⟩ := (@sent_moves u { D with tables := T₂ } id stop now).sameBytes
            (fun _ hop => hop) hrow₂
          exact ⟨t₃, hrow₃, hturn t₃ hsame⟩
      · rw [write_of_stop hsigns]
        exact ⟨t₁, hrow₁, .kept hnot hsame₁⟩
  · exact ⟨t, hrow, .kept hnot .refl⟩

theorem signAndSend_turn (hrow : D.row id = some t) (hstate : t.state = .authorized) :
    ∃ t', (s.signAndSend u D id t w stop now).row id = some t' ∧ Turn s u w stop now t t' := by
  have hnot : ¬ Replacing s u w stop now t := not_replacing (by rw [hstate]; decide)
  unfold signAndSend
  split
  · exact turn_of_moves hnot (park_moves fun _ => rfl) hrow
  · split
    · exact ⟨t, hrow, .kept hnot .refl⟩
    · split
      · exact ⟨t, hrow, .kept hnot .refl⟩
      · split
        · exact ⟨t, hrow, .kept hnot .refl⟩
        · exact turn_of_moves hnot (reconcileOrPark_moves fun _ => rfl) hrow
        · split
          · exact ⟨t, hrow, .kept hnot .refl⟩
          · rename_i c hclear
            exact allocateAndSend_turn hrow hstate (clear_fees hclear)

theorem rebroadcastOrReplace_turn (hrow : D.row id = some t) :
    ∃ t', (s.rebroadcastOrReplace u D id t w stop now).row id = some t' ∧
      Turn s u w stop now t t' := by
  by_cases hreplacing : Replacing s u w stop now t
  · obtain ⟨t', hrow', hreplaced⟩ := rebroadcastOrReplace_replaces hrow hreplacing.state
      hreplacing.callable hreplacing.resolvable hreplacing.due
      (Submitter.readFees_isSome.mpr hreplacing.priced) hreplacing.reached
    have hchecks := D.tables.transactions.checked id t hrow
    have hsigned := hchecks.signed (by rw [hreplacing.state]; rfl)
    exact ⟨t', hrow', .replaced hsigned.1 hreplacing hreplaced⟩
  · refine turn_of_moves hreplacing ?_ hrow
    unfold rebroadcastOrReplace
    split
    · exact reconcileOrPark_moves fun _ => rfl
    · rename_i hstale
      split
      · split
        · split
          · exact .refl
          · rename_i D₁ hsent
            refine (sends_moves hsent).trans ?_
            split
            · exact recordBroadcast_moves
            · exact .refl
        · exact .refl
      · rename_i hdue
        split
        · rename_i call nonce fees hcall hnonce hfees
          refine (write_of_stop fun hreached => hreplacing ?_) ▸ .refl
          refine ⟨?_, Bool.not_eq_true _ ▸ hstale, hdue, ?_, hreached⟩
          · unfold Callable
            rw [hcall]
            rfl
          · rw [← Submitter.readFees_isSome, hfees]
            rfl
        · exact .refl
      · exact reconcileOrPark_moves fun _ => rfl

theorem tickBroadcast_turn {w : BroadcastTick} (hrow : D.row id = some t) :
    ∃ t', (s.tickBroadcast u D w).row id = some t' ∧
      Turn s u (w.answers id) (w.stop id) w.now t t' := by
  by_cases hauthorized : t.state = .authorized
  · obtain ⟨D₁, hrow₁, hturn⟩ := @exists_turn_authorized s u D w id t hrow hauthorized
    rw [hturn]
    exact signAndSend_turn hrow₁ hauthorized
  · by_cases hinFlight : t.state = .broadcast
    · obtain ⟨D₁, hrow₁, hturn⟩ := @exists_turn_inFlight s u D w id t hrow hinFlight
      rw [hturn]
      exact rebroadcastOrReplace_turn hrow₁
    · refine ⟨t, ?_, .kept (not_replacing hinFlight) .refl⟩
      rw [tickBroadcast_frame, hrow]
      intro t' hget
      obtain rfl := Option.some.inj (hget.symm.trans hrow)
      exact ⟨hauthorized, hinFlight⟩

/-! ### The other events -/

/-- The bytes stay as they are, or there is a new row without any. -/
inductive LeavesBytes : Option Tx → Option Tx → Prop
  | none : LeavesBytes none none
  | same {t t' : Tx} (h : SameBytes t t') : LeavesBytes (some t) (some t')
  | begun {t' : Tx} (hnone : t'.rawTx = none) (hcounted : t'.replacementAttempts = 0) :
    LeavesBytes none (some t')

theorem LeavesBytes.refl {row : Option Tx} : LeavesBytes row row := by
  cases row with
  | none => exact .none
  | some t => exact .same .refl

theorem LeavesBytes.trans {row row' row'' : Option Tx} (h : LeavesBytes row row')
    (h' : LeavesBytes row' row'') : LeavesBytes row row'' := by
  cases h with
  | none => exact h'
  | same hsame =>
    cases h' with
    | same hsame' => exact .same (hsame.trans hsame')
  | begun hnone hcounted =>
    cases h' with
    | same hsame' => exact .begun (hsame'.rawTx.trans hnone) (hsame'.counted.trans hcounted)

theorem pollRows_leaves {state : RobinhoodTxState} {answers : ℕ → PollAnswers} {stop : ℕ → Option ℕ}
    {head : ℕ} : LeavesBytes (D.row id) ((pollRows u D state answers stop head now).row id) := by
  unfold pollRows
  by_cases hstate : ∃ t, D.row id = some t ∧ t.state = state
  · obtain ⟨t, hrow, hstate⟩ := hstate
    have hlisted : (id, t) ∈ D.tables.txsInState state := Tables.mem_txsInState.mpr ⟨hrow, hstate⟩
    obtain ⟨D₁, hrow₁, hturn⟩ := (@pollRows_local u answers stop head now).exists_turn
      current_txsInState hlisted
    obtain ⟨t', hrow', hsame⟩ := (@pollReceipt_moves u D₁ id t (stop id) now (answers id)
      head).sameBytes (fun op hop => by cases op <;> first | rfl | cases hop) hrow₁
    rw [hturn, hrow, hrow']
    exact .same hsame
  · rw [pollRows_local.read_foldl (Tables.not_listed fun t hget hin => hstate ⟨t, hget, hin⟩)]
    exact .refl

theorem daemonStep_leaves {op : DaemonOp} (hstep : s.daemonStep u D op = some D')
    (hop : ∀ w, op ≠ .tickBroadcast w) : LeavesBytes (D.row id) (D'.row id) := by
  cases op with
  | call op =>
    rw [daemonStep] at hstep
    split_ifs at hstep with hticks
    obtain ⟨T, hcall, rfl⟩ := Option.map_eq_some_iff.mp hstep
    have heffect := Tables.effect_of_step hcall
    have hkeeps : op.keepsBytes := by
      cases op <;> first | rfl | exact absurd rfl hticks
    change LeavesBytes (D.row id) (T.transactions.get? id)
    cases hrow : D.row id with
    | some t =>
      rcases heffect.cases_row hrow with hget | ⟨t', hget, hedge, -⟩
      · rw [hget]
        exact .same .refl
      · rw [hget]
        exact .same (hedge.sameBytes hkeeps)
    | none =>
      cases hrow' : T.transactions.get? id with
      | none => exact .none
      | some t' =>
        rcases heffect.origin hrow' with hsame | ⟨t, hget, -⟩ | ⟨new, now, -, rfl, -⟩
        · cases hrow.symm.trans hsame
        · cases hrow.symm.trans hget
        · exact .begun rfl rfl
  | ledger op =>
    obtain ⟨l, -, rfl⟩ := Option.map_eq_some_iff.mp hstep
    exact .refl
  | tickBroadcast w => exact absurd rfl (hop w)
  | tickReceipts w =>
    obtain rfl := Option.some.inj hstep
    unfold tickReceipts
    split
    · exact .refl
    · exact pollRows_leaves.trans pollRows_leaves

end Settler

/-! ## The versions of an operation -/

/-- A version of the transaction of an operation: how often its fees were raised, what
was answered when they were read, and the bytes that were signed. -/
structure Version where
  bumps : ℕ
  quote : SendAnswers
  rawTx : Bytes

namespace Version

/-- Its number and its bytes. -/
def stored (v : Version) : ℕ × Bytes := (v.bumps, v.rawTx)

/-- It was signed at these fees. -/
def Bears (u : Submitter) (v : Version) (fees : TxFees) : Prop :=
  u.readFees v.quote v.bumps = some fees ∧
    ∃ nonce gasLimit call, v.rawTx = (u.sign nonce gasLimit fees call).1

/-- Every fee it was signed at is an eighth above that of the version before. -/
def Outbids (u : Submitter) (v before : Version) : Prop :=
  ∃ fees feesBefore, v.Bears u fees ∧ before.Bears u feesBefore ∧ fees.Outbids feesBefore

/-- The suggestions have not fallen since it was signed. -/
def Holds (u : Submitter) (v : Version) (w : SendAnswers) : Prop := u.Holds v.bumps v.quote w

theorem outbids_iff {u : Submitter} {v before : Version} {fees feesBefore : TxFees}
    (h : v.Bears u fees) (hbefore : before.Bears u feesBefore) (hnext : v.bumps = before.bumps + 1) :
    v.Outbids u before ↔ before.Holds u v.quote := by
  have hfees : u.readFees v.quote (before.bumps + 1) = some fees := hnext ▸ h.1
  have hiff := Submitter.readFees_outbids_iff hbefore.1 hfees
  constructor
  · rintro ⟨fees', feesBefore', h', hbefore', houtbids⟩
    obtain rfl := Option.some.inj (h.1.symm.trans h'.1)
    obtain rfl := Option.some.inj (hbefore.1.symm.trans hbefore'.1)
    exact hiff.mp houtbids
  · intro hholds
    exact ⟨fees, feesBefore, h, hbefore, hiff.mpr hholds⟩

end Version

/-- The number and the bytes of the version that a row stores. -/
def Tx.stored (t : Tx) : Option (ℕ × Bytes) :=
  t.rawTx.map fun rawTx => (t.replacementAttempts.toNat, rawTx)

/-- The versions of an operation after a tick, latest first: what the row stores is a
new one, unless it is the last. -/
def noteVersion (w : SendAnswers) (row : Option Tx) (versions : List Version) : List Version :=
  match row.bind Tx.stored with
  | none => versions
  | some stored =>
    if versions.head?.map Version.stored = some stored then versions
    else ⟨stored.1, w, stored.2⟩ :: versions

/-- The row stores the last of its versions. They are numbered by the replacements, and
each was signed at fees that were read for it and keep to the limits. -/
structure Recorded (u : Submitter) (row : Option Tx) (versions : List Version) : Prop where
  stored : row.bind Tx.rawTx = versions.head?.map Version.rawTx
  counted : ∀ t ∈ row, t.replacementAttempts = (versions.length - 1 : ℕ)
  numbered : versions.map Version.bumps = (List.range versions.length).reverse
  priced : ∀ v ∈ versions, ∃ fees, v.Bears u fees ∧ u.Admits fees

section Versions

variable {s : Settler} {u : Submitter} {w : SendAnswers} {stop : Option ℕ} {now : ℤ}
  {row row' : Option Tx} {t t' : Tx} {v : Version} {versions : List Version}

theorem Recorded.empty : Recorded u none [] :=
  ⟨rfl, fun _ h => (by cases h), rfl, fun _ h => (by cases h)⟩

theorem Recorded.bumps (h : Recorded u row (v :: versions)) : v.bumps = versions.length := by
  have hnumbered := h.numbered
  rw [List.map_cons, List.length_cons, List.range_succ, List.reverse_append] at hnumbered
  exact (List.cons.inj hnumbered).1

/-- The row stores the last version. -/
theorem Recorded.head (h : Recorded u row versions) :
    versions.head?.map Version.stored = row.bind Tx.stored := by
  cases versions with
  | nil =>
    cases row with
    | none => rfl
    | some t =>
      have hnone : t.rawTx = none := h.stored
      rw [Option.bind_some, Tx.stored, hnone]
      rfl
  | cons v versions =>
    cases row with
    | none => cases h.stored
    | some t =>
      have hraw : t.rawTx = some v.rawTx := h.stored
      have hcounted := h.counted t rfl
      have hbumps := h.bumps
      rw [List.length_cons, Nat.add_sub_cancel] at hcounted
      rw [Option.bind_some, Tx.stored, hraw, hcounted, ← hbumps]
      rfl

theorem noteVersion_of_eq (h : versions.head?.map Version.stored = row.bind Tx.stored) :
    noteVersion w row versions = versions := by
  unfold noteVersion
  split
  · rfl
  · rename_i stored hrow
    rw [h, hrow, if_pos rfl]

theorem noteVersion_of_ne {stored : ℕ × Bytes} (hrow : row.bind Tx.stored = some stored)
    (hne : versions.head?.map Version.stored ≠ some stored) :
    noteVersion w row versions = ⟨stored.1, w, stored.2⟩ :: versions := by
  unfold noteVersion
  rw [hrow]
  exact if_neg hne

theorem Recorded.leave (h : Recorded u row versions) (hleaves : Settler.LeavesBytes row row') :
    Recorded u row' versions := by
  cases hleaves with
  | none => exact h
  | same hsame =>
    refine ⟨?_, ?_, h.numbered, h.priced⟩
    · rw [← h.stored]
      exact hsame.rawTx
    · rintro t' ⟨⟩
      exact hsame.counted.trans (h.counted _ rfl)
  | begun hnone hcounted =>
    have hnil : versions = [] := by
      cases versions with
      | nil => rfl
      | cons v versions => cases h.stored
    subst hnil
    refine ⟨hnone, ?_, rfl, h.priced⟩
    rintro t' ⟨⟩
    exact hcounted

/-- The next version, with the number that is due. -/
theorem Recorded.next (h : Recorded u (some t) versions) {fees : TxFees} {nonce gasLimit : ℕ}
    {call : EvmCall} (hfees : u.readFees w versions.length = some fees)
    (hraw : t'.rawTx = some (u.sign nonce gasLimit fees call).1)
    (hcounted : t'.replacementAttempts = versions.length) :
    Recorded u (some t') (⟨versions.length, w, (u.sign nonce gasLimit fees call).1⟩ :: versions) := by
  refine ⟨hraw, ?_, ?_, ?_⟩
  · rintro t'' ⟨⟩
    exact hcounted
  · rw [List.map_cons, h.numbered, List.length_cons, List.range_succ, List.reverse_append]
    rfl
  · intro v hv
    rcases List.mem_cons.mp hv with rfl | hv
    · exact ⟨fees, ⟨hfees, nonce, gasLimit, call, rfl⟩, Submitter.readFees_admits hfees⟩
    · exact h.priced v hv

/-- Where the row is replaced, the new version outbids the last when that one's
suggestions hold; elsewhere nothing is to be outbid. -/
theorem Recorded.turn (h : Recorded u (some t) versions) (hturn : Turn s u w stop now t t') :
    Recorded u (some t') (noteVersion w (some t') versions) ∧
      ((noteVersion w (some t') versions).IsChain (Version.Outbids u) ↔
        versions.IsChain (Version.Outbids u) ∧
          (Replacing s u w stop now t → ∀ v ∈ versions.head?, v.Holds u w)) := by
  cases hturn with
  | kept hnot hsame =>
    have hkept := h.leave (.same hsame)
    rw [noteVersion_of_eq hkept.head]
    exact ⟨hkept, fun hchain => ⟨hchain, fun hreplacing => absurd hreplacing hnot⟩, And.left⟩
  | @first fees nonce gasLimit call hnone hfees hraw hcounted =>
    obtain rfl : versions = [] := by
      have hstored := h.stored
      rw [Option.bind_some, hnone] at hstored
      exact List.head?_eq_none_iff.mp (Option.map_eq_none_iff.mp hstored.symm)
    have hzero : t'.replacementAttempts = 0 := hcounted.trans (h.counted t rfl)
    have hstored : (some t').bind Tx.stored = some (0, (u.sign nonce gasLimit fees call).1) := by
      rw [Option.bind_some, Tx.stored, hraw, hzero]
      rfl
    rw [noteVersion_of_ne hstored (fun heq => by cases heq)]
    exact ⟨h.next hfees hraw hzero, fun _ => ⟨.nil, fun _ v hv => (by cases hv)⟩,
      fun _ => .singleton _⟩
  | replaced hsome hreplacing hreplaced =>
    obtain ⟨call, fees, -, hfees, hraw⟩ := hreplaced.signed
    generalize (t.nonce.map asU64).getD 0 = nonce at hraw
    generalize t.gasLimit.elim u.maxGasLimit.toNat asU64 = gasLimit at hraw
    cases versions with
    | nil =>
      have hstored : t.rawTx = none := h.stored
      rw [hstored] at hsome
      cases hsome
    | cons v versions =>
      have hcount : t.replacementAttempts = versions.length := h.counted t rfl
      have hnext : t'.replacementAttempts = (v :: versions).length := by
        rw [hreplaced.counted, hcount, List.length_cons, Nat.cast_succ]
      rw [hcount, Int.toNat_natCast] at hfees
      have hstored : (some t').bind Tx.stored =
          some ((v :: versions).length, (u.sign nonce gasLimit fees call).1) := by
        rw [Option.bind_some, Tx.stored, hraw, hnext]
        rfl
      have hbumps := h.bumps
      have hne : (v :: versions).head?.map Version.stored ≠
          some ((v :: versions).length, (u.sign nonce gasLimit fees call).1) := fun heq => by
        have hsame := congrArg Prod.fst (Option.some.inj heq)
        exact absurd (hbumps.symm.trans hsame) (Nat.ne_of_lt (Nat.lt_succ_self _))
      rw [noteVersion_of_ne hstored hne]
      have hrecorded := h.next hfees hraw hnext
      refine ⟨hrecorded, ?_⟩
      obtain ⟨feesBefore, hbefore, -⟩ := h.priced v List.mem_cons_self
      obtain ⟨fees', hbears, -⟩ := hrecorded.priced _ List.mem_cons_self
      rw [List.isChain_cons_cons,
        Version.outbids_iff hbears hbefore (congrArg Nat.succ hbumps.symm)]
      constructor
      · rintro ⟨hholds, hchain⟩
        refine ⟨hchain, fun _ v' hv' => ?_⟩
        obtain rfl := Option.some.inj hv'
        exact hholds
      · rintro ⟨hchain, hholds⟩
        exact ⟨hholds hreplacing v rfl, hchain⟩

end Versions

/-! ## Runs -/

/-- The daemon, and the versions of every operation, latest first. -/
structure Priced where
  daemon : Daemon
  versions : ℕ → List Version

namespace Priced

def empty : Priced := ⟨.empty, fun _ => []⟩

/-- The stored bytes of every operation are those of its last version, and every
version was signed at fees within the limits. -/
def AllRecorded (u : Submitter) (W : Priced) : Prop :=
  ∀ id, Recorded u (W.daemon.row id) (W.versions id)

/-- Every version outbids the one before. -/
def AllOutbid (u : Submitter) (W : Priced) : Prop :=
  ∀ id, (W.versions id).IsChain (Version.Outbids u)

end Priced

namespace Settler

/-- The versions of an operation after an event. -/
def versionsAfter (op : DaemonOp) (D : Daemon) (versions : ℕ → List Version) (id : ℕ) :
    List Version :=
  match op with
  | .tickBroadcast w => noteVersion (w.answers id) (D.row id) (versions id)
  | .call _ | .ledger _ | .tickReceipts _ => versions id

def priceStep (s : Settler) (u : Submitter) (W : Priced) (op : DaemonOp) : Option Priced :=
  (s.daemonStep u W.daemon op).map fun D => ⟨D, versionsAfter op D W.versions⟩

abbrev priceRun (s : Settler) (u : Submitter) (ops : List DaemonOp) : Priced :=
  Run.final (s.priceStep u) .empty ops

/-- At the end of the run, and so at every point of it, the bytes of every operation
are those of its last version, and every version is within the limits and outbids the
one before. -/
def ReplacementsOutbid (s : Settler) (u : Submitter) (ops : List DaemonOp) : Prop :=
  (s.priceRun u ops).AllRecorded u ∧ (s.priceRun u ops).AllOutbid u

/-- The condition on a tick: where a row is replaced, the suggestions have not fallen
since its last version. -/
def SuggestionsHold (s : Settler) (u : Submitter) (W : Priced) : DaemonOp → Prop
  | .tickBroadcast w => ∀ e ∈ W.daemon.tables.txsInState .broadcast,
      Replacing s u (w.answers e.1) (w.stop e.1) w.now e.2 →
        ∀ v ∈ (W.versions e.1).head?, v.Holds u (w.answers e.1)
  | .call _ | .ledger _ | .tickReceipts _ => True

variable {s : Settler} {u : Submitter} {D : Daemon} {W W' : Priced} {op : DaemonOp}

theorem suggestionsHold_iff {w : BroadcastTick} : s.SuggestionsHold u W (.tickBroadcast w) ↔
    ∀ id t, W.daemon.row id = some t → Replacing s u (w.answers id) (w.stop id) w.now t →
      ∀ v ∈ (W.versions id).head?, v.Holds u (w.answers id) := by
  constructor
  · intro h id t hrow hreplacing
    exact h (id, t) (Tables.mem_txsInState.mpr ⟨hrow, hreplacing.state⟩) hreplacing
  · intro h e he hreplacing
    exact h e.1 e.2 (Tables.mem_txsInState.mp he).1 hreplacing

/-- A broadcast tick, for one operation. -/
theorem tickBroadcast_recorded {w : BroadcastTick} {id : ℕ} {versions : List Version}
    (h : Recorded u (D.row id) versions) :
    Recorded u ((s.tickBroadcast u D w).row id)
        (noteVersion (w.answers id) ((s.tickBroadcast u D w).row id) versions) ∧
      ((noteVersion (w.answers id) ((s.tickBroadcast u D w).row id) versions).IsChain
          (Version.Outbids u) ↔
        versions.IsChain (Version.Outbids u) ∧
          ∀ t, D.row id = some t → Replacing s u (w.answers id) (w.stop id) w.now t →
            ∀ v ∈ versions.head?, v.Holds u (w.answers id)) := by
  cases hrow : D.row id with
  | none =>
    rw [hrow] at h
    have hsame : (s.tickBroadcast u D w).row id = none := by
      rw [tickBroadcast_frame, hrow]
      intro t hget
      cases hrow.symm.trans hget
    rw [hsame, noteVersion_of_eq h.head]
    exact ⟨h, fun hchain => ⟨hchain, fun t hget => (by cases hget)⟩, And.left⟩
  | some t =>
    rw [hrow] at h
    obtain ⟨t', hrow', hturn⟩ := tickBroadcast_turn hrow
    obtain ⟨hrecorded, hchain⟩ := h.turn hturn
    rw [hrow']
    refine ⟨hrecorded, hchain.trans (and_congr_right fun _ => ?_)⟩
    constructor
    · rintro hholds t₁ ⟨⟩
      exact hholds
    · intro hholds
      exact hholds t rfl

/-- An event keeps the record, and keeps every version above the one before exactly
where the suggestions hold. -/
theorem priceStep_iff (h : W.AllRecorded u) (hstep : s.priceStep u W op = some W') :
    W'.AllRecorded u ∧ (W'.AllOutbid u ↔ W.AllOutbid u ∧ s.SuggestionsHold u W op) := by
  obtain ⟨D, hdaemon, rfl⟩ := Option.map_eq_some_iff.mp hstep
  cases op with
  | tickBroadcast w =>
    obtain rfl := Option.some.inj hdaemon
    have hturn (id : ℕ) := @tickBroadcast_recorded s u W.daemon w id (W.versions id) (h id)
    refine ⟨fun id => (hturn id).1, ?_⟩
    rw [suggestionsHold_iff]
    constructor
    · intro hchain
      exact ⟨fun id => ((hturn id).2.mp (hchain id)).1, fun id => ((hturn id).2.mp (hchain id)).2⟩
    · rintro ⟨hchain, hholds⟩ id
      exact (hturn id).2.mpr ⟨hchain id, hholds id⟩
  | _ =>
    exact ⟨fun id => (h id).leave (daemonStep_leaves hdaemon fun w hw => (by cases hw)),
      fun hchain => ⟨hchain, trivial⟩, And.left⟩

theorem priceStep_recorded (h : W.AllRecorded u) (hstep : s.priceStep u W op = some W') :
    W'.AllRecorded u := (priceStep_iff h hstep).1

theorem empty_recorded : Priced.empty.AllRecorded u := fun _ => .empty

/-- Whatever is suggested, the record is kept. -/
theorem priceRun_recorded (ops : List DaemonOp) : (s.priceRun u ops).AllRecorded u :=
  Run.invariant (fun _ _ _ h hstep => priceStep_recorded h hstep) empty_recorded ops

/-- In every run each replacement outbids the version before exactly when the
suggestions hold at every replacement. -/
theorem replacements_outbid_iff (s : Settler) (u : Submitter) (ops : List DaemonOp) :
    s.ReplacementsOutbid u ops ↔
      ∀ e ∈ Run.history (s.priceStep u) .empty ops, s.SuggestionsHold u e.1 e.2 := by
  have hempty : Priced.empty.AllOutbid u := fun _ => .nil
  have hiff : (s.priceRun u ops).AllOutbid u ↔
      ∀ e ∈ Run.history (s.priceStep u) .empty ops, s.SuggestionsHold u e.1 e.2 :=
    Run.final_iff_history (fun _ _ _ h hstep => priceStep_recorded h hstep)
      (fun _ _ _ h hstep => (priceStep_iff h hstep).2) empty_recorded hempty ops
  rw [← hiff]
  exact and_iff_right (priceRun_recorded ops)

/-! ### A price that falls -/

/-- A broadcast tick where all is well, at a gas price. -/
def samplePriced (now : ℤ) (gasPrice : ℕ) : DaemonOp :=
  .tickBroadcast { now := now, pendingNonce := some 0, stop := fun _ => none,
                   answers := fun _ => { sampleSendAnswers with gasPrice := some gasPrice } }

/-- The payouts are signed at a price of 80, and replaced a minute later, when the price
is 40. -/
def fallingRun : List DaemonOp := samplePayouts ++ [samplePriced 200 80, samplePriced 260 40]

/-- The replacement offers 46, after 80. -/
theorem replacement_underbids : ¬ sample.ReplacementsOutbid sampleSubmitter fallingRun := by
  rintro ⟨-, hchain⟩
  have hfees : ((sample.priceRun sampleSubmitter fallingRun).versions 1).map
      (fun v => sampleSubmitter.readFees v.quote v.bumps) =
        [some (.legacy 46), some (.legacy 80)] := by decide +kernel
  obtain ⟨v, versions, hversions, hv, hrest⟩ := List.map_eq_cons_iff.mp hfees
  obtain ⟨before, versions, rfl, hbefore, -⟩ := List.map_eq_cons_iff.mp hrest
  have hchain := hchain 1
  rw [hversions] at hchain
  obtain ⟨fees, feesBefore, hbears, hbears', houtbids⟩ := (List.isChain_cons_cons.mp hchain).1
  obtain rfl := Option.some.inj (hbears.1.symm.trans hv)
  obtain rfl := Option.some.inj (hbears'.1.symm.trans hbefore)
  simp only [TxFees.Outbids] at houtbids
  omega

end Settler

end Service.Robinhood
