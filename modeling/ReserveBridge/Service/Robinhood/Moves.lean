-- SUMMARY: The steps each function of the broadcast and receipt phases is made of, and what any of them leaves alone: the other rows, and the other rows' exchanges.
import ReserveBridge.Lib.Sweep
import ReserveBridge.Service.Robinhood.Broadcast
import ReserveBridge.Service.Robinhood.Forward

/-!
# Steps of the daemon

Whatever the answers and wherever it stops, a function of phases 3 and 4 makes
steps with the one row it was given. What a step keeps, each function keeps,
and a sweep over a work list finds every row as it was listed.
-/

namespace Service.Robinhood
open Guard

namespace Op

/-- The calls of `sign_and_send`. -/
def signs : Op → Bool
  | .allocateNonce .. | .recordSigned .. | .recordBroadcast .. | .markManualReview .. => true
  | _ => false

/-- The calls of `rebroadcast_or_replace`. -/
def resends : Op → Bool
  | .recordBroadcast .. | .recordReplacement .. | .markManualReview .. => true
  | _ => false

/-- The calls of `poll_receipt`. -/
def receives : Op → Bool
  | .recordReceipt .. | .updateConfirmations .. | .markManualReview .. => true
  | _ => false

end Op

/-- The operation an exchange is about. -/
def Exchange.id : Exchange → ℕ
  | sent id _ _ | receiptRead id _ => id

namespace Tables

variable {T T' : Tables} {id : ℕ} {now : ℤ}

theorem apply_allocateNonce {submitter chainId n : ℕ}
    (h : T.allocateNonce id submitter chainId now = .ok (n, T')) :
    T.apply (.allocateNonce id submitter chainId now) = .ok T' := by
  simp only [apply, bind_eq_ok, pure_eq_ok]
  exact ⟨_, h, rfl⟩

theorem apply_recordReceipt {success : Bool} {blockNumber blockHash : ℕ} {state : RobinhoodTxState}
    (h : T.recordReceipt id success blockNumber blockHash now = .ok (state, T')) :
    T.apply (.recordReceipt id success blockNumber blockHash now) = .ok T' := by
  simp only [apply, bind_eq_ok, pure_eq_ok]
  exact ⟨_, h, rfl⟩

theorem apply_updateConfirmations {confirmations : ℤ} {required : ℕ} {promoted : Bool}
    (h : T.updateConfirmations id confirmations required now = .ok (promoted, T')) :
    T.apply (.updateConfirmations id confirmations required now) = .ok T' := by
  simp only [apply, bind_eq_ok, pure_eq_ok]
  exact ⟨_, h, rfl⟩

end Tables

namespace Daemon

/-- The row under `id`. -/
abbrev row (D : Daemon) (id : ℕ) : Option Tx := D.tables.transactions.get? id

/-! ## What the functions of the daemon do to a row -/

/-- One step of the daemon with the operation under `id`, by the calls of `P`. -/
inductive Move (P : Op → Bool) (id : ℕ) : Daemon → Daemon → Prop
  | wrote {D : Daemon} {T : Tables} (op : Op) (hrow : op.row = some id) (hP : P op)
    (h : D.tables.apply op = .ok T) : Move P id D { D with tables := T }
  | asked {D : Daemon} (x : Exchange) (hid : x.id = id) :
    Move P id D { D with exchanges := x :: D.exchanges }
  | reconciled {D : Daemon} {W : World} (landed : Landed) (now : ℤ)
    (h : D.reconcileFromChain id landed now = .ok W) :
    Move P id D { D with toWorld := W, completed := id :: D.completed }
  | finished {D : Daemon} (l : Ledger) (completed : List ℕ)
    (hcompleted : completed = D.completed ∨ completed = id :: D.completed) :
    Move P id D { D with ledger := l, completed := completed }

/-- Any number of steps. -/
abbrev Moves (P : Op → Bool) (id : ℕ) : Daemon → Daemon → Prop := Relation.ReflTransGen (Move P id)

variable {P : Op → Bool} {D D' : Daemon} {id : ℕ} {stop : Option ℕ} {n : ℕ} {t : Tx} {now : ℤ}

theorem reconcileFromChain_eq_ok {W W' : World} {landed : Landed}
    (h : W.reconcileFromChain id landed now = .ok W') :
    W' = W ∨ ∃ t, W.tables.transactions.get? id = some t ∧ t.state ≠ .reverted ∧
      W.tables.Sets id (t.reconcile landed now) W'.tables := by
  simp only [World.reconcileFromChain, bind_eq_ok, mapError_eq_ok, Tables.tx_eq_ok, require_eq_ok,
    exists_unit, orFail_eq_ok] at h
  obtain ⟨t, hget, -, requestId, -, r, -, h⟩ := h
  by_cases hdone : t.state = .finalized ∧ r.state = .settled
  · rw [if_pos hdone, pure_eq_ok] at h
    exact .inl h.symm
  · rw [if_neg hdone] at h
    simp only [bind_eq_ok, require_eq_ok, exists_unit, mapError_eq_ok, pure_eq_ok] at h
    obtain ⟨hstate, -, T, hset, l, -, rfl⟩ := h
    exact .inr ⟨t, hget, hstate, Tables.setTx_eq_ok hset hget⟩

/-- The other rows stay. -/
theorem Moves.frame (h : Moves P id D D') {k : ℕ} (hk : k ≠ id) : D'.row k = D.row k := by
  induction h with
  | refl => rfl
  | tail _ hmove ih =>
    rw [← ih]
    cases hmove with
    | wrote op hrow hP h => exact (Tables.effect_of_apply h).frame hrow hk
    | asked x hid => rfl
    | reconciled landed now h =>
      rcases reconcileFromChain_eq_ok h with rfl | ⟨t, hget, -, hsets⟩
      · rfl
      · exact (hsets.get? k).trans (if_neg hk)
    | finished l completed hcompleted => rfl

/-- What was asked stays asked, and the rest is about this operation. -/
theorem Moves.exchanges (h : Moves P id D D') :
    ∃ asked, D'.exchanges = asked ++ D.exchanges ∧ ∀ x ∈ asked, x.id = id := by
  induction h with
  | refl => exact ⟨[], rfl, by simp⟩
  | tail _ hmove ih =>
    obtain ⟨asked, heq, hids⟩ := ih
    cases hmove with
    | asked x hid =>
      refine ⟨x :: asked, by rw [heq, List.cons_append], fun y hy => ?_⟩
      rcases List.mem_cons.mp hy with rfl | hy
      · exact hid
      · exact hids y hy
    | _ => exact ⟨asked, heq, hids⟩

/-- What is completed stays so. -/
theorem Moves.completed (h : Moves P id D D') : D.completed ⊆ D'.completed := by
  induction h with
  | refl => exact List.Subset.refl _
  | tail _ hmove ih =>
    cases hmove with
    | wrote op hrow hP h => exact ih
    | asked x hid => exact ih
    | reconciled landed now h => exact List.subset_cons_of_subset id ih
    | finished l completed hcompleted =>
      rcases hcompleted with rfl | rfl
      · exact ih
      · exact List.subset_cons_of_subset id ih

/-- What every update of a row keeps, all rows keep. -/
theorem Moves.forall_rows {Q : Tx → Prop} (h : Moves P id D D')
    (hedge : ∀ {T t op t'}, P op → Q t → Edge T id t op t' → Q t')
    (hreconcile : ∀ {t} landed now, Q t → Q (t.reconcile landed now))
    (hD : ∀ k t, D.row k = some t → Q t) : ∀ k t, D'.row k = some t → Q t := by
  induction h with
  | refl => exact hD
  | tail _ hmove ih =>
    cases hmove with
    | wrote op hrow hP happly =>
      intro k t hget
      by_cases hk : k = id
      · subst hk
        have hop : ∀ new now, op ≠ .beginTx new now := by
          rintro new now rfl
          cases hrow
        rcases (Tables.effect_of_apply happly).origin hget with hsame | ⟨t₀, hget₀, hedge'⟩ | hnew
        · exact ih k t hsame
        · exact hedge hP (ih k t₀ hget₀) hedge'
        · obtain ⟨new, now, rfl, -⟩ := hnew
          exact absurd rfl (hop new now)
      · exact ih k t (((Tables.effect_of_apply happly).frame hrow hk).symm.trans hget)
    | asked x hid => exact ih
    | reconciled landed now hok =>
      rcases reconcileFromChain_eq_ok hok with rfl | ⟨t₀, hget₀, -, hsets⟩
      · exact ih
      · intro k t hget
        rw [row, hsets.get?] at hget
        split_ifs at hget with hk
        · obtain rfl := Option.some.inj hget
          exact hreconcile landed now (ih id t₀ hget₀)
        · exact ih k t hget
    | finished l completed hcompleted => exact ih

theorem write_of_ok {x : Except TxError Tables} {rest : Daemon → Daemon} {T : Tables}
    (hreaches : Reaches stop n) (hx : x = .ok T) :
    D.write stop n x rest = rest { D with tables := T } := by
  unfold write
  rw [if_pos hreaches, hx]

theorem write_of_error {x : Except TxError Tables} {rest : Daemon → Daemon} {e : TxError}
    (hx : x = .error e) : D.write stop n x rest = D := by
  unfold write
  rw [hx]
  split <;> rfl

theorem write_of_stop {x : Except TxError Tables} {rest : Daemon → Daemon}
    (hstop : ¬ Reaches stop n) : D.write stop n x rest = D := by
  unfold write
  rw [if_neg hstop]

/-- A step that writes, and what follows it. -/
theorem write_moves {x : Except TxError Tables} {rest : Daemon → Daemon} (op : Op)
    (hrow : op.row = some id) (hP : P op) (hx : x = D.tables.apply op)
    (hrest : ∀ T, x = .ok T → Moves P id { D with tables := T } (rest { D with tables := T })) :
    Moves P id D (D.write stop n x rest) := by
  unfold write
  split_ifs
  · cases hok : x with
    | error e => exact .refl
    | ok T => exact .head (.wrote op hrow hP (hx ▸ hok)) (hrest T hok)
  · exact .refl

theorem park_moves {reason : String} (hP : ∀ reason, P (.markManualReview id reason now)) :
    Moves P id D (D.park stop n id reason now) :=
  write_moves (.markManualReview id reason now) rfl (hP reason) rfl fun _ _ => .refl

theorem sends_moves {u : Submitter} (h : D.sends u id t = some D') : Moves P id D D' := by
  rw [sends] at h
  split at h
  · cases h
  · split_ifs at h
    obtain rfl := Option.some.inj h
    exact .single (.asked _ rfl)

end Daemon

namespace Settler
open Daemon

variable {P : Op → Bool} {s : Settler} {u : Submitter} {D : Daemon} {id : ℕ} {t : Tx} {w : SendAnswers}
  {stop : Option ℕ} {now : ℤ}

theorem reconcileOrPark_moves {reason : Option String → String}
    (hP : ∀ reason, P (.markManualReview id reason now)) :
    Moves P id D (reconcileOrPark D id t w reason stop now) := by
  unfold reconcileOrPark
  split
  · exact park_moves hP
  · split
    · exact .refl
    · exact .refl
    · exact park_moves hP
    · rename_i landed _
      split
      · split
        · exact .refl
        · rename_i hok
          exact .single (.reconciled landed now hok)
      · exact .refl

theorem allocateAndSend_moves {c : Clearance} : Moves Op.signs id D (s.allocateAndSend u D id c stop now) := by
  unfold allocateAndSend
  split
  · split
    · exact .refl
    · rename_i nonce T hallocated
      refine .head (.wrote _ rfl rfl (Tables.apply_allocateNonce hallocated)) (write_moves (.recordSigned id u.envelope.asStr c.gasLimit
        (describeFees c.fees) _ _ now) rfl rfl rfl fun T' _ => ?_)
      split
      · split
        · exact .refl
        · rename_i refreshed _
          have hsent (D : Daemon) : Moves Op.signs id D ((D.sends u id refreshed).getD D) := by
            cases h : D.sends u id refreshed with
            | none => exact .refl
            | some D' => exact sends_moves h
          exact (hsent _).trans (write_moves (.recordBroadcast id now) rfl rfl rfl fun _ _ => .refl)
      · exact .refl
  · exact .refl

theorem signAndSend_moves : Moves Op.signs id D (s.signAndSend u D id t w stop now) := by
  unfold signAndSend
  split
  · exact park_moves fun _ => rfl
  · split
    · exact .refl
    · split
      · exact .refl
      · split
        · exact .refl
        · exact reconcileOrPark_moves fun _ => rfl
        · split
          · exact .refl
          · exact allocateAndSend_moves

theorem rebroadcastOrReplace_moves : Moves Op.resends id D (s.rebroadcastOrReplace u D id t w stop now) := by
  unfold rebroadcastOrReplace
  split
  · exact reconcileOrPark_moves fun _ => rfl
  · split
    · split
      · split
        · exact .refl
        · rename_i D₁ hsent
          refine (sends_moves hsent).trans ?_
          split
          · exact write_moves (.recordBroadcast id now) rfl rfl rfl fun _ _ => .refl
          · exact .refl
      · exact .refl
    · split
      · refine write_moves (.recordReplacement id _ _ _ now) rfl rfl rfl fun T _ => ?_
        split
        · split
          · exact .refl
          · rename_i D₁ hsent
            obtain ⟨refreshed, -, hsent⟩ := Option.bind_eq_some_iff.mp hsent
            refine (sends_moves hsent).trans ?_
            split
            · exact write_moves (.recordBroadcast id now) rfl rfl rfl fun _ _ => .refl
            · exact .refl
        · exact .refl
      · exact .refl
    · exact reconcileOrPark_moves fun _ => rfl

theorem onFinalized_eq_ok {D' : Daemon} (h : onFinalized D id t = .ok D') :
    ∃ l, D' = { D with ledger := l, completed := id :: D.completed } := by
  unfold onFinalized at h
  split at h
  · exact ⟨D.ledger, (Except.ok.inj h).symm⟩
  · simp only [bind_eq_ok, orFail_eq_ok, mapError_eq_ok, pure_eq_ok] at h
    obtain ⟨_, -, l, -, rfl⟩ := h
    exact ⟨l, rfl⟩

theorem onReverted_eq_ok {D' : Daemon} (h : onReverted D t = .ok D') :
    ∃ l, D' = { D with ledger := l } := by
  unfold onReverted at h
  split at h
  · exact ⟨D.ledger, (Except.ok.inj h).symm⟩
  · simp only [bind_eq_ok, orFail_eq_ok, mapError_eq_ok, pure_eq_ok] at h
    obtain ⟨_, -, l, -, rfl⟩ := h
    exact ⟨l, rfl⟩

theorem finishes_moves {n : ℕ} {x : Except SettlementError Daemon}
    (hx : ∀ D', x = .ok D' → Move P id D D') : Moves P id D (finishes D stop n x) := by
  unfold finishes
  split
  · cases hok : x with
    | error e => exact .refl
    | ok D' => exact .single (hx D' hok)
  · exact .refl

theorem finalized_moves {n : ℕ} : Moves P id D (finishes D stop n (onFinalized D id t)) :=
  finishes_moves fun _ hok => by
    obtain ⟨l, rfl⟩ := onFinalized_eq_ok hok
    exact .finished l _ (.inr rfl)

theorem reverted_moves {n : ℕ} : Moves P id D (finishes D stop n (onReverted D t)) :=
  finishes_moves fun _ hok => by
    obtain ⟨l, rfl⟩ := onReverted_eq_ok hok
    exact .finished l _ (.inl rfl)

theorem recordReceipt_moves {receipt : EvmReceipt} {w : PollAnswers} {head : ℕ} :
    Moves Op.receives id D (recordReceipt u D id t receipt w head stop now) := by
  unfold recordReceipt
  split
  · exact .refl
  · split
    · exact .refl
    · rename_i T hrecorded
      exact .head (.wrote (.recordReceipt ..) rfl rfl (Tables.apply_recordReceipt hrecorded)) (write_moves (.markManualReview id _ now) rfl rfl rfl fun _ _ =>
        reverted_moves)
    · rename_i T hrecorded
      exact .single (.wrote (.recordReceipt ..) rfl rfl (Tables.apply_recordReceipt hrecorded))
    · rename_i T _ _ hrecorded
      refine .head (.wrote (.recordReceipt ..) rfl rfl (Tables.apply_recordReceipt hrecorded)) ?_
      dsimp only
      split
      · exact .refl
      · split
        · exact .refl
        · rename_i promoted T' hupdated
          refine .head (.wrote (.updateConfirmations ..) rfl rfl
            (Tables.apply_updateConfirmations hupdated)) ?_
          split
          · exact finalized_moves
          · exact .refl

theorem pollReceipt_moves {w : PollAnswers} {head : ℕ} :
    Moves Op.receives id D (pollReceipt u D id t w head stop now) := by
  unfold pollReceipt
  split
  · exact .refl
  · rename_i hash _
    split
    · exact .refl
    · refine .head (.asked (.receiptRead id hash) rfl) ?_
      dsimp only
      split
      · exact .refl
      · exact .refl
      · split
        · exact .refl
        · exact recordReceipt_moves

end Settler

/-! ## The ticks -/

namespace Tables

variable {T : Tables} {state : RobinhoodTxState} {e : ℕ × Tx}

theorem mem_txsInState :
    e ∈ T.txsInState state ↔ T.transactions.get? e.1 = some e.2 ∧ e.2.state = state := by
  rw [txsInState, List.mem_filter, decide_eq_true_eq]
  constructor
  · rintro ⟨hmem, hstate⟩
    exact ⟨Store.get?_of_mem hmem, hstate⟩
  · rintro ⟨hget, hstate⟩
    exact ⟨Store.mem_of_get? hget, hstate⟩

/-- A row in no such state is not listed. -/
theorem not_listed {id : ℕ} (h : ∀ t, T.transactions.get? id = some t → t.state ≠ state) :
    id ∉ (T.txsInState state).map Prod.fst := by
  intro hmem
  obtain ⟨⟨k, t⟩, he, rfl⟩ := List.mem_map.mp hmem
  obtain ⟨hget, hstate⟩ := mem_txsInState.mp he
  exact h t hget hstate

end Tables

namespace Daemon

variable {D : Daemon} {state : RobinhoodTxState}

/-- A work list is current when it is read. -/
theorem current_txsInState : Sweep.Current row D (D.tables.txsInState state) where
  nodup := D.tables.transactions.rows.nodup.sublist (List.filter_sublist.map Prod.fst)
  read _ he := (Tables.mem_txsInState.mp he).1

/-- It is current as long as other rows are worked on. -/
theorem current_after {f : Daemon → ℕ × Tx → Daemon} {work : List (ℕ × Tx)}
    (state : RobinhoodTxState) (hlocal : Sweep.Local row f) (hcurrent : Sweep.Current row D work)
    (hne : ∀ e ∈ work, e.2.state ≠ state) :
    Sweep.Current row ((D.tables.txsInState state).foldl f D) work := by
  refine ⟨hcurrent.nodup, fun e he => ?_⟩
  have hread := hcurrent.read e he
  rw [hlocal.read_foldl, hread]
  intro hmem
  obtain ⟨e', he', hkey⟩ := List.mem_map.mp hmem
  obtain ⟨hget, hstate⟩ := Tables.mem_txsInState.mp he'
  rw [hkey] at hget
  have hsame : e'.2 = e.2 := Option.some.inj (hget.symm.trans hread)
  exact hne e he (hsame ▸ hstate)

end Daemon

namespace Settler
open Daemon

variable {s : Settler} {u : Submitter} {D : Daemon}

theorem reconcileNonce_eq {w : BroadcastTick} :
    ∃ T, s.reconcileNonce u D w = { D with tables := T } ∧
      ∀ k, T.transactions.get? k = D.row k := by
  unfold reconcileNonce
  cases w.pendingNonce with
  | none => exact ⟨D.tables, rfl, fun _ => rfl⟩
  | some pending =>
    dsimp only
    cases hrecorded : D.tables.recordSubmitterNonce u.address s.chainId pending w.now with
    | error e =>
      have herror : (Except.error e : Except TxError (ℕ × Tables)).map Prod.snd = .error e := rfl
      rw [write_of_error herror]
      exact ⟨D.tables, rfl, fun _ => rfl⟩
    | ok r =>
      have hok : (Except.ok r : Except TxError (ℕ × Tables)).map Prod.snd = .ok r.2 := rfl
      have hreaches : Reaches none 1 := by
        intro k hk
        cases hk
      rw [write_of_ok hreaches hok]
      have heffect := Tables.recordSubmitterNonce_effect hrecorded
      exact ⟨r.2, rfl, heffect.rows rfl fun _ _ h => (by cases h)⟩

theorem pollRows_local {answers : ℕ → PollAnswers} {stop : ℕ → Option ℕ} {head : ℕ} {now : ℤ} :
    Sweep.Local row fun D e => pollReceipt u D e.1 e.2 (answers e.1) head (stop e.1) now :=
  fun _ _ _ hk => Moves.frame pollReceipt_moves hk

theorem signAndSend_local {answers : ℕ → SendAnswers} {stop : ℕ → Option ℕ} {now : ℤ} :
    Sweep.Local row fun D e => s.signAndSend u D e.1 e.2 (answers e.1) (stop e.1) now :=
  fun _ _ _ hk => signAndSend_moves.frame hk

theorem rebroadcastOrReplace_local {answers : ℕ → SendAnswers} {stop : ℕ → Option ℕ} {now : ℤ} :
    Sweep.Local row fun D e => s.rebroadcastOrReplace u D e.1 e.2 (answers e.1) (stop e.1) now :=
  fun _ _ _ hk => Moves.frame rebroadcastOrReplace_moves hk

/-- The broadcast rows are worked on as they were listed, after the authorized
ones. -/
theorem current_inFlight {answers : ℕ → SendAnswers} {stop : ℕ → Option ℕ} {now : ℤ} :
    Sweep.Current row ((D.tables.txsInState .authorized).foldl (fun D e =>
      s.signAndSend u D e.1 e.2 (answers e.1) (stop e.1) now) D) (D.tables.txsInState .broadcast) :=
  current_after .authorized signAndSend_local current_txsInState fun e he hstate => by
    rw [(Tables.mem_txsInState.mp he).2] at hstate
    cases hstate

/-! ### The turns of a broadcast tick -/

section Turns

variable {w : BroadcastTick} {id : ℕ} {t : Tx}

theorem reconcileNonce_row : (s.reconcileNonce u D w).row id = D.row id := by
  obtain ⟨T, heq, hrows⟩ := @reconcileNonce_eq s u D w
  rw [heq]
  exact hrows id

/-- An authorized row has one turn, as it was before the tick, and is then left. -/
theorem exists_turn_authorized (hrow : D.row id = some t) (hstate : t.state = .authorized) :
    ∃ D₁, D₁.row id = some t ∧ (s.tickBroadcast u D w).row id =
      (s.signAndSend u D₁ id t (w.answers id) (w.stop id) w.now).row id := by
  unfold tickBroadcast
  have hrow₀ : (s.reconcileNonce u D w).row id = some t := reconcileNonce_row.trans hrow
  generalize s.reconcileNonce u D w = D₀ at hrow₀ ⊢
  have hlisted : (id, t) ∈ D₀.tables.txsInState .authorized :=
    Tables.mem_txsInState.mpr ⟨hrow₀, hstate⟩
  have hout : id ∉ (D₀.tables.txsInState .broadcast).map Prod.fst := by
    apply Tables.not_listed
    intro t' hget hstate'
    obtain rfl := Option.some.inj (hget.symm.trans hrow₀)
    exact absurd (hstate.symm.trans hstate') (by decide)
  obtain ⟨D₁, hread, hturn⟩ := (@signAndSend_local s u w.answers w.stop w.now).exists_turn
    current_txsInState hlisted
  refine ⟨D₁, hread, ?_⟩
  rw [← hturn]
  exact rebroadcastOrReplace_local.read_foldl hout

/-- A row in flight has one turn, as it was before the tick. -/
theorem exists_turn_inFlight (hrow : D.row id = some t) (hstate : t.state = .broadcast) :
    ∃ D₁, D₁.row id = some t ∧ (s.tickBroadcast u D w).row id =
      (s.rebroadcastOrReplace u D₁ id t (w.answers id) (w.stop id) w.now).row id := by
  unfold tickBroadcast
  have hrow₀ : (s.reconcileNonce u D w).row id = some t := reconcileNonce_row.trans hrow
  generalize s.reconcileNonce u D w = D₀ at hrow₀ ⊢
  have hlisted : (id, t) ∈ D₀.tables.txsInState .broadcast :=
    Tables.mem_txsInState.mpr ⟨hrow₀, hstate⟩
  exact (@rebroadcastOrReplace_local s u w.answers w.stop w.now).exists_turn current_inFlight
    hlisted

/-- Any other row is left alone. -/
theorem tickBroadcast_frame
    (h : ∀ t, D.row id = some t → t.state ≠ .authorized ∧ t.state ≠ .broadcast) :
    (s.tickBroadcast u D w).row id = D.row id := by
  unfold tickBroadcast
  have hsame : (s.reconcileNonce u D w).row id = D.row id := reconcileNonce_row
  rw [← hsame] at h ⊢
  generalize s.reconcileNonce u D w = D₀ at h ⊢
  have hinFlight := Tables.not_listed fun t hget => (h t hget).2
  have hauthorized := Tables.not_listed fun t hget => (h t hget).1
  exact (rebroadcastOrReplace_local.read_foldl hinFlight).trans
    (signAndSend_local.read_foldl hauthorized)

end Turns

/-! ## What holds of every row -/

/-- What holds of every row, with what was asked about it. -/
def Every (Q : List Exchange → ℕ → Tx → Prop) (D : Daemon) : Prop :=
  ∀ id t, D.row id = some t → Q D.exchanges id t

/-- It does not stop holding when more is asked. -/
def Persistent (Q : List Exchange → ℕ → Tx → Prop) : Prop :=
  ∀ {asked asked' : List Exchange} {id : ℕ} {t : Tx}, asked ⊆ asked' → Q asked id t → Q asked' id t

/-- A function keeps it of the row it works on. -/
def Keeps (Q : List Exchange → ℕ → Tx → Prop) (id : ℕ) (D : Daemon) : Prop :=
  ∃ t, D.row id = some t ∧ Q D.exchanges id t

variable {Q : List Exchange → ℕ → Tx → Prop}

theorem Every.moves {P : Op → Bool} {D' : Daemon} {id : ℕ} (hQ : Persistent Q) (h : Every Q D)
    (hmoves : Moves P id D D') (hrow : Keeps Q id D') : Every Q D' := by
  intro k t hget
  by_cases hk : k = id
  · subst hk
    obtain ⟨t', hrow', ht'⟩ := hrow
    obtain rfl := Option.some.inj (hrow'.symm.trans hget)
    exact ht'
  · obtain ⟨asked, heq, -⟩ := hmoves.exchanges
    rw [hmoves.frame hk] at hget
    refine hQ ?_ (h k t hget)
    rw [heq]
    exact List.subset_append_right asked D.exchanges

/-- A broadcast tick keeps what its two functions keep of a row in its state. -/
theorem tickBroadcast_every {w : BroadcastTick} (hQ : Persistent Q) (h : Every Q D)
    (hsign : ∀ D' id t, D.row id = some t → t.state = .authorized → D'.row id = some t →
      Q D'.exchanges id t → Keeps Q id (s.signAndSend u D' id t (w.answers id) (w.stop id) w.now))
    (hresend : ∀ D' id t, t.state = .broadcast → D'.row id = some t → Q D'.exchanges id t →
      Keeps Q id (s.rebroadcastOrReplace u D' id t (w.answers id) (w.stop id) w.now)) :
    Every Q (s.tickBroadcast u D w) := by
  unfold tickBroadcast
  obtain ⟨T, heq, hrows⟩ := @reconcileNonce_eq s u D w
  have hbegun : Every Q (s.reconcileNonce u D w) := by
    intro id t hget
    rw [heq] at hget ⊢
    exact h id t ((hrows id).symm.trans hget)
  have hsame (k : ℕ) : (s.reconcileNonce u D w).row k = D.row k := by
    rw [heq]
    exact hrows k
  generalize s.reconcileNonce u D w = D₀ at hsame hbegun ⊢
  refine Sweep.invariant rebroadcastOrReplace_local current_inFlight (fun D' e he hD hrow => ?_) ?_
  · exact hD.moves hQ rebroadcastOrReplace_moves
      (hresend D' e.1 e.2 (Tables.mem_txsInState.mp he).2 hrow (hD e.1 e.2 hrow))
  · refine Sweep.invariant signAndSend_local current_txsInState (fun D' e he hD hrow => ?_) hbegun
    obtain ⟨hget, hstate⟩ := Tables.mem_txsInState.mp he
    exact hD.moves hQ signAndSend_moves
      (hsign D' e.1 e.2 ((hsame e.1).symm.trans hget) hstate hrow (hD e.1 e.2 hrow))

/-- A receipt tick keeps what its function keeps of a row that was sent. -/
theorem tickReceipts_every {w : ReceiptTick} (hQ : Persistent Q) (h : Every Q D)
    (hpoll : ∀ D' id t w' head stop, t.state = .broadcast ∨ t.state = .included →
      D'.row id = some t → Q D'.exchanges id t →
      Keeps Q id (pollReceipt u D' id t w' head stop w.now)) :
    Every Q (tickReceipts u D w) := by
  have hpolls {D : Daemon} {state : RobinhoodTxState} {answers : ℕ → PollAnswers}
      {stop : ℕ → Option ℕ} {head : ℕ} (hstate : state = .broadcast ∨ state = .included)
      (h : Every Q D) : Every Q (pollRows u D state answers stop head w.now) := by
    refine Sweep.invariant pollRows_local current_txsInState (fun D' e he hD hrow => ?_) h
    have hin := (Tables.mem_txsInState.mp he).2
    exact hD.moves hQ pollReceipt_moves
      (hpoll D' e.1 e.2 _ _ _ (hin ▸ hstate) hrow (hD e.1 e.2 hrow))
  unfold tickReceipts
  split
  · exact h
  · exact hpolls (.inr rfl) (hpolls (.inl rfl) h)

end Settler

end Service.Robinhood
