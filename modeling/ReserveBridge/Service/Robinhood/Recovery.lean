-- SUMMARY: What a stop of the process costs the broadcast phase: which operations every later tick still looks at, and which nonces were given out and never sent.
import ReserveBridge.Service.Ledger.Step
import ReserveBridge.Service.Robinhood.Moves

/-!
# Recovery of the broadcast phase

The work lists are the authorized rows, the broadcast ones and the included
ones. A signed row is on none of them: between the commit of the signed bytes
and the record of their broadcast, the operation depends on the process going
on. And an authorized row with a nonce is refused on the next tick by the same
checks that stand before the nonce, which leaves a gap when it is for good.
-/

namespace Service.Robinhood
open Guard

/-! ## What no step undoes -/

/-- The calls that lead up to a broadcast. -/
def Op.prepares : Op → Bool
  | .recordAuthorization .. | .allocateNonce .. | .recordSigned .. => true
  | _ => false

theorem Op.resends_prepares {op : Op} (h : op.resends) : op.prepares = false := by
  cases op <;> first | rfl | cases h

theorem Op.receives_prepares {op : Op} (h : op.receives) : op.prepares = false := by
  cases op <;> first | rfl | cases h

/-- The bytes of an operation, once stored, are looked at by every later tick,
or the operation is over. Its nonce was sent, or is about to be. -/
structure Followed (exchanges : List Exchange) (id : ℕ) (t : Tx) : Prop where
  stored : t.rawTx.isSome → t.state ≠ .authorizing ∧ t.state ≠ .authorized ∧ t.state ≠ .signed
  sent : t.nonce.isSome → t.state = .authorized ∨ ∃ rawTx, .sent id t.nonce rawTx ∈ exchanges

/-- Its nonce was sent, if there is one. -/
structure Sent (exchanges : List Exchange) (id : ℕ) (t : Tx) : Prop where
  stored : t.rawTx.isSome → t.state ≠ .authorizing ∧ t.state ≠ .authorized ∧ t.state ≠ .signed
  sent : t.nonce.isSome → ∃ rawTx, .sent id t.nonce rawTx ∈ exchanges

section Rows

variable {P : Op → Bool} {D D' : Daemon} {id : ℕ} {t t' : Tx} {exchanges exchanges' : List Exchange}

theorem Sent.followed (h : Sent exchanges id t) : Followed exchanges id t :=
  ⟨h.stored, fun hnonce => .inr (h.sent hnonce)⟩

theorem Followed.sent_of_ne (h : Followed exchanges id t) (hne : t.state ≠ .authorized) :
    Sent exchanges id t :=
  ⟨h.stored, fun hnonce => (h.sent hnonce).resolve_left hne⟩

theorem Followed.sent_of_none (h : Followed exchanges id t) (hnone : t.nonce = none) :
    Sent exchanges id t :=
  ⟨h.stored, fun hnonce => by rw [hnone] at hnonce; cases hnonce⟩

theorem Followed.mono (h : Followed exchanges id t) (hsub : exchanges ⊆ exchanges') :
    Followed exchanges' id t := by
  refine ⟨h.stored, fun hnonce => ?_⟩
  rcases h.sent hnonce with hstate | ⟨rawTx, hsent⟩
  · exact .inl hstate
  · exact .inr ⟨rawTx, hsub hsent⟩

/-- An update that prepares nothing changes neither bytes nor nonce to be sent. -/
theorem Sent.edge {T : Tables} {op : Op} (h : Sent exchanges id t) (hedge : Edge T id t op t')
    (hquiet : op.prepares = false) : Sent exchanges id t' := by
  cases hedge with
  | authorized => cases hquiet
  | allocated => cases hquiet
  | signed => cases hquiet
  | sent => exact ⟨fun _ => by simp [Tx.send], h.sent⟩
  | replaced hstate => exact ⟨fun _ => by simp [Tx.replace, hstate], h.sent⟩
  | receiptMoved => exact ⟨fun _ => by simp [Tx.park], h.sent⟩
  | @mined success =>
    refine ⟨fun _ => ?_, h.sent⟩
    cases success <;> simp [Tx.mined]
  | confirmed => exact ⟨h.stored, h.sent⟩
  | finalized => exact ⟨fun _ => by simp [Tx.finalize], h.sent⟩
  | parked => exact ⟨fun _ => by simp [Tx.park], h.sent⟩

/-- Steps that prepare nothing. -/
theorem Daemon.Moves.sent (h : D.Moves P id D') (hP : ∀ op, P op → op.prepares = false) (hrow : D.row id = some t)
    (ht : Sent D.exchanges id t) : ∃ t', D'.row id = some t' ∧ Sent D'.exchanges id t' := by
  induction h with
  | refl => exact ⟨t, hrow, ht⟩
  | tail _ hmove ih =>
    obtain ⟨t₁, hrow₁, ht₁⟩ := ih
    cases hmove with
    | wrote op hop hpermitted happly =>
      rcases (Tables.effect_of_apply happly).cases_row hrow₁ with hsame | ⟨t₂, hget, hedge, -⟩
      · exact ⟨t₁, hsame, ht₁⟩
      · exact ⟨t₂, hget, ht₁.edge hedge (hP op hpermitted)⟩
    | asked x hid =>
      refine ⟨t₁, hrow₁, ht₁.stored, fun hnonce => ?_⟩
      obtain ⟨rawTx, hsent⟩ := ht₁.sent hnonce
      exact ⟨rawTx, List.mem_cons_of_mem x hsent⟩
    | reconciled landed now hok =>
      rcases Daemon.reconcileFromChain_eq_ok hok with rfl | ⟨t₂, hget, -, hsets⟩
      · exact ⟨t₁, hrow₁, ht₁⟩
      · obtain rfl := Option.some.inj (hget.symm.trans hrow₁)
        refine ⟨t₂.reconcile landed now, (hsets.get? id).trans (if_pos rfl), ?_⟩
        exact ⟨fun _ => by simp [Tx.reconcile], ht₁.sent⟩
    | finished l completed hcompleted => exact ⟨t₁, hrow₁, ht₁⟩

end Rows

/-! ## From the nonce to the record -/

namespace Tables

variable {T T' : Tables} {id : ℕ} {t : Tx} {now : ℤ}

/-- An authorized row holds a nonce of the submitter afterwards, its own or a
new one. -/
theorem allocateNonce_row {submitter chainId n : ℕ} (hget : T.transactions.get? id = some t)
    (hstate : t.state = .authorized) (h : T.allocateNonce id submitter chainId now = .ok (n, T')) :
    ∃ t', T'.transactions.get? id = some t' ∧ t'.state = .authorized ∧ t'.rawTx = t.rawTx ∧
      t'.nonce.isSome ∧ t'.submitter = some submitter := by
  simp only [allocateNonce, bind_eq_ok, tx_eq_ok, require_eq_ok, exists_unit] at h
  obtain ⟨t₀, hget₀, -, h⟩ := h
  obtain rfl := Option.some.inj (hget₀.symm.trans hget)
  cases hnonce : t₀.nonce with
  | some m =>
    rw [hnonce] at h
    simp only [bind_eq_ok, require_eq_ok, exists_unit, pure_eq_ok, Prod.mk.injEq] at h
    obtain ⟨hsubmitter, -, rfl⟩ := h
    exact ⟨t₀, hget, hstate, rfl, by rw [hnonce]; rfl, hsubmitter⟩
  | none =>
    rw [hnonce] at h
    simp only [bind_eq_ok, require_eq_ok, exists_unit, pure_eq_ok, Prod.mk.injEq] at h
    obtain ⟨-, T₁, hset, -, rfl⟩ := h
    exact ⟨_, ((setTx_eq_ok hset hget).get? id).trans (if_pos rfl), hstate, rfl, rfl, rfl⟩

/-- Bytes that are stored are signed. -/
theorem recordSigned_row {envelope feeSummary : String} {gasLimit txHash : ℕ} {rawTx : Bytes}
    (hget : T.transactions.get? id = some t) (hnone : t.rawTx = none)
    (h : T.recordSigned id envelope gasLimit feeSummary rawTx txHash now = .ok T') :
    T'.transactions.get? id =
      some (t.sign envelope (asI64 gasLimit) feeSummary rawTx txHash now) := by
  simp only [recordSigned, bind_eq_ok, tx_eq_ok] at h
  obtain ⟨t₀, hget₀, h⟩ := h
  obtain rfl := Option.some.inj (hget₀.symm.trans hget)
  rw [hnone] at h
  simp only [bind_eq_ok, require_eq_ok, exists_unit] at h
  obtain ⟨-, hset⟩ := h
  exact ((setTx_eq_ok hset hget).get? id).trans (if_pos rfl)

/-- The schema admits the record of a broadcast. -/
theorem exists_recordBroadcast (hget : T.transactions.get? id = some t) (hstate : t.state = .signed)
    (now : ℤ) : ∃ T', T.recordBroadcast id now = .ok T' ∧
      T'.transactions.get? id = some (t.send now) := by
  have hchecks := T.transactions.checked id t hget
  have hsigned := hchecks.signed (by rw [hstate]; rfl)
  have hattempts := hchecks.broadcastAttempts_nonneg
  have hadmits : T.transactions.Admits id (t.send now) := by
    refine Table.admits_of_index_eq ?_ hget rfl
    refine { hchecks with
      signed := fun _ => hsigned
      broadcastAttempts_nonneg := ?_
      firstBroadcastAt_none := ?_
      finalized_receipt := fun h => by cases h
      finalizedAt_none := ?_ }
    · simp only [Tx.send]
      omega
    · simp only [Tx.send, reduceCtorEq, false_iff]
      omega
    · simp only [Tx.send, ne_eq, reduceCtorEq, not_false_eq_true, iff_true]
      exact hchecks.finalizedAt_none.mpr (by simp [hstate])
  obtain ⟨T', hset⟩ := exists_setTx hget hadmits
  refine ⟨T', ?_, ((setTx_eq_ok hset hget).get? id).trans (if_pos rfl)⟩
  simp only [recordBroadcast, bind_eq_ok, tx_eq_ok, require_eq_ok, exists_unit]
  exact ⟨t, hget, .inl hstate, hset⟩

end Tables

namespace Settler
open Daemon

variable {s : Settler} {u : Submitter} {D : Daemon} {id : ℕ} {t : Tx} {w : SendAnswers}
  {stop : Option ℕ} {now : ℤ}

/-- A process that gets from the signed bytes to the record of their broadcast
leaves no operation behind. -/
theorem allocateAndSend_followed {c : Clearance} (hrow : D.row id = some t)
    (hstate : t.state = .authorized) (ht : Followed D.exchanges id t)
    (hstop : stop ≠ some 2 ∧ stop ≠ some 3) :
    ∃ t', (s.allocateAndSend u D id c stop now).row id = some t' ∧
      Followed (s.allocateAndSend u D id c stop now).exchanges id t' := by
  have hnone : t.rawTx = none := by
    by_contra hsome
    exact (ht.stored (Option.isSome_iff_ne_none.mpr hsome)).2.1 hstate
  have hgoes {n : ℕ} (hn : n = 2 ∨ n = 3) (h : Reaches stop n) : Reaches stop (n + 1) := by
    intro k hk
    have hle := h k hk
    have hne : k ≠ n := by
      rintro rfl
      rw [Option.mem_def] at hk
      rcases hn with rfl | rfl
      · exact hstop.1 hk
      · exact hstop.2 hk
    omega
  unfold allocateAndSend
  split
  · split
    · exact ⟨t, hrow, ht⟩
    · rename_i nonce T hallocated
      obtain ⟨t₁, hrow₁, hstate₁, hraw₁, hnonce₁, hsubmitter₁⟩ :=
        Tables.allocateNonce_row hrow hstate hallocated
      have ht₁ : Followed D.exchanges id t₁ := by
        refine ⟨fun hsome => ?_, fun _ => .inl hstate₁⟩
        rw [hraw₁, hnone] at hsome
        cases hsome
      dsimp only
      by_cases hsigns : Reaches stop 2
      · cases hsigned : T.recordSigned id u.envelope.asStr c.gasLimit (describeFees c.fees)
          (u.sign nonce c.gasLimit c.fees c.call).1 (u.sign nonce c.gasLimit c.fees c.call).2 now with
        | error e =>
          rw [write_of_error rfl]
          exact ⟨t₁, hrow₁, ht₁⟩
        | ok T₂ =>
          have hrow₂ := Tables.recordSigned_row hrow₁ (hraw₁.trans hnone) hsigned
          obtain ⟨T₃, hrecorded, hrow₃⟩ := Tables.exists_recordBroadcast hrow₂ rfl now
          have hsends := hgoes (.inl rfl) hsigns
          rw [write_of_ok hsigns rfl, if_pos hsends, hrow₂]
          simp only [sends, Tx.sign, hsubmitter₁, if_true, Option.getD_some]
          rw [write_of_ok (hgoes (.inr rfl) hsends) hrecorded]
          exact ⟨_, hrow₃, fun _ => by simp [Tx.send], fun _ => .inr ⟨_, List.mem_cons_self⟩⟩
      · rw [write_of_stop hsigns]
        exact ⟨t₁, hrow₁, ht₁⟩
  · exact ⟨t, hrow, ht⟩

/-- Nothing stands between the operation and a nonce. -/
def clearance (s : Settler) (u : Submitter) (t : Tx) (w : SendAnswers) (now : ℤ) : Option Clearance :=
  if expired t now ∨ ¬ namesItsGate t ∨ w.gate ≠ .passes then none
  else (s.buildCall t).toOption.bind fun call => clear u w call

/-- The operation is taken off the work list without being sent. -/
def givesUp (s : Settler) (t : Tx) (w : SendAnswers) (now : ℤ) : Prop :=
  expired t now ∨ (s.buildCall t).toOption.isSome ∧ namesItsGate t ∧ w.gate = .alreadyExecuted ∧
    (t.kind ≠ .settlement ∨ t.requestId = none ∨ ∃ v ∈ w.verdict, v ≠ .alreadyReconciled)

instance (s : Settler) (t : Tx) (w : SendAnswers) (now : ℤ) : Decidable (s.givesUp t w now) :=
  inferInstanceAs (Decidable (_ ∨ _))

theorem park_of_stop {reason : String} : D.park (some 0) 1 id reason now = D :=
  write_of_stop fun h => absurd (h 0 rfl) (by decide)

theorem reconcileOrPark_of_stop {reason : Option String → String} :
    reconcileOrPark D id t w reason (some 0) now = D := by
  have hstop : ¬ Reaches (some 0) 1 := fun h => absurd (h 0 rfl) (by decide)
  unfold reconcileOrPark
  simp only [park_of_stop, if_neg hstop]
  split
  · rfl
  · split <;> rfl

/-- A row that holds a nonce is not given up, and one that is cleared is seen
through to the record. -/
theorem signAndSend_followed (hrow : D.row id = some t) (hstate : t.state = .authorized)
    (ht : Followed D.exchanges id t)
    (hstop : stop = some 2 ∨ stop = some 3 → s.clearance u t w now = none)
    (hgives : t.nonce.isSome → ¬ s.givesUp t w now ∨ stop = some 0) :
    ∃ t', (s.signAndSend u D id t w stop now).row id = some t' ∧
      Followed (s.signAndSend u D id t w stop now).exchanges id t' := by
  -- a row that is given up holds no nonce, or the process stops at it
  have hgiven {D' : Daemon} (hgivesUp : s.givesUp t w now) (hmoves : Moves Op.resends id D D')
      (hstops : stop = some 0 → D' = D) :
      ∃ t', D'.row id = some t' ∧ Followed D'.exchanges id t' := by
    by_cases hzero : stop = some 0
    · rw [hstops hzero]
      exact ⟨t, hrow, ht⟩
    · have hnone : t.nonce = none := by
        by_contra hsome
        rcases hgives (Option.isSome_iff_ne_none.mpr hsome) with hnot | hstop
        · exact hnot hgivesUp
        · exact hzero hstop
      obtain ⟨t', hrow', hsent⟩ := hmoves.sent (fun _ => Op.resends_prepares) hrow
        (ht.sent_of_none hnone)
      exact ⟨t', hrow', hsent.followed⟩
  unfold signAndSend
  split
  · rename_i hexpired
    refine hgiven (.inl hexpired) (park_moves fun _ => rfl) fun hzero => ?_
    rw [hzero, park_of_stop]
  · rename_i hexpired
    split
    · exact ⟨t, hrow, ht⟩
    · rename_i call hcall
      split
      · exact ⟨t, hrow, ht⟩
      · rename_i hnames
        rw [not_not] at hnames
        split
        · exact ⟨t, hrow, ht⟩
        · rename_i hgate
          by_cases hunproven : t.kind ≠ .settlement ∨ t.requestId = none ∨
              ∃ v ∈ w.verdict, v ≠ .alreadyReconciled
          · refine hgiven (.inr ⟨by rw [hcall]; rfl, hnames, hgate, hunproven⟩)
              (reconcileOrPark_moves fun _ => rfl) fun hzero => ?_
            rw [hzero, reconcileOrPark_of_stop]
          · -- the proof gave no verdict to act on
            rw [not_or, not_or] at hunproven
            have hsame (reason : Option String → String) :
                reconcileOrPark D id t w reason stop now = D := by
              unfold reconcileOrPark
              rw [if_neg (by rw [not_or]; exact ⟨hunproven.1, hunproven.2.1⟩)]
              cases hverdict : w.verdict with
              | none => rfl
              | some v =>
                cases v with
                | alreadyReconciled => rfl
                | safeToReconcile landed =>
                  exact absurd ⟨_, hverdict, by simp⟩ hunproven.2.2
                | refuse refusal => exact absurd ⟨_, hverdict, by simp⟩ hunproven.2.2
            rw [hsame]
            exact ⟨t, hrow, ht⟩
        · rename_i hgate
          split
          · exact ⟨t, hrow, ht⟩
          · rename_i c hclear
            have hcleared : s.clearance u t w now = some c := by
              unfold clearance
              rw [if_neg (by simp [hexpired, hnames, hgate]), hcall]
              exact hclear
            refine allocateAndSend_followed hrow hstate ht ⟨?_, ?_⟩
            · rintro rfl
              rw [hstop (.inl rfl)] at hcleared
              cases hcleared
            · rintro rfl
              rw [hstop (.inr rfl)] at hcleared
              cases hcleared

end Settler

/-! ## The ticks -/

namespace Daemon

variable {D : Daemon}

/-- Every operation is followed. -/
def Followed (D : Daemon) : Prop :=
  ∀ id t, D.row id = some t → Robinhood.Followed D.exchanges id t

end Daemon

namespace Settler
open Daemon

variable {s : Settler} {u : Submitter} {D : Daemon}

/-- The condition on an authorized row in a broadcast tick: it is not given up
while it holds a nonce, and the process does not stop between its signed bytes
and the record of their broadcast. -/
def SeesThrough (s : Settler) (u : Submitter) (w : BroadcastTick) (e : ℕ × Tx) : Prop :=
  (w.stop e.1 = some 2 ∨ w.stop e.1 = some 3 → (s.clearance u e.2 (w.answers e.1) w.now).isNone) ∧
    (e.2.nonce.isSome → ¬ s.givesUp e.2 (w.answers e.1) w.now ∨ w.stop e.1 = some 0)

instance (s : Settler) (u : Submitter) (w : BroadcastTick) (e : ℕ × Tx) :
    Decidable (s.SeesThrough u w e) := inferInstanceAs (Decidable (_ ∧ _))

theorem followed_persistent : Persistent Robinhood.Followed := fun hsub ht => ht.mono hsub

theorem tickBroadcast_followed {w : BroadcastTick} (h : D.Followed)
    (hsees : ∀ e ∈ D.tables.txsInState .authorized, s.SeesThrough u w e) :
    (s.tickBroadcast u D w).Followed := by
  refine tickBroadcast_every followed_persistent h (fun D' id t hget hstate hrow ht => ?_)
    fun D' id t hstate hrow ht => ?_
  · obtain ⟨hstop, hgives⟩ := hsees (id, t) (Tables.mem_txsInState.mpr ⟨hget, hstate⟩)
    refine signAndSend_followed hrow hstate ht (fun hin => ?_) hgives
    exact Option.isNone_iff_eq_none.mp (hstop hin)
  · -- what was broadcast was sent
    have hsent := ht.sent_of_ne (by simp [hstate])
    obtain ⟨t', hrow', ht'⟩ := rebroadcastOrReplace_moves.sent (fun _ => Op.resends_prepares) hrow hsent
    exact ⟨t', hrow', ht'.followed⟩

theorem tickReceipts_followed {w : ReceiptTick} (h : D.Followed) :
    (tickReceipts u D w).Followed := by
  refine tickReceipts_every followed_persistent h fun D' id t w' head stop hstate hrow ht => ?_
  have hsent := ht.sent_of_ne (by rcases hstate with hstate | hstate <;> simp [hstate])
  obtain ⟨t', hrow', ht'⟩ := pollReceipt_moves.sent (fun _ => Op.receives_prepares) hrow hsent
  exact ⟨t', hrow', ht'.followed⟩

end Settler

/-! ## Every later tick looks -/

namespace Settler
open Daemon

variable {s : Settler} {u : Submitter} {D : Daemon}

theorem pollReceipt_asks {id head hash : ℕ} {t : Tx} {w : PollAnswers} {now : ℤ}
    (hhash : t.txHash = some hash) :
    .receiptRead id hash ∈ (pollReceipt u D id t w head none now).exchanges := by
  have hreaches : Reaches none 1 := by
    intro k hk
    cases hk
  unfold pollReceipt
  rw [hhash]
  simp only [not_true_eq_false, hreaches, if_false]
  split
  · exact List.mem_cons_self
  · exact List.mem_cons_self
  · split
    · exact List.mem_cons_self
    · obtain ⟨asked, heq, -⟩ := Moves.exchanges recordReceipt_moves
      rw [heq]
      exact List.mem_append_right asked List.mem_cons_self

/-- What was asked stays asked. -/
theorem pollReceipt_exchanges {x : Exchange} {id head : ℕ} {t : Tx} {w : PollAnswers}
    {stop : Option ℕ} {now : ℤ} (h : x ∈ D.exchanges) :
    x ∈ (pollReceipt u D id t w head stop now).exchanges := by
  obtain ⟨asked, heq, -⟩ := Moves.exchanges pollReceipt_moves
  rw [heq]
  exact List.mem_append_right asked h

theorem pollRows_exchanges {x : Exchange} {state : RobinhoodTxState} {answers : ℕ → PollAnswers}
    {stop : ℕ → Option ℕ} {head : ℕ} {now : ℤ} (h : x ∈ D.exchanges) :
    x ∈ (pollRows u D state answers stop head now).exchanges := by
  unfold pollRows
  exact List.foldlRecOn (motive := fun D : Daemon => x ∈ D.exchanges) _ _ h fun _ hD _ _ =>
    pollReceipt_exchanges hD

theorem pollRows_asks {answers : ℕ → PollAnswers} {stop : ℕ → Option ℕ} {head id hash : ℕ} {now : ℤ}
    {t : Tx} (hrow : D.row id = some t) (hhash : t.txHash = some hash) (hstop : ∀ k, stop k = none) :
    .receiptRead id hash ∈ (pollRows u D t.state answers stop head now).exchanges := by
  unfold pollRows
  refine Sweep.established (P := fun D : Daemon => .receiptRead id hash ∈ D.exchanges)
    (e := (id, t)) pollRows_local current_txsInState (Tables.mem_txsInState.mpr ⟨hrow, rfl⟩)
    (fun D _ => ?_) fun D e hD => pollReceipt_exchanges hD
  rw [hstop]
  exact pollReceipt_asks hhash

/-- The polls of one state leave the rows in another alone. -/
theorem pollRows_row {state : RobinhoodTxState} {answers : ℕ → PollAnswers} {stop : ℕ → Option ℕ}
    {head id : ℕ} {now : ℤ} {t : Tx} (hrow : D.row id = some t) (hne : t.state ≠ state) :
    (pollRows u D state answers stop head now).row id = some t := by
  have hcurrent : Sweep.Current row D [(id, t)] :=
    ⟨List.nodup_singleton id, by simpa using hrow⟩
  exact (current_after state pollRows_local hcurrent (by simpa using hne)).read (id, t)
    (List.mem_singleton_self _)

/-- A receipt tick that reads the head and is not stopped asks for the receipt
of every operation that was sent and is not over. -/
theorem tickReceipts_asks {w : ReceiptTick} {id hash : ℕ} {t : Tx} (hrow : D.row id = some t)
    (hstate : t.state = .broadcast ∨ t.state = .included) (hhash : t.txHash = some hash)
    (hhead : w.head.isSome) (hbroadcast : ∀ k, w.stopBroadcast k = none)
    (hincluded : ∀ k, w.stopIncluded k = none) :
    .receiptRead id hash ∈ (tickReceipts u D w).exchanges := by
  obtain ⟨head, hhead⟩ := Option.isSome_iff_exists.mp hhead
  unfold tickReceipts
  rw [hhead]
  rcases hstate with hstate | hstate
  · refine pollRows_exchanges ?_
    rw [← hstate]
    exact pollRows_asks hrow hhash hbroadcast
  · have hrow' : (pollRows u D .broadcast w.broadcast w.stopBroadcast head w.now).row id = some t :=
      pollRows_row hrow (by simp [hstate])
    dsimp only
    rw [← hstate]
    exact pollRows_asks hrow' hhash hincluded

end Settler

/-! ## Runs -/

/-- The calls that the ticks make, and nobody else. -/
def Op.ofTicks : Op → Bool
  | .recordSubmitterNonce .. | .allocateNonce .. | .recordSigned .. | .recordBroadcast ..
  | .recordReplacement .. | .recordReceipt .. | .updateConfirmations .. | .markManualReview .. => true
  | .beginTx .. | .recordAuthorization .. | .requestCreated _ | .rebalanceCreated _ => false

/-- What happens: operations are begun and authorized, the ledger goes on, and
the ticks run. -/
inductive DaemonOp
  | call (op : Op)
  | ledger (op : Service.Op)
  | tickBroadcast (w : BroadcastTick)
  | tickReceipts (w : ReceiptTick)

namespace Settler
open Daemon

def daemonStep (s : Settler) (u : Submitter) (D : Daemon) : DaemonOp → Option Daemon
  | .call op =>
    if op.ofTicks then none else (D.tables.step op).map fun T => { D with tables := T }
  | .ledger op => (D.ledger.step op).map fun l => { D with ledger := l }
  | .tickBroadcast w => some (s.tickBroadcast u D w)
  | .tickReceipts w => some (tickReceipts u D w)

abbrev daemonRun (s : Settler) (u : Submitter) (D : Daemon) (ops : List DaemonOp) : Daemon :=
  Run.final (s.daemonStep u) D ops

abbrev daemonHistory (s : Settler) (u : Submitter) (ops : List DaemonOp) :
    List (Daemon × DaemonOp) := Run.history (s.daemonStep u) .empty ops

/-- The condition on an event: a broadcast tick sees its authorized rows
through. -/
def KeepsFollowing (s : Settler) (u : Submitter) (D : Daemon) : DaemonOp → Prop
  | .tickBroadcast w => ∀ e ∈ D.tables.txsInState .authorized, s.SeesThrough u w e
  | .call _ | .ledger _ | .tickReceipts _ => True

instance (s : Settler) (u : Submitter) (D : Daemon) (op : DaemonOp) :
    Decidable (s.KeepsFollowing u D op) :=
  match op with
  | .tickBroadcast _ => inferInstanceAs (Decidable (∀ e ∈ _, _))
  | .call _ => inferInstanceAs (Decidable True)
  | .ledger _ => inferInstanceAs (Decidable True)
  | .tickReceipts _ => inferInstanceAs (Decidable True)

variable {s : Settler} {u : Submitter} {D D' : Daemon} {op : DaemonOp}

theorem empty_followed : Daemon.empty.Followed := by
  intro id t hget
  cases hget

theorem daemonStep_followed (h : D.Followed) (hkeeps : s.KeepsFollowing u D op)
    (hstep : s.daemonStep u D op = some D') : D'.Followed := by
  cases op with
  | call op =>
    rw [daemonStep] at hstep
    split_ifs at hstep with hticks
    obtain ⟨T, hcall, rfl⟩ := Option.map_eq_some_iff.mp hstep
    intro id t' hget'
    rcases (Tables.effect_of_step hcall).origin hget' with hsame | ⟨t, hget, hedge⟩ | hnew
    · exact h id t' hsame
    · have ht := h id t hget
      cases hedge with
      | authorized hlength hdistinct hnone hstate =>
        refine ⟨fun hsome => ?_, fun _ => .inl rfl⟩
        exact absurd hstate (ht.stored hsome).1
      | _ => exact absurd rfl hticks
    · obtain ⟨new, now, -, rfl, -⟩ := hnew
      refine ⟨fun hsome => ?_, fun hsome => ?_⟩
      · cases hsome
      · cases hsome
  | ledger op =>
    obtain ⟨l, -, rfl⟩ := Option.map_eq_some_iff.mp hstep
    exact h
  | tickBroadcast w =>
    obtain rfl := Option.some.inj hstep
    exact tickBroadcast_followed h hkeeps
  | tickReceipts w =>
    obtain rfl := Option.some.inj hstep
    exact tickReceipts_followed h

/-! ### A sample submitter -/

def sampleSubmitter : Submitter where
  address := 9
  envelope := .legacy
  maxFeePerGas := 100
  priorityFee := 0
  maxGasLimit := 100000
  gasLimitMarginPercent := 120
  minBalance := 0
  maxReplacements := 3
  rebroadcastAfter := 60
  requiredConfirmations := 3
  sign nonce _ fees _ := match fees with
    | .legacy gasPrice => ([UInt8.ofNat nonce, UInt8.ofNat gasPrice], 1000 + 100 * nonce + gasPrice)
    | .eip1559 maxFee _ => ([UInt8.ofNat nonce, UInt8.ofNat maxFee], 1000 + 100 * nonce + maxFee)

/-- Everything passes, and the node accepts. -/
def sampleSendAnswers : SendAnswers where
  gate := .passes
  verdict := none
  balance := some 1
  estimate := some 21000
  baseFee := some none
  gasPrice := some 1
  priorityFee := none
  outcome := some .accepted

/-- Two payouts, the second to expire later. -/
def samplePayouts : List DaemonOp :=
  [.call (.requestCreated 1), .call (.requestCreated 2),
    .call (.beginTx { Tables.samplePayout 1 with authDigest := 2000 } 100),
    .call (.beginTx { Tables.samplePayout 2 with expiry := 3000, authDigest := 3000 } 100),
    .call (.recordAuthorization 1 [(1, 11), (2, 12)] 101),
    .call (.recordAuthorization 2 [(1, 13), (2, 14)] 101)]

/-- A broadcast tick where all is well, except where the process stops. -/
def sampleBroadcast (now : ℤ) (stop : ℕ → Option ℕ) : DaemonOp :=
  .tickBroadcast { now := now, pendingNonce := some 0, answers := fun _ => sampleSendAnswers, stop := stop }

/-! ### Nothing is abandoned -/

/-- In a run whose broadcast ticks see their rows through, every operation that
has bytes and is not over is asked about by the next receipt tick, and every
nonce of an operation that is over was sent. -/
theorem nothing_abandoned (s : Settler) (u : Submitter) (ops : List DaemonOp)
    (hkeeps : ∀ e ∈ s.daemonHistory u ops, s.KeepsFollowing u e.1 e.2) :
    ∀ id t, (s.daemonRun u .empty ops).row id = some t →
      (t.rawTx.isSome → Tables.isTerminal t.state = false → ∀ w : ReceiptTick, w.head.isSome →
        (∀ k, w.stopBroadcast k = none) → (∀ k, w.stopIncluded k = none) →
        ∃ hash, t.txHash = some hash ∧ .receiptRead id hash ∈
          (tickReceipts u { s.daemonRun u .empty ops with exchanges := [] } w).exchanges) ∧
      (t.nonce.isSome → t.state ≠ .authorized →
        ∃ rawTx, .sent id t.nonce rawTx ∈ (s.daemonRun u .empty ops).exchanges) := by
  intro id t hget
  have hfollowed : (s.daemonRun u .empty ops).Followed :=
    Run.invariant_of_history (fun _ _ _ h hkeeps hstep => daemonStep_followed h hkeeps hstep)
      empty_followed ops hkeeps
  have ht := hfollowed id t hget
  refine ⟨fun hsome hactive w hhead hbroadcast hincluded => ?_, fun hnonce hstate => ?_⟩
  · obtain ⟨hauthorizing, hauthorized, hsigned⟩ := ht.stored hsome
    have hlisted : t.state = .broadcast ∨ t.state = .included := by
      cases hstate : t.state with
      | authorizing => exact absurd hstate hauthorizing
      | authorized => exact absurd hstate hauthorized
      | signed => exact absurd hstate hsigned
      | broadcast => exact .inl rfl
      | included => exact .inr rfl
      | finalized | reverted | manualReview =>
        rw [hstate] at hactive
        cases hactive
    have hchecks := (s.daemonRun u .empty ops).tables.transactions.checked id t hget
    have hhash : t.txHash ≠ none := fun hnone => by
      rw [hchecks.txHash_none.mpr hnone] at hsome
      cases hsome
    obtain ⟨hash, hhash⟩ := Option.ne_none_iff_exists'.mp hhash
    exact ⟨hash, hhash, tickReceipts_asks hget hlisted hhash hhead hbroadcast hincluded⟩
  · exact (ht.sent hnonce).resolve_left hstate

/-- Both payouts are sent in one tick that is not stopped. -/
theorem nothing_abandoned_sample :
    ∃ t, (sample.daemonRun sampleSubmitter .empty
        (samplePayouts ++ [sampleBroadcast 200 fun _ => none])).row 2 = some t ∧
      t.nonce = some 1 ∧ ∃ rawTx, .sent 2 (some 1) rawTx ∈ (sample.daemonRun sampleSubmitter .empty
        (samplePayouts ++ [sampleBroadcast 200 fun _ => none])).exchanges := by
  have hrow : ((sample.daemonRun sampleSubmitter .empty
      (samplePayouts ++ [sampleBroadcast 200 fun _ => none])).row 2).map
        (fun t => (t.nonce, t.state)) = some (some 1, .broadcast) := by decide
  obtain ⟨t, hget, hfields⟩ := Option.map_eq_some_iff.mp hrow
  simp only [Prod.mk.injEq] at hfields
  obtain ⟨hnonce, hstate⟩ := hfields
  have hnothing := nothing_abandoned sample sampleSubmitter
    (samplePayouts ++ [sampleBroadcast 200 fun _ => none]) (by decide +kernel) 2 t hget
  obtain ⟨rawTx, hsent⟩ := hnothing.2 (by rw [hnonce]; rfl) (by rw [hstate]; simp)
  exact ⟨t, hget, hnonce, rawTx, hnonce ▸ hsent⟩

/-! ### What is abandoned -/

/-- The tick that signs the first payout stops before it records the broadcast:
the bytes may have been sent. -/
def strandedRun : List DaemonOp :=
  samplePayouts ++ [sampleBroadcast 200 fun id => if id = 1 then some 3 else some 0]

/-- The tick that numbers the first payout stops there, and the next one comes
after its expiry. -/
def gapRun : List DaemonOp :=
  samplePayouts ++ [sampleBroadcast 200 fun id => if id = 1 then some 1 else some 0,
    sampleBroadcast 2500 fun _ => none]

/-- The row stays as it is, and nothing is asked about it. -/
def Ignored (id : ℕ) (t : Tx) (D : Daemon) : Prop :=
  D.row id = some t ∧ ∀ x ∈ D.exchanges, x.id ≠ id

theorem Ignored.moves {P : Op → Bool} {id k : ℕ} {t : Tx} (h : Ignored id t D) (hk : k ≠ id)
    (hmoves : Moves P k D D') : Ignored id t D' := by
  obtain ⟨asked, heq, hids⟩ := hmoves.exchanges
  refine ⟨(hmoves.frame hk.symm).trans h.1, fun x hx => ?_⟩
  rw [heq] at hx
  rcases List.mem_append.mp hx with hx | hx
  · exact hids x hx ▸ hk
  · exact h.2 x hx

/-- A sweep over rows in another state. -/
theorem Ignored.foldl {id : ℕ} {t : Tx} {P : Op → Bool} {f : Daemon → ℕ × Tx → Daemon}
    {work : List (ℕ × Tx)} (h : Ignored id t D) (hmoves : ∀ D e, Moves P e.1 D (f D e))
    (hne : ∀ e ∈ work, e.1 ≠ id) : Ignored id t (work.foldl f D) :=
  List.foldlRecOn work f h fun D hD e he => hD.moves (hne e he) (hmoves D e)

theorem ne_of_mem_txsInState {id : ℕ} {t : Tx} {state : RobinhoodTxState} (hrow : D.row id = some t)
    (hstate : t.state ≠ state) : ∀ e ∈ D.tables.txsInState state, e.1 ≠ id := by
  rintro e he rfl
  obtain ⟨hget, hstate'⟩ := Tables.mem_txsInState.mp he
  have hsame : t = e.2 := Option.some.inj (hrow.symm.trans hget)
  exact hstate (hsame ▸ hstate')

/-- The states of a row that something is still done with: its quorum is stored,
or a work list holds it. -/
def isWorkedOn : RobinhoodTxState → Bool
  | .authorizing | .authorized | .broadcast | .included => true
  | .signed | .finalized | .reverted | .manualReview => false

/-- Nothing that happens later concerns another row. -/
theorem idle_ignored {id : ℕ} {t : Tx} (hidle : isWorkedOn t.state = false) (h : Ignored id t D)
    (hstep : s.daemonStep u D op = some D') : Ignored id t D' := by
  have hne {state : RobinhoodTxState} (hworked : isWorkedOn state = true) : t.state ≠ state := by
    rintro rfl
    rw [hidle] at hworked
    cases hworked
  cases op with
  | call op =>
    rw [daemonStep] at hstep
    split_ifs at hstep with hticks
    obtain ⟨T, hcall, rfl⟩ := Option.map_eq_some_iff.mp hstep
    refine ⟨?_, h.2⟩
    rcases (Tables.effect_of_step hcall).cases_row h.1 with hsame | ⟨t', -, hedge, -⟩
    · exact hsame
    · cases hedge with
      | authorized hlength hdistinct hnone hauthorizing => exact absurd hauthorizing (hne rfl)
      | _ => exact absurd rfl hticks
  | ledger op =>
    obtain ⟨l, -, rfl⟩ := Option.map_eq_some_iff.mp hstep
    exact h
  | tickBroadcast w =>
    obtain rfl := Option.some.inj hstep
    obtain ⟨T, heq, hrows⟩ := reconcileNonce_eq (s := s) (u := u) (D := D) (w := w)
    have hbegun : Ignored id t (s.reconcileNonce u D w) := by
      rw [heq]
      exact ⟨(hrows id).trans h.1, h.2⟩
    have hunlisted (state : RobinhoodTxState) (hstate : t.state ≠ state) :=
      ne_of_mem_txsInState hbegun.1 hstate
    unfold tickBroadcast
    refine Ignored.foldl ?_ (fun _ _ => rebroadcastOrReplace_moves)
      (hunlisted .broadcast (hne rfl))
    exact hbegun.foldl (fun _ _ => signAndSend_moves) (hunlisted .authorized (hne rfl))
  | tickReceipts w =>
    obtain rfl := Option.some.inj hstep
    have hpolls {D : Daemon} (h : Ignored id t D) (state : RobinhoodTxState) (hstate : t.state ≠ state)
        (answers : ℕ → PollAnswers) (stop : ℕ → Option ℕ) (head : ℕ) :
        Ignored id t (pollRows u D state answers stop head w.now) :=
      h.foldl (fun _ _ => pollReceipt_moves) (ne_of_mem_txsInState h.1 hstate)
    unfold tickReceipts
    split
    · exact h
    · exact hpolls (hpolls h .broadcast (hne rfl) _ _ _) .included (hne rfl) _ _ _

/-- Stopped between the send and its record, the first payout is never looked at
again, whatever happens. Stopped after its nonce and refused for good, it holds
a nonce that nothing was sent under, while the second payout is sent under the
next one. -/
theorem operations_abandoned :
    (∃ t, (sample.daemonRun sampleSubmitter .empty strandedRun).row 1 = some t ∧
      t.state = .signed ∧ t.rawTx.isSome ∧ ∀ later : List DaemonOp,
        Ignored 1 t (sample.daemonRun sampleSubmitter
          { sample.daemonRun sampleSubmitter .empty strandedRun with exchanges := [] } later)) ∧
    ∃ t₁ t₂ rawTx, (sample.daemonRun sampleSubmitter .empty gapRun).row 1 = some t₁ ∧
      (sample.daemonRun sampleSubmitter .empty gapRun).row 2 = some t₂ ∧
      t₁.state = .manualReview ∧ t₁.nonce = some 0 ∧ t₂.nonce = some 1 ∧
      (sample.daemonRun sampleSubmitter .empty gapRun).exchanges = [.sent 2 (some 1) rawTx] := by
  constructor
  · have hrow : ((sample.daemonRun sampleSubmitter .empty strandedRun).row 1).map
        (fun t => (t.state, t.rawTx.isSome)) = some (.signed, true) := by decide
    obtain ⟨t, hget, hfields⟩ := Option.map_eq_some_iff.mp hrow
    simp only [Prod.mk.injEq] at hfields
    refine ⟨t, hget, hfields.1, hfields.2, fun later => ?_⟩
    refine Run.invariant (fun _ _ _ h hstep => idle_ignored (by rw [hfields.1]; rfl) h hstep) ?_ later
    exact ⟨hget, fun x hx => by cases hx⟩
  · have hrow₁ : ((sample.daemonRun sampleSubmitter .empty gapRun).row 1).map
        (fun t => (t.state, t.nonce)) = some (.manualReview, some 0) := by decide
    have hrow₂ : ((sample.daemonRun sampleSubmitter .empty gapRun).row 2).map Tx.nonce =
        some (some 1) := by decide
    obtain ⟨t₁, hget₁, hfields₁⟩ := Option.map_eq_some_iff.mp hrow₁
    obtain ⟨t₂, hget₂, hnonce₂⟩ := Option.map_eq_some_iff.mp hrow₂
    simp only [Prod.mk.injEq] at hfields₁
    exact ⟨t₁, t₂, [1, 1], hget₁, hget₂, hfields₁.1, hfields₁.2, hnonce₂, by decide⟩

end Settler

end Service.Robinhood
