-- SUMMARY: When a broadcast that does not mine is replaced at a higher fee: the sends of a run with their times, what each row keeps of them, and the ticks on which every row that is due is replaced.
import ReserveBridge.Service.Robinhood.Recovery

/-!
# Replacement of a stuck broadcast

A replacement is due when the last broadcast of a row is as old as
`rebroadcast_after`. Until it is due, a tick sends the same bytes again, and that
is a broadcast too: it is recorded, and the wait starts anew.
-/

namespace Service.Robinhood
open Guard

/-! ## Sends, with their times -/

/-- The bytes of an operation went out to the node. -/
structure Sending where
  time : ℤ
  id : ℕ
  rawTx : Bytes
  deriving DecidableEq, Repr

/-- The sends among what was asked at `time`. -/
def sendings (time : ℤ) (asked : List Exchange) : List Sending :=
  asked.filterMap fun
    | .sent id _ rawTx => some ⟨time, id, rawTx⟩
    | .receiptRead _ _ => none

theorem mem_sendings {time : ℤ} {asked : List Exchange} {id : ℕ} {nonce : Option ℤ} {rawTx : Bytes}
    (h : .sent id nonce rawTx ∈ asked) : ⟨time, id, rawTx⟩ ∈ sendings time asked :=
  List.mem_filterMap.mpr ⟨_, h, rfl⟩

/-- The daemon, and everything that was sent, latest first. -/
structure Watched where
  daemon : Daemon
  log : List Sending

def Watched.empty : Watched := ⟨.empty, []⟩

/-- When the sends of an event are made. -/
def DaemonOp.now : DaemonOp → ℤ
  | .tickBroadcast w => w.now
  | .tickReceipts w => w.now
  | .call _ | .ledger _ => 0

namespace Settler

def watchStep (s : Settler) (u : Submitter) (W : Watched) (op : DaemonOp) : Option Watched :=
  (s.daemonStep u { W.daemon with exchanges := [] } op).map fun D =>
    ⟨D, sendings op.now D.exchanges ++ W.log⟩

abbrev watchHistory (s : Settler) (u : Submitter) (ops : List DaemonOp) : List (Watched × DaemonOp) :=
  Run.history (s.watchStep u) .empty ops

/-- The calldata of the row can be rebuilt. -/
def Callable (s : Settler) (t : Tx) : Prop := (s.buildCall t).toOption.isSome

end Settler

/-! ## What a row keeps of its sends -/

/-- The last broadcast of a row is a send, and what was signed can be signed
again. -/
structure Logged (s : Settler) (log : List Sending) (id : ℕ) (t : Tx) : Prop where
  last : ∀ time ∈ t.lastBroadcastAt, ∃ rawTx, ⟨time, id, rawTx⟩ ∈ log
  recorded : t.state = .broadcast → t.lastBroadcastAt.isSome
  callable : t.state = .signed ∨ t.state = .broadcast → s.Callable t

/-- What a call takes for granted: that signed bytes have their call, and that a
recorded broadcast was one. -/
def Op.Backed (s : Settler) (log : List Sending) (id : ℕ) (t : Tx) : Op → Prop
  | .recordSigned .. => s.Callable t
  | .recordBroadcast _ now => ∃ rawTx, ⟨now, id, rawTx⟩ ∈ log
  | _ => True

section Rows

variable {s : Settler} {log log' : List Sending} {id : ℕ} {t t' : Tx}

theorem Op.receives_backed {op : Op} (h : op.receives) : op.Backed s log id t := by
  cases op <;> first | exact trivial | cases h

theorem Settler.Callable.congr (h : s.Callable t) (hpayload : t'.toPayload = t.toPayload)
    (hsignatures : t'.signatures = t.signatures) : s.Callable t' := by
  unfold Settler.Callable Settler.buildCall at h ⊢
  rwa [hpayload, hsignatures]

theorem Logged.mono (h : Logged s log id t) (hsub : log ⊆ log') : Logged s log' id t := by
  refine ⟨fun time htime => ?_, h.recorded, h.callable⟩
  obtain ⟨rawTx, hmem⟩ := h.last time htime
  exact ⟨rawTx, hsub hmem⟩

theorem Logged.new {new : NewTx} {now : ℤ} : Logged s log id (new.row now) where
  last time htime := by cases htime
  recorded h := by cases h
  callable h := by rcases h with h | h <;> cases h

/-- A row that is neither signed nor broadcast, with the broadcasts it had. -/
theorem Logged.leave (h : Logged s log id t) (hlast : t'.lastBroadcastAt = t.lastBroadcastAt)
    (hstate : t'.state ≠ .signed ∧ t'.state ≠ .broadcast) : Logged s log id t' where
  last := hlast ▸ h.last
  recorded hin := absurd hin hstate.2
  callable hin := by
    rcases hin with hin | hin
    · exact absurd hin hstate.1
    · exact absurd hin hstate.2

/-- A call that is backed keeps it. -/
theorem Logged.edge {T : Tables} {op : Op} (h : Logged s log id t) (hedge : Edge T id t op t')
    (hbacked : op.Backed s log id t) : Logged s log id t' := by
  cases hedge with
  | authorized => exact h.leave rfl (by simp [Tx.authorize])
  | allocated hchain hnone hstate hnext => exact h.leave rfl (by simp [Tx.allocate, hstate])
  | signed hnone hstate =>
    have hcallable : s.Callable t := hbacked
    exact ⟨h.last, fun hin => (by cases hin), fun _ => hcallable.congr rfl rfl⟩
  | @sent now hstate =>
    refine ⟨fun time htime => ?_, fun _ => rfl, fun _ => (h.callable hstate).congr rfl rfl⟩
    obtain rfl : now = time := Option.some.inj htime
    exact hbacked
  | replaced hstate hnonce =>
    exact ⟨h.last, h.recorded, fun _ => (h.callable (.inr hstate)).congr rfl rfl⟩
  | receiptMoved => exact h.leave rfl (by simp [Tx.park])
  | @mined success =>
    refine h.leave rfl ?_
    cases success <;> simp [Tx.mined]
  | confirmed hstate =>
    refine h.leave rfl ?_
    rcases hstate with hstate | ⟨hstate, -⟩ <;> simp [Tx.confirm, hstate]
  | finalized => exact h.leave rfl (by simp [Tx.finalize])
  | parked => exact h.leave rfl (by simp [Tx.park])

end Rows

/-! ## The functions of the two phases -/

namespace Daemon

variable {P : Op → Bool} {Q : List Exchange → ℕ → Tx → Prop} {D D' : Daemon} {id n : ℕ} {t : Tx}
  {stop : Option ℕ} {now : ℤ}

/-- A step that writes keeps what the call keeps, and what follows it. -/
theorem keeps_write {x : Except TxError Tables} {rest : Daemon → Daemon} (op : Op)
    (h : Settler.Keeps Q id D) (hx : x = D.tables.apply op)
    (hedge : ∀ t t', D.row id = some t → Q D.exchanges id t → Edge D.tables id t op t' →
      Q D.exchanges id t')
    (hrest : ∀ T, x = .ok T → Settler.Keeps Q id { D with tables := T } →
      Settler.Keeps Q id (rest { D with tables := T })) :
    Settler.Keeps Q id (D.write stop n x rest) := by
  unfold write
  split_ifs
  · cases hok : x with
    | error e => exact h
    | ok T =>
      refine hrest T hok ?_
      obtain ⟨t, hrow, ht⟩ := h
      rcases (Tables.effect_of_apply (hx ▸ hok)).cases_row hrow with hsame | ⟨t', hrow', hmove, -⟩
      · exact ⟨t, hsame, ht⟩
      · exact ⟨t', hrow', hedge t t' hrow ht hmove⟩
  · exact h

end Daemon

namespace Settler
open Daemon

variable {s : Settler} {u : Submitter} {D D' : Daemon} {log : List Sending} {id n : ℕ} {t : Tx}
  {w : SendAnswers} {stop : Option ℕ} {now : ℤ}

/-- The row, with the sends of a tick on top of those before it. -/
def LoggedAt (s : Settler) (log : List Sending) (now : ℤ) (asked : List Exchange) (id : ℕ) (t : Tx) :
    Prop := Logged s (sendings now asked ++ log) id t

theorem loggedAt_persistent : Persistent (LoggedAt s log now) := by
  intro asked asked' id t hsub ht
  refine ht.mono fun x hx => ?_
  rcases List.mem_append.mp hx with hx | hx
  · exact List.mem_append_left log (List.filterMap_subset _ hsub hx)
  · exact List.mem_append_right _ hx

/-- The calls of a poll, and a park, are backed by anything. -/
theorem keeps_of_receives (h : D.Moves Op.receives id D') (hrow : D.row id = some t)
    (ht : LoggedAt s log now D.exchanges id t) : Keeps (LoggedAt s log now) id D' := by
  induction h with
  | refl => exact ⟨t, hrow, ht⟩
  | tail _ hmove ih =>
    obtain ⟨t₁, hrow₁, ht₁⟩ := ih
    cases hmove with
    | wrote op hop hpermitted happly =>
      rcases (Tables.effect_of_apply happly).cases_row hrow₁ with hsame | ⟨t₂, hget, hedge, -⟩
      · exact ⟨t₁, hsame, ht₁⟩
      · exact ⟨t₂, hget, ht₁.edge hedge (Op.receives_backed hpermitted)⟩
    | asked x hid => exact ⟨t₁, hrow₁, loggedAt_persistent (List.subset_cons_self _ _) ht₁⟩
    | reconciled landed settledAt hok =>
      rcases reconcileFromChain_eq_ok hok with rfl | ⟨t₂, hget, -, hsets⟩
      · exact ⟨t₁, hrow₁, ht₁⟩
      · obtain rfl := Option.some.inj (hget.symm.trans hrow₁)
        exact ⟨_, (hsets.get? id).trans (if_pos rfl), ht₁.leave rfl (by simp [Tx.reconcile])⟩
    | finished l completed hcompleted => exact ⟨t₁, hrow₁, ht₁⟩

theorem keeps_reconcileOrPark {reason : Option String → String} (hrow : D.row id = some t)
    (ht : LoggedAt s log now D.exchanges id t) :
    Keeps (LoggedAt s log now) id (reconcileOrPark D id t w reason stop now) :=
  keeps_of_receives (reconcileOrPark_moves fun _ => rfl) hrow ht

theorem sends_eq_some (h : D.sends u id t = some D') : ∃ rawTx, t.rawTx = some rawTx ∧
    D' = { D with exchanges := .sent id t.nonce rawTx :: D.exchanges } := by
  rw [sends] at h
  split at h
  · cases h
  · rename_i rawTx hraw
    split_ifs at h
    exact ⟨rawTx, hraw, (Option.some.inj h).symm⟩

/-- What is sent is logged, whatever was recorded of it. -/
theorem sends_logged {t₀ : Tx} (h : Keeps (LoggedAt s log now) id D)
    (hsent : D.sends u id t₀ = some D') : Keeps (LoggedAt s log now) id D' ∧
      ∃ rawTx, ⟨now, id, rawTx⟩ ∈ sendings now D'.exchanges ++ log := by
  obtain ⟨rawTx, -, rfl⟩ := sends_eq_some hsent
  obtain ⟨t, hrow, ht⟩ := h
  refine ⟨⟨t, hrow, loggedAt_persistent (List.subset_cons_self _ _) ht⟩, rawTx, ?_⟩
  exact List.mem_append_left log (mem_sendings List.mem_cons_self)

/-- A broadcast is recorded after a send. -/
theorem keeps_recordBroadcast (h : Keeps (LoggedAt s log now) id D)
    (hsent : ∃ rawTx, ⟨now, id, rawTx⟩ ∈ sendings now D.exchanges ++ log) :
    Keeps (LoggedAt s log now) id
      (D.write stop n (D.tables.recordBroadcast id now) fun D => D) :=
  keeps_write (.recordBroadcast id now) h rfl (fun _ _ _ ht hedge => ht.edge hedge hsent)
    fun _ _ hkept => hkept

theorem rebroadcastOrReplace_logged (hrow : D.row id = some t)
    (ht : LoggedAt s log now D.exchanges id t) :
    Keeps (LoggedAt s log now) id (s.rebroadcastOrReplace u D id t w stop now) := by
  have hD : Keeps (LoggedAt s log now) id D := ⟨t, hrow, ht⟩
  unfold rebroadcastOrReplace
  split
  · exact keeps_reconcileOrPark hrow ht
  · split
    · split
      · split
        · exact hD
        · rename_i D₁ hsends
          obtain ⟨hkept, hsent⟩ := sends_logged hD hsends
          split
          · exact keeps_recordBroadcast hkept hsent
          · exact hkept
      · exact hD
    · split
      · refine keeps_write (.recordReplacement ..) hD rfl
          (fun _ _ _ ht hedge => ht.edge hedge trivial) fun T _ hT => ?_
        split
        · split
          · exact hT
          · rename_i D₁ hsends
            obtain ⟨refreshed, -, hsends⟩ := Option.bind_eq_some_iff.mp hsends
            obtain ⟨hkept, hsent⟩ := sends_logged hT hsends
            split
            · exact keeps_recordBroadcast hkept hsent
            · exact hkept
        · exact hT
      · exact hD
    · exact keeps_reconcileOrPark hrow ht

/-- What is stored of an operation that holds a nonce of the submitter is sent
before it is recorded. -/
theorem allocateAndSend_logged {c : Clearance} (hrow : D.row id = some t)
    (hstate : t.state = .authorized) (hcallable : s.Callable t)
    (ht : LoggedAt s log now D.exchanges id t) :
    Keeps (LoggedAt s log now) id (s.allocateAndSend u D id c stop now) := by
  unfold allocateAndSend
  split
  · split
    · exact ⟨t, hrow, ht⟩
    · rename_i nonce T hallocated
      obtain ⟨t₁, hrow₁, hstate₁, -, -, hsubmitter₁⟩ :=
        Tables.allocateNonce_row hrow hstate hallocated
      have ht₁ : LoggedAt s log now D.exchanges id t₁ ∧ s.Callable t₁ := by
        have heffect := Tables.effect_of_apply (Tables.apply_allocateNonce hallocated)
        rcases heffect.cases_row hrow with hsame | ⟨t', hrow', hedge, -⟩
        · obtain rfl := Option.some.inj (hsame.symm.trans hrow₁)
          exact ⟨ht, hcallable⟩
        · obtain rfl := Option.some.inj (hrow'.symm.trans hrow₁)
          refine ⟨ht.edge hedge trivial, ?_⟩
          cases hedge with
          | allocated => exact hcallable.congr rfl rfl
      dsimp only
      by_cases hsigns : Reaches stop 2
      · cases hsigned : T.recordSigned id u.envelope.asStr c.gasLimit (describeFees c.fees)
          (u.sign nonce c.gasLimit c.fees c.call).1 (u.sign nonce c.gasLimit c.fees c.call).2 now with
        | error e =>
          rw [write_of_error rfl]
          exact ⟨t₁, hrow₁, ht₁.1⟩
        | ok T₂ =>
          obtain ⟨t₂, hrow₂, hsome, hsubmitter₂, ht₂⟩ : ∃ t₂, T₂.transactions.get? id = some t₂ ∧
              t₂.rawTx.isSome ∧ t₂.submitter = some u.address ∧
              LoggedAt s log now D.exchanges id t₂ := by
            cases hraw : t₁.rawTx with
            | none =>
              have hrow₂ := Tables.recordSigned_row hrow₁ hraw hsigned
              refine ⟨_, hrow₂, rfl, hsubmitter₁, ht₁.1.edge (T := T) (.signed hraw hstate₁) ?_⟩
              exact ht₁.2
            | some stored =>
              -- the bytes are stored already, and stay as they are
              simp only [Tables.recordSigned, bind_eq_ok, Tables.tx_eq_ok] at hsigned
              obtain ⟨t₀, hget, hsigned⟩ := hsigned
              obtain rfl := Option.some.inj (hget.symm.trans hrow₁)
              rw [hraw] at hsigned
              simp only [bind_eq_ok, require_eq_ok, exists_unit, pure_eq_ok] at hsigned
              obtain ⟨-, rfl⟩ := hsigned
              exact ⟨t₀, hrow₁, by rw [hraw]; rfl, hsubmitter₁, ht₁.1⟩
          rw [write_of_ok hsigns rfl]
          split
          · rw [hrow₂]
            dsimp only
            have hkept : Keeps (LoggedAt s log now) id { D with tables := T₂ } := ⟨t₂, hrow₂, ht₂⟩
            cases hsends : ({ D with tables := T₂ } : Daemon).sends u id t₂ with
            | none =>
              obtain ⟨rawTx, hraw⟩ := Option.isSome_iff_exists.mp hsome
              simp [sends, hraw, hsubmitter₂] at hsends
            | some D₁ =>
              obtain ⟨hkept', hsent⟩ := sends_logged hkept hsends
              exact keeps_recordBroadcast hkept' hsent
          · exact ⟨t₂, hrow₂, ht₂⟩
      · rw [write_of_stop hsigns]
        exact ⟨t₁, hrow₁, ht₁.1⟩
  · exact ⟨t, hrow, ht⟩

theorem signAndSend_logged (hrow : D.row id = some t) (hstate : t.state = .authorized)
    (ht : LoggedAt s log now D.exchanges id t) :
    Keeps (LoggedAt s log now) id (s.signAndSend u D id t w stop now) := by
  unfold signAndSend
  split
  · exact keeps_of_receives (park_moves fun _ => rfl) hrow ht
  · split
    · exact ⟨t, hrow, ht⟩
    · rename_i call hcall
      have hcallable : s.Callable t := by
        unfold Callable
        rw [hcall]
        rfl
      split
      · exact ⟨t, hrow, ht⟩
      · split
        · exact ⟨t, hrow, ht⟩
        · exact keeps_reconcileOrPark hrow ht
        · split
          · exact ⟨t, hrow, ht⟩
          · exact allocateAndSend_logged hrow hstate hcallable ht

/-! ## Runs -/

/-- What every row keeps of its sends. -/
def Logs (s : Settler) (W : Watched) : Prop := ∀ id t, W.daemon.row id = some t → Logged s W.log id t

theorem empty_logs : s.Logs .empty := by
  intro id t hget
  cases hget

theorem daemonStep_logged {op : DaemonOp} (h : Every (LoggedAt s log op.now) D)
    (hstep : s.daemonStep u D op = some D') : Every (LoggedAt s log op.now) D' := by
  cases op with
  | call op =>
    rw [daemonStep] at hstep
    split_ifs at hstep with hticks
    obtain ⟨T, hcall, rfl⟩ := Option.map_eq_some_iff.mp hstep
    intro id t' hget'
    rcases (Tables.effect_of_step hcall).origin hget' with hsame | ⟨t, hget, hedge⟩ | hnew
    · exact h id t' hsame
    · refine (h id t hget).edge hedge ?_
      cases op <;> first | exact trivial | exact absurd rfl hticks
    · obtain ⟨new, now, -, rfl, -⟩ := hnew
      exact .new
  | ledger op =>
    obtain ⟨l, -, rfl⟩ := Option.map_eq_some_iff.mp hstep
    exact h
  | tickBroadcast w =>
    obtain rfl := Option.some.inj hstep
    exact tickBroadcast_every loggedAt_persistent h
      (fun D' id t _ hstate hrow ht => signAndSend_logged hrow hstate ht)
      fun D' id t _ hrow ht => rebroadcastOrReplace_logged hrow ht
  | tickReceipts w =>
    obtain rfl := Option.some.inj hstep
    exact tickReceipts_every loggedAt_persistent h fun D' id t w' head stop _ hrow ht =>
      keeps_of_receives pollReceipt_moves hrow ht

theorem watchStep_logs {W W' : Watched} {op : DaemonOp} (h : s.Logs W)
    (hstep : s.watchStep u W op = some W') : s.Logs W' := by
  obtain ⟨D', hdaemon, rfl⟩ := Option.map_eq_some_iff.mp hstep
  have hbegun : Every (LoggedAt s W.log op.now) { W.daemon with exchanges := [] } :=
    fun id t hget => h id t hget
  exact daemonStep_logged hbegun hdaemon

/-! ## The replacement -/

/-- The row as a tick leaves it when it signs a replacement: the same operation
under the same nonce, at the next fee. -/
structure Replaced (s : Settler) (u : Submitter) (w : SendAnswers) (t t' : Tx) : Prop where
  counted : t'.replacementAttempts = t.replacementAttempts + 1
  nonce : t'.nonce = t.nonce
  signed : ∃ call fees, s.buildCall t = .ok call ∧
    u.readFees w (t.replacementAttempts.toNat + 1) = some fees ∧
    t'.rawTx = some (u.sign ((t.nonce.map asU64).getD 0)
      (t.gasLimit.elim u.maxGasLimit.toNat asU64) fees call).1

/-- The schema admits a replacement. -/
theorem exists_recordReplacement {T : Tables} (hget : T.transactions.get? id = some t)
    (hstate : t.state = .broadcast) (feeSummary : String) (rawTx : Bytes) (txHash : ℕ) (now : ℤ) :
    ∃ T', T.recordReplacement id feeSummary rawTx txHash now = .ok T' ∧
      T'.transactions.get? id = some (t.replace feeSummary rawTx txHash now) := by
  have hchecks := T.transactions.checked id t hget
  obtain ⟨hsome, hnonce⟩ := hchecks.signed (by rw [hstate]; rfl)
  have hadmits : T.transactions.Admits id (t.replace feeSummary rawTx txHash now) := by
    refine Table.admits_of_index_eq ?_ hget rfl
    refine { hchecks with
      txHash_none := by simp [Tx.replace]
      envelope_none := ?_
      signed := fun _ => ⟨rfl, hnonce⟩
      replacementAttempts_nonneg := ?_ }
    · have hne : t.envelope ≠ none := fun hnone => by
        rw [hchecks.envelope_none.mpr hnone] at hsome
        cases hsome
      simp [Tx.replace, hne]
    · have hcount := hchecks.replacementAttempts_nonneg
      simp only [Tx.replace]
      omega
  obtain ⟨T', hset⟩ := Tables.exists_setTx hget hadmits
  refine ⟨T', ?_, ((Tables.setTx_eq_ok hset hget).get? id).trans (if_pos rfl)⟩
  simp only [Tables.recordReplacement, bind_eq_ok, Tables.tx_eq_ok, require_eq_ok, exists_unit]
  exact ⟨t, hget, hstate, hnonce, hset⟩

/-- What was replaced stays replaced when its broadcast is recorded. -/
theorem Replaced.recorded {t' : Tx} (h : Replaced s u w t t') (hrow : D.row id = some t') :
    ∃ t'', (D.write stop n (D.tables.recordBroadcast id now) fun D => D).row id = some t'' ∧
      Replaced s u w t t'' := by
  unfold write
  split_ifs
  · cases hok : D.tables.recordBroadcast id now with
    | error e => exact ⟨t', hrow, h⟩
    | ok T =>
      rcases (Tables.recordBroadcast_effect hok).cases_row hrow with hsame | ⟨t'', hrow'', hedge, -⟩
      · exact ⟨t', hsame, h⟩
      · cases hedge with
        | sent hstate => exact ⟨_, hrow'', h.counted, h.nonce, h.signed⟩
  · exact ⟨t', hrow, h⟩

/-- A row that is due is replaced, unless the process stops at it. -/
theorem rebroadcastOrReplace_replaces (hrow : D.row id = some t) (hstate : t.state = .broadcast)
    (hcallable : s.Callable t) (hstale : broadcastIsStale t now = false)
    (hdue : u.replacementDue t now = some true)
    (hfees : (u.readFees w (t.replacementAttempts.toNat + 1)).isSome) (hreaches : Reaches stop 1) :
    ∃ t', (s.rebroadcastOrReplace u D id t w stop now).row id = some t' ∧ Replaced s u w t t' := by
  obtain ⟨-, hnonce⟩ := (D.tables.transactions.checked id t hrow).signed (by rw [hstate]; rfl)
  obtain ⟨nonce, hnonce⟩ := Option.isSome_iff_exists.mp hnonce
  obtain ⟨fees, hfees⟩ := Option.isSome_iff_exists.mp hfees
  obtain ⟨call, hcall⟩ := Option.isSome_iff_exists.mp hcallable
  rw [toOption_eq_some] at hcall
  unfold rebroadcastOrReplace
  rw [hstale, hdue, hcall, hnonce, hfees]
  dsimp only
  obtain ⟨T, hrecorded, hrow'⟩ := exists_recordReplacement hrow hstate (describeFees fees)
    (u.sign (asU64 nonce) (t.gasLimit.elim u.maxGasLimit.toNat asU64) fees call).1
    (u.sign (asU64 nonce) (t.gasLimit.elim u.maxGasLimit.toNat asU64) fees call).2 now
  rw [if_neg Bool.false_ne_true, write_of_ok hreaches hrecorded]
  have hreplaced : Replaced s u w t (t.replace (describeFees fees)
      (u.sign (asU64 nonce) (t.gasLimit.elim u.maxGasLimit.toNat asU64) fees call).1
      (u.sign (asU64 nonce) (t.gasLimit.elim u.maxGasLimit.toNat asU64) fees call).2 now) := by
    refine ⟨rfl, rfl, call, fees, hcall, hfees, ?_⟩
    rw [hnonce]
    rfl
  split
  · split
    · exact ⟨_, hrow', hreplaced⟩
    · rename_i D₁ hsends
      obtain ⟨refreshed, -, hsends⟩ := Option.bind_eq_some_iff.mp hsends
      obtain ⟨rawTx, -, rfl⟩ := sends_eq_some hsends
      split
      · exact hreplaced.recorded hrow'
      · exact ⟨_, hrow', hreplaced⟩
  · exact ⟨_, hrow', hreplaced⟩

/-! ## When it is due -/

/-- The row is due for a replacement: it is broadcast, its bytes went out at least
`rebroadcast_after` ago, it is not an incident yet, and the budget is not used up. -/
@[mk_iff] structure Due (u : Submitter) (log : List Sending) (now : ℤ) (e : ℕ × Tx) : Prop where
  state : e.2.state = .broadcast
  waited : ∃ x ∈ log, x.id = e.1 ∧ e.2.rawTx = some x.rawTx ∧ u.rebroadcastAfter ≤ now - x.time
  resolvable : broadcastIsStale e.2 now = false
  budget : e.2.replacementAttempts < u.maxReplacements

instance (u : Submitter) (log : List Sending) (now : ℤ) (e : ℕ × Tx) : Decidable (Due u log now e) :=
  decidable_of_iff _ (due_iff u log now e).symm

/-- Every broadcast tick replaces every row that is due. -/
def ReplacesWhenDue (s : Settler) (u : Submitter) (ops : List DaemonOp) : Prop :=
  ∀ W w, (W, .tickBroadcast w) ∈ s.watchHistory u ops → ∀ id t, W.daemon.row id = some t →
    Due u W.log w.now (id, t) → ∃ W' t', s.watchStep u W (.tickBroadcast w) = some W' ∧
      W'.daemon.row id = some t' ∧ Replaced s u (w.answers id) t t'

/-- The condition on a tick: a row that is due was not sent again since, its fees
are read and within the limit, and the process does not stop at it. -/
def Unhindered (u : Submitter) (W : Watched) : DaemonOp → Prop
  | .tickBroadcast w => ∀ e ∈ W.daemon.tables.txsInState .broadcast, Due u W.log w.now e →
      (∀ x ∈ W.log, x.id = e.1 → u.rebroadcastAfter ≤ w.now - x.time) ∧
      (u.readFees (w.answers e.1) (e.2.replacementAttempts.toNat + 1)).isSome ∧ w.stop e.1 = none
  | .call _ | .ledger _ | .tickReceipts _ => True

instance (u : Submitter) (W : Watched) (op : DaemonOp) : Decidable (Unhindered u W op) :=
  match op with
  | .tickBroadcast _ => inferInstanceAs (Decidable (∀ e ∈ _, _))
  | .call _ => inferInstanceAs (Decidable True)
  | .ledger _ => inferInstanceAs (Decidable True)
  | .tickReceipts _ => inferInstanceAs (Decidable True)

/-- The last broadcast is one of the sends. -/
theorem Due.replacementDue (h : Due u log now (id, t)) (hlogged : Logged s log id t)
    (hquiet : ∀ x ∈ log, x.id = id → u.rebroadcastAfter ≤ now - x.time) :
    u.replacementDue t now = some true := by
  obtain ⟨last, hlast⟩ := Option.isSome_iff_exists.mp (hlogged.recorded h.state)
  obtain ⟨rawTx, hmem⟩ := hlogged.last last hlast
  have hwaited := hquiet ⟨last, id, rawTx⟩ hmem rfl
  have hwraps : asI64 u.rebroadcastAfter ≤ u.rebroadcastAfter := asI64_le (by omega)
  have hbudget := h.budget
  unfold Submitter.replacementDue
  rw [if_neg (not_not.mpr h.state), hlast]
  dsimp only at hwaited hbudget ⊢
  rw [if_neg (by omega), if_neg (by omega)]

/-- In a tick, a row that is due is replaced. -/
theorem tickBroadcast_replaces {w : BroadcastTick} (hrow : D.row id = some t)
    (hlogged : Logged s log id t) (hdue : Due u log w.now (id, t))
    (hquiet : ∀ x ∈ log, x.id = id → u.rebroadcastAfter ≤ w.now - x.time)
    (hfees : (u.readFees (w.answers id) (t.replacementAttempts.toNat + 1)).isSome)
    (hstop : w.stop id = none) :
    ∃ t', (s.tickBroadcast u D w).row id = some t' ∧ Replaced s u (w.answers id) t t' := by
  obtain ⟨D₁, hread, hturn⟩ := @exists_turn_inFlight s u D w id t hrow hdue.state
  rw [hturn, hstop]
  exact rebroadcastOrReplace_replaces hread hdue.state (hlogged.callable (.inr hdue.state))
    hdue.resolvable (hdue.replacementDue hlogged hquiet) hfees fun k hk => (by cases hk)

/-- In a run whose broadcast ticks come no sooner after the last send of a row
that is due, every such row is replaced. -/
theorem replaced_when_due (s : Settler) (u : Submitter) (ops : List DaemonOp)
    (hunhindered : ∀ e ∈ s.watchHistory u ops, Unhindered u e.1 e.2) : s.ReplacesWhenDue u ops := by
  intro W w hmem id t hrow hdue
  have hlogs : s.Logs W := Run.invariant_history (fun _ _ _ h hstep => watchStep_logs h hstep)
    empty_logs hmem
  have hlisted : (id, t) ∈ W.daemon.tables.txsInState .broadcast :=
    Tables.mem_txsInState.mpr ⟨hrow, hdue.state⟩
  obtain ⟨hquiet, hfees, hstop⟩ := hunhindered _ hmem (id, t) hlisted hdue
  obtain ⟨t', hrow', hreplaced⟩ := @tickBroadcast_replaces s u { W.daemon with exchanges := [] }
    W.log id t w hrow (hlogs id t hrow) hdue hquiet hfees hstop
  exact ⟨_, t', rfl, hrow', hreplaced⟩

/-- Ticks a minute apart, which is the wait of the sample. -/
theorem replaced_when_due_sample : sample.ReplacesWhenDue sampleSubmitter
    (samplePayouts ++ [sampleBroadcast 200 fun _ => none, sampleBroadcast 260 fun _ => none]) :=
  replaced_when_due sample sampleSubmitter _ (by decide +kernel)

/-! ### What the ticks in between postpone -/

/-- Whatever is sent is taken and never included, and the process does not
stop. -/
def Unmined : DaemonOp → Prop
  | .tickBroadcast w => ∀ id, w.stop id = none ∧
      ((w.answers id).outcome = some .accepted ∨ (w.answers id).outcome = some .alreadyKnown)
  | .tickReceipts w => ∀ id, (w.broadcast id).receipt = some none ∧ (w.included id).receipt = some none
  | .call _ | .ledger _ => True

/-- The payouts are signed, and sent again half a minute later. -/
def resentRun : List DaemonOp :=
  samplePayouts ++ [sampleBroadcast 200 fun _ => none, sampleBroadcast 230 fun _ => none]

/-- A tick every half a minute: a minute after the first send, the same bytes are
sent once more. -/
theorem replacement_postponed : ¬ ∀ (s : Settler) (u : Submitter) (ops : List DaemonOp),
    (∀ op ∈ ops, Unmined op) → s.ReplacesWhenDue u ops := by
  intro h
  have hreplaces := h sample sampleSubmitter (resentRun ++ [sampleBroadcast 260 fun _ => none]) ?_
  · have hmem : (Run.final (sample.watchStep sampleSubmitter) .empty resentRun,
        sampleBroadcast 260 fun _ => none) ∈
          sample.watchHistory sampleSubmitter (resentRun ++ [sampleBroadcast 260 fun _ => none]) := by
      rw [watchHistory, Run.history_append]
      exact List.mem_append_right _ List.mem_cons_self
    generalize hW : Run.final (sample.watchStep sampleSubmitter) .empty resentRun = W at hmem
    have hdue : (W.daemon.row 1).any (fun t => decide (Due sampleSubmitter W.log 260 (1, t))) := by
      rw [← hW]
      decide +kernel
    have hkept : (sample.watchStep sampleSubmitter W (sampleBroadcast 260 fun _ => none)).any
        (fun W' => (W'.daemon.row 1).map Tx.replacementAttempts =
          (W.daemon.row 1).map Tx.replacementAttempts) := by
      rw [← hW]
      decide +kernel
    obtain ⟨t, hrow, hdue⟩ := (Option.any_eq_true _ _).mp hdue
    obtain ⟨W', t', hstep, hrow', hreplaced⟩ := hreplaces W _ hmem 1 t hrow (of_decide_eq_true hdue)
    rw [sampleBroadcast, hstep] at hkept
    have hcounted := hreplaced.counted
    simp only [Option.any_some, hrow, hrow', Option.map_some, decide_eq_true_eq,
      Option.some.injEq] at hkept
    omega
  · intro op hop
    simp only [resentRun, samplePayouts, List.mem_append, List.mem_cons, List.not_mem_nil,
      or_false] at hop
    rcases hop with ((rfl | rfl | rfl | rfl | rfl | rfl) | rfl | rfl) | rfl <;>
      first | trivial | exact fun _ => ⟨rfl, .inl rfl⟩

end Settler

end Service.Robinhood
