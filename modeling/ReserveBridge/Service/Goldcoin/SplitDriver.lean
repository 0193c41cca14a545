-- SUMMARY: What the drivers of vault splits do, whatever the node and the signers answer and wherever the process is killed: moves of single splits, with at most one transaction that the node acknowledges, and what follows for every run.
import ReserveBridge.Lib.Run
import ReserveBridge.Service.Goldcoin.SplitLifecycle

/-!
# The drivers of vault splits

Each driver is a sequence of moves. A tick goes on to the next split only where
the node acknowledged nothing, so that it acknowledges one transaction of it at
most. A transaction whose answer is lost is not acknowledged, although the node
may have it: the tick goes on behind it.
-/

namespace Service.Liquidity
open Guard Procedure

/-! ## Effects -/

/-- The transactions that the node acknowledged: it answered that it has them. -/
def Shaper.accepted (N : Shaper) : ℕ := N.sent.countP fun t => t.answer.any BroadcastOutcome.taken

/-- After a question. -/
def Shaper.asked (N : Shaper) : Shaper := { N with clock := N.clock + 1 }

def Shaper.handed (N : Shaper) (t : Sent) : Shaper := { N with sent := t :: N.sent }

section Effects

variable {w : ShapingAnswers} {N : Shaper} {α : Type}

@[simp] theorem wp_next_bind {f : ℕ → Driver α} {R : Except Halt α → Shaper → Prop} :
    wp (next >>= f) R N ↔ wp (f N.clock) R N.asked := Iff.rfl

@[simp] theorem wp_note_bind {f : ShapingOutcome → ShapingOutcome} {g : Unit → Driver α}
    {R : Except Halt α → Shaper → Prop} :
    wp (note f >>= g) R N ↔ wp (g ()) R { N with outcome := f N.outcome } := Iff.rfl

@[simp] theorem wp_probe_bind {txid : Txid} {f : TxProbe → Driver α}
    {R : Except Halt α → Shaper → Prop} :
    wp (probeTransaction w txid >>= f) R N ↔ wp (f (w.probe N.clock txid)) R N.asked := Iff.rfl

theorem wp_alive_bind {f : Unit → Driver α} {R : Except Halt α → Shaper → Prop}
    (hkilled : R (.error .killed) N.asked) (hok : wp (f ()) R N.asked) : wp (alive w >>= f) R N := by
  rw [wp_bind_iff, alive, wp_next_bind]
  exact wp_ite (fun _ => hkilled) fun _ => hok

/-- The process may be killed before a transaction of the ledger, which is made or
fails as a whole. -/
theorem wp_write {op : Op} {Q : Except Halt Unit → Shaper → Prop}
    (hkilled : Q (.error .killed) N.asked)
    (hok : ∀ l, N.ledger.step op = some l → Q (.ok ()) { N.asked with ledger := l })
    (hfailed : ∀ e, N.ledger.run op = .error e → Q (.error (.failed (.ledger e))) N.asked) :
    wp (write w op) Q N := by
  refine wp_alive_bind hkilled ?_
  rw [wp_get_bind]
  split
  case h_1 l hrun => exact hok l (toOption_eq_some.mpr hrun)
  case h_2 e hrun => exact hfailed e hrun

/-- What is sent is sent once, whatever comes back. -/
theorem wp_send {id : ℕ} {bytes : Bytes} {Q : Except Halt BroadcastOutcome → Shaper → Prop}
    (hkilled : Q (.error .killed) N.asked)
    (hok : ∀ outcome, Q (.ok outcome) (N.asked.asked.handed ⟨id, bytes, some outcome⟩))
    (hfailed : Q (.error (.failed .rpc)) (N.asked.asked.handed ⟨id, bytes, none⟩)) :
    wp (sendRawTransaction w id bytes) Q N := by
  refine wp_alive_bind hkilled ?_
  rw [wp_next_bind, wp_modify_bind]
  cases w.send N.asked.clock bytes with
  | some outcome => exact hok outcome
  | none => exact hfailed

end Effects

/-! ## Moves of one split -/

/-- Moves of a split, in which the node acknowledged at most `n` transactions. -/
structure Acts (c : ShapingConfig) (id n : ℕ) (N N' : Shaper) : Prop where
  moves : Relation.ReflTransGen (Move c id) N N'
  accepted : N'.accepted ≤ N.accepted + n

/-- Where a driver stops, the node acknowledged nothing, unless the process was
killed. -/
def Stopped (c : ShapingConfig) (id : ℕ) (N : Shaper) : Halt → Shaper → Prop
  | .killed, N' => Acts c id 1 N N'
  | _, N' => Acts c id 0 N N'

section Acts

variable {c : ShapingConfig} {id n m : ℕ} {N N₁ N' : Shaper}

theorem Shaper.accepted_handed (N : Shaper) (t : Sent) : (N.handed t).accepted =
    N.accepted + if t.answer.any BroadcastOutcome.taken = true then 1 else 0 := List.countP_cons

namespace Acts

theorem refl : Acts c id 0 N N := ⟨.refl, le_rfl⟩

theorem mono (h : Acts c id n N N') (hnm : n ≤ m) : Acts c id m N N' :=
  ⟨h.moves, h.accepted.trans (Nat.add_le_add_left hnm _)⟩

theorem trans (h : Acts c id n N N₁) (h' : Acts c id m N₁ N') : Acts c id (n + m) N N' where
  moves := h.moves.trans h'.moves
  accepted := by
    have := h.accepted
    have := h'.accepted
    omega

theorem after (h : Acts c id 0 N N₁) (h' : Acts c id n N₁ N') : Acts c id n N N' := by
  have := h.trans h'
  rwa [Nat.zero_add] at this

theorem move (h : Acts c id n N N₁) (hmove : Move c id N₁ N') (hsent : N'.sent = N₁.sent) :
    Acts c id n N N' where
  moves := h.moves.tail hmove
  accepted := by
    rw [Shaper.accepted, hsent]
    exact h.accepted

theorem asked (h : Acts c id n N N₁) : Acts c id n N N₁.asked :=
  h.move (.look N₁.outcome (N₁.clock + 1)) rfl

theorem noted (h : Acts c id n N N₁) (outcome : ShapingOutcome) :
    Acts c id n N { N₁ with outcome := outcome } :=
  h.move (.look outcome N₁.clock) rfl

/-- The one transaction that the node may acknowledge. -/
theorem handed {bytes : Bytes} (h : Acts c id 0 N N₁) (hout : N₁.Out id bytes)
    (answer : Option BroadcastOutcome) : Acts c id 1 N (N₁.handed ⟨id, bytes, answer⟩) where
  moves := h.moves.tail (.sent answer hout)
  accepted := by
    have := h.accepted
    rw [Shaper.accepted_handed]
    split_ifs <;> omega

theorem turnedDown {bytes : Bytes} {answer : Option BroadcastOutcome} (h : Acts c id n N N₁)
    (hout : N₁.Out id bytes) (hanswer : answer.any BroadcastOutcome.taken = false) :
    Acts c id n N (N₁.handed ⟨id, bytes, answer⟩) where
  moves := h.moves.tail (.sent answer hout)
  accepted := by
    rw [Shaper.accepted_handed, if_neg (by simp [hanswer])]
    exact h.accepted

theorem stopped (h : Acts c id 0 N N') (e : Halt) : Stopped c id N e N' := by
  cases e with
  | killed => exact h.mono (Nat.zero_le 1)
  | failed | refused => exact h

theorem sound (hsound : Sound c N) (h : Acts c id n N N') : Sound c N' := by
  obtain ⟨h, -⟩ := h
  induction h with
  | refl => exact hsound
  | tail _ hmove ih => exact ih.move hmove

theorem apart (h : Acts c id n N N') : Apart id N N' := by
  obtain ⟨h, -⟩ := h
  induction h with
  | refl => exact .refl
  | tail _ hmove ih => exact ih.trans hmove.apart

end Acts

theorem Stopped.after {e : Halt} (h : Acts c id 0 N N₁) (h' : Stopped c id N₁ e N') :
    Stopped c id N e N' := by
  cases e with
  | killed | failed | refused => exact Acts.after h h'

end Acts

/-! ## Signing and broadcasting -/

section Signing

variable {c : ShapingConfig} {w : ShapingAnswers} {N : Shaper} {id : ℕ} {o : Outpoint} {s : Split}

theorem getVaultUtxoSplit_eq_some {i : ℕ} (h : N.getVaultUtxoSplit o = some (i, s)) :
    N.split? i = some s ∧ s.source = o ∧ s.state ≠ .abandoned := by
  have hmem := List.mem_of_find?_eq_some h
  have hrow := List.find?_some h
  rw [decide_eq_true_eq] at hrow
  exact ⟨Store.get?_of_mem hmem, hrow⟩

/-- The row of the source is the only live one. -/
theorem Sound.row_of_source {i : ℕ} {s' : Split} (hsound : Sound c N) (hget : N.split? id = some s)
    (hsource : s.source = o) (hstate : s.state ≠ .abandoned)
    (h : N.getVaultUtxoSplit o = some (i, s')) : id = i ∧ s = s' := by
  obtain ⟨hget', hsource', hstate'⟩ := getVaultUtxoSplit_eq_some h
  obtain rfl := hsound.alone hget' hget hstate' hstate (hsource'.trans hsource.symm)
  exact ⟨rfl, Option.some.inj (hget.symm.trans hget')⟩

theorem rederiveSplitPlan_eq_ok {chunkTarget : ℕ} {plan : Goldcoin.SplitPlan}
    (h : rederiveSplitPlan c N o chunkTarget = .ok plan) :
    ∃ i s u, N.getVaultUtxoSplit o = some (i, s) ∧ s.state = .built ∧
      N.ledger.vault.utxos.get? o = some u ∧ u.state = .available ∧
      c.reconstruct s s.sourceAmount = .ok plan := by
  simp only [rederiveSplitPlan, liftPlanning, bind_eq_ok, require_eq_ok, exists_unit, orFail_eq_ok,
    mapError_eq_ok] at h
  obtain ⟨⟨i, s⟩, hrow, hstate, -, u, hu, havailable, hamount, -, plan', hplan, -, refusal, -, h⟩ := h
  obtain rfl : plan' = plan := by
    cases refusal with
    | none => exact pure_eq_ok.mp h
    | some => cases h
  have hsame : c.reconstruct s u.amount = c.reconstruct s s.sourceAmount := by
    rw [ShapingConfig.reconstruct, ShapingConfig.reconstruct, ShapingConfig.vaultUtxo,
      ShapingConfig.vaultUtxo, hamount]
  exact ⟨i, s, u, hrow, hstate, hu, havailable, hsame ▸ hplan⟩

/-- What is signed is the plan of the row, whose source is there. -/
theorem independentlySignSplit_eq_ok {answers : Goldcoin.Pubkey → Bytes.Bytes32 → Option Bytes}
    {chunkTarget : ℕ} {plan : Goldcoin.SplitPlan} {tx : Goldcoin.Transaction}
    {partials : List Goldcoin.PartialSignature}
    (h : independentlySignSplit c answers N o chunkTarget = .ok (plan, tx, partials)) :
    ∃ i s u, N.getVaultUtxoSplit o = some (i, s) ∧ s.state = .built ∧
      N.ledger.vault.utxos.get? o = some u ∧ u.state = .available ∧
      c.reconstruct s s.sourceAmount = .ok plan ∧ tx = Goldcoin.buildUnsignedSplitTx plan := by
  simp only [independentlySignSplit, bind_eq_ok, pure_eq_ok] at h
  obtain ⟨plan', hplan, -, -, partials', -, h⟩ := h
  obtain ⟨i, s, u, hrow, hstate, hu, havailable, hplan⟩ := rederiveSplitPlan_eq_ok hplan
  simp only [Prod.mk.injEq] at h
  obtain ⟨rfl, rfl, -⟩ := h
  exact ⟨i, s, u, hrow, hstate, hu, havailable, hplan, rfl⟩

/-- The plan of a row: its chunks share what the fee leaves of the source. -/
structure Reconstructed (c : ShapingConfig) (s : Split) (amount : ℤ) (plan : Goldcoin.SplitPlan) : Prop where
  source : plan.source = c.vaultUtxo s.source amount
  script : plan.vaultScriptPubkey = c.vault.scriptPubkey c.hash160
  length : plan.outputAmounts.length = s.chunkCount
  conserved : 0 < s.chunkCount → plan.outputAmounts.sum + asU64 s.fee = asU64 amount

theorem reconstruct_eq_ok {plan : Goldcoin.SplitPlan} {amount : ℤ} (h : c.reconstruct s amount = .ok plan) :
    Reconstructed c s amount plan := by
  simp only [ShapingConfig.reconstruct, Goldcoin.reconstructPlan, bind_eq_ok, orFail_eq_ok,
    Goldcoin.checkedSub_eq_some, pure_eq_ok] at h
  obtain ⟨distributable, ⟨hfee, rfl⟩, rfl⟩ := h
  refine ⟨rfl, rfl, Goldcoin.length_distributeEvenly, fun hpos => ?_⟩
  rw [Goldcoin.sum_distributeEvenly hpos]
  exact Nat.sub_add_cancel hfee

theorem recordSplitSigned_row {l : Ledger} (hget : N.split? id = some s)
    (h : N.ledger.step (.recordSplitSigned id) = some l) :
    l.vault.splits.get? id = some { s with state := .signed, signed := true } ∧
      ∀ o, l.vault.utxos.get? o = N.ledger.vault.utxos.get? o := by
  obtain ⟨v, hv, rfl⟩ := Ledger.onVault_step rfl h
  simp only [Vault.recordSplitSigned, bind_eq_ok, Vault.split_eq_ok, require_eq_ok, exists_unit,
    pure_eq_ok] at hv
  obtain ⟨s', hget', -, rfl⟩ := hv
  obtain rfl := Option.some.inj (hget.symm.trans hget')
  exact ⟨(Ledger.get?_setSplit hget _ id).trans (if_pos rfl), fun _ => rfl⟩

/-- The figures of a row that was built, signed and sent in one go let it be recorded. -/
theorem recordSplitBroadcast_succeeds {l : Ledger} {u : VaultUtxo} (txid : Txid) (amounts : List ℤ)
    (hget : l.vault.splits.get? id = some s) (hstate : s.state = .signed ∨ s.state = .broadcast)
    (hu : l.vault.utxos.get? s.source = some u) (hfree : u.state = .available ∨ u.state = .spent) :
    ∃ l', l.run (.recordSplitBroadcast id txid amounts) = .ok l' := by
  have hsucceeds : Succeeds (l.vault.recordSplitBroadcast id txid amounts) := by
    simp only [Vault.recordSplitBroadcast, succeeds_bind, Vault.split_eq_ok, require_eq_ok, exists_unit,
      orFail_eq_ok, succeeds_pure, and_true]
    exact ⟨s, hget, hstate, u, hu, hfree⟩
  obtain ⟨v, hv⟩ := hsucceeds
  exact ⟨_, Ledger.onVault_eq_ok.mpr ⟨v, hv, rfl⟩⟩

/-- The recording of a split that the node has: it fails only if the source is
not there. -/
theorem wp_recordVaultUtxoSplitBroadcast {bytes : Bytes} {amounts : List ℕ} (hget : N.split? id = some s)
    (hbytes : (N.columns id).signedTx = some bytes) (hamounts : amounts.length = s.chunkCount) :
    wp (recordVaultUtxoSplitBroadcast w id (c.txidOf bytes) amounts)
      (ends (fun _ N' => Acts c id 0 N N' ∧ N'.outcome = N.outcome)
        fun e N' => (Acts c id 0 N N' ∧ N'.outcome = N.outcome) ∧
          (e = .killed ∨ ∀ u, s.state = .signed → N.ledger.vault.utxos.get? s.source = some u →
            u.state ≠ .available)) N := by
  refine wp_write ⟨⟨Acts.refl.asked, rfl⟩, .inl rfl⟩ (fun l hl => ⟨?_, rfl⟩)
    fun e he => ⟨⟨Acts.refl.asked, rfl⟩, .inr ?_⟩
  · refine Acts.refl.asked.move (.broadcast (N := N.asked) hget hbytes ?_ hl) rfl
    rw [List.length_map, hamounts]
  · intro u hsigned hu havailable
    obtain ⟨l, hl⟩ := recordSplitBroadcast_succeeds (c.txidOf bytes)
      (amounts.map fun amount : ℕ => asI64 amount) hget (.inl hsigned) hu (.inl havailable)
    cases hl.symm.trans he

theorem wp_recordVaultUtxoSplitSigned_bind {α : Type} {bytes : Bytes} {f : Unit → Driver α}
    {R : Except Halt α → Shaper → Prop} (hkilled : R (.error .killed) N.asked)
    (hok : ∀ l, N.ledger.step (.recordSplitSigned id) = some l →
      wp (f ()) R (Shaper.setColumns { N.asked with ledger := l } id
        { N.columns id with signedTx := some bytes }))
    (hfailed : ∀ e, N.ledger.run (.recordSplitSigned id) = .error e →
      R (.error (.failed (.ledger e))) N.asked) :
    wp (recordVaultUtxoSplitSigned w id bytes >>= f) R N := by
  rw [recordVaultUtxoSplitSigned, wp_bind_iff, wp_bind_iff]
  exact wp_write hkilled hok hfailed

/-- What `sign_and_broadcast_built_split` may come to. -/
def SignedOr (c : ShapingConfig) (id : ℕ) (s : Split) (N : Shaper) : BuiltSplitResult → Shaper → Prop
  | .broadcast _, N' => Acts c id 1 N N'
  | .refusedFloor _ _, N' => Acts c id 0 N N' ∧ N'.split? id = some s
  | .broadcastRefusedMissingInputs, N' => Acts c id 0 N N'

/-- A split that the node acknowledged is recorded unless the process is killed. -/
theorem wp_signAndBroadcastBuiltSplit {chunkTarget : ℕ} (hsound : Sound c N)
    (hget : N.split? id = some s) (hsource : s.source = o) (hbuilt : s.state = .built) :
    wp (signAndBroadcastBuiltSplit c w o id chunkTarget) (ends (SignedOr c id s N) (Stopped c id N)) N := by
  have hasked : Acts c id 0 N N.asked := Acts.refl.asked
  rw [signAndBroadcastBuiltSplit, wp_next_bind, wp_get_bind]
  split
  case h_1 reserveAfterFee requiredFloor hsign => exact ⟨hasked, hget⟩
  case h_2 e _ hsign => exact hasked
  case h_3 plan tx partials hsign =>
    obtain ⟨i, s', u, hrow, -, hu, havailable, hplan, rfl⟩ := independentlySignSplit_eq_ok hsign
    obtain ⟨rfl, rfl⟩ := hsound.row_of_source hget hsource (by simp [hbuilt]) hrow
    dsimp only
    split
    case h_1 e _ => exact hasked
    case h_2 script hscript =>
      refine wp_recordVaultUtxoSplitSigned_bind (hasked.asked.stopped .killed) ?_ fun e _ => hasked.asked
      intro l hl
      let bytes := ((Goldcoin.buildUnsignedSplitTx plan).withScript 0 script).serialize
      let N₁ := Shaper.setColumns { N.asked.asked with ledger := l } id
        { N.columns id with signedTx := some bytes }
      have hacts : Acts c id 0 N N₁ :=
        hasked.asked.move (.signed (N := N.asked.asked) hget ⟨plan, script, hplan, rfl⟩ hl) rfl
      obtain ⟨hrow₁, hutxos⟩ := recordSplitSigned_row (N := N) hget hl
      have hout : N₁.Out id bytes := ⟨_, hrow₁, by simp, by simp, by rw [columns_setColumns_self]⟩
      change wp (sendRawTransaction w id bytes >>= _) _ N₁
      rw [wp_bind_iff]
      refine wp_send (hacts.asked.stopped .killed) (fun outcome => ?_)
        (hacts.asked.asked.turnedDown hout rfl)
      refine wp_ite (fun htaken => ?_) fun htaken => ?_
      · have hhanded : Acts c id 1 N (N₁.asked.asked.handed ⟨id, bytes, some outcome⟩) :=
          hacts.asked.asked.handed hout _
        have hbytes : (N₁.columns id).signedTx = some bytes := by rw [columns_setColumns_self]
        refine wp_bind (wp_recordVaultUtxoSplitBroadcast (N := N₁.asked.asked.handed _) hrow₁ hbytes
          (reconstruct_eq_ok hplan).length) (fun _ N₂ hrecorded => hhanded.trans hrecorded.1) ?_
        rintro e N₂ ⟨⟨hrecorded, -⟩, rfl | hfailed⟩
        · exact hhanded.trans hrecorded
        · exact absurd havailable (hfailed u rfl ((hutxos _).trans (hsource ▸ hu)))
      · exact hacts.asked.asked.turnedDown hout (by simpa using htaken)

end Signing

/-! ## Resumption -/

/-- A driver that has not acted on a split sent nothing that the node
acknowledged. -/
def Resumed (c : ShapingConfig) (id : ℕ) (N N' : Shaper) : Prop :=
  Acts c id 1 N N' ∧
    ((N'.outcome.acted || N'.outcome.networkActionTaken) = false → Acts c id 0 N N')

section Resume

variable {c : ShapingConfig} {w : ShapingAnswers} {N N' : Shaper} {id : ℕ} {o : Outpoint} {s : Split}

theorem Acts.resumed (h : Acts c id 0 N N') : Resumed c id N N' := ⟨h.mono (Nat.zero_le 1), fun _ => h⟩

theorem Acts.resumed_of_acted (h : Acts c id 1 N N')
    (hacted : (N'.outcome.acted || N'.outcome.networkActionTaken) = true) : Resumed c id N N' :=
  ⟨h, fun hquiet => by simp [hquiet] at hacted⟩

/-- A split that was not signed is let go of. -/
theorem wp_abandonBuilt {reason : AbandonReason} (hget : N.split? id = some s) (hbuilt : s.state = .built) :
    wp (abandonVaultUtxoSplit w id reason none) (ends (fun _ => Acts c id 0 N) (Stopped c id N)) N := by
  rw [abandonVaultUtxoSplit, wp_get_bind, wp_bind_iff]
  refine wp_write (Acts.refl.asked.stopped .killed) (fun l hl => ?_) fun e _ => Acts.refl.asked
  have hlive : ((N.split? id).any fun s => s.state ≠ .abandoned) = true := by simp [hget, hbuilt]
  refine wp_ite (fun _ => ?_) fun hnot => absurd hlive hnot
  exact Acts.refl.asked.move (.released (N := N.asked) reason w.now hget hbuilt hl) rfl

theorem wp_release {reason : AbandonReason} (hget : N.split? id = some s) (hbuilt : s.state = .built) :
    wp (release w id reason) (ends (fun _ => Acts c id 0 N) (Stopped c id N)) N :=
  wp_bind (wp_abandonBuilt hget hbuilt) (fun _ _ h => h.noted _) fun _ _ h => h

theorem length_of_verified {columns : SplitColumns} {amounts : List ℕ}
    (h : verifiedOutputAmounts c s columns = some amounts) : amounts.length = s.chunkCount := by
  unfold verifiedOutputAmounts at h
  split at h
  · cases h
  · split_ifs at h
    obtain rfl := Option.some.inj h
    exact (reconstruct_eq_ok ‹_›).length

/-- The recording of a signed split that the node has fails only if the source is
not there. -/
theorem wp_recordResumed {columns : SplitColumns} {bytes : Bytes} (hget : N.split? id = some s)
    (hsigned : s.state = .signed) (hbytes : (N.columns id).signedTx = some bytes) :
    wp (recordResumed c w id s columns (c.txidOf bytes))
      (ends (fun _ N' => Acts c id 0 N N' ∧ N'.outcome.networkActionTaken = true)
        fun e N' => Acts c id 0 N N' ∧
          (e = .killed ∨ ∀ u, N.ledger.vault.utxos.get? s.source = some u → u.state ≠ .available)) N := by
  rw [recordResumed, wp_note_bind]
  let N₁ : Shaper := { N with outcome := { N.outcome with networkActionTaken := true } }
  have hnoted : Acts c id 0 N N₁ := Acts.refl.noted _
  change wp _ _ N₁
  split
  case h_1 => exact ⟨hnoted.noted _, rfl⟩
  case h_2 amounts hamounts =>
    rw [wp_bind_iff]
    refine wp_attempt (wp_recordVaultUtxoSplitBroadcast (N := N₁) hget hbytes (length_of_verified hamounts))
      ?_ ?_ ?_
    · rintro ⟨⟩ N₂ ⟨hrecorded, houtcome⟩
      have haction : N₂.outcome.networkActionTaken = true := by rw [houtcome]
      exact ⟨(hnoted.after hrecorded).noted _, haction⟩
    · rintro e d N₂ hcaught ⟨⟨hrecorded, houtcome⟩, hfailed⟩
      have haction : N₂.outcome.networkActionTaken = true := by rw [houtcome]
      have hgone := hfailed.resolve_left (by rintro rfl; cases hcaught)
      dsimp only
      split
      case h_1 h => cases h
      case h_2 => exact ⟨(hnoted.after hrecorded).noted _, haction⟩
      case h_3 => exact ⟨hnoted.after hrecorded, .inr fun u hu => hgone u hsigned hu⟩
    · rintro e N₂ - ⟨⟨hrecorded, -⟩, hfailed⟩
      exact ⟨hnoted.after hrecorded, hfailed.imp_right fun hgone u hu => hgone u hsigned hu⟩

/-- A signed split: at most its transaction is sent. -/
theorem wp_resumeSigned {sourceOk : Bool} (hget : N.split? id = some s) (hsigned : s.state = .signed)
    (hsource : sourceOk = true → ∃ u, N.ledger.vault.utxos.get? s.source = some u ∧ u.state = .available) :
    wp (resumeSigned c w id s (N.columns id) sourceOk)
      (ends (fun _ => Resumed c id N) (Stopped c id N)) N := by
  have hasked : Acts c id 0 N N.asked := Acts.refl.asked
  rw [resumeSigned]
  split
  case h_1 => exact Acts.refl
  case h_2 bytes hbytes =>
    rw [wp_probe_bind]
    cases w.probe N.clock (c.txidOf bytes) with
    | unknown => exact (hasked.noted _).resumed
    | known =>
      refine wp_mono (wp_recordResumed (N := N.asked) hget hsigned hbytes) ?_
      rintro (e | ⟨⟩) N' h
      · exact (hasked.after h.1).stopped e
      · exact (hasked.after h.1).resumed
    | absent =>
      refine wp_ite (fun _ => (hasked.noted _).resumed) fun hok => ?_
      rw [wp_get_bind]
      split
      case h_1 => exact hasked
      case h_2 => exact (hasked.noted _).resumed
      case h_3 =>
        have hout : N.Out id bytes := ⟨s, hget, by simp [hsigned], by simp [hsigned], hbytes⟩
        rw [wp_bind_iff]
        refine wp_send (hasked.asked.stopped .killed) (fun outcome => ?_)
          (hasked.asked.asked.turnedDown hout rfl)
        refine wp_ite (fun htaken => ?_) fun htaken => ?_
        · have hhanded : Acts c id 1 N (N.asked.asked.asked.handed ⟨id, bytes, some outcome⟩) :=
            hasked.asked.asked.handed hout _
          refine wp_mono (wp_recordResumed (N := N.asked.asked.asked.handed _) hget hsigned hbytes) ?_
          rintro (e | ⟨⟩) N' ⟨hrecorded, h⟩
          · obtain rfl | hgone := h
            · exact hhanded.trans hrecorded
            · obtain ⟨u, hu, havailable⟩ := hsource (by simpa using hok)
              exact absurd havailable (hgone u hu)
          · exact (hhanded.trans hrecorded).resumed_of_acted (by simp [h])
        · exact ((hasked.asked.asked.turnedDown hout (by simpa using htaken)).noted _).resumed

/-- A built split is let go of, or signed and sent. -/
theorem wp_resumeBuilt {chunkTarget : ℕ} {sourceOk : Bool} (hsound : Sound c N)
    (hget : N.split? id = some s) (hsource : s.source = o) (hbuilt : s.state = .built) :
    wp (resumeBuilt c w id o chunkTarget sourceOk) (ends (fun _ => Resumed c id N) (Stopped c id N)) N := by
  have hrelease {N₁ : Shaper} {reason : AbandonReason} (h : Acts c id 0 N N₁)
      (hget : N₁.split? id = some s) :
      wp (release w id reason) (ends (fun _ => Resumed c id N) (Stopped c id N)) N₁ := by
    refine wp_mono (wp_release (c := c) hget hbuilt) ?_
    rintro (e | ⟨⟩) N' h'
    · exact Stopped.after h h'
    · exact (h.after h').resumed
  refine wp_ite (fun _ => hrelease .refl hget) fun _ => ?_
  rw [wp_get_bind]
  split
  case h_1 => exact Acts.refl
  case h_2 v _ =>
    refine wp_ite (fun _ => hrelease .refl hget) fun _ => ?_
    refine wp_bind (wp_signAndBroadcastBuiltSplit hsound hget hsource hbuilt) ?_ fun e N' h => h
    rintro (txid | ⟨reserveAfterFee, requiredFloor⟩ | _) N₁ h
    · exact (Acts.noted h _).resumed_of_acted (by simp [ShapingOutcome.acted])
    · exact hrelease h.1 h.2
    · exact (Acts.noted h _).resumed

end Resume

/-! ## The walk over the pending splits -/

/-- Moves of any splits, the commands of operators among them, in which the node
acknowledged at most `n` transactions. -/
structure Ran (c : ShapingConfig) (n : ℕ) (N N' : Shaper) : Prop where
  moves : Relation.ReflTransGen (fun N N' => ∃ id, Move c id N N' ∨ LetGo c id N N') N N'
  accepted : N'.accepted ≤ N.accepted + n

/-- The row is as it was when the walk began. -/
def At (N : Shaper) (p : PendingSplit) : Prop :=
  (p.state = .built ∨ p.state = .signed) ∧
    ∃ s, N.split? p.id = some s ∧ s.source = p.source ∧ s.state = p.state

section Walk

variable {c : ShapingConfig} {w : ShapingAnswers} {N N₁ N' : Shaper} {id n m : ℕ}

namespace Ran

theorem refl : Ran c 0 N N := ⟨.refl, le_rfl⟩

theorem mono (h : Ran c n N N') (hnm : n ≤ m) : Ran c m N N' :=
  ⟨h.moves, h.accepted.trans (Nat.add_le_add_left hnm _)⟩

theorem after (h : Ran c 0 N N₁) (h' : Ran c n N₁ N') : Ran c n N N' where
  moves := h.moves.trans h'.moves
  accepted := by
    have := h.accepted
    have := h'.accepted
    omega

theorem noted (h : Ran c n N N₁) (outcome : ShapingOutcome) :
    Ran c n N { N₁ with outcome := outcome } where
  moves := h.moves.tail ⟨0, .inl (.look outcome N₁.clock)⟩
  accepted := h.accepted

theorem asked (h : Ran c n N N₁) : Ran c n N N₁.asked where
  moves := h.moves.tail ⟨0, .inl (.look N₁.outcome (N₁.clock + 1))⟩
  accepted := h.accepted

theorem sound (hsound : Sound c N) (h : Ran c n N N') : Sound c N' := by
  obtain ⟨h, -⟩ := h
  induction h with
  | refl => exact hsound
  | tail _ hmove ih =>
    obtain ⟨id, hmove | hmove⟩ := hmove
    · exact ih.move hmove
    · exact ih.letGo hmove

end Ran

theorem Acts.ran (h : Acts c id n N N') : Ran c n N N' := by
  obtain ⟨h, haccepted⟩ := h
  refine ⟨?_, haccepted⟩
  clear haccepted
  induction h with
  | refl => exact .refl
  | tail _ hmove ih => exact ih.tail ⟨id, .inl hmove⟩

theorem Stopped.ran {e : Halt} (h : Stopped c id N e N') : Ran c 1 N N' := by
  cases e with
  | killed => exact Acts.ran h
  | failed | refused => exact (Acts.ran h).mono (Nat.zero_le 1)

/-- Moves of another split leave a row as it was. -/
theorem At.apart {p : PendingSplit} (h : At N p) (hapart : Apart id N N') (hid : p.id ≠ id) : At N' p := by
  obtain ⟨hstate, s, hget, hrow⟩ := h
  exact ⟨hstate, s, (hapart.split p.id hid).trans hget, hrow⟩

theorem pendingVaultUtxoSplits_at {p : PendingSplit} (hp : p ∈ N.pendingVaultUtxoSplits) : At N p := by
  obtain ⟨⟨id, s⟩, he, rfl⟩ := List.mem_map.mp hp
  obtain ⟨hmem, hstate⟩ := List.mem_filter.mp he
  exact ⟨of_decide_eq_true hstate, s, Store.get?_of_mem hmem, rfl, rfl⟩

theorem nodup_pendingVaultUtxoSplits (N : Shaper) :
    (N.pendingVaultUtxoSplits.map PendingSplit.id).Nodup := by
  rw [Shaper.pendingVaultUtxoSplits, List.map_map]
  exact N.ledger.vault.splits.nodup.sublist (List.filter_sublist.map _)

theorem At.row_of_source {p : PendingSplit} {row : ℕ} {s : Split} (hp : At N p) (hsound : Sound c N)
    (h : N.getVaultUtxoSplit p.source = some (row, s)) :
    p.id = row ∧ N.split? row = some s ∧ s.source = p.source ∧ s.state = p.state := by
  obtain ⟨hstate, s', hget, hsource, hs⟩ := hp
  have hlive : s'.state ≠ .abandoned := by
    rw [hs]
    obtain h | h := hstate <;> simp [h]
  obtain ⟨rfl, rfl⟩ := hsound.row_of_source hget hsource hlive h
  exact ⟨rfl, hget, hsource, hs⟩

/-- One pending split. -/
theorem wp_resumePendingSplit {p : PendingSplit} (hsound : Sound c N) (hp : At N p) :
    wp (resumePendingSplit c w p) (ends (fun _ => Resumed c p.id N) (Stopped c p.id N)) N := by
  rw [resumePendingSplit, wp_get_bind]
  split
  case h_1 => exact Acts.refl
  case h_2 row s hrow =>
    obtain ⟨rfl, hget, hsource, hs⟩ := hp.row_of_source hsound hrow
    dsimp only
    split
    case h_1 hsigned =>
      refine wp_resumeSigned hget (hs.trans hsigned) fun hok => ?_
      obtain ⟨u, hu, havailable⟩ := (Option.any_eq_true _ _).mp hok
      exact ⟨u, hsource ▸ hu, by simpa using havailable⟩
    case h_2 hbuilt => exact wp_resumeBuilt hsound hget hsource (hs.trans hbuilt)
    case h_3 => exact Acts.refl

/-- The walk goes on only where the node acknowledged nothing. -/
theorem wp_resumeEach {ps : List PendingSplit} (notes : List ShapingNote) (hsound : Sound c N)
    (hps : ∀ p ∈ ps, At N p) (hnodup : (ps.map PendingSplit.id).Nodup) :
    wp (resumeEach c w notes ps) (ends (fun acted => Ran c (if acted then 1 else 0) N)
      fun _ => Ran c 1 N) N := by
  induction ps generalizing N notes with
  | nil => exact Ran.refl.noted _
  | cons p ps ih =>
    rw [List.map_cons, List.nodup_cons] at hnodup
    have hrest (N₁ : Shaper) (notes : List ShapingNote) (h : Acts c p.id 0 N N₁) (hran : Ran c 0 N N₁) :
        wp (resumeEach c w notes ps) (ends (fun acted => Ran c (if acted then 1 else 0) N)
          fun _ => Ran c 1 N) N₁ := by
      have hat : ∀ p' ∈ ps, At N₁ p' := fun p' hp' =>
        (hps p' (List.mem_cons_of_mem _ hp')).apart h.apart fun hid =>
          hnodup.1 (hid ▸ List.mem_map_of_mem hp')
      refine wp_mono (ih notes (h.sound hsound) hat hnodup.2) ?_
      rintro (e | acted) N₂ h'
      · exact hran.after h'
      · exact hran.after h'
    rw [resumeEach, wp_bind_iff]
    refine wp_attempt (wp_resumePendingSplit hsound (hps p List.mem_cons_self)) ?_ ?_ ?_
    · rintro ⟨⟩ N₁ ⟨honce, hquiet⟩
      dsimp only
      rw [wp_get_bind]
      refine wp_ite (fun _ => honce.ran.noted _) fun hacted => ?_
      have h : Acts c p.id 0 N N₁ := hquiet (by simpa using hacted)
      exact hrest { N₁ with outcome := _ } _ (h.noted _) (h.noted _).ran
    · rintro e d N₁ hcaught h
      cases e with
      | failed e => exact hrest _ _ h (Acts.ran h)
      | killed | refused => cases hcaught
    · exact fun e N₁ _ h => Stopped.ran h

end Walk

/-! ## Maintenance -/

/-- Where a driver fails, the node acknowledged nothing. -/
def Halted (c : ShapingConfig) (N : Shaper) : Halt → Shaper → Prop
  | .killed, N' => Ran c 1 N N'
  | _, N' => Ran c 0 N N'

/-- What is kept of a broadcast split may be sent again. -/
def Ready (N : Shaper) (b : BroadcastSplit) : Prop := ∀ bytes ∈ b.signedTx, N.Out b.id bytes

section Maintenance

variable {c : ShapingConfig} {w : ShapingAnswers} {N N₁ N' : Shaper} {id : ℕ} {only : Option ℕ}
  {b : BroadcastSplit}

theorem Ran.halted (h : Ran c 0 N N') (e : Halt) : Halted c N e N' := by
  cases e with
  | killed => exact h.mono (Nat.zero_le 1)
  | failed | refused => exact h

theorem Halted.ran {e : Halt} (h : Halted c N e N') : Ran c 1 N N' := by
  cases e with
  | killed => exact h
  | failed | refused => exact Ran.mono h (Nat.zero_le 1)

theorem Halted.after {e : Halt} (h : Ran c 0 N N₁) (h' : Halted c N₁ e N') : Halted c N e N' := by
  cases e with
  | killed | failed | refused => exact Ran.after h h'

theorem Stopped.halted {e : Halt} (h : Stopped c id N e N') : Halted c N e N' := by
  cases e with
  | killed | failed | refused => exact Acts.ran h

/-- One operation on a split that may be sent. -/
theorem wp_write_kept (c : ShapingConfig) (id : ℕ) {op : Op} (hop : op = .recordSplitConfirmed id ∨ op = .readoptSplit id ∨
    op = .clearSplitMissingInputs id ∨ ∃ now, op = .setSplitMissingInputs id now) :
    wp (write w op) (fun _ => Acts c id 0 N) N :=
  wp_write Acts.refl.asked (fun _ hl => Acts.refl.asked.move (.kept (N := N.asked) hop hl) rfl)
    fun _ _ => Acts.refl.asked

theorem wp_readoptOne (e : ℕ × Txid × ℤ) : wp (readoptOne w only e) (fun _ => Ran c 0 N) N := by
  refine wp_ite (fun _ => Ran.refl) fun _ => ?_
  rw [wp_probe_bind]
  have hasked : Acts c e.1 0 N N.asked := Acts.refl.asked
  cases w.probe N.clock e.2.1 with
  | known =>
    refine wp_bind (wp_write_kept c e.1 (.inr (.inl rfl))) ?_ ?_
    · exact fun _ _ h => ((hasked.after h).noted _).ran
    · exact fun _ _ h => (hasked.after h).ran
  | absent | unknown => exact hasked.ran

theorem Shaper.Out.apart {i : ℕ} {bytes : Bytes} (h : N.Out i bytes) (hapart : Apart id N N') (hi : i ≠ id) :
    N'.Out i bytes := by
  obtain ⟨s, hget, hbuilt, habandoned, hbytes⟩ := h
  exact ⟨s, (hapart.split i hi).trans hget, hbuilt, habandoned, by rw [hapart.columns i hi, hbytes]⟩

/-- A split that confirms may still be sent. -/
theorem Shaper.Out.confirmed {i : ℕ} {bytes : Bytes} {l : Ledger} (h : N.Out i bytes)
    (hl : N.ledger.step (.recordSplitConfirmed id) = some l) :
    Shaper.Out { N with ledger := l } i bytes := by
  obtain ⟨s, hget, hbuilt, habandoned, hbytes⟩ := h
  obtain ⟨-, hsame⟩ | ⟨s₀, s', hget₀, hrw, hsplits⟩ := Ledger.split_rewrite rfl hl
  · exact ⟨s, (hsame i).trans hget, hbuilt, habandoned, hbytes⟩
  · by_cases hi : i = id
    · cases hrw with
      | confirmed => exact ⟨_, (hsplits i).trans (if_pos hi), by simp, by simp, hbytes⟩
    · exact ⟨s, ((hsplits i).trans (if_neg hi)).trans hget, hbuilt, habandoned, hbytes⟩

/-- The first pass sends nothing, and what may be sent stays so. -/
theorem wp_confirmOne {bs : List BroadcastSplit} (hran : Ran c 0 N N₁) (hready : ∀ b ∈ bs, Ready N₁ b) :
    wp (confirmOne c w only b) (ends (fun _ N' => Ran c 0 N N' ∧ ∀ b ∈ bs, Ready N' b)
      fun _ => Ran c 0 N) N₁ := by
  rw [confirmOne, wp_get_bind]
  refine wp_ite (fun _ => ⟨hran, hready⟩) fun _ => wp_ite (fun _ => ?_) fun _ => ⟨hran, hready⟩
  have hasked : Acts c b.id 0 N₁ N₁.asked := Acts.refl.asked
  rw [wp_bind_iff]
  refine wp_write (hran.after hasked.ran) (fun l hl => ⟨?_, fun b' hb' bytes hbytes => ?_⟩)
    fun _ _ => hran.after hasked.ran
  · exact hran.after ((hasked.move (.kept (N := N₁.asked) (.inl rfl) hl) rfl).noted _).ran
  · exact (hready b' hb' bytes hbytes).confirmed hl

/-- A broadcast split is sent again only if the node does not have it. -/
theorem wp_driveOneBroadcastSplit (hready : Ready N b) :
    wp (driveOneBroadcastSplit w b) (ends (fun again N' => Acts c b.id (if again then 1 else 0) N N' ∧
      (again = true → N'.outcome.acted = true)) (Stopped c b.id N)) N := by
  have hasked : Acts c b.id 0 N N.asked := Acts.refl.asked
  rw [driveOneBroadcastSplit, wp_probe_bind]
  cases w.probe N.clock b.txid with
  | known =>
    refine wp_bind (wp_write_kept c b.id (.inr (.inr (.inl rfl)))) ?_ ?_
    · exact fun _ _ h => ⟨hasked.after h, by simp⟩
    · exact fun e _ h => (hasked.after h).stopped e
  | unknown => exact ⟨hasked, by simp⟩
  | absent =>
    dsimp only
    split
    case h_1 => exact hasked
    case h_2 bytes hbytes =>
      have hout : N.Out b.id bytes := hready bytes hbytes
      rw [wp_bind_iff]
      refine wp_send (hasked.asked.stopped .killed) (fun outcome => ?_)
        (hasked.asked.asked.turnedDown hout rfl)
      refine wp_ite (fun htaken => ?_) fun htaken => ?_
      · have hhanded : Acts c b.id 1 N (N.asked.asked.asked.handed ⟨b.id, bytes, some outcome⟩) :=
          hasked.asked.asked.handed hout _
        rw [wp_bind_iff]
        refine wp_write hhanded.asked (fun l hl => ⟨?_, fun _ => rfl⟩)
          fun e he => by cases he
        exact (hhanded.asked.move (.kept (N := (N.asked.asked.asked.handed _).asked)
          (.inr (.inr (.inl rfl))) hl) rfl).noted _
      · have hdown : Acts c b.id 0 N (N.asked.asked.asked.handed ⟨b.id, bytes, some outcome⟩) :=
          hasked.asked.asked.turnedDown hout (by simpa using htaken)
        refine wp_bind (wp_write_kept c b.id (.inr (.inr (.inr ⟨_, rfl⟩)))) ?_ ?_
        · exact fun _ _ h => ⟨(hdown.after h).noted _, by simp⟩
        · exact fun e _ h => (hdown.after h).stopped e

/-- The second pass ends with the first split that is sent again. -/
theorem wp_driveEach {bs : List BroadcastSplit} (hready : ∀ b ∈ bs, Ready N b)
    (hnodup : (bs.map BroadcastSplit.id).Nodup) :
    wp (driveEach w only bs) (ends (fun _ N' => Ran c 1 N N' ∧ (N'.outcome.acted = false → Ran c 0 N N'))
      (Halted c N)) N := by
  induction bs generalizing N with
  | nil => exact ⟨Ran.refl.mono (Nat.zero_le 1), fun _ => .refl⟩
  | cons b bs ih =>
    rw [List.map_cons, List.nodup_cons] at hnodup
    have hrest (N₁ : Shaper) (h : Acts c b.id 0 N N₁) : wp (driveEach w only bs)
        (ends (fun _ N' => Ran c 1 N N' ∧ (N'.outcome.acted = false → Ran c 0 N N')) (Halted c N)) N₁ := by
      have hready₁ : ∀ b' ∈ bs, Ready N₁ b' := fun b' hb' bytes hbytes =>
        (hready b' (List.mem_cons_of_mem _ hb') bytes hbytes).apart h.apart fun hid =>
          hnodup.1 (hid ▸ List.mem_map_of_mem hb')
      refine wp_mono (ih hready₁ hnodup.2) ?_
      rintro (e | ⟨⟩) N₂ h'
      · exact Halted.after h.ran h'
      · exact ⟨h.ran.after h'.1, fun hquiet => h.ran.after (h'.2 hquiet)⟩
    rw [driveEach, wp_get_bind]
    refine wp_ite (fun _ => hrest N .refl) fun _ => ?_
    rw [wp_bind_iff]
    refine wp_attempt (wp_driveOneBroadcastSplit (c := c) (hready b List.mem_cons_self)) ?_ ?_ ?_
    · rintro (_ | _) N₁ ⟨h, hacted⟩
      · exact hrest N₁ h
      · exact ⟨h.ran, fun hquiet => (Bool.false_ne_true (hquiet.symm.trans (hacted rfl))).elim⟩
    · rintro e d N₁ hcaught h
      cases e with
      | failed e => exact hrest { N₁ with outcome := _ } (Acts.noted h _)
      | killed | refused => cases hcaught
    · exact fun e N₁ _ h => Stopped.halted h

theorem broadcastVaultUtxoSplits_ready (hb : b ∈ N.broadcastVaultUtxoSplits) : Ready N b := by
  obtain ⟨⟨id, s⟩, he, rfl⟩ := List.mem_map.mp hb
  obtain ⟨hmem, hstate⟩ := List.mem_filter.mp he
  have hbroadcast : s.state = .broadcast := of_decide_eq_true hstate
  exact fun bytes hbytes =>
    ⟨s, Store.get?_of_mem hmem, by simp [hbroadcast], by simp [hbroadcast], hbytes⟩

theorem nodup_broadcastVaultUtxoSplits (N : Shaper) :
    (N.broadcastVaultUtxoSplits.map BroadcastSplit.id).Nodup := by
  rw [Shaper.broadcastVaultUtxoSplits, List.map_map]
  exact N.ledger.vault.splits.nodup.sublist (List.filter_sublist.map _)

/-- Maintenance sends one split again at most. -/
theorem wp_maintainBroadcastSplits :
    wp (maintainBroadcastSplits c w only)
      (ends (fun _ N' => Ran c 1 N N' ∧ (N'.outcome.acted = false → Ran c 0 N N')) (Halted c N)) N := by
  rw [maintainBroadcastSplits, wp_get_bind]
  have hreadopt : wp (N.abandonedSplitsWithTxid.forM (readoptOne w only))
      (ends (fun _ => Ran c 0 N) fun _ => Ran c 0 N) N := by
    refine wp_forM _ (fun e _ N₁ h => ?_) .refl
    refine wp_mono (wp_readoptOne (c := c) e) ?_
    rintro (e | ⟨⟩) N₂ h' <;> exact h.after h'
  refine wp_bind hreadopt (fun _ N₁ hran => ?_) fun e _ h => Ran.halted h e
  rw [wp_get_bind]
  have hconfirm : wp (N₁.broadcastVaultUtxoSplits.forM (confirmOne c w only))
      (ends (fun _ N' => Ran c 0 N N' ∧ ∀ b ∈ N₁.broadcastVaultUtxoSplits, Ready N' b)
        fun _ => Ran c 0 N) N₁ :=
    wp_forM _ (fun b _ N₂ h => wp_confirmOne h.1 h.2)
      ⟨hran, fun b hb => broadcastVaultUtxoSplits_ready hb⟩
  refine wp_bind hconfirm (fun _ N₂ h => ?_) fun e _ h => Ran.halted h e
  refine wp_mono (wp_driveEach (c := c) h.2 (nodup_broadcastVaultUtxoSplits N₁)) ?_
  rintro (e | ⟨⟩) N₃ h'
  · exact Halted.after h.1 h'
  · exact ⟨h.1.after h'.1, fun hquiet => h.1.after (h'.2 hquiet)⟩

end Maintenance

/-! ## New splits -/

section Fresh

variable {c : ShapingConfig} {w : ShapingAnswers} {N N₁ N' : Shaper} {o : Outpoint}

theorem wp_recordVaultUtxoSplitBuilt_bind {α : Type} {plan : Goldcoin.SplitPlan} {chunkTarget : ℕ}
    {f : ℕ → Driver α} {R : Except Halt α → Shaper → Prop} (hkilled : R (.error .killed) N.asked)
    (hok : ∀ l, N.ledger.step (.recordSplitBuilt o (asI64 plan.source.amount) (asI64 plan.fee)
        plan.outputAmounts.length) = some l →
      wp (f N.ledger.vault.splits.nextKey) R
        (Shaper.setColumns { N.asked with ledger := l } N.ledger.vault.splits.nextKey
          { chunkTarget := chunkTarget
            unsignedTx := unsignedBytes plan
            signedTx := none
            abandoned := none }))
    (hfailed : ∀ e, R (.error (.failed e)) N.asked) :
    wp (recordVaultUtxoSplitBuilt w o plan chunkTarget >>= f) R N := by
  rw [recordVaultUtxoSplitBuilt, wp_bind_iff, wp_get_bind, wp_bind_iff]
  exact wp_write hkilled hok fun e _ => hfailed (.ledger e)

/-- A new split is built, signed and sent, or let go of. -/
theorem wp_executeFreshSplit {amount : ℤ} {chunkTarget : ℕ} (hsound : Sound c N) :
    wp (executeFreshSplit c w o amount chunkTarget) (fun _ => Ran c 1 N) N := by
  have hstays : Ran c 1 N N := Ran.refl.mono (Nat.zero_le 1)
  rw [executeFreshSplit, wp_get_bind]
  split
  case h_1 => exact hstays
  case h_2 plan hplan =>
    split
    case h_1 => exact hstays
    case h_2 => exact hstays
    case h_3 =>
      let id := N.ledger.vault.splits.nextKey
      have hasked : Acts c id 0 N N.asked := Acts.refl.asked
      refine wp_recordVaultUtxoSplitBuilt_bind (hasked.ran.mono (Nat.zero_le 1)) (fun l hl => ?_)
        fun _ => hasked.ran.mono (Nat.zero_le 1)
      let N₁ := Shaper.setColumns { N.asked with ledger := l } id
        { chunkTarget := chunkTarget
          unsignedTx := unsignedBytes plan
          signedTx := none
          abandoned := none }
      have hbuilt : Acts c id 0 N N₁ :=
        hasked.move (.built (N := N.asked) rfl (Goldcoin.planSplit_eq_ok hplan).outputs rfl hl) rfl
      obtain ⟨-, s, hsource, -, hstate, -, -, hsplits⟩ := Ledger.recordSplitBuilt_step hl
      have hget : N₁.split? id = some s := by
        change l.vault.splits.get? id = some s
        rw [hsplits, Store.get?_push]
        exact if_pos rfl
      change wp (signAndBroadcastBuiltSplit c w o id chunkTarget >>= _) _ N₁
      refine wp_bind (wp_signAndBroadcastBuiltSplit (hbuilt.sound hsound) hget hsource hstate) ?_
        fun e _ h => hbuilt.ran.after (Stopped.ran h)
      rintro (txid | ⟨reserveAfterFee, requiredFloor⟩ | _) N₂ h
      · exact hbuilt.ran.after (Acts.ran h)
      · have hrefused : Acts c id 0 N N₂ := hbuilt.after h.1
        refine wp_bind (wp_abandonBuilt (c := c) h.2 hstate) ?_
          fun e _ h => hrefused.ran.after (Stopped.ran h)
        exact fun _ _ h => (hrefused.after h).ran.mono (Nat.zero_le 1)
      · exact (hbuilt.after h).ran.mono (Nat.zero_le 1)

theorem wp_considerNewSplit (hsound : Sound c N) :
    wp (considerNewSplit c w) (fun _ => Ran c 1 N) N := by
  have hstays : Ran c 1 N N := Ran.refl.mono (Nat.zero_le 1)
  rw [considerNewSplit, wp_get_bind]
  refine wp_ite (fun _ => hstays.noted _) fun _ => wp_ite (fun _ => hstays.noted _) fun _ => ?_
  split
  case h_1 => exact hstays
  case h_2 v _ =>
    dsimp only
    split
    case h_1 => exact hstays.noted _
    case h_2 => exact hstays.noted _
    case h_3 o u _ _ =>
      refine wp_bind (wp_executeFreshSplit hsound) ?_ fun _ _ h => h
      rintro (txid | ⟨reserveAfterFee, requiredFloor⟩ | ⟨id, reason⟩ | id) N₁ h <;>
        exact Ran.noted h _

theorem wp_noteMaintenance_ok_bind {α : Type} {f : Unit → Driver α} {R : Except Halt α → Shaper → Prop} :
    wp (noteMaintenance (.ok ()) >>= f) R N ↔ wp (f ()) R N := Iff.rfl

theorem wp_noteMaintenance_error_bind {α : Type} {e : ShapingError} {f : Unit → Driver α}
    {R : Except Halt α → Shaper → Prop} :
    wp (noteMaintenance (.error e) >>= f) R N ↔
      wp (f ()) R { N with outcome := { N.outcome with lifecycleError := [.maintenance e] } } := Iff.rfl

/-- A tick sends one transaction that the node acknowledges, at most. -/
theorem wp_runShapingTick (allowNewSplits : Bool) (hsound : Sound c N) :
    wp (runShapingTick c w allowNewSplits) (fun _ => Ran c 1 N) N := by
  have hnoted : Ran c 0 N { N with outcome := .default } := Ran.refl.noted _
  rw [runShapingTick, wp_note_bind, wp_bind_iff]
  -- what follows the maintenance, where nothing was acknowledged
  have hrest {N₁ : Shaper} (h : Ran c 0 N N₁) : wp
      (do
        let acted ← resumeEach c w [] N₁.pendingVaultUtxoSplits
        if acted then return ()
        else if ¬ allowNewSplits then skip .disabled
        else considerNewSplit c w) (fun _ => Ran c 1 N) N₁ := by
    refine wp_bind (wp_resumeEach [] (h.sound hsound) (fun p hp => pendingVaultUtxoSplits_at hp)
      (nodup_pendingVaultUtxoSplits N₁)) ?_ fun e _ h' => h.after h'
    rintro (_ | _) N₂ h'
    · have hran : Ran c 0 N N₂ := h.after h'
      refine wp_ite (fun hacted => by cases hacted) fun _ => wp_ite (fun _ => ?_) fun _ => ?_
      · exact (hran.noted _).mono (Nat.zero_le 1)
      · exact wp_mono (wp_considerNewSplit (hran.sound hsound)) fun _ _ h'' => hran.after h''
    · exact h.after h'
  refine wp_attempt (wp_maintainBroadcastSplits (c := c)) ?_ ?_ ?_
  · rintro ⟨⟩ N₁ ⟨honce, hquiet⟩
    dsimp only
    rw [wp_noteMaintenance_ok_bind, wp_get_bind]
    refine wp_ite (fun _ => hnoted.after honce) fun hacted => hrest (hnoted.after (hquiet ?_))
    rw [← Bool.not_eq_true]
    exact fun h => hacted ⟨rfl, h⟩
  · rintro e d N₁ hcaught h
    cases e with
    | failed e =>
      dsimp only
      rw [wp_noteMaintenance_error_bind, wp_get_bind]
      refine wp_ite (fun hok => by cases hok.1) fun _ => hrest (Ran.noted (hnoted.after h) _)
    | killed | refused => cases hcaught
  · exact fun e N₁ _ h => hnoted.after (Halted.ran h)

end Fresh

/-! ## The heal and the command -/

section Command

variable {c : ShapingConfig} {w : ShapingAnswers} {N N₁ N' : Shaper} {id : ℕ} {o : Outpoint} {s : Split}

theorem wp_healOne {p : PendingSplit} (hsound : Sound c N) (hp : At N p) :
    wp (healOne c w p) (fun _ => Acts c p.id 0 N) N := by
  have hasked : Acts c p.id 0 N N.asked := Acts.refl.asked
  rw [healOne, wp_get_bind]
  split
  case h_1 => exact Acts.refl
  case h_2 row s hrow =>
    obtain ⟨rfl, hget, -, -⟩ := hp.row_of_source hsound hrow
    split
    case h_1 => exact Acts.refl
    case h_2 bytes hbytes =>
      rw [wp_probe_bind]
      cases w.probe N.clock (c.txidOf bytes) with
      | absent | unknown => exact hasked
      | known =>
        dsimp only
        split
        case h_1 => exact hasked
        case h_2 amounts hamounts =>
          rw [wp_bind_iff]
          refine wp_attempt (wp_recordVaultUtxoSplitBroadcast (N := N.asked) hget hbytes
            (length_of_verified hamounts)) ?_ ?_ ?_
          · exact fun _ _ h => hasked.after h.1
          · exact fun _ _ _ _ h => hasked.after h.1.1
          · exact fun _ _ _ h => hasked.after h.1.1

theorem wp_healEach {ps : List PendingSplit} (report : HealReport) (hsound : Sound c N)
    (hps : ∀ p ∈ ps, At N p) (hnodup : (ps.map PendingSplit.id).Nodup) :
    wp (healEach c w report ps) (fun _ => Ran c 0 N) N := by
  induction ps generalizing N report with
  | nil => exact Ran.refl
  | cons p ps ih =>
    rw [List.map_cons, List.nodup_cons] at hnodup
    have hrest (report : HealReport) {N₁ : Shaper} (h : Acts c p.id 0 N N₁) :
        wp (healEach c w report ps) (fun _ => Ran c 0 N) N₁ := by
      have hat : ∀ p' ∈ ps, At N₁ p' := fun p' hp' =>
        (hps p' (List.mem_cons_of_mem _ hp')).apart h.apart fun hid =>
          hnodup.1 (hid ▸ List.mem_map_of_mem hp')
      exact wp_mono (ih report (h.sound hsound) hat hnodup.2) fun _ _ h' => h.ran.after h'
    rw [healEach]
    refine wp_bind (wp_healOne hsound (hps p List.mem_cons_self)) ?_ fun _ _ h => Acts.ran h
    rintro (reason | _ | _) N₁ h <;> exact hrest _ h

/-- The heal sends nothing. -/
theorem wp_healSplitBookkeeping (hsound : Sound c N) :
    wp (healSplitBookkeeping c w) (fun _ => Ran c 0 N) N := by
  rw [healSplitBookkeeping, wp_get_bind]
  refine wp_healEach _ hsound (fun p hp => pendingVaultUtxoSplits_at (List.mem_filter.mp hp).1) ?_
  exact (nodup_pendingVaultUtxoSplits N).sublist (List.filter_sublist.map _)

/-- An operator lets go of a split. -/
theorem wp_abandonByOperator {observed : Option Txid} (hget : N.split? id = some s)
    (hlive : s.state ≠ .abandoned)
    (hobserved : ∀ txid ∈ observed,
      s.txid = some txid ∨ (N.columns id).signedTx.map c.txidOf = some txid) :
    wp (abandonVaultUtxoSplit w id .operator observed) (fun _ => Ran c 0 N) N := by
  have hasked : Ran c 0 N N.asked := Ran.refl.asked
  rw [abandonVaultUtxoSplit, wp_get_bind, wp_bind_iff]
  refine wp_write hasked (fun l hl => ?_) fun e _ => hasked
  have hrow : ((N.split? id).any fun s => s.state ≠ .abandoned) = true := by simp [hget, hlive]
  refine wp_ite (fun _ => ?_) fun hnot => absurd hrow hnot
  exact ⟨hasked.moves.tail ⟨id, .inr (.abandoned (N := N.asked) w.now hget hlive hobserved hl)⟩, le_rfl⟩

theorem wp_abandonCommand (hget : N.split? id = some s) (hlive : s.state ≠ .abandoned) :
    wp (abandonCommand c w id s (N.columns id)) (fun _ => Ran c 0 N) N := by
  rw [abandonCommand]
  refine wp_ite (fun _ => Ran.refl) fun _ => wp_ite (fun _ => ?_) fun _ => ?_
  · exact wp_abandonByOperator hget hlive fun txid htxid => by cases htxid
  · split
    case h_1 => exact Ran.refl
    case h_2 txid htxid =>
      rw [wp_probe_bind]
      have hasked : Ran c 0 N N.asked := Ran.refl.asked
      cases w.probe N.clock txid with
      | known | unknown => exact hasked
      | absent =>
        refine wp_mono (wp_abandonByOperator (N := N.asked) hget hlive fun txid' htxid' => ?_)
          fun _ _ h => hasked.after h
        obtain rfl := Option.some.inj htxid'
        cases hs : s.txid with
        | some txid' =>
          rw [hs] at htxid
          exact .inl htxid
        | none =>
          rw [hs] at htxid
          exact .inr htxid

theorem wp_freshCommand {chunkTarget : ℕ} (hsound : Sound c N) :
    wp (freshCommand c w o chunkTarget) (fun _ => Ran c 1 N) N := by
  have hstays : Ran c 1 N N := Ran.refl.mono (Nat.zero_le 1)
  rw [freshCommand, wp_get_bind]
  split
  case h_1 => exact hstays
  case h_2 u _ =>
    refine wp_ite (fun _ => hstays) fun _ => ?_
    dsimp only
    split
    · refine wp_ite (fun _ => hstays) fun _ => ?_
      refine wp_bind (wp_executeFreshSplit hsound) ?_ fun _ _ h => h
      rintro (txid | ⟨reserveAfterFee, requiredFloor⟩ | ⟨id, reason⟩ | id) N₁ h <;> exact h
    · exact hstays

/-- The command of an operator sends one transaction that the node acknowledges, at
most. -/
theorem wp_splitVaultUtxo {abandon : Bool} {chunkTarget : ℕ} (hsound : Sound c N) :
    wp (splitVaultUtxo c w o abandon chunkTarget) (fun _ => Ran c 1 N) N := by
  let N₁ : Shaper := { N with outcome := .default }
  have hnoted : Ran c 0 N N₁ := Ran.refl.noted _
  rw [splitVaultUtxo, wp_note_bind]
  change wp (get >>= _) _ N₁
  rw [wp_get_bind]
  split
  case h_1 =>
    refine wp_ite (fun _ => hnoted.mono (Nat.zero_le 1)) fun _ => ?_
    exact wp_mono (wp_freshCommand (hnoted.sound hsound)) fun _ _ h => hnoted.after h
  case h_2 id s hrow =>
    obtain ⟨hget, hsource, hlive⟩ := getVaultUtxoSplit_eq_some hrow
    refine wp_ite (fun _ => ?_) fun _ => ?_
    · refine wp_mono (wp_abandonCommand (c := c) hget hlive) fun _ _ h => ?_
      exact (hnoted.after h).mono (Nat.zero_le 1)
    · have hresume (hstate : s.state = .built ∨ s.state = .signed) :
          wp (resumePendingSplit c w ⟨id, o, s.state⟩) (fun _ => Ran c 1 N) N₁ := by
        refine wp_mono (wp_resumePendingSplit (hnoted.sound hsound) ⟨hstate, s, hget, hsource, rfl⟩) ?_
        rintro (e | ⟨⟩) N₂ h
        · exact hnoted.after (Stopped.ran h)
        · exact hnoted.after h.1.ran
      split
      case h_1 => exact hnoted.mono (Nat.zero_le 1)
      case h_2 =>
        refine wp_mono (wp_maintainBroadcastSplits (c := c)) ?_
        rintro (e | ⟨⟩) N₂ h
        · exact hnoted.after (Halted.ran h)
        · exact hnoted.after h.1
      case h_3 hbuilt => exact hresume (.inl hbuilt)
      case h_4 hsigned => exact hresume (.inr hsigned)
      case h_5 habandoned => exact absurd habandoned hlive

end Command

/-! ## What the heal settles -/

/-- Asked in the course of a call from `N` to `N'`, the node answered that it does
not have the transaction of a split. -/
def ToldAbsent (c : ShapingConfig) (w : ShapingAnswers) (N N' : Shaper) (id : ℕ) : Prop :=
  ∃ k, N.clock ≤ k ∧ k < N'.clock ∧
    ∃ bytes ∈ (N.columns id).signedTx, w.probe k (c.txidOf bytes) = .absent

/-- What the heal comes to for one split: recorded, reported, or left as it was
because the node does not have its transaction. -/
def Settles (c : ShapingConfig) (w : ShapingAnswers) (N : Shaper) (p : PendingSplit) (report : HealReport)
    (N' : Shaper) : Prop :=
  (p.id ∈ report.healed ∧ ∃ s, N'.split? p.id = some s ∧ s.state = .broadcast) ∨
    N'.split? p.id = N.split? p.id ∧ (p.id ∈ report.unresolved.map Prod.fst ∨
      ToldAbsent c w N N' p.id)

section Heal

variable {c : ShapingConfig} {w : ShapingAnswers} {N N₁ N' : Shaper} {id : ℕ} {s : Split}
  {p : PendingSplit}

/-- A longer call asks what a part of it asked. -/
theorem ToldAbsent.widen {N₂ N₃ : Shaper} (h : ToldAbsent c w N N₁ id) (hbefore : N₂.clock ≤ N.clock)
    (hafter : N₁.clock ≤ N₃.clock) (hcolumns : N₂.columns id = N.columns id) :
    ToldAbsent c w N₂ N₃ id := by
  obtain ⟨k, hfirst, hlast, htold⟩ := h
  exact ⟨k, hbefore.trans hfirst, hlast.trans_le hafter, hcolumns ▸ htold⟩

theorem wp_recordVaultUtxoSplitBroadcast_row {txid : Txid} {amounts : List ℕ} (hget : N.split? id = some s) :
    wp (recordVaultUtxoSplitBroadcast w id txid amounts)
      (ends (fun _ N' => N.clock ≤ N'.clock ∧ ∃ s', N'.split? id = some s' ∧ s'.state = .broadcast)
        fun e N' => N.clock ≤ N'.clock ∧ N'.split? id = N.split? id ∧
          (e = .killed ∨ ∃ e', e = .failed e')) N := by
  have hclock : N.clock ≤ N.asked.clock := Nat.le_succ _
  refine wp_write ⟨hclock, rfl, .inl rfl⟩ (fun l hl => ⟨hclock, ?_⟩)
    fun e _ => ⟨hclock, rfl, .inr ⟨_, rfl⟩⟩
  obtain ⟨hnone, -⟩ | ⟨s₀, s', -, hrw, hsplits⟩ := Ledger.split_rewrite rfl hl
  · cases hnone.symm.trans hget
  · refine ⟨s', (hsplits id).trans (if_pos rfl), ?_⟩
    cases hrw
    rfl

/-- One row of the heal, which ends early only if the process is killed. -/
theorem wp_healOne_row (hsound : Sound c N) (hp : At N p) :
    wp (healOne c w p) (ends (fun r N' => N.clock ≤ N'.clock ∧
      (r = .ok true → ∃ s, N'.split? p.id = some s ∧ s.state = .broadcast) ∧
      (r ≠ .ok true → N'.split? p.id = N.split? p.id) ∧
      (r = .ok false → ToldAbsent c w N N' p.id))
      fun e _ => e = .killed) N := by
  have hasked : N.clock ≤ N.asked.clock := Nat.le_succ _
  rw [healOne, wp_get_bind]
  split
  case h_1 hnone =>
    -- the row itself is found
    obtain ⟨hstate, s, hget, hsource, hs⟩ := hp
    have hgone := List.find?_eq_none.mp hnone _ (Store.mem_of_get? hget)
    have hlive : s.state ≠ .abandoned := by
      rw [hs]
      obtain h | h := hstate <;> simp [h]
    exact absurd (decide_eq_true ⟨hsource, hlive⟩) hgone
  case h_2 row s hrow =>
    obtain ⟨rfl, hget, -, -⟩ := hp.row_of_source hsound hrow
    have hreported {reason : HealReason} {N' : Shaper} (hclock : N.clock ≤ N'.clock)
        (h : N'.split? p.id = N.split? p.id) : N.clock ≤ N'.clock ∧
        ((Except.error reason : Except HealReason Bool) = .ok true →
          ∃ s, N'.split? p.id = some s ∧ s.state = .broadcast) ∧
        (Except.error reason ≠ (.ok true : Except HealReason Bool) → N'.split? p.id = N.split? p.id) ∧
        ((Except.error reason : Except HealReason Bool) = .ok false → ToldAbsent c w N N' p.id) :=
      ⟨hclock, by rintro ⟨⟩, fun _ => h, by rintro ⟨⟩⟩
    split
    case h_1 => exact hreported le_rfl rfl
    case h_2 bytes hbytes =>
      rw [wp_probe_bind]
      cases hprobe : w.probe N.clock (c.txidOf bytes) with
      | absent =>
        exact ⟨hasked, by rintro ⟨⟩, fun _ => rfl, fun _ =>
          ⟨N.clock, le_rfl, Nat.lt_succ_self _, bytes, hbytes, hprobe⟩⟩
      | unknown => exact hreported hasked rfl
      | known =>
        dsimp only
        split
        case h_1 => exact hreported hasked rfl
        case h_2 amounts _ =>
          rw [wp_bind_iff]
          refine wp_attempt (wp_recordVaultUtxoSplitBroadcast_row (N := N.asked) hget) ?_ ?_ ?_
          · exact fun _ _ h =>
              ⟨hasked.trans h.1, fun _ => h.2, fun hne => absurd rfl hne, by rintro ⟨⟩⟩
          · exact fun _ _ _ _ h => hreported (hasked.trans h.1) h.2.1
          · rintro e N' hcaught ⟨-, -, rfl | ⟨e', rfl⟩⟩
            · rfl
            · cases hcaught

/-- The walk of the heal, from a report on. -/
theorem wp_healEach_rows {ps : List PendingSplit} (report : HealReport) (hsound : Sound c N)
    (hps : ∀ p ∈ ps, At N p) (hnodup : (ps.map PendingSplit.id).Nodup) :
    wp (healEach c w report ps) (ends (fun report' N' => N.clock ≤ N'.clock ∧
      report.healed ⊆ report'.healed ∧ report.unresolved ⊆ report'.unresolved ∧
      (∀ i ∉ ps.map PendingSplit.id, N'.split? i = N.split? i) ∧ ∀ p ∈ ps, Settles c w N p report' N')
      fun e _ => e = .killed) N := by
  induction ps generalizing N report with
  | nil =>
    exact ⟨le_rfl, List.Subset.refl _, List.Subset.refl _, fun _ _ => rfl, fun p hp => by cases hp⟩
  | cons p ps ih =>
    rw [List.map_cons, List.nodup_cons] at hnodup
    -- the rest of the walk, behind a row that is settled
    have hrest (report₁ : HealReport) (N₁ : Shaper) (h : Acts c p.id 0 N N₁)
        (hclock : N.clock ≤ N₁.clock) (hhealed : report.healed ⊆ report₁.healed) (hunresolved : report.unresolved ⊆ report₁.unresolved)
        (hp : Settles c w N p report₁ N₁) :
        wp (healEach c w report₁ ps) (ends (fun report' N' => N.clock ≤ N'.clock ∧
          report.healed ⊆ report'.healed ∧ report.unresolved ⊆ report'.unresolved ∧
          (∀ i ∉ (p :: ps).map PendingSplit.id, N'.split? i = N.split? i) ∧
          ∀ p' ∈ p :: ps, Settles c w N p' report' N') fun e _ => e = .killed) N₁ := by
      have hne {p' : PendingSplit} (hp' : p' ∈ ps) : p'.id ≠ p.id := fun hid =>
        hnodup.1 (hid ▸ List.mem_map_of_mem hp')
      have hat : ∀ p' ∈ ps, At N₁ p' := fun p' hp' =>
        (hps p' (List.mem_cons_of_mem _ hp')).apart h.apart (hne hp')
      refine wp_mono (ih report₁ (h.sound hsound) hat hnodup.2) ?_
      rintro (e | report') N' h'
      · exact h'
      · obtain ⟨hclock', hhealed', hunresolved', hframe, hsettles⟩ := h'
        refine ⟨hclock.trans hclock', List.Subset.trans hhealed hhealed',
          List.Subset.trans hunresolved hunresolved', fun i hi => ?_, fun p' hp' => ?_⟩
        · rw [List.map_cons, List.mem_cons, not_or] at hi
          rw [hframe i hi.2, h.apart.split i hi.1]
        · obtain rfl | hp' := List.mem_cons.mp hp'
          · rw [Settles, hframe _ hnodup.1]
            exact hp.imp (And.imp_left fun hmem => hhealed' hmem) (And.imp_right
              (Or.imp (fun hmem => List.map_subset _ hunresolved' hmem)
                fun htold => htold.widen le_rfl hclock' rfl))
          · have hsettle := hsettles p' hp'
            rw [Settles, h.apart.split _ (hne hp')] at hsettle
            exact hsettle.imp_right (And.imp_right (Or.imp_right fun htold =>
              htold.widen hclock le_rfl (h.apart.columns _ (hne hp')).symm))
    rw [healEach]
    refine wp_bind (wp_and (wp_healOne hsound (hps p List.mem_cons_self))
      (wp_healOne_row hsound (hps p List.mem_cons_self))) ?_ fun e N₁ h => h.2
    rintro (reason | _ | _) N₁ ⟨h, hclock, hdone, hsame, habsent⟩
    · refine hrest _ N₁ h hclock (List.Subset.refl _) (List.subset_append_left _ _) ?_
      exact .inr ⟨hsame (by rintro ⟨⟩), .inl (by simp)⟩
    · exact hrest report N₁ h hclock (List.Subset.refl _) (List.Subset.refl _)
        (.inr ⟨hsame (by rintro ⟨⟩), .inr (habsent rfl)⟩)
    · refine hrest _ N₁ h hclock (List.subset_append_left _ _) (List.Subset.refl _) ?_
      exact .inl ⟨by simp, hdone rfl⟩

end Heal

/-! ## Runs -/

/-- The events that may hand a transaction to the node. -/
def Event.drives : Event → Bool
  | .tick _ _ | .command _ _ _ _ => true
  | .op _ | .heal _ => false

/-- It spends the source alone, pays the chunks to the vault and nothing else, and
leaves the fee. -/
structure SpendsSource (c : ShapingConfig) (s : Split) (tx : Goldcoin.Transaction) : Prop where
  inputs : (tx.inputs.map fun input => (input.prevTxid, input.prevVout)) =
    [(Goldcoin.beWord s.source.1, UInt32.ofNat s.source.2)]
  scripts : ∀ out ∈ tx.outputs, out.scriptPubkey = c.vault.scriptPubkey c.hash160
  chunks : tx.outputs.length = s.chunkCount
  value : (tx.outputs.map fun out => out.valueAtomic.toNat).sum + asU64 s.fee = asU64 s.sourceAmount

section Runs

variable {c : ShapingConfig} {N N' : Shaper} {s : Split}

theorem SignedFor.spendsSource {bytes : Bytes} (h : SignedFor c s bytes) (hchunks : 2 ≤ s.chunkCount) :
    ∃ tx, SpendsSource c s tx ∧ bytes = tx.serialize := by
  obtain ⟨plan, script, hplan, rfl⟩ := h
  have hplanned := reconstruct_eq_ok hplan
  have hsum := hplanned.conserved (by omega)
  have hlt : asU64 s.sourceAmount < 2 ^ 64 := by
    unfold asU64
    omega
  have hvalues : (plan.outputAmounts.map fun amount => (UInt64.ofNat amount).toNat) =
      plan.outputAmounts := by
    refine (List.map_congr_left fun amount hmem => ?_).trans (List.map_id _)
    have hle := List.single_le_sum (fun _ _ => Nat.zero_le _) amount hmem
    have hamount : amount < 2 ^ 64 := by omega
    exact UInt64.toNat_ofNat_of_lt' hamount
  refine ⟨_, ⟨?_, fun out hout => ?_, ?_, ?_⟩, rfl⟩
  · change [(plan.source.txid, UInt32.ofNat plan.source.vout)] = _
    rw [hplanned.source]
    rfl
  · obtain ⟨amount, -, rfl⟩ := List.mem_map.mp hout
    exact hplanned.script
  · exact (List.length_map _).trans hplanned.length
  · change ((plan.outputAmounts.map _).map _).sum + _ = _
    rw [List.map_map]
    exact (congrArg (fun amounts => amounts.sum + asU64 s.fee) hvalues).trans hsum

theorem Sound.empty : Sound c .empty where
  wf := Ledger.wf_empty
  rows h := by cases h
  sent t ht := by cases ht
  alone h := by cases h
  books h := by cases h

/-- An event keeps the splits sound, and hands the node one transaction that it
acknowledges, at most. -/
theorem Sound.step {e : Event} (hsound : Sound c N) (h : step c N e = some N') :
    Sound c N' ∧ N'.accepted ≤ N.accepted + if e.drives then 1 else 0 := by
  cases e with
  | op op =>
    rw [Liquidity.step] at h
    split_ifs at h with hop
    obtain ⟨l, hl, rfl⟩ := Option.map_eq_some_iff.mp h
    exact ⟨hsound.op (Bool.eq_false_iff.mpr hop) hl, le_rfl⟩
  | heal w =>
    obtain rfl := Option.some.inj h
    have hran : Ran c 0 N (final (healSplitBookkeeping c w) N) := wp_healSplitBookkeeping hsound
    exact ⟨hran.sound hsound, hran.accepted⟩
  | tick w allowNewSplits =>
    obtain rfl := Option.some.inj h
    have hran : Ran c 1 N (final (runShapingTick c w allowNewSplits) N) :=
      wp_runShapingTick allowNewSplits hsound
    exact ⟨hran.sound hsound, hran.accepted⟩
  | command w o abandon chunkTarget =>
    obtain rfl := Option.some.inj h
    have hran : Ran c 1 N (final (splitVaultUtxo c w o abandon chunkTarget) N) :=
      wp_splitVaultUtxo hsound
    exact ⟨hran.sound hsound, hran.accepted⟩

theorem sound_after (c : ShapingConfig) (es : List Event) : Sound c (after c es) :=
  Run.invariant (fun _ _ _ hsound h => (Sound.step hsound h).1) Sound.empty es

/-- Whatever the node and the signers answer, wherever the process is killed and
whatever else the ledger does: what was ever handed to the node is the signed
transaction of its split, which still holds these bytes and was not let go of but by
an operator. A source has no second transaction unless an operator let go of the
split of the first. A split that was recorded has the txid of its bytes, its source
is spent and its chunks are in the pool, unless an operator had let go of it. -/
theorem splits_accounted (c : ShapingConfig) (es : List Event) :
    let N := after c es
    let letGo := fun id => ∃ since, (N.columns id).abandoned = some (.operator, since)
    (∀ t ∈ N.sent, ∃ s tx, N.split? t.id = some s ∧ SpendsSource c s tx ∧ t.bytes = tx.serialize ∧
      (N.columns t.id).signedTx = some t.bytes ∧ s.state ≠ .built ∧ (s.state = .abandoned → letGo t.id)) ∧
    (∀ t ∈ N.sent, ∀ t' ∈ N.sent, ∀ s s', N.split? t.id = some s → N.split? t'.id = some s' →
      s.source = s'.source → t.bytes = t'.bytes ∨ (s.state = .abandoned ∧ letGo t.id) ∨
        (s'.state = .abandoned ∧ letGo t'.id)) ∧
    (∀ id s, N.split? id = some s → s.state = .broadcast ∨ s.state = .confirmed →
      (∃ bytes, (N.columns id).signedTx = some bytes ∧ s.txid = some (c.txidOf bytes)) ∧
        ((N.columns id).abandoned = none → Recorded N.ledger.vault s)) := by
  intro N letGo
  have hsound : Sound c N := sound_after c es
  have hletGo {t : Sent} (ht : t ∈ N.sent) {s : Split} (hget : N.split? t.id = some s)
      (hstate : s.state = .abandoned) : letGo t.id := by
    obtain ⟨s', hget', -, hbytes⟩ := hsound.sent t ht
    obtain ⟨reason, since, habandoned, hreason⟩ := (hsound.rows hget).letGo hstate
    obtain rfl := hreason (by rw [hbytes]; rfl)
    exact ⟨since, habandoned⟩
  refine ⟨fun t ht => ?_, fun t ht t' ht' s s' hs hs' hsource => ?_, fun id s hget hstate => ?_⟩
  · obtain ⟨s, hget, hbuilt, hbytes⟩ := hsound.sent t ht
    have hrow := hsound.rows hget
    obtain ⟨tx, htx, hserialize⟩ := (hrow.bytes _ hbytes).spendsSource hrow.chunks
    exact ⟨s, tx, hget, htx, hserialize, hbytes, hbuilt, hletGo ht hget⟩
  · by_cases habandoned : s.state = .abandoned
    · exact .inr (.inl ⟨habandoned, hletGo ht hs habandoned⟩)
    by_cases habandoned' : s'.state = .abandoned
    · exact .inr (.inr ⟨habandoned', hletGo ht' hs' habandoned'⟩)
    have hid := hsound.alone hs hs' habandoned habandoned' hsource
    obtain ⟨-, -, -, hbytes⟩ := hsound.sent t ht
    obtain ⟨-, -, -, hbytes'⟩ := hsound.sent t' ht'
    rw [hid, hbytes'] at hbytes
    exact .inl (Option.some.inj hbytes).symm
  · have hrow := hsound.rows hget
    refine ⟨?_, hsound.books hget hstate⟩
    obtain ⟨txid, htxid⟩ := Option.isSome_iff_exists.mp (hrow.recorded hstate)
    obtain ⟨bytes, hbytes, rfl⟩ := Option.map_eq_some_iff.mp (hrow.txid txid htxid)
    exact ⟨bytes, hbytes, htxid⟩

/-- A vault of three keys, whose signers answer with signatures of one hash. -/
def sampleConfig : ShapingConfig where
  vault := Goldcoin.sampleVault
  signers := Goldcoin.sampleVault.signerPubkeys
  paysRoot _ := true
  policy :=
    { chunkTarget := 120000000000
      targetAvailableCount := 3
      minSource := 200000000000
      maxOutputsPerSplit := 10
      feeRatePerKb := 1000
      zeroConfChangeMaxDepth := 0
      minConfirmations := 6 }
  ecdsa := Goldcoin.sampleEcdsa
  hash160 := Goldcoin.sampleHash160
  sha256 _ := Goldcoin.sampleHash
  txidOf := List.length

def sampleAnswers : ShapingAnswers where
  now := 100
  killed _ := false
  probe _ _ := .known
  send _ _ := some .accepted
  sign _ pubkey _ :=
    if pubkey = Goldcoin.sampleVault.signerPubkeys[0] then
      some (Goldcoin.derSignature Goldcoin.firstSignature.1 Goldcoin.firstSignature.2)
    else some (Goldcoin.derSignature Goldcoin.secondSignature.1 Goldcoin.secondSignature.2)

/-- A tick finds one large output in the vault. -/
def sampleRun : List Event :=
  [.op (.configureReserve .goldcoinReserve 450000000000 0),
    .op (.syncVaultUtxos [⟨(3, 0), 450000000000, 10⟩] 6),
    .tick sampleAnswers true]

/-- It splits the output: what it signed and sent spends it, and is recorded. -/
theorem splits_accounted_sample :
    (∃ t ∈ (after sampleConfig sampleRun).sent, ∃ s tx,
      (after sampleConfig sampleRun).split? t.id = some s ∧ SpendsSource sampleConfig s tx ∧
        t.bytes = tx.serialize) ∧
    ((after sampleConfig sampleRun).split? 1).map Split.state = some .broadcast ∧
    ((after sampleConfig sampleRun).ledger.vault.utxos.get? (3, 0)).map VaultUtxo.state =
      some .spent := by
  refine ⟨?_, by decide +kernel, by decide +kernel⟩
  obtain ⟨t, ht, -⟩ := List.countP_pos_iff.mp
    (show 0 < (after sampleConfig sampleRun).accepted by decide +kernel)
  obtain ⟨s, tx, hget, hspends, hbytes, -⟩ := (splits_accounted sampleConfig sampleRun).1 t ht
  exact ⟨t, ht, s, tx, hget, hspends, hbytes⟩

/-- In every reachable state, whatever the node answers: unless the process is
killed, the heal comes to its end, and each signed split is recorded as broadcast
with its books, or is left as it was and is reported, or the node, when the heal
asked it, said that it does not have the transaction. -/
theorem signed_splits_settled (c : ShapingConfig) (es : List Event) (w : ShapingAnswers) :
    let N := after c es
    wp (healSplitBookkeeping c w) (ends (fun report N' => ∀ id s, N.split? id = some s →
      s.state = .signed →
        (id ∈ report.healed ∧ ∃ s', N'.split? id = some s' ∧ s'.state = .broadcast ∧
          ((N'.columns id).abandoned = none → Recorded N'.ledger.vault s')) ∨
        (N'.split? id = some s ∧ (id ∈ report.unresolved.map Prod.fst ∨ ToldAbsent c w N N' id)))
      fun e _ => e = .killed) N := by
  intro N
  have hsound : Sound c N := sound_after c es
  have hrows : wp (healSplitBookkeeping c w) _ N :=
    wp_healEach_rows ⟨[], []⟩ hsound
      (fun p hp => pendingVaultUtxoSplits_at (List.mem_filter.mp hp).1)
      ((nodup_pendingVaultUtxoSplits N).sublist (List.filter_sublist.map _))
  refine wp_mono (wp_and (wp_healSplitBookkeeping hsound) hrows) ?_
  rintro (e | report) N' ⟨hran, h⟩
  · exact h
  · intro id s hget hsigned
    have hpending : ⟨id, s.source, s.state⟩ ∈ N.pendingVaultUtxoSplits :=
      List.mem_map.mpr ⟨(id, s), List.mem_filter.mpr ⟨Store.mem_of_get? hget, by simp [hsigned]⟩, rfl⟩
    obtain ⟨-, -, -, -, hsettles⟩ := h
    obtain ⟨hhealed, s', hget', hstate⟩ | ⟨hsame, hleft⟩ :=
      hsettles _ (List.mem_filter.mpr ⟨hpending, decide_eq_true hsigned⟩)
    · exact .inl ⟨hhealed, s', hget', hstate, (hran.sound hsound).books hget' (.inl hstate)⟩
    · exact .inr ⟨hsame.trans hget, hleft⟩

end Runs

end Service.Liquidity
