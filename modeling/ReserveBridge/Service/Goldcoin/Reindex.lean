-- SUMMARY: A block that is indexed again, with no rollback and no new address in between: it leaves the ledger as it is, whatever is answered then and whatever became of its requests meanwhile, and from the second time on the unmatched deposits too.
import ReserveBridge.Service.Goldcoin.Attribution

/-!
# Indexing a block again

A tick that stops in a block, or a restart, indexes a block a second time. Once
an output was attributed, its request takes no deposit any more, so the ledger
answers from the row alone.
-/

namespace Service
open Guard

namespace Ledger

variable {l l' : Ledger} {id : ℕ} {dep : GlcDeposit} {lock : QuoteLock} {now : ℤ}
  {outcome : GlcObservationOutcome}

/-- The request takes no deposit: there is none, or it is of another source, or has
left the states that take one. -/
def TakesNone (l : Ledger) (id : ℕ) : Prop :=
  ∀ r, l.requests.get? id = some r → r.direction.sourceIsGoldcoin → r.state.isAwaiting = false

/-- What is answered for such a request. -/
def answerOf (l : Ledger) (id : ℕ) (txid : Txid) : GlcObservationOutcome :=
  if ∃ r ∈ l.requests.get? id, (r.state = .depositObserved ∨ r.state = .confirming) ∧
      r.sourceTxid = some txid then .alreadyRecorded
  else .noMatchingRequest

/-- The ledger answers and stays as it is. -/
theorem TakesNone.recordGlcDepositObserved (h : l.TakesNone id) :
    l.recordGlcDepositObserved id dep lock now = .ok (l.answerOf id dep.txid, l) := by
  unfold Ledger.recordGlcDepositObserved answerOf
  cases hget : l.requests.get? id with
  | none => simp
  | some r =>
    have hrow := h r hget
    simp only [Option.mem_some_iff, exists_eq_left']
    by_cases hknown : (r.state = .depositObserved ∨ r.state = .confirming) ∧
        r.sourceTxid = some dep.txid
    · rw [if_pos hknown, if_pos hknown]
      rfl
    rw [if_neg hknown, if_neg hknown]
    by_cases hsource : r.direction.sourceIsGoldcoin
    · have hstate := hrow hsource
      have hexpired : r.state ≠ .expired := fun heq => by rw [heq] at hstate; cases hstate
      have hawaiting : r.state ≠ .awaitingDeposit := fun heq => by rw [heq] at hstate; cases hstate
      rw [if_neg (not_not.mpr hsource), if_neg hexpired, if_pos hawaiting]
      rfl
    · rw [if_pos hsource]
      rfl

theorem observeAwaiting_row {r : Request} {fresh : GlcObservationOutcome}
    (hget : (l.requests.get? id).isSome = true)
    (h : l.observeAwaiting id r dep lock fresh now = .ok (outcome, l')) :
    ∃ x, l'.requests.get? id = some x ∧ x.state.isAwaiting = false := by
  obtain ⟨-, l₁, r₁, x, k, -, hobs, -, rfl, hl₁⟩ := observeAwaiting_cases h
  obtain ⟨r₀, hr₀⟩ := Option.isSome_iff_exists.mp hget
  have hget₁ : l₁.requests.get? id = some r₀ := by rw [(requests_of_lockReserved hl₁).1, hr₀]
  refine ⟨x, by rw [get?_setRequest hget₁, if_pos rfl], ?_⟩
  rcases hobs.state with hs | ⟨hs, -⟩ <;> rw [hs] <;> rfl

/-- A request that was answered for takes no deposit any more. -/
theorem takesNone_of_recorded (h : l.recordGlcDepositObserved id dep lock now = .ok (outcome, l')) :
    l'.TakesNone id := by
  by_cases hnone : l.TakesNone id
  · -- nothing is written
    rw [hnone.recordGlcDepositObserved, Except.ok.injEq, Prod.mk.injEq] at h
    exact h.2 ▸ hnone
  simp only [TakesNone, not_forall, Bool.not_eq_false] at hnone
  obtain ⟨r, hget, hsource, hstate⟩ := hnone
  have hsome : (l.requests.get? id).isSome = true := by rw [hget]; rfl
  -- the deposit is taken
  suffices hrow : ∃ x, l'.requests.get? id = some x ∧ x.state.isAwaiting = false by
    obtain ⟨x, hx, hx'⟩ := hrow
    intro y hy _
    obtain rfl := Option.some.inj (hx.symm.trans hy)
    exact hx'
  have hnew : ¬ ((r.state = .depositObserved ∨ r.state = .confirming) ∧
      r.sourceTxid = some dep.txid) := by
    rintro ⟨hs | hs, -⟩ <;> rw [hs] at hstate <;> cases hstate
  unfold Ledger.recordGlcDepositObserved at h
  rw [hget] at h
  dsimp only at h
  rw [if_neg hnew, if_neg (not_not.mpr hsource)] at h
  by_cases hexpired : r.state = .expired
  · rw [if_pos hexpired] at h
    simp only [bind_eq_ok, reserve_eq_ok] at h
    obtain ⟨v, -, h⟩ := h
    split_ifs at h
    · simp only [bind_eq_ok, require_eq_ok, exists_unit, pure_eq_ok, Prod.mk.injEq] at h
      obtain ⟨-, -, rfl⟩ := h
      exact ⟨_, (get?_setRequest hget _ _).trans (if_pos rfl), rfl⟩
    · exact observeAwaiting_row (l := l.addReserved _ _) hsome h
  · have hawaiting : r.state = .awaitingDeposit := by
      cases hs : r.state <;> rw [hs] at hstate hexpired <;> first
        | rfl
        | exact absurd rfl hexpired
        | cases hstate
    rw [if_neg hexpired, if_neg (not_not.mpr hawaiting)] at h
    exact observeAwaiting_row hsome h

/-- What takes no deposit before another one is observed takes none after. -/
theorem TakesNone.recorded {k : ℕ} (h : l.TakesNone k)
    (hrecord : l.recordGlcDepositObserved id dep lock now = .ok (outcome, l')) : l'.TakesNone k := by
  rcases recordGlcDepositObserved_deposited hrecord with ⟨rfl, -⟩ | ⟨r, r', hdep⟩
  · exact h
  · intro x hget hsource
    rw [hdep.rows] at hget
    split_ifs at hget with hk
    · obtain rfl := Option.some.inj hget
      rcases hdep.state with hs | hs <;> rw [hs] <;> rfl
    · exact h x hget hsource

/-- The operations that neither write a deposit, as an observation, a rollback and
the mark of a reorganization do, nor bring a request in. -/
def keepsRequests (op : Op) : Bool := !op.writesDeposit && op.recorded.isNone

/-- Whatever became of a request meanwhile, it takes no deposit. -/
theorem TakesNone.step {k : ℕ} {op : Op} (h : l.TakesNone k) (hwf : l.Wf)
    (hop : keepsRequests op = true) (hstep : l.step op = some l') : l'.TakesNone k := by
  rw [keepsRequests, Bool.and_eq_true, Bool.not_eq_true', Option.isNone_iff_eq_none] at hop
  have heffect := effect_of_step hwf hstep
  intro x hget hsource
  cases hbefore : l.requests.get? k with
  | none =>
    rw [heffect.get?_eq_none hop.2 hbefore] at hget
    cases hget
  | some r =>
    obtain ⟨r', hget', hkeeps⟩ := heffect.keepsDeposit hop.1 hbefore
    obtain rfl := Option.some.inj (hget.symm.trans hget')
    by_contra hawaiting
    have hbusy := hkeeps.awaiting (Bool.eq_true_of_not_eq_false hawaiting)
    rw [h r hbefore (by rwa [← hkeeps.direction])] at hbusy
    cases hbusy

end Ledger

end Service

namespace Service.Goldcoin
open Guard

namespace Indexer

variable {node : Node} {c : IndexerConfig} {N N₁ N₂ N' : Indexer} {l : Ledger}

/-! ## The first time -/

/-- The request an output is for takes no deposit. -/
def Settled (l : Ledger) (out : Candidate) : Prop :=
  ∀ id : ℤ, out.target = .ok id → 0 ≤ id → l.TakesNone id.toNat

/-- What a scan keeps besides. -/
structure Passed (N M : Indexer) : Prop where
  scripts : M.depositScripts = N.depositScripts
  wf : N.ledger.Wf → M.ledger.Wf
  settled : ∀ out, Settled N.ledger out → Settled M.ledger out

theorem Passed.refl : Passed N N := ⟨rfl, id, fun _ h => h⟩

theorem Passed.trans {M : Indexer} (h : Passed N N₁) (h' : Passed N₁ M) : Passed N M where
  scripts := h'.scripts.trans h.scripts
  wf := h'.wf ∘ h.wf
  settled out hout := h'.settled out (h.settled out hout)

section Output

variable {id : ℤ} {dep : GlcDeposit} {lock : QuoteLock} {now : ℤ} {outcome : GlcObservationOutcome}
  {height : ℤ} {hash : ℕ} {txid : Txid} {wallets : List Bytes} {w : BlockAnswers} {out : Candidate}

theorem passed_recordDeposit (h : N.recordDeposit id dep lock now = .ok (outcome, l)) :
    Passed N { N with ledger := l } ∧ (0 ≤ id → l.TakesNone id.toNat) := by
  unfold recordDeposit at h
  split_ifs at h with hid
  · simp only [Except.ok.injEq, Prod.mk.injEq] at h
    obtain ⟨-, rfl⟩ := h
    exact ⟨.refl, fun hpos => by omega⟩
  · refine ⟨⟨rfl, fun hwf => ?_, fun out hout k hk hpos => ?_⟩, fun _ => Ledger.takesNone_of_recorded h⟩
    · have hstep : N.ledger.step (.recordGlcDepositObserved id.toNat dep lock now) = some l := by
        rw [Ledger.step, Ledger.run, h]
        rfl
      exact hwf.step hstep
    · exact (hout k hk hpos).recorded h

theorem passed_attributeOutput :
    Passed N (N.attributeOutput height hash txid wallets w out).state := by
  unfold attributeOutput
  split
  · split_ifs
    · exact .refl
    · exact ⟨rfl, id, fun _ h => h⟩
  · unfold observeGlcDeposit
    split
    · exact .refl
    · rename_i outcome l hrecord
      have hl := (passed_recordDeposit hrecord).1
      dsimp only
      split_ifs
      · exact ⟨hl.scripts, hl.wf, hl.settled⟩
      · exact ⟨hl.scripts, hl.wf, hl.settled⟩

/-- The request of an output that was attributed takes no deposit any more. -/
theorem settled_attributeOutput
    (hdone : N.attributeOutput height hash txid wallets w out = .done N') :
    Settled N'.ledger out := by
  intro id htarget hpos
  unfold attributeOutput at hdone
  rw [htarget] at hdone
  dsimp only at hdone
  unfold observeGlcDeposit at hdone
  split at hdone
  · cases hdone
  · rename_i outcome l hrecord
    have hl := (passed_recordDeposit hrecord).2 hpos
    dsimp only at hdone
    split_ifs at hdone <;> cases hdone <;> exact hl

end Output

section Block

variable {height : ℤ} {hash : ℕ} {txid : Txid} {txids : List Txid} {w : BlockAnswers}
  {outs : List TxOut}

theorem candidates_eq (h : N₁.depositScripts = N.depositScripts) :
    N₁.candidates c outs = N.candidates c outs := by
  rw [candidates, candidates, h]

theorem passed_scanTransaction : Passed N (N.scanTransaction node c height hash w txid).state := by
  unfold scanTransaction
  split
  · exact .refl
  split_ifs
  · refine Attempt.andThen_keeps ?_ fun M _ hM => ⟨hM.scripts, hM.wf, hM.settled⟩
    split_ifs
    · exact .refl
    · split
      · exact .refl
      · exact Attempt.loop_invariant
          (fun M out _ (hM : Passed N M) => hM.trans passed_attributeOutput) .refl
  · exact .refl

/-- The requests that these transactions pay take no deposit. -/
def Ready (node : Node) (c : IndexerConfig) (N : Indexer) (txids : List Txid) : Prop :=
  ∀ txid ∈ txids, ∀ outs, node.transaction txid = some outs →
    ∀ out ∈ N.candidates c outs, Settled N.ledger out

theorem Ready.passed (h : Ready node c N txids) (hpassed : Passed N N₁) : Ready node c N₁ txids := by
  intro txid htxid outs houts out hout
  rw [candidates_eq hpassed.scripts] at hout
  exact hpassed.settled out (h txid htxid outs houts out hout)

/-- The candidates of a transaction, in the order they are attributed. -/
theorem scanTransaction_done_cases (houts : node.transaction txid = some outs)
    (hdone : N.scanTransaction node c height hash w txid = .done N') :
    ∃ M wallets, Attempt.loop (fun N out => N.attributeOutput height hash txid wallets w out) N
        (N.candidates c outs) = .done M ∧
      N' = { M with scanned := ⟨height, hash, txid⟩ :: M.scanned } := by
  unfold scanTransaction at hdone
  rw [houts] at hdone
  dsimp only at hdone
  by_cases hreturned : w.transaction txid = true
  swap
  · rw [if_pos hreturned] at hdone
    cases hdone
  rw [if_neg (not_not.mpr hreturned)] at hdone
  obtain ⟨M, hattributed, hM⟩ := Attempt.andThen_eq_done.mp hdone
  injection hM with hM
  split_ifs at hattributed with hnone
  · exact ⟨M, [], by rw [hnone]; exact hattributed, hM.symm⟩
  · split at hattributed
    · cases hattributed
    · exact ⟨M, _, hattributed, hM.symm⟩

theorem ready_scanTransaction
    (hdone : N.scanTransaction node c height hash w txid = .done N') :
    Ready node c N' [txid] := by
  intro t ht outs houts out hout
  obtain rfl := List.mem_singleton.mp ht
  obtain ⟨M, wallets, hloop, rfl⟩ := scanTransaction_done_cases houts hdone
  have hkept : Passed N M := by
    have hinv : Passed N (Attempt.loop
        (fun N out => N.attributeOutput height hash t wallets w out) N (N.candidates c outs)).state :=
      Attempt.loop_invariant (fun M out _ hM => hM.trans passed_attributeOutput) .refl
    rwa [hloop] at hinv
  have hout : out ∈ N.candidates c outs := by
    have hcandidates : M.candidates c outs = N.candidates c outs := candidates_eq hkept.scripts
    rw [← hcandidates]
    exact hout
  exact Attempt.loop_establishes (fun out (L : Indexer) => Settled L.ledger out)
    (fun (_ : Indexer) _ _ (_ : True) => trivial) (fun _ _ _ _ hstep => settled_attributeOutput hstep)
    (fun L out other L' _ hstep hsettled => by
      have hpassed : Passed L (L.attributeOutput height hash t wallets w other).state :=
        passed_attributeOutput
      rw [hstep] at hpassed
      exact hpassed.settled out hsettled) trivial hloop out hout

/-- After the first time, the requests a block pays take no deposit. -/
theorem ready_indexBlock (hhash : node.hashAt height w.hash = some hash) (hheight : height ≠ 0)
    (hdone : N.indexBlock node c height w = .done N₁) :
    Ready node c N₁ (node.header hash).tx ∧ Passed N N₁ := by
  unfold indexBlock at hdone
  rw [hhash] at hdone
  dsimp only at hdone
  by_cases hheader : w.header = true
  swap
  · rw [if_pos hheader] at hdone
    cases hdone
  rw [if_neg (not_not.mpr hheader), if_neg hheight] at hdone
  obtain ⟨M, hloop, hM⟩ := Attempt.andThen_eq_done.mp hdone
  cases hM
  have hpassed : Passed N M := by
    have hinv : Passed N (Attempt.loop (fun N txid => N.scanTransaction node c height hash w txid) N
        (node.header hash).tx).state :=
      Attempt.loop_invariant (fun M txid _ hM => hM.trans passed_scanTransaction) .refl
    rwa [hloop] at hinv
  refine ⟨fun txid htxid => ?_, hpassed.scripts, hpassed.wf, hpassed.settled⟩
  have hready : Ready node c M [txid] :=
    Attempt.loop_establishes (fun txid (L : Indexer) => Ready node c L [txid])
      (fun (_ : Indexer) _ _ (_ : True) => trivial) (fun _ _ _ _ hstep => ready_scanTransaction hstep)
      (fun L txid other L' _ hstep hready => by
        have hpassed : Passed L (L.scanTransaction node c height hash w other).state :=
          passed_scanTransaction
        rw [hstep] at hpassed
        exact hready.passed hpassed) trivial hloop txid htxid
  exact hready txid List.mem_cons_self

end Block

/-! ## The second time -/

/-- The ledger is as it was. -/
structure Still (N M : Indexer) : Prop where
  ledger : M.ledger = N.ledger
  scripts : M.depositScripts = N.depositScripts
  unmatched : ∀ k, (N.unmatched.get? k).isSome = true → (M.unmatched.get? k).isSome = true

theorem Still.refl : Still N N := ⟨rfl, rfl, fun _ h => h⟩

theorem Still.trans {M : Indexer} (h : Still N N₁) (h' : Still N₁ M) : Still N M where
  ledger := h'.ledger.trans h.ledger
  scripts := h'.scripts.trans h.scripts
  unmatched k hk := h'.unmatched k (h.unmatched k hk)

/-- An output that adds nothing when it is attributed: it is an unmatched deposit, or
the service's own, or the ledger has it. -/
def Noted (N : Indexer) (txid : Txid) (out : Candidate) : Prop :=
  (N.unmatched.get? (txid, out.vout)).isSome = true ∨
    match out.target with
    | .error _ => N.OwnSplit txid out.vout out.amount
    | .ok id => 0 ≤ id ∧ N.ledger.answerOf id.toNat txid = .alreadyRecorded

theorem Noted.still {txid : Txid} {out : Candidate} (h : Noted N txid out) (hstill : Still N N₁) :
    Noted N₁ txid out := by
  refine h.imp (hstill.unmatched _) fun h => ?_
  split at h
  · rwa [OwnSplit, broadcastVaultUtxoSplit, hstill.ledger]
  · rwa [hstill.ledger]

theorem recordUnmatched_of_isSome {txid : Txid} {vout amount : ℕ} {height : ℤ} {reason : String}
    {now : ℤ} (h : (N.unmatched.get? (txid, vout)).isSome = true) :
    (N.recordUnmatched txid vout amount height reason now).unmatched = N.unmatched := by
  unfold recordUnmatched
  rw [Store.init, dif_pos (Store.get?_isSome.mp h)]
  rfl

section Again

variable {height : ℤ} {hash : ℕ} {txid : Txid} {wallets : List Bytes} {w : BlockAnswers}
  {out : Candidate}

/-- The ledger is asked about a request that takes no deposit. -/
theorem recordDeposit_settled {id : ℤ} (dep : GlcDeposit) (lock : QuoteLock) (now : ℤ)
    (h : 0 ≤ id → N.ledger.TakesNone id.toNat) :
    ∃ outcome, N.recordDeposit id dep lock now = .ok (outcome, N.ledger) ∧
      (outcome = .noMatchingRequest ∨ outcome = .alreadyRecorded) ∧
      (outcome = .alreadyRecorded ↔
        0 ≤ id ∧ N.ledger.answerOf id.toNat dep.txid = .alreadyRecorded) := by
  unfold recordDeposit
  split_ifs with hid
  · exact ⟨_, rfl, .inl rfl, nofun, fun h => absurd hid (by omega)⟩
  · refine ⟨_, (h (by omega)).recordGlcDepositObserved, ?_, ?_⟩
    · unfold Ledger.answerOf
      split_ifs
      · exact .inr rfl
      · exact .inl rfl
    · exact ⟨fun h => ⟨by omega, h⟩, And.right⟩

/-- An output whose request takes no deposit is attributed to its end, and then
noted. If it was noted before, nothing changes. -/
theorem attributeOutput_settled (height : ℤ) (hash : ℕ) (txid : Txid) (wallets : List Bytes)
    (w : BlockAnswers) (h : Settled N.ledger out) :
    ∃ M, N.attributeOutput height hash txid wallets w out = .done M ∧ Still N M ∧
      Noted M txid out ∧ (Noted N txid out → M.unmatched = N.unmatched) := by
  unfold attributeOutput
  cases htarget : out.target with
  | error e =>
    dsimp only
    split_ifs with hown
    · obtain ⟨s, hs, hmatches⟩ := (Option.any_eq_true _ _).mp hown
      refine ⟨N, rfl, .refl, .inr ?_, fun _ => rfl⟩
      rw [htarget]
      exact ⟨s, hs, hmatches⟩
    · refine ⟨_, rfl, ⟨rfl, rfl, fun k hk => (isSome_recordUnmatched k).mpr (.inr hk)⟩,
        .inl ((isSome_recordUnmatched _).mpr (.inl rfl)), fun hnoted => ?_⟩
      rcases hnoted with hnoted | hnoted
      · exact recordUnmatched_of_isSome (N := N.note height txid out.vout) hnoted
      · rw [htarget] at hnoted
        obtain ⟨s, hs, hmatches⟩ := hnoted
        exact absurd ((Option.any_eq_true _ _).mpr ⟨s, hs, hmatches⟩) hown
  | ok id =>
    dsimp only
    obtain ⟨outcome, hrecord, houtcome, hknown⟩ :=
      recordDeposit_settled {
        txid := txid
        vout := out.vout
        amount := out.amount
        blockHeight := height
        blockHash := hash
        sourceWallets := wallets } w.lock w.now fun hpos => h id htarget hpos
    unfold observeGlcDeposit
    rw [hrecord]
    dsimp only
    split_ifs with hmatched
    · refine ⟨_, rfl, ⟨rfl, rfl, fun k hk => (isSome_recordUnmatched k).mpr (.inr hk)⟩,
        .inl ((isSome_recordUnmatched _).mpr (.inl rfl)), fun hnoted => ?_⟩
      rcases hnoted with hnoted | hnoted
      · exact recordUnmatched_of_isSome (N := N.note height txid out.vout) hnoted
      · -- the ledger has it, and would have said so
        rw [htarget] at hnoted
        rw [hknown.mpr hnoted] at hmatched
        cases hmatched
    · refine ⟨_, rfl, ⟨rfl, rfl, fun _ hk => hk⟩, .inr ?_, fun _ => rfl⟩
      rw [htarget]
      exact hknown.mp (houtcome.resolve_left hmatched)

/-- The candidates of a transaction that pays requests which take no deposit. -/
theorem attributeOutputs_ready {outs : List Candidate} (h : ∀ out ∈ outs, Settled N.ledger out) :
    ∃ M, Attempt.loop (fun N out => N.attributeOutput height hash txid wallets w out) N outs = .done M ∧
      Still N M ∧ (∀ out ∈ outs, Noted M txid out) ∧
      ((∀ out ∈ outs, Noted N txid out) → M.unmatched = N.unmatched) := by
  induction outs generalizing N with
  | nil => exact ⟨N, rfl, .refl, by simp, fun _ => rfl⟩
  | cons out outs ih =>
    rw [List.forall_mem_cons] at h
    obtain ⟨N₁, hN₁, hstill, hnoted, hsame⟩ :=
      attributeOutput_settled height hash txid wallets w h.1
    obtain ⟨M, hM, hstill', hall, hsame'⟩ := ih fun out hout => hstill.ledger ▸ h.2 out hout
    refine ⟨M, ?_, hstill.trans hstill', ?_, fun hbefore => ?_⟩
    · rw [Attempt.loop, hN₁, Attempt.done_andThen, hM]
    · exact List.forall_mem_cons.mpr ⟨hnoted.still hstill', hall⟩
    · rw [List.forall_mem_cons] at hbefore
      rw [hsame' fun out hout => (hbefore.2 out hout).still hstill, hsame hbefore.1]

/-- Every output of these transactions is noted. -/
def AllNoted (node : Node) (c : IndexerConfig) (N : Indexer) (txids : List Txid) : Prop :=
  ∀ txid ∈ txids, ∀ outs, node.transaction txid = some outs → ∀ out ∈ N.candidates c outs,
    Noted N txid out

theorem AllNoted.still {txids : List Txid} (h : AllNoted node c N txids) (hstill : Still N N₁) :
    AllNoted node c N₁ txids := by
  intro txid htxid outs houts out hout
  rw [candidates_eq hstill.scripts] at hout
  exact (h txid htxid outs houts out hout).still hstill

theorem scanTransaction_ready (height : ℤ) (hash : ℕ) (w : BlockAnswers) (h : Ready node c N [txid]) :
    Still N (N.scanTransaction node c height hash w txid).state ∧
      (∀ M, N.scanTransaction node c height hash w txid = .done M → AllNoted node c M [txid]) ∧
      (AllNoted node c N [txid] →
        (N.scanTransaction node c height hash w txid).state.unmatched = N.unmatched) := by
  unfold scanTransaction
  split
  · exact ⟨.refl, fun _ h => (by cases h), fun _ => rfl⟩
  rename_i outs houts
  by_cases hreturned : w.transaction txid = true
  swap
  · rw [if_pos hreturned]
    exact ⟨.refl, fun _ h => (by cases h), fun _ => rfl⟩
  rw [if_neg (not_not.mpr hreturned)]
  have hready := h txid List.mem_cons_self outs houts
  -- what the candidates leave, whether there are some or none
  suffices hscan : ∀ x : Attempt Indexer, (x = .stopped N ∨
      ∃ M, x = .done M ∧ Still N M ∧ (∀ out ∈ N.candidates c outs, Noted M txid out) ∧
        ((∀ out ∈ N.candidates c outs, Noted N txid out) → M.unmatched = N.unmatched)) →
      Still N (x.andThen fun N => .done { N with scanned := ⟨height, hash, txid⟩ :: N.scanned }).state ∧
        (∀ M, x.andThen (fun N => .done { N with scanned := ⟨height, hash, txid⟩ :: N.scanned }) =
          .done M → AllNoted node c M [txid]) ∧
        (AllNoted node c N [txid] → (x.andThen fun N =>
          .done { N with scanned := ⟨height, hash, txid⟩ :: N.scanned }).state.unmatched =
            N.unmatched) by
    refine hscan _ ?_
    split_ifs with hnone
    · exact .inr ⟨N, rfl, .refl, by rw [hnone]; simp, fun _ => rfl⟩
    · split
      · exact .inl rfl
      · exact .inr (attributeOutputs_ready hready)
  rintro x (rfl | ⟨M, rfl, hstill, hnoted, hsame⟩)
  · exact ⟨.refl, fun _ h => (by cases h), fun _ => rfl⟩
  · refine ⟨⟨hstill.ledger, hstill.scripts, hstill.unmatched⟩, ?_, fun hbefore => ?_⟩
    · rintro _ ⟨⟩ t ht outs' houts' out hout
      obtain rfl := List.mem_singleton.mp ht
      obtain rfl := Option.some.inj (houts.symm.trans houts')
      have hout' : out ∈ N.candidates c outs := by
        have hcandidates : M.candidates c outs = N.candidates c outs := candidates_eq hstill.scripts
        rw [← hcandidates]
        exact hout
      exact hnoted out hout'
    · exact hsame fun out hout => hbefore txid List.mem_cons_self outs houts out hout

theorem Ready.still {txids : List Txid} (h : Ready node c N txids) (hstill : Still N N₁) :
    Ready node c N₁ txids := by
  intro txid htxid outs houts out hout
  rw [candidates_eq hstill.scripts] at hout
  rw [hstill.ledger]
  exact h txid htxid outs houts out hout

/-- The transactions of a block whose requests take no deposit. -/
theorem scanTransactions_ready (height : ℤ) (hash : ℕ) (w : BlockAnswers) {txids : List Txid}
    (h : Ready node c N txids) :
    Still N (Attempt.loop (fun N txid => N.scanTransaction node c height hash w txid) N txids).state ∧
      (∀ M, Attempt.loop (fun N txid => N.scanTransaction node c height hash w txid) N txids = .done M →
        AllNoted node c M txids) ∧
      (AllNoted node c N txids →
        (Attempt.loop (fun N txid => N.scanTransaction node c height hash w txid) N
          txids).state.unmatched = N.unmatched) := by
  induction txids generalizing N with
  | nil =>
    refine ⟨.refl, ?_, fun _ => rfl⟩
    rintro _ ⟨⟩
    exact nofun
  | cons txid txids ih =>
    have hhead : Ready node c N [txid] := fun t ht => h t (by simp_all)
    have hfirst := scanTransaction_ready height hash w hhead
    rw [Attempt.loop]
    cases hstep : N.scanTransaction node c height hash w txid with
    | stopped M =>
      rw [hstep] at hfirst
      refine ⟨hfirst.1, fun _ h => (by cases h), fun hbefore => hfirst.2.2 fun t ht => hbefore t (by simp_all)⟩
    | done M =>
      rw [hstep] at hfirst
      obtain ⟨hstill, hnoted, hsame⟩ := hfirst
      have htail : Ready node c M txids := fun t ht => (h.still hstill) t (List.mem_cons_of_mem _ ht)
      obtain ⟨hstill', hnoted', hsame'⟩ := ih htail
      rw [Attempt.done_andThen]
      refine ⟨hstill.trans hstill', fun L hL => ?_, fun hbefore => ?_⟩
      · have hlater : Still M L := by
          rw [hL] at hstill'
          exact hstill'
        intro t ht
        rcases List.mem_cons.mp ht with rfl | ht
        · exact (hnoted M rfl).still hlater t List.mem_cons_self
        · exact hnoted' L hL t ht
      · rw [hsame' fun t ht => (hbefore.still hstill) t (List.mem_cons_of_mem _ ht)]
        exact hsame fun t ht => hbefore t (by simp_all)

/-- A block whose requests take no deposit is indexed. -/
theorem indexBlock_ready {txids : List Txid} (h : height ≠ 0 → Ready node c N txids)
    (hhash : ∀ hash, node.hashAt height w.hash = some hash → (node.header hash).tx = txids) :
    Still N (N.indexBlock node c height w).state ∧
      (∀ M, N.indexBlock node c height w = .done M → height ≠ 0 → AllNoted node c M txids) ∧
      ((height ≠ 0 → AllNoted node c N txids) →
        (N.indexBlock node c height w).state.unmatched = N.unmatched) := by
  unfold indexBlock
  split
  · exact ⟨.refl, fun _ h => (by cases h), fun _ => rfl⟩
  rename_i hash hfound
  dsimp only
  rw [hhash hash hfound]
  by_cases hheader : w.header = true
  swap
  · rw [if_pos hheader]
    exact ⟨.refl, fun _ h => (by cases h), fun _ => rfl⟩
  rw [if_neg (not_not.mpr hheader)]
  by_cases hgenesis : height = 0
  · rw [if_pos hgenesis]
    exact ⟨⟨rfl, rfl, fun _ hk => hk⟩, fun _ _ hne => absurd hgenesis hne, fun _ => rfl⟩
  rw [if_neg hgenesis]
  have hscan := scanTransactions_ready height hash w (h hgenesis)
  cases hloop : Attempt.loop (fun N txid => N.scanTransaction node c height hash w txid) N txids with
  | stopped M =>
    rw [hloop] at hscan
    exact ⟨hscan.1, fun _ h => (by cases h), fun hbefore => hscan.2.2 (hbefore hgenesis)⟩
  | done M =>
    rw [hloop] at hscan
    refine ⟨⟨hscan.1.ledger, hscan.1.scripts, hscan.1.unmatched⟩, ?_,
      fun hbefore => hscan.2.2 (hbefore hgenesis)⟩
    rintro _ ⟨⟩ -
    exact (hscan.2.1 M rfl).still ⟨rfl, rfl, fun _ hk => hk⟩

end Again

/-! ## Over runs -/

/-- What the ledger did in between. -/
def meanwhile (N : Indexer) (ops : List Op) : Indexer :=
  { N with ledger := Run.final Ledger.step N.ledger ops }

theorem Ready.meanwhile {txids : List Txid} (h : Ready node c N txids) (hwf : N.ledger.Wf)
    {ops : List Op} (hops : ∀ op ∈ ops, Ledger.keepsRequests op = true) :
    Ready node c (N.meanwhile ops) txids := by
  intro txid htxid outs houts out hout id htarget hpos
  have hsettled : N.ledger.TakesNone id.toNat := h txid htxid outs houts out hout id htarget hpos
  have hkept : ∀ e ∈ Run.history Ledger.step N.ledger ops, Ledger.keepsRequests e.2 = true := by
    intro e he
    exact hops e.2 (Run.history_sublist.subset (List.mem_map_of_mem he))
  have hall := Run.invariant_of_history
    (fun (l : Ledger) op _ (hl : l.Wf ∧ l.TakesNone id.toNat)
      (hop : Ledger.keepsRequests op = true) hstep =>
        ⟨hl.1.step hstep, hl.2.step hl.1 hop hstep⟩) ⟨hwf, hsettled⟩ ops hkept
  exact hall.2

/-- A block that was indexed to its end is indexed again, by a node that names the
same block, whatever else is answered, and whatever the ledger did to its requests
in between, short of observing deposits, of rolling them back and of new requests,
and with the deposit addresses known the first time. However far the scan gets,
the ledger is left as it is, and no unmatched deposit is dropped. After that, a
third time adds no unmatched deposit either. -/
theorem reindexed_unchanged (node : Node) (c : IndexerConfig) (es : List Event) (height : ℤ)
    (w w' w'' : BlockAnswers) (N₁ : Indexer) (ops : List Op)
    (hfirst : (after node c es).indexBlock node c height w = .done N₁)
    (hops : ∀ op ∈ ops, Ledger.keepsRequests op = true)
    (hagain : node.hashAt height w'.hash = node.hashAt height w.hash)
    (hthird : node.hashAt height w''.hash = node.hashAt height w.hash) :
    ((N₁.meanwhile ops).indexBlock node c height w').state.ledger = (N₁.meanwhile ops).ledger ∧
    (∀ k, (N₁.unmatched.get? k).isSome = true →
      (((N₁.meanwhile ops).indexBlock node c height w').state.unmatched.get? k).isSome = true) ∧
    ∀ N₂, (N₁.meanwhile ops).indexBlock node c height w' = .done N₂ →
      (N₂.indexBlock node c height w'').state.ledger = N₂.ledger ∧
      (N₂.indexBlock node c height w'').state.unmatched = N₂.unmatched := by
  cases hhash : node.hashAt height w.hash with
  | none =>
    -- nothing was indexed the first time
    unfold indexBlock at hfirst
    rw [hhash] at hfirst
    cases hfirst
  | some hash =>
    have hsame {v : BlockAnswers} (hv : node.hashAt height v.hash = node.hashAt height w.hash)
        (hash' : ℕ) (hhash' : node.hashAt height v.hash = some hash') :
        (node.header hash').tx = (node.header hash).tx := by
      rw [hv, hhash] at hhash'
      rw [Option.some.inj hhash']
    have hready : height ≠ 0 → Ready node c (N₁.meanwhile ops) (node.header hash).tx := by
      intro hne
      obtain ⟨hready, hpassed⟩ := ready_indexBlock hhash hne hfirst
      obtain ⟨next, hbooked⟩ := run_booked (S := fun _ _ _ => True) es
        (empty_booked : Booked node c empty _ _ _) fun _ _ _ _ _ _ => trivial
      exact hready.meanwhile (hpassed.wf hbooked.rows.wf) hops
    have hsecond := indexBlock_ready (w := w') hready (hsame hagain)
    refine ⟨hsecond.1.ledger, hsecond.1.unmatched, fun N₂ hN₂ => ?_⟩
    rw [hN₂] at hsecond
    have hlast := indexBlock_ready (w := w'') (fun hne => (hready hne).still hsecond.1) (hsame hthird)
    exact ⟨hlast.1.ledger, hlast.2.2 fun hne => hsecond.2.1 N₂ rfl hne⟩

/-- What is answered while block 101 is indexed. -/
def sampleAnswers : BlockAnswers := (sampleTick 1 (sampleChain true) fun _ => true).block 1

def sampleScan : Attempt Indexer :=
  (after sampleNode sampleConfig sampleSetup).indexBlock sampleNode sampleConfig 1 sampleAnswers

/-- The deposit was finalized before its block is indexed again. -/
theorem reindexed_unchanged_sample :
    (((sampleScan.state.meanwhile [.markGlcSourceFinalized 1 400]).indexBlock sampleNode sampleConfig 1
      sampleAnswers).state.ledger.requests.get? 1).map Request.state = some .sourceFinalized := by
  have hfirst : sampleScan = .done sampleScan.state := Attempt.eq_done_of_isDone (by decide +kernel)
  have hsame := reindexed_unchanged sampleNode sampleConfig sampleSetup 1 sampleAnswers sampleAnswers
    sampleAnswers sampleScan.state [.markGlcSourceFinalized 1 400] hfirst (by decide) rfl rfl
  rw [hsame.1]
  decide +kernel

end Indexer

end Service.Goldcoin
