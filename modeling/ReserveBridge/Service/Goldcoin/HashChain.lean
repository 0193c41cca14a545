-- SUMMARY: The indexed blocks as a hash chain over runs of ticks: what one block, one tick and one run keep, and the chain that breaks when the best chain moves within a tick.
import ReserveBridge.Service.Goldcoin.Rollback

/-!
# The indexed chain

Between two ticks the stored blocks are those of an interval of heights, each
with the hash of the one below it, and the pending deposits are in them. A tick
that stops midway through a block leaves deposits of a block that is not stored,
at the next height.
-/

namespace Service
open Guard

/-! ## The source block of a pending deposit -/

/-- The states between the observation of a deposit and its finality. -/
def RequestState.isObserved : RequestState → Bool
  | depositObserved | confirming => true
  | _ => false

namespace Request

/-- The deposit was seen on Goldcoin and is not final yet. -/
def Pending (r : Request) : Prop :=
  r.direction.sourceIsGoldcoin ∧ (r.state = .depositObserved ∨ r.state = .confirming)

instance (r : Request) : Decidable r.Pending := inferInstanceAs (Decidable (_ ∧ _))

/-- The source block of a request, by height and hash. -/
def InBlock (r : Request) (height : ℤ) (hash : ℕ) : Prop :=
  r.sourceBlockHeight = some height ∧ r.sourceBlockHash = some hash

end Request

theorem Inserted.not_pending {r : Request} {δ : ℤ × ℤ} (h : Inserted r δ) : ¬ r.Pending := by
  rintro ⟨-, hstate⟩
  cases h with
  | awaiting fresh state => rw [state] at hstate; simp at hstate
  | admitted fresh source state => rw [state] at hstate; simp at hstate
  | parked fresh source state => rw [state] at hstate; simp at hstate

/-- A row that is pending was so before, in the same block, or its deposit was
just observed. -/
theorem Transition.pending {op : Op} {id : ℕ} {r r' : Request} {δ : ℤ × ℤ}
    (h : Transition op id r r' δ) (hpending : r'.Pending) :
    (r.Pending ∧ r'.sourceBlockHeight = r.sourceBlockHeight ∧
      r'.sourceBlockHash = r.sourceBlockHash) ∨
    ∃ dep lock now, op = .recordGlcDepositObserved id dep lock now ∧
      r'.InBlock dep.blockHeight dep.blockHash := by
  have left (hstate : r'.state.isObserved = false) : False := by
    rcases hpending.2 with h | h <;> rw [h] at hstate <;> cases hstate
  cases h with
  | observed hop source h₀ h₁ h => exact .inr ⟨_, _, _, hop, h.sourceBlock⟩
  | confirmations | reviewed | releaseAttested | payoutBuilt | payoutConfirmations
  | completionSubmitted | goldcoinRefundSigned | robinhoodTx => exact .inl ⟨hpending, rfl, rfl⟩
  | solanaRefundBroadcast hf h =>
    refine (left ?_).elim
    split_ifs with hstate
    · rfl
    · exact congrArg RequestState.isObserved (h.resolve_left hstate)
  | releaseConfirmed h destination => exact (left (by split_ifs <;> rfl)).elim
  | robinhoodPayoutSettled hop destination h => exact (left (by split_ifs <;> rfl)).elim
  | _ => exact (left rfl).elim

namespace Ledger

variable {l l' : Ledger} {op : Op} {P Q : ℤ → ℕ → Prop}

/-- Every pending deposit names its block, and it is one of these. -/
def SourcesIn (l : Ledger) (P : ℤ → ℕ → Prop) : Prop :=
  ∀ id r, l.requests.get? id = some r → r.Pending → ∃ height hash, r.InBlock height hash ∧ P height hash

theorem SourcesIn.mono (h : l.SourcesIn P) (hPQ : ∀ height hash, P height hash → Q height hash) :
    l.SourcesIn Q := by
  intro id r hget hpending
  obtain ⟨height, hash, hblock, hP⟩ := h id r hget hpending
  exact ⟨height, hash, hblock, hPQ height hash hP⟩

/-- An operation brings no other block in than that of the deposit it observes. -/
theorem SourcesIn.step (h : l.SourcesIn P) (hwf : l.Wf) (hstep : l.step op = some l')
    (hop : ∀ id dep lock now, op = .recordGlcDepositObserved id dep lock now →
      P dep.blockHeight dep.blockHash) : l'.SourcesIn P := by
  refine (effect_of_step hwf hstep).forall_rows (fun _ _ _ hi hpending => absurd hpending hi.not_pending)
    (fun id r r' δ ht hr hpending => ?_) h
  rcases ht.pending hpending with ⟨hbefore, hheight, hhash⟩ | ⟨dep, lock, now, rfl, hblock⟩
  · obtain ⟨height, hash, hblock, hP⟩ := hr hbefore
    exact ⟨height, hash, ⟨hheight.trans hblock.1, hhash.trans hblock.2⟩, hP⟩
  · exact ⟨_, _, hblock, hop _ dep lock now rfl⟩

/-- A rollback takes back the deposits above the fork. -/
theorem SourcesIn.rollback (h : l.SourcesIn P) (forkHeight : ℤ) :
    (l.goldcoinRollbackReorg forkHeight).SourcesIn fun height hash =>
      P height hash ∧ height ≤ forkHeight := by
  intro id r' hget hpending
  rw [get?_goldcoinRollbackReorg, Option.map_eq_some_iff] at hget
  obtain ⟨r, hget, rfl⟩ := hget
  split_ifs at hpending ⊢ with horphaned
  · exact absurd hpending.2 (by simp [Request.unobserve])
  · obtain ⟨height, hash, hblock, hP⟩ := h id r hget hpending
    refine ⟨height, hash, hblock, hP, not_lt.mp fun habove => horphaned ?_⟩
    exact ⟨hpending.1, hpending.2, height, hblock.1, habove⟩

end Ledger

end Service

namespace Service.Goldcoin
open Guard

namespace Indexer

variable {node : Node} {c : IndexerConfig} {N N₀ N' : Indexer} {P : ℤ → ℕ → Prop}

/-! ## The scan of a block -/

/-- What a scan keeps: no block is written, what was looked at stays, and the
deposits it observes are of these blocks. -/
structure Scanning (N₀ : Indexer) (P : ℤ → ℕ → Prop) (N : Indexer) : Prop where
  blocks : N.blocks = N₀.blocks
  scanned : N₀.scanned ⊆ N.scanned
  wf : N.ledger.Wf
  sources : N.ledger.SourcesIn P

/-- What the ledger answers for a deposit comes of its observation, or nothing
was asked. -/
theorem recordDeposit_step {id : ℤ} {dep : GlcDeposit} {lock : QuoteLock} {now : ℤ}
    {outcome : GlcObservationOutcome} {l : Ledger}
    (h : N.recordDeposit id dep lock now = .ok (outcome, l)) :
    l = N.ledger ∨ ∃ k, N.ledger.step (.recordGlcDepositObserved k dep lock now) = some l := by
  unfold recordDeposit at h
  split_ifs at h with hid
  · simp only [Except.ok.injEq, Prod.mk.injEq] at h
    exact .inl h.2.symm
  · refine .inr ⟨id.toNat, ?_⟩
    rw [Ledger.step, Ledger.run, h]
    rfl

/-- An operation of the ledger next to the scan. -/
theorem Scanning.step (op : Op) {l : Ledger} (h : Scanning N₀ P N) (hstep : N.ledger.step op = some l)
    (hop : ∀ id dep lock now, op = .recordGlcDepositObserved id dep lock now →
      P dep.blockHeight dep.blockHash) : Scanning N₀ P { N with ledger := l } :=
  ⟨h.blocks, h.scanned, h.wf.step hstep, h.sources.step h.wf hstep hop⟩

theorem Scanning.observeGlcDeposit {id : ℤ} {dep : GlcDeposit} {lock : QuoteLock} {now : ℤ}
    (h : Scanning N₀ P N) (hP : P dep.blockHeight dep.blockHash) :
    Scanning N₀ P (N.observeGlcDeposit id dep lock now).state := by
  unfold Indexer.observeGlcDeposit
  split
  · exact h
  · rename_i outcome l hrecord
    have hl : Scanning N₀ P { N with ledger := l } := by
      rcases recordDeposit_step hrecord with rfl | ⟨k, hstep⟩
      · exact h
      · refine h.step _ hstep fun id' dep' lock' now' heq => ?_
        injection heq with _ hdep
        exact hdep ▸ hP
    dsimp only
    split_ifs
    · exact ⟨hl.blocks, hl.scanned, hl.wf, hl.sources⟩
    · exact ⟨hl.blocks, hl.scanned, hl.wf, hl.sources⟩

theorem Scanning.attributeOutput {height : ℤ} {hash : ℕ} {txid : Txid} {wallets : List Bytes}
    {w : BlockAnswers} {out : Candidate} (h : Scanning N₀ P N) (hP : P height hash) :
    Scanning N₀ P (N.attributeOutput height hash txid wallets w out).state := by
  unfold Indexer.attributeOutput
  split
  · split_ifs
    · exact h
    · exact ⟨h.blocks, h.scanned, h.wf, h.sources⟩
  · exact h.observeGlcDeposit hP

theorem Scanning.scanTransaction {height : ℤ} {hash : ℕ} {txid : Txid} {w : BlockAnswers}
    (h : Scanning N₀ P N) (hP : P height hash) :
    Scanning N₀ P (N.scanTransaction node c height hash w txid).state := by
  unfold Indexer.scanTransaction
  split
  · exact h
  · split_ifs
    · refine Attempt.andThen_keeps ?_ fun M _ hM => ?_
      · split_ifs
        · exact h
        · split
          · exact h
          · exact Attempt.loop_invariant (fun M out _ hM => hM.attributeOutput hP) h
      · exact ⟨hM.blocks, fun s hs => List.mem_cons_of_mem _ (hM.scanned hs), hM.wf, hM.sources⟩
    · exact h

/-- A transaction that was scanned is noted. -/
theorem scanTransaction_done {height : ℤ} {hash : ℕ} {txid : Txid} {w : BlockAnswers}
    (h : N.scanTransaction node c height hash w txid = .done N') :
    ⟨height, hash, txid⟩ ∈ N'.scanned := by
  unfold Indexer.scanTransaction at h
  split at h
  · cases h
  · split_ifs at h
    obtain ⟨M, -, h⟩ := Attempt.andThen_eq_done.mp h
    injection h with h
    exact h ▸ List.mem_cons_self

/-- The end of a block: it was found, and either it was scanned in full and is
stored, or the scan stopped midway. -/
theorem indexBlock_cases {height : ℤ} {w : BlockAnswers} (hwf : N.ledger.Wf)
    (hsources : N.ledger.SourcesIn P)
    (hP : ∀ hash, node.hashAt height w.hash = some hash → P height hash) :
    (∃ M, N.indexBlock node c height w = .stopped M ∧ Scanning N P M) ∨
    ∃ hash M, node.hashAt height w.hash = some hash ∧ Scanning N P M ∧
      (height ≠ 0 → ∀ txid ∈ (node.header hash).tx, ⟨height, hash, txid⟩ ∈ M.scanned) ∧
      N.indexBlock node c height w =
        .done (M.ingestBlock height
          ⟨hash, (node.header hash).prevHash, (node.header hash).time, w.now⟩) := by
  have hN : Scanning N P N := ⟨rfl, List.Subset.refl _, hwf, hsources⟩
  unfold indexBlock
  split
  · exact .inl ⟨N, rfl, hN⟩
  rename_i hash hhash
  split_ifs with hheader hgenesis
  · exact .inr ⟨hash, N, hhash, hN, fun hne => absurd hgenesis hne, rfl⟩
  · have hkept : Scanning N P (Attempt.loop (fun N txid => N.scanTransaction node c height hash w txid)
        N (node.header hash).tx).state :=
      Attempt.loop_invariant (fun M txid _ hM => hM.scanTransaction (hP hash hhash)) hN
    cases hloop : Attempt.loop (fun N txid => N.scanTransaction node c height hash w txid) N
        (node.header hash).tx with
    | stopped M =>
      rw [hloop] at hkept
      exact .inl ⟨M, by simp only [hloop, Attempt.stopped_andThen], hkept⟩
    | done M =>
      rw [hloop] at hkept
      refine .inr ⟨hash, M, hhash, hkept, fun _ => ?_, by simp only [hloop, Attempt.done_andThen]⟩
      refine Attempt.loop_establishes (fun txid (M : Indexer) => ⟨height, hash, txid⟩ ∈ M.scanned)
        (fun M txid _ hM => hM.scanTransaction (hP hash hhash)) (fun _ _ _ _ => scanTransaction_done)
        (fun L txid txid' L' hL hstep hseen => ?_) hN hloop
      -- a later transaction adds to what was looked at
      have hself : Scanning L P L := ⟨rfl, List.Subset.refl _, hL.wf, hL.sources⟩
      have hscan : Scanning L P (L.scanTransaction node c height hash w txid').state :=
        hself.scanTransaction (hP hash hhash)
      rw [hstep] at hscan
      exact hscan.scanned hseen
  · exact .inl ⟨N, rfl, hN⟩

/-! ## The stored chain -/

/-- The block of this height and hash is stored. -/
def Stores (N : Indexer) (height : ℤ) (hash : ℕ) : Prop :=
  (N.blocks.get? height).map IndexedBlock.hash = some hash

instance (N : Indexer) (height : ℤ) (hash : ℕ) : Decidable (N.Stores height hash) :=
  inferInstanceAs (Decidable (_ = _))

/-- The blocks from `base` up to below `next` are stored, they are a hash chain,
and each was scanned in full. -/
structure Chain (node : Node) (base next : ℤ) (N : Indexer) : Prop where
  wf : N.ledger.Wf
  span : ∀ h, (N.blocks.get? h).isSome ↔ base ≤ h ∧ h < next
  header : ∀ h b, N.blocks.get? h = some b →
    node.height b.hash = h ∧ b.prevHash = (node.header b.hash).prevHash
  links : ∀ h b b', N.blocks.get? h = some b → N.blocks.get? (h + 1) = some b' →
    b'.prevHash = b.hash
  scanned : ∀ h b, N.blocks.get? h = some b → h ≠ 0 →
    ∀ txid ∈ (node.header b.hash).tx, ⟨h, b.hash, txid⟩ ∈ N.scanned

variable {base next h : ℤ}

theorem Stores.lt_next {hash : ℕ} (hchain : Chain node base next N) (hstores : N.Stores h hash) :
    h < next := by
  obtain ⟨b, hget, -⟩ := Option.map_eq_some_iff.mp hstores
  exact ((hchain.span h).mp (by rw [hget]; rfl)).2

theorem Scanning.stores (hscan : Scanning N₀ P N) (hash : ℕ) :
    N.Stores h hash ↔ N₀.Stores h hash := by
  rw [Stores, Stores, hscan.blocks]

/-- A scan leaves the chain. -/
theorem Scanning.chain (hscan : Scanning N₀ P N) (h : Chain node base next N₀) :
    Chain node base next N := by
  have hblocks := hscan.blocks
  constructor
  · exact hscan.wf
  · rw [hblocks]; exact h.span
  · rw [hblocks]; exact h.header
  · rw [hblocks]; exact h.links
  · rw [hblocks]
    exact fun k b hget hk txid htxid => hscan.scanned (h.scanned k b hget hk txid htxid)

@[simp] theorem blocks_ingestBlock (N : Indexer) (height k : ℤ) (b : IndexedBlock) :
    (N.ingestBlock height b).blocks.get? k = if k = height then some b else N.blocks.get? k := by
  rw [ingestBlock, Store.get?_upsert]
  split_ifs with hk
  · subst hk
    cases N.blocks.get? k <;> rfl
  · rfl

/-- The block that continues the chain is stored on top of it. -/
theorem Chain.ingestBlock {b : IndexedBlock} (hchain : Chain node base next N) (hbase : base ≤ next)
    (hheader : node.height b.hash = next ∧ b.prevHash = (node.header b.hash).prevHash)
    (hlink : ∀ p, N.blocks.get? (next - 1) = some p → b.prevHash = p.hash)
    (hscanned : next ≠ 0 → ∀ txid ∈ (node.header b.hash).tx, ⟨next, b.hash, txid⟩ ∈ N.scanned) :
    Chain node base (next + 1) (N.ingestBlock next b) := by
  have hnone : N.blocks.get? (next + 1) = none := by
    rw [← Option.not_isSome_iff_eq_none, hchain.span]
    omega
  constructor
  · exact hchain.wf
  · intro k
    rw [blocks_ingestBlock]
    split_ifs with hk
    · simp only [Option.isSome_some, true_iff]
      omega
    · rw [hchain.span]
      omega
  · intro k b' hget
    rw [blocks_ingestBlock] at hget
    split_ifs at hget with hk
    · obtain rfl := Option.some.inj hget
      exact hk ▸ hheader
    · exact hchain.header k b' hget
  · intro k p b' hp hget
    rw [blocks_ingestBlock] at hp hget
    split_ifs at hp with hk
    · rw [hk, if_neg (by omega), hnone] at hget
      cases hget
    · split_ifs at hget with hk'
      · obtain rfl := Option.some.inj hget
        exact hlink p (by rw [← hk', add_sub_cancel_right]; exact hp)
      · exact hchain.links k p b' hp hget
  · intro k b' hget hk
    rw [blocks_ingestBlock] at hget
    split_ifs at hget with hk'
    · obtain rfl := Option.some.inj hget
      exact hk' ▸ hscanned (hk' ▸ hk)
    · exact hchain.scanned k b' hget hk

/-! ## One block -/

/-- The pending deposits are in stored blocks, or in one at the next height that
was not scanned to its end. -/
def Sourced (N : Indexer) (next : ℤ) : Prop :=
  N.ledger.SourcesIn fun height hash => N.Stores height hash ∨ height = next

theorem Scanning.sourced {Q : ℤ → ℕ → Prop} (hscan : Scanning N₀ P N)
    (hPQ : ∀ height hash, P height hash → N₀.Stores height hash ∨ Q height hash) :
    N.ledger.SourcesIn fun height hash => N.Stores height hash ∨ Q height hash :=
  hscan.sources.mono fun height hash hP => (hPQ height hash hP).imp_left (hscan.stores hash).mpr

/-- A block that continues the chain is stored with the deposits in it, and one
that is scanned in part leaves deposits at its height. -/
theorem indexBlock_chain {w : BlockAnswers} (hchain : Chain node base next N) (hbase : base ≤ next)
    (hsources : N.Sourced next)
    (hleft : ∀ id r, N.ledger.requests.get? id = some r → r.Pending →
      r.sourceBlockHeight = some next →
        ∀ hash ∈ node.hashAt next w.hash, r.sourceBlockHash = some hash)
    (hlink : ∀ hash ∈ node.hashAt next w.hash, ∀ p ∈ N.blocks.get? (next - 1),
      (node.header hash).prevHash = p.hash) :
    (∃ M, N.indexBlock node c next w = .stopped M ∧ Chain node base next M ∧ M.Sourced next) ∨
    ∃ hash M, node.hashAt next w.hash = some hash ∧ N.indexBlock node c next w = .done M ∧
      Chain node base (next + 1) M ∧ M.ledger.SourcesIn M.Stores ∧ M.Stores next hash := by
  -- the blocks a deposit may be in while this one is scanned
  let Open (height : ℤ) (hash : ℕ) : Prop :=
    N.Stores height hash ∨ height = next ∧ ∀ x ∈ node.hashAt next w.hash, hash = x
  have hopen : N.ledger.SourcesIn Open := by
    intro id r hget hpending
    obtain ⟨height, hash, hblock, hstores | rfl⟩ := hsources id r hget hpending
    · exact ⟨height, hash, hblock, .inl hstores⟩
    · refine ⟨height, hash, hblock, .inr ⟨rfl, fun x hx => ?_⟩⟩
      exact Option.some.inj (hblock.2.symm.trans (hleft id r hget hpending hblock.1 x hx))
  have hnew (hash : ℕ) (hhash : node.hashAt next w.hash = some hash) : Open next hash :=
    .inr ⟨rfl, fun x hx => Option.some.inj (hhash.symm.trans hx)⟩
  rcases indexBlock_cases (c := c) hchain.wf hopen hnew with
    ⟨M, hstopped, hscan⟩ | ⟨hash, M, hhash, hscan, hall, hdone⟩
  · exact .inl ⟨M, hstopped, hscan.chain hchain, hscan.sourced fun _ _ h => h.imp_right And.left⟩
  · have hheight : node.height hash = next := of_decide_eq_true (Option.filter_eq_some_iff.mp hhash).2
    have hM := hscan.chain hchain
    refine .inr ⟨hash, _, hhash, hdone, hM.ingestBlock hbase ⟨hheight, rfl⟩ ?_ hall, ?_, ?_⟩
    · intro p hp
      rw [hscan.blocks] at hp
      exact hlink hash hhash p hp
    · -- what was in the open block is in a stored one now
      refine hscan.sources.mono fun height x hP => ?_
      rw [Stores, blocks_ingestBlock]
      rcases hP with hstores | ⟨rfl, hx⟩
      · rw [if_neg (hstores.lt_next hchain).ne]
        exact (hscan.stores x).mpr hstores
      · rw [if_pos rfl, hx hash hhash]
        rfl
    · rw [Stores, blocks_ingestBlock, if_pos rfl]
      rfl

/-! ## The blocks of a tick -/

theorem heights_eq_nil {start tip : ℤ} (h : tip < start) : heights start tip = [] := by
  rw [heights, show (tip + 1 - start).toNat = 0 by omega]
  rfl

theorem heights_eq_cons {start tip : ℤ} (h : start ≤ tip) :
    heights start tip = start :: heights (start + 1) tip := by
  rw [heights, heights, show (tip + 1 - start).toNat = (tip + 1 - (start + 1)).toNat + 1 by omega,
    List.range_succ_eq_map, List.map_cons, List.map_map]
  refine congrArg₂ _ (by simp) (List.map_congr_left fun i _ => ?_)
  simp only [Function.comp_apply]
  omega

/-- The blocks of a tick continue the stored chain and each other, and a block
that was left midway is there again. -/
def Steady (node : Node) (w : TickAnswers) (start tip : ℤ) (N : Indexer) : Prop :=
  (start ≤ tip → ∀ hash ∈ node.hashAt start (w.block start).hash,
    ∀ p ∈ N.blocks.get? (start - 1), (node.header hash).prevHash = p.hash) ∧
  (∀ h ∈ heights (start + 1) tip, ∀ hash ∈ node.hashAt h (w.block h).hash,
    ∀ prev ∈ node.hashAt (h - 1) (w.block (h - 1)).hash, (node.header hash).prevHash = prev) ∧
  ∀ e ∈ N.ledger.requests.entries, e.2.Pending → e.2.sourceBlockHeight = some start →
    start ≤ tip ∧ ∀ hash ∈ node.hashAt start (w.block start).hash, e.2.sourceBlockHash = some hash

instance (w : TickAnswers) (start tip : ℤ) (N : Indexer) : Decidable (Steady node w start tip N) :=
  inferInstanceAs (Decidable (_ ∧ _ ∧ _))

/-- The blocks of a tick are stored on top of the chain, up to one that stops. -/
theorem indexBlocks_chain {w : TickAnswers} {tip : ℤ} (hchain : Chain node base next N)
    (hbase : base ≤ next) (hsources : N.Sourced next) (hsteady : Steady node w next tip N) :
    ∃ M next', next ≤ next' ∧ Chain node base next' M ∧
      (N.indexBlocks node c w next tip = .stopped M ∧ M.Sourced next' ∨
        N.indexBlocks node c w next tip = .done M ∧ M.ledger.SourcesIn M.Stores) := by
  obtain ⟨hfirst, hnext, hagain⟩ := hsteady
  have hagain' (id : ℕ) (r : Request) (hget : N.ledger.requests.get? id = some r)
      (hpending : r.Pending) (hheight : r.sourceBlockHeight = some next) :
      next ≤ tip ∧ ∀ hash ∈ node.hashAt next (w.block next).hash, r.sourceBlockHash = some hash :=
    hagain (id, r) (Store.mem_of_get? hget) hpending hheight
  induction hn : (tip + 1 - next).toNat generalizing N next with
  | zero =>
    have hnil : N.indexBlocks node c w next tip = .done N := by
      rw [indexBlocks, heights_eq_nil (by omega)]
      rfl
    refine ⟨N, next, le_rfl, hchain, .inr ⟨hnil, fun id r hget hpending => ?_⟩⟩
    obtain ⟨height, hash, hblock, hstores | rfl⟩ := hsources id r hget hpending
    · exact ⟨height, hash, hblock, hstores⟩
    · have hle := (hagain' id r hget hpending hblock.1).1
      omega
  | succ n ih =>
    have hle : next ≤ tip := by omega
    have hcons : N.indexBlocks node c w next tip =
        (N.indexBlock node c next (w.block next)).andThen
          fun M => M.indexBlocks node c w (next + 1) tip := by
      rw [indexBlocks, heights_eq_cons hle]
      rfl
    rcases indexBlock_chain (c := c) (w := w.block next) hchain hbase hsources
      (fun id r hget hpending hheight => (hagain' id r hget hpending hheight).2) (hfirst hle) with
      ⟨M, hstopped, hM, hMsources⟩ | ⟨hash, M, hhash, hdone, hM, hMsources, hstores⟩
    · exact ⟨M, next, le_rfl, hM, .inl ⟨by rw [hcons, hstopped]; rfl, hMsources⟩⟩
    · have hMsourced : M.Sourced (next + 1) := hMsources.mono fun _ _ h => .inl h
      have hfirst' (hle' : next + 1 ≤ tip) : ∀ hash' ∈ node.hashAt (next + 1) (w.block (next + 1)).hash,
          ∀ p ∈ M.blocks.get? (next + 1 - 1), (node.header hash').prevHash = p.hash := by
        intro hash' hhash' p hp
        rw [add_sub_cancel_right] at hp
        have hp' : p.hash = hash := by
          rw [Stores, hp] at hstores
          exact Option.some.inj hstores
        rw [hp']
        refine hnext (next + 1) ?_ hash' hhash' hash ?_
        · rw [heights_eq_cons hle']
          exact List.mem_cons_self
        · rw [add_sub_cancel_right]
          exact hhash
      have hnext' : ∀ h ∈ heights (next + 1 + 1) tip, ∀ hash ∈ node.hashAt h (w.block h).hash,
          ∀ prev ∈ node.hashAt (h - 1) (w.block (h - 1)).hash, (node.header hash).prevHash = prev := by
        intro h hmem
        refine hnext h ?_
        by_cases hle' : next + 1 ≤ tip
        · rw [heights_eq_cons hle']
          exact List.mem_cons_of_mem _ hmem
        · rw [heights_eq_nil (by omega)] at hmem
          cases hmem
      -- no deposit names a height that is not stored yet
      have hnone (id : ℕ) (r : Request) (hget : M.ledger.requests.get? id = some r)
          (hpending : r.Pending) (hheight : r.sourceBlockHeight = some (next + 1)) : False := by
        obtain ⟨height, x, hblock, hx⟩ := hMsources id r hget hpending
        obtain rfl := Option.some.inj (hblock.1.symm.trans hheight)
        exact absurd (hx.lt_next hM) (lt_irrefl _)
      obtain ⟨M', next', hle', hM', hend⟩ := ih hM (by omega) hMsourced hfirst' hnext'
        (fun e he hpending hheight =>
          (hnone e.1 e.2 (Store.get?_of_mem he) hpending hheight).elim)
        (fun id r hget hpending hheight => (hnone id r hget hpending hheight).elim) (by omega)
      rw [hcons, hdone]
      exact ⟨M', next', by omega, hM', hend⟩

/-! ## The opening of a tick -/

/-- Where the blocks start when none is stored. -/
def IndexerConfig.startHeight (c : IndexerConfig) : ℤ :=
  (c.initialCheckpoint.map InitialCheckpoint.height).getD 0

theorem bootstrap_eq {w : TickAnswers} {tip start : ℤ} (h : bootstrap node c w tip = some start) :
    start = IndexerConfig.startHeight c := by
  unfold bootstrap at h
  unfold IndexerConfig.startHeight
  split at h
  · rename_i hnone
    rw [hnone]
    exact (Option.some.inj h).symm
  · rename_i checkpoint hsome
    split_ifs at h
    rw [hsome]
    exact (Option.some.inj h).symm

theorem chainTip_eq_none (h : N.chainTip = none) (k : ℤ) : N.blocks.get? k = none := by
  cases htip : N.blocks.keys.max? with
  | none =>
    rw [List.max?_eq_none_iff] at htip
    exact Store.get?_eq_none.mpr (htip ▸ List.not_mem_nil)
  | some tip =>
    have hmem := Store.get?_isSome.mpr (List.max?_eq_some_iff.mp htip).1
    obtain ⟨b, hb⟩ := Option.isSome_iff_exists.mp hmem
    simp [chainTip, htip, hb] at h

theorem chainTip_eq_some {tip : ℤ} {b : IndexedBlock} (h : N.chainTip = some (tip, b)) :
    N.blocks.get? tip = some b ∧ ∀ k, (N.blocks.get? k).isSome → k ≤ tip := by
  simp only [chainTip, Option.bind_eq_bind, Option.bind_eq_some_iff, Option.pure_def,
    Option.some.injEq, Prod.mk.injEq] at h
  obtain ⟨tip', htip, b', hb, rfl, rfl⟩ := h
  exact ⟨hb, fun k hk => (List.max?_eq_some_iff.mp htip).2 k (Store.get?_isSome.mp hk)⟩

/-- The fork is a stored height. -/
theorem findForkPoint_stored {search : ℤ → Option ℕ} {k fork : ℤ} {left : ℕ}
    (h : N.findForkPoint node search k left = .ok (some fork)) : (N.blocks.get? fork).isSome := by
  fun_induction findForkPoint N node search k left with
  | case1 | case2 | case4 => simp at h
  | case3 k left hpos live hlive hlocal =>
    obtain ⟨b, hget, -⟩ := Option.map_eq_some_iff.mp hlocal
    rw [← Option.some.inj (Except.ok.inj h), hget]
    rfl
  | case5 k hpos live hlive hlocal left ih => exact ih h

/-- A rollback leaves the chain up to the fork. -/
theorem Chain.rollback {fork : ℤ} (hchain : Chain node base next N) (hfork : base ≤ fork ∧ fork < next) :
    Chain node base (fork + 1) (N.rollbackReorg fork) := by
  have hget (k : ℤ) (b : IndexedBlock) (h : (N.rollbackReorg fork).blocks.get? k = some b) :
      N.blocks.get? k = some b ∧ k ≤ fork := by
    rw [rollbackReorg, Store.get?_retain] at h
    split_ifs at h with hle
    exact ⟨h, of_decide_eq_true hle⟩
  constructor
  · have hstep : N.ledger.step (.goldcoinRollbackReorg fork) =
        some (N.ledger.goldcoinRollbackReorg fork) := rfl
    exact hchain.wf.step hstep
  · intro k
    rw [rollbackReorg, Store.get?_retain]
    split_ifs with hle
    · rw [hchain.span]
      have hle' := of_decide_eq_true hle
      omega
    · have hlt : ¬ k ≤ fork := of_decide_eq_false (Bool.not_eq_true _ ▸ hle)
      simp only [Option.isSome_none, Bool.false_eq_true, false_iff]
      omega
  · exact fun k b h => hchain.header k b (hget k b h).1
  · exact fun k b b' h h' => hchain.links k b b' (hget k b h).1 (hget _ b' h').1
  · intro k b h hk txid htxid
    exact List.mem_filter.mpr
      ⟨hchain.scanned k b (hget k b h).1 hk txid htxid, decide_eq_true (hget k b h).2⟩

theorem Sourced.rollback {fork : ℤ} (h : N.Sourced next) (hfork : fork < next) :
    (N.rollbackReorg fork).Sourced (fork + 1) := by
  refine (Ledger.SourcesIn.rollback h fork).mono fun height hash hP => ?_
  obtain ⟨hstores | rfl, hle⟩ := hP
  · refine .inl ?_
    rw [Stores, rollbackReorg, Store.get?_retain, if_pos (decide_eq_true hle)]
    exact hstores
  · omega

/-- What holds of the indexer between its ticks. -/
def Indexed (node : Node) (c : IndexerConfig) (N : Indexer) : Prop :=
  ∃ base next, base ≤ next ∧ (base = next → next = IndexerConfig.startHeight c) ∧
    Chain node base next N ∧ N.Sourced next

/-- The tables and the halts that a scan leaves aside do not matter. -/
theorem Indexed.of_scanning (hN : Indexed node c N)
    (hscan : ∀ next, N.Sourced next →
      Scanning N (fun height hash => N.Stores height hash ∨ height = next) N') :
    Indexed node c N' := by
  obtain ⟨base, next, hbase, hstart, hchain, hsources⟩ := hN
  have hN' := hscan next hsources
  exact ⟨base, next, hbase, hstart, hN'.chain hchain, hN'.sourced fun _ _ h => h⟩

theorem Chain.scanning (hchain : Chain node base next N) (hsources : N.ledger.SourcesIn P) :
    Scanning N P N :=
  ⟨rfl, List.Subset.refl _, hchain.wf, hsources⟩

theorem Scanning.setting (hscan : Scanning N₀ P N) (s : Setting) :
    Scanning N₀ P { N with ledger := N.ledger.applySetting s } :=
  hscan.step (.setting s) rfl fun _ _ _ _ h => by cases h

/-- The opening leaves the chain that the first block goes on top of, or ends
the tick. -/
theorem beginTick_indexed {w : TickAnswers} (hN : Indexed node c N) :
    (∃ N' outcome, N.beginTick node c w = .ends N' outcome ∧ outcome ≠ .progressed ∧
      Indexed node c N') ∨
    ∃ N' base start tip, N.beginTick node c w = .starts N' start tip ∧ base ≤ start ∧
      (base = start → start = IndexerConfig.startHeight c) ∧ Chain node base start N' ∧
      N'.Sourced start := by
  obtain ⟨base, next, hbase, hstart, hchain, hsources⟩ := hN
  have hN : Indexed node c N := ⟨base, next, hbase, hstart, hchain, hsources⟩
  have hself := hchain.scanning hsources
  unfold beginTick
  split_ifs
  · exact .inl ⟨N, _, rfl, by simp, hN⟩
  · exact .inl ⟨N, _, rfl, by simp, hN⟩
  split
  · exact .inl ⟨N, _, rfl, by simp, hN⟩
  split
  · rename_i htip
    split
    · exact .inl ⟨N, _, rfl, by simp, hN⟩
    · -- nothing is stored yet
      rename_i start hboot
      have hempty : base = next := by
        by_contra hne
        have hsome := (hchain.span base).mpr ⟨le_rfl, by omega⟩
        rw [chainTip_eq_none htip] at hsome
        cases hsome
      obtain rfl : start = next := (bootstrap_eq hboot).trans (hstart hempty).symm
      exact .inr ⟨N, base, start, _, rfl, hbase, hstart, hchain, hsources⟩
  · rename_i localTip b htip
    obtain ⟨hget, hmax⟩ := chainTip_eq_some htip
    have htop := (hchain.span localTip).mp (by rw [hget]; rfl)
    have hnext : next = localTip + 1 := by
      by_contra hne
      have hle := hmax (localTip + 1) ((hchain.span _).mpr ⟨by omega, by omega⟩)
      omega
    split
    · exact .inl ⟨N, _, rfl, by simp, hN⟩
    · refine .inl ⟨_, _, rfl, by simp, ?_⟩
      exact ⟨base, next, hbase, hstart, ⟨hchain.wf, hchain.span, hchain.header, hchain.links,
        hchain.scanned⟩, hsources⟩
    · rename_i fork hfork
      have hin := (hchain.span fork).mp (findForkPoint_stored hfork)
      split_ifs
      · exact .inr ⟨N, base, _, _, rfl, by omega, by omega, hnext ▸ hchain, hnext ▸ hsources⟩
      · refine .inl ⟨_, _, rfl, by simp, hN.of_scanning fun next hsources => ?_⟩
        have hpaused := ((hchain.scanning hsources).setting (.paused .goldcoinReserve true)).setting
          (.paused .solanaReserve true)
        exact ⟨hpaused.blocks, hpaused.scanned, hpaused.wf, hpaused.sources⟩
      · split
        · exact .inl ⟨N, _, rfl, by simp, hN⟩
        · exact .inr ⟨_, base, _, _, rfl, by omega, by omega, hchain.rollback hin,
            hsources.rollback hin.2⟩

/-! ## A tick -/

theorem Scanning.writeLedger (op : Op) {rest : Indexer → Attempt Indexer} (h : Scanning N₀ P N)
    (hop : op.writesDeposit = false)
    (hrest : ∀ M, Scanning N₀ P M → Scanning N₀ P (rest M).state) :
    Scanning N₀ P (N.writeLedger (N.ledger.run op) rest).state := by
  unfold Indexer.writeLedger
  split
  · exact h
  · rename_i l hrun
    refine hrest _ (h.step op ?_ fun _ _ _ _ heq => ?_)
    · rw [Ledger.step, hrun]
      rfl
    · rw [heq] at hop
      cases hop

/-- The promotion writes the state of its rows, not their blocks. -/
theorem Scanning.promoteConfirming {w : TickAnswers} {tip : ℤ} (h : Scanning N₀ P N) :
    Scanning N₀ P (N.promoteConfirming c tip w).state := by
  refine Attempt.loop_invariant (fun M e _ hM => ?_) h
  unfold promoteRow
  split
  · exact hM
  · refine hM.writeLedger (.updateGlcConfirmations _ _) rfl fun L hL => ?_
    split_ifs
    · exact hL
    · split
      · exact hL
      · exact hL.writeLedger (.markGlcDepositSpentBeforeFinalized _) rfl fun _ hL' => hL'
      · exact hL.writeLedger (.markGlcSourceFinalized _ _) rfl fun _ hL' => hL'

/-- The blocks of a tick, if it gets to them, follow what is there. -/
def FollowsChain (node : Node) (c : IndexerConfig) (N : Indexer) (w : TickAnswers) : Prop :=
  match N.beginTick node c w with
  | .ends _ _ => True
  | .starts N start tip => Steady node w start tip N

instance (N : Indexer) (w : TickAnswers) : Decidable (FollowsChain node c N w) := by
  unfold FollowsChain
  split <;> infer_instance

/-- A tick leaves a chain. One that progressed leaves no deposit outside of it. -/
theorem tick_indexed {w : TickAnswers} (hN : Indexed node c N) (hw : FollowsChain node c N w) :
    Indexed node c (N.tick node c w).1 ∧
      ((N.tick node c w).2 = .progressed → ∃ base next, Chain node base next (N.tick node c w).1 ∧
        (N.tick node c w).1.ledger.SourcesIn (N.tick node c w).1.Stores) := by
  unfold FollowsChain at hw
  unfold tick
  rcases beginTick_indexed (w := w) hN with ⟨N', outcome, hbegin, hne, hN'⟩ |
    ⟨N', base, start, tip, hbegin, hbase, hstart, hchain, hsources⟩
  · rw [hbegin]
    exact ⟨hN', fun h => absurd h hne⟩
  rw [hbegin] at hw ⊢
  obtain ⟨M, next, hnext, hM, ⟨hstopped, hMsources⟩ | ⟨hdone, hMsources⟩⟩ :=
    indexBlocks_chain (c := c) hchain hbase hsources hw
  · dsimp only
    rw [hstopped]
    refine ⟨⟨base, next, by omega, ?_, hM, hMsources⟩, fun h => by cases h⟩
    intro heq
    have hstart' := hstart (by omega)
    omega
  · have hpromoted : Scanning M M.Stores (M.promoteConfirming c tip w).state :=
      (hM.scanning hMsources).promoteConfirming
    have hchain' := hpromoted.chain hM
    have hsources' : (M.promoteConfirming c tip w).state.ledger.SourcesIn
        (M.promoteConfirming c tip w).state.Stores :=
      hpromoted.sources.mono fun height hash h => (hpromoted.stores hash).mpr h
    have hindexed : Indexed node c (M.promoteConfirming c tip w).state := by
      refine ⟨base, next, by omega, ?_, hchain', hsources'.mono fun _ _ h => .inl h⟩
      intro heq
      have hstart' := hstart (by omega)
      omega
    dsimp only
    rw [hdone, Attempt.done_andThen]
    cases hend : M.promoteConfirming c tip w with
    | stopped L =>
      rw [hend] at hindexed
      exact ⟨hindexed, fun h => by cases h⟩
    | done L =>
      rw [hend] at hindexed hchain' hsources'
      exact ⟨hindexed, fun _ => ⟨base, next, hchain', hsources'⟩⟩

/-! ## Runs -/

/-- What happens to the indexer: another operation of the ledger, the deposit
address of a request, a restart of the process, or a tick. The deposits of the
ledger are written by the ticks. -/
inductive Event
  | ledger (op : Op)
  | depositAddress (id : ℕ) (script : Bytes)
  | restart
  | tick (w : TickAnswers)

def step (node : Node) (c : IndexerConfig) (N : Indexer) : Event → Option Indexer
  | .ledger op =>
    if op.writesDeposit then none else (N.ledger.step op).map fun l => { N with ledger := l }
  | .depositAddress id script => N.setDepositAddress id script
  | .restart => some { N with halted := false, postFinalityHalt := none }
  | .tick w => some (N.tick node c w).1

/-- The state after a run from the empty ledger. -/
abbrev after (node : Node) (c : IndexerConfig) (es : List Event) : Indexer :=
  Run.final (step node c) empty es

/-- The ticks among the events follow the chain. -/
def Follows (node : Node) (c : IndexerConfig) (N : Indexer) : Event → Prop
  | .tick w => FollowsChain node c N w
  | _ => True

instance (N : Indexer) (e : Event) : Decidable (Follows node c N e) := by
  cases e <;> unfold Follows <;> infer_instance

theorem empty_indexed : Indexed node c empty := by
  have hnone (h : ℤ) : empty.blocks.get? h = none := rfl
  refine ⟨IndexerConfig.startHeight c, IndexerConfig.startHeight c, le_rfl, fun _ => rfl, ?_, ?_⟩
  · constructor
    · exact Ledger.wf_empty
    · intro h
      rw [hnone]
      simp
    · exact fun h b hget => by rw [hnone] at hget; cases hget
    · exact fun h b b' hget => by rw [hnone] at hget; cases hget
    · exact fun h b hget => by rw [hnone] at hget; cases hget
  · intro id r hget
    cases hget

theorem step_indexed {e : Event} (hN : Indexed node c N) (he : Follows node c N e)
    (hstep : step node c N e = some N') : Indexed node c N' := by
  have hself (next : ℤ) (hsources : N.Sourced next) :
      Scanning N (fun height hash => N.Stores height hash ∨ height = next) N := by
    obtain ⟨base, next', -, -, hchain, -⟩ := hN
    exact hchain.scanning hsources
  cases e with
  | ledger op =>
    simp only [step] at hstep
    split_ifs at hstep with hop
    obtain ⟨l, hl, rfl⟩ := Option.map_eq_some_iff.mp hstep
    refine hN.of_scanning fun next hsources => (hself next hsources).step op hl ?_
    rintro id dep lock now rfl
    exact absurd rfl hop
  | depositAddress id script =>
    refine hN.of_scanning fun next hsources => ?_
    have hscan := hself next hsources
    simp only [step, setDepositAddress, Option.bind_eq_bind, Option.bind_eq_some_iff] at hstep
    obtain ⟨r, -, scripts, -, hstep⟩ := hstep
    split_ifs at hstep
    obtain rfl := Option.some.inj hstep
    exact ⟨hscan.blocks, hscan.scanned, hscan.wf, hscan.sources⟩
  | restart =>
    obtain rfl := Option.some.inj hstep
    refine hN.of_scanning fun next hsources => ?_
    have hscan := hself next hsources
    exact ⟨hscan.blocks, hscan.scanned, hscan.wf, hscan.sources⟩
  | tick w =>
    obtain rfl := Option.some.inj hstep
    exact (tick_indexed hN he).1

/-- A chain of blocks that ends in the stored tip is what is stored. -/
theorem Chain.eq_best {best : ℤ → ℕ} {tip : ℤ} (hchain : Chain node base next N)
    (hbest : ∀ h < tip, (N.blocks.get? h).isSome → (node.header (best (h + 1))).prevHash = best h)
    (htip : N.Stores tip (best tip)) (hlast : next = tip + 1) {h : ℤ} {b : IndexedBlock}
    (hget : N.blocks.get? h = some b) : b.hash = best h := by
  have hin := (hchain.span h).mp (by rw [hget]; rfl)
  obtain ⟨n, hn⟩ : ∃ n : ℕ, h + n = tip := ⟨(tip - h).toNat, by omega⟩
  -- downwards from the tip
  induction n generalizing h b with
  | zero =>
    obtain rfl : h = tip := by omega
    rw [Stores, hget] at htip
    exact Option.some.inj htip
  | succ n ih =>
    obtain ⟨b', hget'⟩ := Option.isSome_iff_exists.mp ((hchain.span (h + 1)).mpr (by omega))
    have hup : b'.hash = best (h + 1) := ih hget' (by omega) (by omega)
    rw [← hchain.links h b b' hget hget', (hchain.header _ b' hget').2, hup]
    exact hbest h (by omega) (by rw [hget]; rfl)

/-- The stored blocks are a hash chain, each of them was scanned in full, and the
block of every pending deposit is among them. Where the best chain ends in their
tip, they are its blocks. -/
structure HashChain (node : Node) (N : Indexer) : Prop where
  links : ∀ h b b', N.blocks.get? h = some b → N.blocks.get? (h + 1) = some b' →
    b'.prevHash = b.hash
  scanned : ∀ h b, N.blocks.get? h = some b → ∀ txid ∈ (node.header b.hash).tx,
    (node.transaction txid).isSome → ⟨h, b.hash, txid⟩ ∈ N.scanned
  sources : ∀ id r, N.ledger.requests.get? id = some r → r.Pending →
    ∃ h b, N.blocks.get? h = some b ∧ r.InBlock h b.hash
  best : ∀ best : ℤ → ℕ, ∀ tip b, N.chainTip = some (tip, b) → b.hash = best tip →
    (∀ h < tip, (N.blocks.get? h).isSome → (node.header (best (h + 1))).prevHash = best h) →
      ∀ h b, N.blocks.get? h = some b → b.hash = best h

/-- Where a block names another one than that below it, there is no chain. -/
theorem HashChain.prev_eq (hN : HashChain node N) (h : ℤ) (hash prev : ℕ) (hhash : N.Stores h hash)
    (hprev : (N.blocks.get? (h + 1)).map IndexedBlock.prevHash = some prev) : prev = hash := by
  obtain ⟨b, hb, rfl⟩ := Option.map_eq_some_iff.mp hhash
  obtain ⟨b', hb', rfl⟩ := Option.map_eq_some_iff.mp hprev
  exact hN.links h b b' hb hb'

theorem HashChain.stores (hN : HashChain node N) (id : ℕ) (h : ℤ) (hash : ℕ)
    (hrow : (N.ledger.requests.get? id).map
      (fun (r : Request) => (decide r.Pending, r.sourceBlockHeight, r.sourceBlockHash)) =
        some (true, some h, some hash)) : N.Stores h hash := by
  obtain ⟨r, hget, hr⟩ := Option.map_eq_some_iff.mp hrow
  simp only [Prod.mk.injEq, decide_eq_true_eq] at hr
  obtain ⟨h', b, hb, hblock⟩ := hN.sources id r hget hr.1
  obtain rfl := Option.some.inj (hblock.1.symm.trans hr.2.1)
  obtain rfl := Option.some.inj (hblock.2.symm.trans hr.2.2)
  rw [Stores, hb]
  rfl

/-- In a run whose ticks follow the chain, each tick that progresses leaves a hash
chain. -/
theorem chain_indexed (node : Node) (c : IndexerConfig) (es : List Event) (w : TickAnswers)
    (hfollows : ∀ e ∈ Run.history (step node c) empty es, Follows node c e.1 e.2)
    (hw : FollowsChain node c (after node c es) w)
    (hprogressed : ((after node c es).tick node c w).2 = .progressed) :
    HashChain node ((after node c es).tick node c w).1 := by
  have hindexed : Indexed node c (after node c es) :=
    Run.invariant_of_history (fun _ _ _ hN he hstep => step_indexed hN he hstep) empty_indexed es
      hfollows
  obtain ⟨base, next, hchain, hsources⟩ := (tick_indexed hindexed hw).2 hprogressed
  refine ⟨hchain.links, fun h b hget txid htxid hfetched => ?_, fun id r hget hpending => ?_,
    fun best tip b htip hhash hbest h b' hget => ?_⟩
  · refine hchain.scanned h b hget (fun hgenesis => ?_) txid htxid
    have hheight := (hchain.header h b hget).1
    rw [node.genesis_unfetchable b.hash (hheight.trans hgenesis) txid htxid] at hfetched
    cases hfetched
  · obtain ⟨h, hash, hblock, hstores⟩ := hsources id r hget hpending
    obtain ⟨b, hb, rfl⟩ := Option.map_eq_some_iff.mp hstores
    exact ⟨h, b, hb, hblock⟩
  · obtain ⟨htop, hmax⟩ := chainTip_eq_some htip
    have hin := (hchain.span tip).mp (by rw [htop]; rfl)
    refine hchain.eq_best hbest (by rw [Stores, htop, ← hhash]; rfl) ?_ hget
    by_contra hne
    have hle := hmax (tip + 1) ((hchain.span _).mpr ⟨by omega, by omega⟩)
    omega

/-! ### A node whose best chain moves -/

/-- Blocks 100, 101 and so on, and on top of block 100 the blocks 201, 202 and so
on. Transaction 7 of block 101 pays the deposit address of a request. -/
def sampleNode : Node where
  height hash := (hash % 100 : ℕ)
  header hash :=
    { previousBlockHash :=
        if hash % 100 = 0 then none else if hash = 201 then some 100 else some (hash - 1)
      time := 0
      tx := if hash = 101 then [7, 8] else [] }
  transaction txid := if txid = 7 then some [⟨0, 1000, [1]⟩] else if txid = 8 then some [] else none
  genesis_unfetchable := by
    intro hash hheight txid htxid
    by_cases hhash : hash = 101
    · subst hhash
      cases hheight
    · rw [if_neg hhash] at htxid
      cases htxid

def sampleConfig : IndexerConfig where
  vaultScript := [2]
  confirmationDepth := 6
  maxReorgDepth := 10
  initialCheckpoint := none

/-- A node that answers with the blocks of a chain, and returns some transactions. -/
def sampleTick (blockCount : ℤ) (chain : ℤ → ℕ) (returned : Txid → Bool) : TickAnswers where
  now := 300
  blockCount := some blockCount
  checkpointHash := none
  searchHash h := some (chain h)
  forkHash := none
  block h := {
    now := 300
    hash := some (chain h)
    header := true
    transaction := returned
    wallets := fun _ => some []
    lock := fun _ _ _ _ _ => .ok ⟨0, 1000, false⟩ }
  unspent _ := some true

/-- The first chain, and the second. -/
def sampleChain (first : Bool) (h : ℤ) : ℕ :=
  if first ∨ h ≤ 0 then (100 + h).toNat else (200 + h).toNat

/-- A request for Solana with a deposit address. -/
def sampleSetup : List Event :=
  [.ledger (.configureReserve .solanaReserve 1000000 0),
    .ledger (.createRequest .glcToSol Ledger.sampleAmounts (List.replicate 32 1) none none 3600 100),
    .depositAddress 1 [1]]

/-- The first chain is indexed up to its block 101. -/
def steadyRun : List Event := sampleSetup ++ [.tick (sampleTick 1 (sampleChain true) fun _ => true)]

theorem chain_indexed_sample :
    HashChain sampleNode ((after sampleNode sampleConfig steadyRun).tick sampleNode sampleConfig
      (sampleTick 3 (sampleChain true) fun _ => true)).1 :=
  chain_indexed sampleNode sampleConfig steadyRun (sampleTick 3 (sampleChain true) fun _ => true)
    (by decide +kernel) (by decide +kernel) (by decide +kernel)

/-- The best chain moves to the second between the questions for heights 1 and 2. -/
def movingTick : TickAnswers := sampleTick 2 (fun h => sampleChain (h ≤ 1) h) fun _ => true

/-- The second chain, at rest. -/
def secondTick (blockCount : ℤ) : TickAnswers :=
  sampleTick blockCount (sampleChain false) fun _ => true

def movingRun : List Event := sampleSetup ++ [.tick movingTick]

/-- The scan of block 101 stops behind its deposit. -/
def midwayRun : List Event :=
  sampleSetup ++ [.tick (sampleTick 1 (sampleChain true) fun txid => txid = 7)]

/-- A tick that progresses, and what is stored then. -/
def progress (es : List Event) (w : TickAnswers) : Indexer × TickOutcome :=
  (after sampleNode sampleConfig es).tick sampleNode sampleConfig w

/-- Block 202 is stored on top of block 101, and stays so once the best chain is at
rest. After a scan that stopped midway in block 101, block 201 is stored at its
height, and the deposit of block 101 is kept. -/
theorem chain_broken :
    ((progress sampleSetup movingTick).2 = .progressed ∧
      ¬ HashChain sampleNode (progress sampleSetup movingTick).1) ∧
    ((progress movingRun (secondTick 3)).2 = .progressed ∧
      ¬ HashChain sampleNode (progress movingRun (secondTick 3)).1) ∧
    ((progress midwayRun (secondTick 1)).2 = .progressed ∧
      ¬ HashChain sampleNode (progress midwayRun (secondTick 1)).1) := by
  refine ⟨⟨by decide +kernel, fun h => ?_⟩, ⟨by decide +kernel, fun h => ?_⟩,
    ⟨by decide +kernel, fun h => ?_⟩⟩
  · exact absurd (h.prev_eq 1 101 201 (by decide +kernel) (by decide +kernel)) (by decide)
  · exact absurd (h.prev_eq 1 101 201 (by decide +kernel) (by decide +kernel)) (by decide)
  · exact absurd (h.stores 1 1 101 (by decide +kernel)) (by decide +kernel)

end Indexer

end Service.Goldcoin
