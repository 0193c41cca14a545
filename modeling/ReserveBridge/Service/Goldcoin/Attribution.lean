-- SUMMARY: The attribution of Goldcoin deposits over runs of the indexer: every output of an indexed block that pays the vault or a request is on the books, and no two requests have one source outpoint.
import ReserveBridge.Service.Goldcoin.SourceOutpoints

/-!
# Attribution

An output that pays the vault or a request is a row of the unmatched deposits, or
the source outpoint of the request it names, or else another output of its
transaction is.
What the books say is kept by every step, and a rollback takes back a deposit
together with its block only.
-/

namespace Service.Goldcoin
open Guard

namespace Indexer

variable {node : Node} {c : IndexerConfig} {N N₀ N₁ N' : Indexer} {next : ℤ} {f : Found}

/-! ## Accounts -/

/-- The output names a request: the transaction that pays the vault is bound to it,
or the deposit address is its own. -/
def Names (node : Node) (c : IndexerConfig) (N : Indexer) (txid : Txid) (vout id : ℕ) : Prop :=
  ∃ outs, node.transaction txid = some outs ∧
    ∃ out ∈ N.candidates c outs, out.vout = vout ∧ out.target = .ok (id : ℤ)

/-- A request that has a deposit address keeps it. -/
theorem Names.keeps {txid : Txid} {vout id : ℕ} (h : Names node c N txid vout id)
    (hscripts : ∀ s k, N.depositScripts.get? s = some k → N'.depositScripts.get? s = some k) :
    Names node c N' txid vout id := by
  obtain ⟨outs, houts, out, hout, hvout, htarget⟩ := h
  refine ⟨outs, houts, out, ?_, hvout, htarget⟩
  rw [candidates, List.mem_append] at hout ⊢
  refine hout.imp_right fun hmem => ?_
  obtain ⟨o, ho, hcandidate⟩ := List.mem_filterMap.mp hmem
  obtain ⟨k, hk, rfl⟩ := Option.map_eq_some_iff.mp hcandidate
  exact List.mem_filterMap.mpr ⟨o, ho, by rw [hscripts _ _ hk]; rfl⟩

/-- An output is on the books: as an unmatched deposit, or by the request it names,
whose source outpoint is an output of its transaction. The block of a deposit that
may be taken back does not lie above that of the output. -/
def Accounted (node : Node) (c : IndexerConfig) (N : Indexer) (f : Found) : Prop :=
  (N.unmatched.get? (f.txid, f.vout)).isSome = true ∨
    ∃ id r vout, N.ledger.requests.get? id = some r ∧ r.direction.sourceIsGoldcoin ∧
      Names node c N f.txid f.vout id ∧ r.PaidBy f.txid vout ∧
      (r.state.isObserved = true → ∃ h, r.sourceBlockHeight = some h ∧ h ≤ f.height)

/-- What is on the books stays there while no unmatched deposit is dropped and the
rows keep their deposits and addresses. -/
theorem Accounted.keeps (h : Accounted node c N f)
    (hunmatched : ∀ k, (N.unmatched.get? k).isSome = true → (N'.unmatched.get? k).isSome = true)
    (hscripts : ∀ s k, N.depositScripts.get? s = some k → N'.depositScripts.get? s = some k)
    (hrows : ∀ id r, N.ledger.requests.get? id = some r → r.sourceTxid ≠ none →
      ∃ r', N'.ledger.requests.get? id = some r' ∧ KeepsDeposit r r') : Accounted node c N' f := by
  rcases h with h | ⟨id, r, vout, hget, hsource, hnames, hpaid, hblock⟩
  · exact .inl (hunmatched _ h)
  · obtain ⟨r', hget', hkeeps⟩ := hrows id r hget (by rw [hpaid.1]; simp)
    refine .inr ⟨id, r', vout, hget', ?_, hnames.keeps hscripts, ⟨?_, ?_⟩, fun hstate => ?_⟩
    · rwa [hkeeps.direction]
    · rw [hkeeps.txid, hpaid.1]
    · rw [hkeeps.vout, hpaid.2]
    · rw [hkeeps.block]
      exact hblock (hkeeps.observed hstate)

theorem isSome_recordUnmatched {txid : Txid} {vout amount : ℕ} {height : ℤ} {reason : String} {now : ℤ}
    (k : Txid × ℕ) :
    ((N.recordUnmatched txid vout amount height reason now).unmatched.get? k).isSome = true ↔
      k = (txid, vout) ∨ (N.unmatched.get? k).isSome = true := by
  unfold recordUnmatched
  cases hinit : N.unmatched.init (txid, vout) ⟨amount, height, reason, now⟩ with
  | none =>
    have hthere : (N.unmatched.get? (txid, vout)).isSome = true := by
      rw [Store.get?_isSome]
      by_contra hfresh
      rw [Store.init, dif_neg hfresh] at hinit
      cases hinit
    rw [Option.getD_none]
    refine ⟨.inr, ?_⟩
    rintro (rfl | h)
    · exact hthere
    · exact h
  | some s =>
    rw [Option.getD_some, Store.get?_init hinit]
    split_ifs with hk <;> simp [hk]

/-! ## The scan of a block -/

/-- What attributing outputs leaves, and what it puts on the books. -/
structure Attributing (node : Node) (c : IndexerConfig) (N₁ : Indexer) (next : ℤ) (N : Indexer) :
    Prop where
  blocks : N.blocks = N₁.blocks
  scripts : N.depositScripts = N₁.depositScripts
  vault : N.ledger.vault = N₁.ledger.vault
  found : N₁.found ⊆ N.found
  rows : Ledger.DepositRows next N.ledger
  accounted : ∀ f ∈ N.found, Accounted node c N f

theorem Attributing.recordUnmatched {txid : Txid} {vout amount : ℕ} {reason : String} {now : ℤ}
    (h : Attributing node c N₁ next N) :
    Attributing node c N₁ next
      ((N.note next txid vout).recordUnmatched txid vout amount next reason now) where
  blocks := h.blocks
  scripts := h.scripts
  vault := h.vault
  found := fun f hf => List.mem_cons_of_mem _ (h.found hf)
  rows := h.rows
  accounted f hf := by
    rcases List.mem_cons.mp hf with rfl | hf
    · exact .inl ((isSome_recordUnmatched _).mpr (.inl rfl))
    · exact (h.accounted f hf).keeps (fun k hk => (isSome_recordUnmatched k).mpr (.inr hk))
        (fun _ _ hs => hs) fun id r hget _ => ⟨r, hget, .refl⟩

theorem Attributing.note {txid : Txid} {vout : ℕ} (h : Attributing node c N₁ next N)
    (hbooked : Accounted node c N ⟨next, txid, vout⟩) :
    Attributing node c N₁ next (N.note next txid vout) where
  blocks := h.blocks
  scripts := h.scripts
  vault := h.vault
  found := fun f hf => List.mem_cons_of_mem _ (h.found hf)
  rows := h.rows
  accounted f hf := by
    rcases List.mem_cons.mp hf with rfl | hf
    · exact hbooked
    · exact h.accounted f hf

section Observe

variable {id : ℤ} {dep : GlcDeposit} {lock : QuoteLock} {now : ℤ} {outcome : GlcObservationOutcome}
  {l : Ledger}

/-- The ledger answers for a deposit: nothing is taken off the books, and unless no
request matches the output is on them. -/
theorem Attributing.recordDeposit (h : Attributing node c N₁ next N)
    (hheight : dep.blockHeight = next)
    (hnames : 0 ≤ id → Names node c N dep.txid dep.vout id.toNat)
    (hrecord : N.recordDeposit id dep lock now = .ok (outcome, l)) :
    Attributing node c N₁ next { N with ledger := l } ∧ (outcome ≠ .noMatchingRequest →
      Accounted node c { N with ledger := l } ⟨next, dep.txid, dep.vout⟩) := by
  subst hheight
  unfold Indexer.recordDeposit at hrecord
  split_ifs at hrecord with hid
  · simp only [Except.ok.injEq, Prod.mk.injEq] at hrecord
    obtain ⟨rfl, rfl⟩ := hrecord
    exact ⟨h, fun hmatched => absurd rfl hmatched⟩
  have hnamed : Names node c { N with ledger := l } dep.txid dep.vout id.toNat :=
    (hnames (not_lt.mp hid)).keeps fun _ _ hs => hs
  rcases Ledger.recordGlcDepositObserved_deposited hrecord with ⟨rfl, houtcome⟩ | ⟨r, r', hdep⟩
  · refine ⟨h, fun hmatched => ?_⟩
    obtain rfl := houtcome.resolve_right hmatched
    obtain ⟨r, hget, hstate, htxid⟩ := Ledger.recordGlcDepositObserved_already hrecord
    have hrow := h.rows.rows _ r hget
    obtain ⟨hsource, hblock⟩ := hrow.observed hstate
    have hvout : r.sourceVout.isSome = true := by rw [hrow.paired hsource, htxid]; rfl
    obtain ⟨vout, hvout⟩ := Option.isSome_iff_exists.mp hvout
    exact .inr ⟨_, r, vout, hget, hsource, hnamed, ⟨htxid, hvout⟩, fun _ => hblock⟩
  · have hget' : l.requests.get? id.toNat = some r' := (hdep.rows _).trans (if_pos rfl)
    have hwf : l.Wf := by
      have hstep : N.ledger.step (.recordGlcDepositObserved id.toNat dep lock now) = some l := by
        rw [Ledger.step, Ledger.run, hrecord]
        rfl
      exact h.rows.wf.step hstep
    refine ⟨⟨h.blocks, h.scripts, hdep.vault.trans h.vault, h.found,
      ⟨hwf, fun k x hget => hdep.depositRow h.rows le_rfl hget, hdep.unique h.rows.unique⟩,
      fun f hf => ?_⟩, fun _ => ?_⟩
    · exact (h.accounted f hf).keeps (fun k hk => hk) (fun _ _ hs => hs) fun k x hget hx =>
        ⟨x, hdep.keepsDeposit h.rows hget hx, .refl⟩
    · exact .inr ⟨_, r', dep.vout, hget', hdep.direction ▸ hdep.source, hnamed, hdep.paid,
        fun _ => ⟨_, hdep.block, le_rfl⟩⟩

theorem Attributing.observeGlcDeposit (h : Attributing node c N₁ next N)
    (hheight : dep.blockHeight = next)
    (hnames : 0 ≤ id → Names node c N dep.txid dep.vout id.toNat) :
    Attributing node c N₁ next (N.observeGlcDeposit id dep lock now).state := by
  unfold Indexer.observeGlcDeposit
  split
  · exact h
  rename_i outcome l hrecord
  obtain ⟨hl, hbooked⟩ := h.recordDeposit hheight hnames hrecord
  subst hheight
  dsimp only
  split_ifs with hmatched
  · exact hl.recordUnmatched
  · exact hl.note (hbooked hmatched)

/-- An output the ledger was asked about is found. -/
theorem found_observeGlcDeposit (hdone : N.observeGlcDeposit id dep lock now = .done N') :
    N'.found = ⟨dep.blockHeight, dep.txid, dep.vout⟩ :: N.found := by
  unfold Indexer.observeGlcDeposit at hdone
  split at hdone
  · cases hdone
  · dsimp only at hdone
    split_ifs at hdone <;> cases hdone <;> rfl

end Observe

/-! ### Outputs and transactions -/

section Scan

variable {hash : ℕ} {txid : Txid} {wallets : List Bytes} {w : BlockAnswers} {out : Candidate}

/-- An output of the service's own split, in this state of the ledger. -/
def OwnSplit (N : Indexer) (txid : Txid) (vout amount : ℕ) : Prop :=
  ∃ s, N.broadcastVaultUtxoSplit txid = some s ∧ matchesExpectedSplitOutput s vout amount = true

theorem Attributing.ownSplit {vout amount : ℕ} (h : Attributing node c N₁ next N)
    (hown : N.OwnSplit txid vout amount) : N₁.OwnSplit txid vout amount := by
  have hvault : N.broadcastVaultUtxoSplit txid = N₁.broadcastVaultUtxoSplit txid := by
    rw [broadcastVaultUtxoSplit, broadcastVaultUtxoSplit, h.vault]
  rwa [OwnSplit, hvault] at hown

theorem Attributing.attributeOutput {outs : List TxOut} (h : Attributing node c N₁ next N)
    (houts : node.transaction txid = some outs) (hout : out ∈ N₁.candidates c outs) :
    Attributing node c N₁ next (N.attributeOutput next hash txid wallets w out).state := by
  unfold Indexer.attributeOutput
  split
  · split_ifs
    · exact h
    · exact h.recordUnmatched
  · rename_i id htarget
    refine h.observeGlcDeposit rfl fun hid => ⟨outs, houts, out, ?_, rfl, ?_⟩
    · rwa [candidates, h.scripts]
    · rw [htarget, Int.toNat_of_nonneg hid]

/-- An output that was attributed is found, or the service's own. -/
theorem found_attributeOutput (hdone : N.attributeOutput next hash txid wallets w out = .done N') :
    N'.found = ⟨next, txid, out.vout⟩ :: N.found ∨
      (N'.found = N.found ∧ (∃ e, out.target = .error e) ∧
        N.OwnSplit txid out.vout out.amount) := by
  unfold Indexer.attributeOutput at hdone
  split at hdone
  · rename_i e htarget
    split_ifs at hdone with hown
    · obtain ⟨s, hs, hmatches⟩ := (Option.any_eq_true _ _).mp hown
      cases hdone
      exact .inr ⟨rfl, ⟨e, htarget⟩, s, hs, hmatches⟩
    · cases hdone
      exact .inl rfl
  · exact .inl (found_observeGlcDeposit hdone)

/-- The output pays the vault, or a request that has its deposit address. -/
def Pays (N : Indexer) (c : IndexerConfig) (o : TxOut) : Prop :=
  o.script = c.vaultScript ∨ (N.depositScripts.get? o.script).isSome = true

theorem mem_candidates_vault {outs : List TxOut} {o : TxOut} (ho : o ∈ outs)
    (hscript : o.script = c.vaultScript) :
    ⟨o.n, o.value, extractRequestBinding outs⟩ ∈ N.candidates c outs := by
  rw [candidates, List.mem_append, List.mem_map]
  exact .inl ⟨o, List.mem_filter.mpr ⟨ho, decide_eq_true hscript⟩, rfl⟩

theorem mem_candidates_request {outs : List TxOut} {o : TxOut} {id : ℕ} (ho : o ∈ outs)
    (hscript : N.depositScripts.get? o.script = some id) :
    ⟨o.n, o.value, .ok id⟩ ∈ N.candidates c outs := by
  rw [candidates, List.mem_append, List.mem_filterMap]
  exact .inr ⟨o, ho, by rw [hscript]; rfl⟩

/-- An output that pays is found, or it is an output of the service's own split. -/
def Seen (N₁ : Indexer) (c : IndexerConfig) (height : ℤ) (txid : Txid) (o : TxOut) (N : Indexer) : Prop :=
  ⟨height, txid, o.n⟩ ∈ N.found ∨ (o.script = c.vaultScript ∧ N₁.OwnSplit txid o.n o.value)

theorem Attributing.refl (hrows : Ledger.DepositRows next N.ledger)
    (haccounted : ∀ f ∈ N.found, Accounted node c N f) : Attributing node c N next N :=
  ⟨rfl, rfl, rfl, List.Subset.refl _, hrows, haccounted⟩

/-- The addresses of a scan are those it began with. -/
theorem Attributing.candidates (h : Attributing node c N₁ next N) (outs : List TxOut) :
    N.candidates c outs = N₁.candidates c outs := by
  rw [Indexer.candidates, Indexer.candidates, h.scripts]

theorem Attributing.scanTransaction (h : Attributing node c N₁ next N) :
    Attributing node c N₁ next (N.scanTransaction node c next hash w txid).state := by
  unfold Indexer.scanTransaction
  split
  · exact h
  rename_i outs houts
  split_ifs
  · refine Attempt.andThen_keeps ?_ fun M _ hM => ?_
    · split_ifs
      · exact h
      · split
        · exact h
        · exact Attempt.loop_invariant
            (fun M out hout hM => hM.attributeOutput houts (h.candidates outs ▸ hout)) h
    · exact ⟨hM.blocks, hM.scripts, hM.vault, hM.found, hM.rows, hM.accounted⟩
  · exact h

/-- The outputs of a transaction that was looked at to its end. -/
theorem Attributing.seen (h : Attributing node c N₁ next N) {outs : List TxOut}
    (houts : node.transaction txid = some outs)
    (hdone : N.scanTransaction node c next hash w txid = .done N') :
    ∀ o ∈ outs, N₁.Pays c o → Seen N₁ c next txid o N' := by
  unfold Indexer.scanTransaction at hdone
  rw [houts] at hdone
  dsimp only at hdone
  by_cases hreturned : w.transaction txid = true
  swap
  · rw [if_pos hreturned] at hdone
    cases hdone
  rw [if_neg (not_not.mpr hreturned)] at hdone
  obtain ⟨M, hattributed, hM⟩ := Attempt.andThen_eq_done.mp hdone
  cases hM
  -- every candidate was found, or is the service's own
  have hall : ∀ out ∈ N.candidates c outs, ⟨next, txid, out.vout⟩ ∈ M.found ∨
      (∃ e, out.target = .error e) ∧ N₁.OwnSplit txid out.vout out.amount := by
    split_ifs at hattributed with hnone
    · rw [hnone]
      simp
    · split at hattributed
      · cases hattributed
      · rename_i wallets hwallets
        refine Attempt.loop_establishes
          (fun (out : Candidate) (L : Indexer) => ⟨next, txid, out.vout⟩ ∈ L.found ∨
            (∃ e, out.target = .error e) ∧ N₁.OwnSplit txid out.vout out.amount)
          (fun L out hout (hL : Attributing node c N₁ next L) =>
            hL.attributeOutput houts (h.candidates outs ▸ hout))
          (fun L out L' hL hstep => ?_)
          (fun L out other L' hL hstep hfound => ?_) h hattributed
        · rcases found_attributeOutput hstep with hnew | ⟨-, herror, hown⟩
          · exact .inl (hnew ▸ List.mem_cons_self)
          · exact .inr ⟨herror, hL.ownSplit hown⟩
        · refine hfound.imp_left fun hmem => ?_
          rcases found_attributeOutput hstep with hnew | ⟨hsame, -⟩
          · exact hnew ▸ List.mem_cons_of_mem _ hmem
          · exact hsame ▸ hmem
  intro o ho hpays
  rcases hpays with hscript | hscript
  · exact (hall _ (mem_candidates_vault ho hscript)).imp_right fun hown => ⟨hscript, hown.2⟩
  · rw [← h.scripts] at hscript
    obtain ⟨id, hid⟩ := Option.isSome_iff_exists.mp hscript
    rcases hall _ (mem_candidates_request (c := c) ho hid) with hfound | ⟨⟨e, he⟩, -⟩
    · exact .inl hfound
    · cases he

end Scan

/-! ## Blocks -/

/-- The height the next tick starts from unless it rolls back. -/
structure Next (c : IndexerConfig) (next : ℤ) (blocks : Store ℤ IndexedBlock) : Prop where
  below : ∀ k, (blocks.get? k).isSome = true → k < next
  top : (blocks.get? (next - 1)).isSome = true ∨
    ((∀ k, blocks.get? k = none) ∧ next = IndexerConfig.startHeight c)

/-- The blocks stored since `N₀` were seen with all the outputs that pay the vault
or a request of `N₀`, except for those of splits. -/
def SeenSince (node : Node) (c : IndexerConfig) (N₀ : Indexer) (S : Txid → ℕ → ℕ → Prop)
    (N : Indexer) : Prop :=
  ∀ h b, N.blocks.get? h = some b → h ≠ 0 → ¬ N₀.Stores h b.hash →
    ∀ txid ∈ (node.header b.hash).tx, ∀ outs, node.transaction txid = some outs →
      ∀ o ∈ outs, N₀.Pays c o →
        ⟨h, txid, o.n⟩ ∈ N.found ∨ (o.script = c.vaultScript ∧ S txid o.n o.value)

/-- The books of the indexer between two blocks. -/
structure Booked (node : Node) (c : IndexerConfig) (N₀ : Indexer) (S : Txid → ℕ → ℕ → Prop)
    (next : ℤ) (N : Indexer) : Prop where
  tip : Next c next N.blocks
  rows : Ledger.DepositRows next N.ledger
  accounted : ∀ f ∈ N.found, Accounted node c N f
  scripts : ∀ s, (N₀.depositScripts.get? s).isSome = true → (N.depositScripts.get? s).isSome = true
  seen : SeenSince node c N₀ S N

variable {S : Txid → ℕ → ℕ → Prop}

/-- What leaves the blocks alone. -/
theorem Booked.attributing (hN : Booked node c N₀ S next N) (h : Attributing node c N next N') :
    Booked node c N₀ S next N' where
  tip := h.blocks ▸ hN.tip
  rows := h.rows
  accounted := h.accounted
  scripts := h.scripts ▸ hN.scripts
  seen k b hget hne hnew txid htxid outs houts o ho hpays := by
    rw [h.blocks] at hget
    exact (hN.seen k b hget hne hnew txid htxid outs houts o ho hpays).imp_left fun hmem => h.found hmem

theorem Booked.ingestBlock {b : IndexedBlock} (hN : Booked node c N₀ S next N)
    (hseen : next ≠ 0 → ∀ txid ∈ (node.header b.hash).tx, ∀ outs, node.transaction txid = some outs →
      ∀ o ∈ outs, N₀.Pays c o →
        ⟨next, txid, o.n⟩ ∈ N.found ∨ (o.script = c.vaultScript ∧ S txid o.n o.value)) :
    Booked node c N₀ S (next + 1) (N.ingestBlock next b) where
  tip := by
    constructor
    · intro k hk
      rw [blocks_ingestBlock] at hk
      split_ifs at hk with heq
      · omega
      · have hlt := hN.tip.below k hk
        omega
    · left
      rw [blocks_ingestBlock, if_pos (by omega)]
      rfl
  rows := hN.rows.mono (by omega)
  accounted := hN.accounted
  scripts := hN.scripts
  seen k b' hget hne hnew txid htxid outs houts o ho hpays := by
    rw [blocks_ingestBlock] at hget
    split_ifs at hget with heq
    · subst heq
      obtain rfl := Option.some.inj hget
      exact hseen hne txid htxid outs houts o ho hpays
    · exact hN.seen k b' hget hne hnew txid htxid outs houts o ho hpays

/-- A block is stored and seen, or it is not stored. Its scan leaves the vault. -/
theorem indexBlock_booked {w : BlockAnswers} (hN : Booked node c N₀ S next N)
    (hown : ∀ txid vout amount, N.OwnSplit txid vout amount → S txid vout amount) :
    (∃ M, N.indexBlock node c next w = .stopped M ∧ Booked node c N₀ S next M) ∨
    ∃ M, N.indexBlock node c next w = .done M ∧ Booked node c N₀ S (next + 1) M ∧
      M.ledger.vault = N.ledger.vault := by
  have hself : Attributing node c N next N := .refl hN.rows hN.accounted
  unfold indexBlock
  split
  · exact .inl ⟨N, rfl, hN⟩
  rename_i hash hhash
  split_ifs with hheader hgenesis
  · subst hgenesis
    exact .inr ⟨_, rfl, hN.ingestBlock fun hne => absurd rfl hne, rfl⟩
  · have hkept : Attributing node c N next
        (Attempt.loop (fun N txid => N.scanTransaction node c next hash w txid) N
          (node.header hash).tx).state :=
      Attempt.loop_invariant (fun M txid _ hM => hM.scanTransaction) hself
    cases hloop : Attempt.loop (fun N txid => N.scanTransaction node c next hash w txid) N
        (node.header hash).tx with
    | stopped M =>
      rw [hloop] at hkept
      exact .inl ⟨M, by simp only [hloop, Attempt.stopped_andThen], hN.attributing hkept⟩
    | done M =>
      rw [hloop] at hkept
      refine .inr ⟨M.ingestBlock next
        ⟨hash, (node.header hash).prevHash, (node.header hash).time, w.now⟩,
        by simp only [hloop, Attempt.done_andThen],
        (hN.attributing hkept).ingestBlock fun _ => ?_, hkept.vault⟩
      have hall := Attempt.loop_establishes
        (fun txid (M : Indexer) => ∀ outs, node.transaction txid = some outs →
          ∀ o ∈ outs, N.Pays c o → Seen N c next txid o M)
        (fun M txid _ (hM : Attributing node c N next M) => hM.scanTransaction)
        (fun M txid M' hM hstep outs houts => hM.seen houts hstep)
        (fun L txid other L' hL hstep hseen outs houts o ho hpays => ?_) hself hloop
      · intro txid htxid outs houts o ho hpays
        have hpays' : N.Pays c o := hpays.imp_right (hN.scripts _)
        exact (hall txid htxid outs houts o ho hpays').imp_right fun hsplit =>
          ⟨hsplit.1, hown _ _ _ hsplit.2⟩
      · -- a later transaction adds to what was found
        have hlater : Attributing node c L next (L.scanTransaction node c next hash w other).state :=
          (Attributing.refl hL.rows hL.accounted).scanTransaction
        rw [hstep] at hlater
        exact (hseen outs houts o ho hpays).imp_left fun hmem => hlater.found hmem
  · exact .inl ⟨N, rfl, hN⟩

theorem indexBlocks_booked (w : TickAnswers) (tip : ℤ) (hN : Booked node c N₀ S next N)
    (hown : ∀ txid vout amount, N.OwnSplit txid vout amount → S txid vout amount) :
    ∃ next', Booked node c N₀ S next' (N.indexBlocks node c w next tip).state := by
  obtain ⟨n, hn⟩ : ∃ n : ℕ, n = (tip + 1 - next).toNat := ⟨_, rfl⟩
  unfold indexBlocks
  induction n generalizing next N with
  | zero =>
    rw [heights_eq_nil (by omega)]
    exact ⟨next, hN⟩
  | succ n ih =>
    rw [heights_eq_cons (by omega), Attempt.loop]
    rcases indexBlock_booked (w := w.block next) hN hown with ⟨M, hM, hbooked⟩ |
      ⟨M, hM, hbooked, hvault⟩
    · rw [hM, Attempt.stopped_andThen]
      exact ⟨next, hbooked⟩
    · rw [hM, Attempt.done_andThen]
      refine ih hbooked (fun txid vout amount h => hown _ _ _ ?_) (by omega)
      rwa [OwnSplit, broadcastVaultUtxoSplit, ← hvault]

/-! ## Ticks -/

/-- An operation of the ledger that is not one of the indexer. -/
theorem Booked.step {l : Ledger} (hN : Booked node c N₀ S next N) (op : Op)
    (hop : op.writesDeposit = false) (hstep : N.ledger.step op = some l) :
    Booked node c N₀ S next { N with ledger := l } where
  tip := hN.tip
  rows := hN.rows.step hop hstep
  accounted f hf := (hN.accounted f hf).keeps (fun _ hk => hk) (fun _ _ hs => hs) fun _ _ hget _ =>
    (Ledger.effect_of_step hN.rows.wf hstep).keepsDeposit hop hget
  scripts := hN.scripts
  seen := hN.seen

theorem Booked.writeLedger (op : Op) {rest : Indexer → Attempt Indexer}
    (hN : Booked node c N₀ S next N) (hop : op.writesDeposit = false)
    (hrest : ∀ M, Booked node c N₀ S next M → Booked node c N₀ S next (rest M).state) :
    Booked node c N₀ S next (N.writeLedger (N.ledger.run op) rest).state := by
  unfold Indexer.writeLedger
  split
  · exact hN
  · rename_i l hrun
    refine hrest _ (hN.step _ hop ?_)
    rw [Ledger.step, hrun]
    rfl

theorem Booked.promoteConfirming (hN : Booked node c N₀ S next N) (w : TickAnswers) (tip : ℤ) :
    Booked node c N₀ S next (N.promoteConfirming c tip w).state := by
  refine Attempt.loop_invariant (fun M e _ hM => ?_) hN
  unfold promoteRow
  split
  · exact hM
  · refine hM.writeLedger (.updateGlcConfirmations _ _) rfl fun L hL => ?_
    split_ifs
    · exact hL
    · split
      · exact hL
      · exact hL.writeLedger (.markGlcDepositSpentBeforeFinalized _) rfl fun _ hL' => hL'
      · exact hL.writeLedger (.markGlcSourceFinalized _ _) rfl fun _ hL' => hL'

/-- A rollback to a stored block takes back what was found above it. -/
theorem Booked.rollback {fork : ℤ} (hN : Booked node c N₀ S next N)
    (hfork : (N.blocks.get? fork).isSome = true) :
    Booked node c N₀ S (fork + 1) (N.rollbackReorg fork) where
  tip := by
    have hget (k : ℤ) : (N.rollbackReorg fork).blocks.get? k =
        if decide (k ≤ fork) = true then N.blocks.get? k else none := Store.get?_retain _
    constructor
    · intro k hk
      rw [hget] at hk
      split_ifs at hk with hle
      · have hle' := of_decide_eq_true hle
        omega
      · cases hk
    · left
      rw [hget, if_pos (by simp), add_sub_cancel_right]
      exact hfork
  rows := (hN.rows.rollback fork).mono (by omega)
  accounted f hf := by
    obtain ⟨hmem, hle⟩ := List.mem_filter.mp hf
    have hle' : f.height ≤ fork := of_decide_eq_true hle
    rcases hN.accounted f hmem with hunmatched | ⟨id, r, vout, hget, hsource, hnames, hpaid, hblock⟩
    · exact .inl hunmatched
    · -- a deposit that is taken back lies above the fork, and so does the output
      have hstays : ¬ r.Orphaned fork := by
        rintro ⟨-, hstate, h, hh, habove⟩
        obtain ⟨h', hh', hbelow⟩ := hblock (by rcases hstate with hs | hs <;> rw [hs] <;> rfl)
        obtain rfl := Option.some.inj (hh.symm.trans hh')
        omega
      refine .inr ⟨id, r, vout, ?_, hsource, hnames.keeps fun _ _ hs => hs, hpaid, hblock⟩
      exact (Ledger.get?_goldcoinRollbackReorg _ _ _).trans (by rw [hget, Option.map_some, if_neg hstays])
  scripts := hN.scripts
  seen k b hget hne hnew txid htxid outs houts o ho hpays := by
    rw [rollbackReorg, Store.get?_retain] at hget
    split_ifs at hget with hle
    refine (hN.seen k b hget hne hnew txid htxid outs houts o ho hpays).imp_left fun hmem => ?_
    exact List.mem_filter.mpr ⟨hmem, hle⟩

/-- The opening leaves the books at the height the blocks start from. -/
theorem beginTick_booked {w : TickAnswers} (hN : Booked node c N₀ S next N) :
    (∃ N' outcome, N.beginTick node c w = .ends N' outcome ∧ Booked node c N₀ S next N') ∨
    ∃ N' start tip, N.beginTick node c w = .starts N' start tip ∧ Booked node c N₀ S start N' ∧
      N'.ledger.vault = N.ledger.vault := by
  unfold beginTick
  split_ifs
  · exact .inl ⟨N, _, rfl, hN⟩
  · exact .inl ⟨N, _, rfl, hN⟩
  split
  · exact .inl ⟨N, _, rfl, hN⟩
  split
  · rename_i htip
    split
    · exact .inl ⟨N, _, rfl, hN⟩
    · rename_i start hboot
      have hnone := chainTip_eq_none htip
      have hstart : next = start := by
        rcases hN.tip.top with h | ⟨-, h⟩
        · rw [hnone] at h
          cases h
        · rw [h, bootstrap_eq hboot]
      exact .inr ⟨N, start, _, rfl, hstart ▸ hN, rfl⟩
  · rename_i localTip b htip
    obtain ⟨hget, hmax⟩ := chainTip_eq_some htip
    have hnext : next = localTip + 1 := by
      have hlt := hN.tip.below localTip (by rw [hget]; rfl)
      rcases hN.tip.top with h | ⟨hempty, -⟩
      · have hle := hmax _ h
        omega
      · rw [hempty] at hget
        cases hget
    split
    · exact .inl ⟨N, _, rfl, hN⟩
    · exact .inl ⟨_, _, rfl, hN.tip, hN.rows, hN.accounted, hN.scripts, hN.seen⟩
    · rename_i fork hfork
      split_ifs
      · exact .inr ⟨N, _, _, rfl, hnext ▸ hN, rfl⟩
      · have hgoldcoin := hN.step (.setting (.paused .goldcoinReserve true)) rfl rfl
        have hpaused := hgoldcoin.step (.setting (.paused .solanaReserve true)) rfl rfl
        exact .inl ⟨_, _, rfl, hpaused.tip, hpaused.rows, hpaused.accounted, hpaused.scripts,
          hpaused.seen⟩
      · split
        · exact .inl ⟨N, _, rfl, hN⟩
        · refine .inr ⟨_, _, _, rfl, hN.rollback (findForkPoint_stored hfork), ?_⟩
          have hstep : N.ledger.step (.goldcoinRollbackReorg fork) =
            some (N.ledger.goldcoinRollbackReorg fork) := rfl
          exact (Ledger.effect_of_step hN.rows.wf hstep).vault_eq rfl

theorem tick_booked {w : TickAnswers} (hN : Booked node c N₀ S next N)
    (hown : ∀ txid vout amount, N.OwnSplit txid vout amount → S txid vout amount) :
    ∃ next', Booked node c N₀ S next' (N.tick node c w).1 := by
  unfold tick
  rcases beginTick_booked (w := w) hN with ⟨N', outcome, hbegin, hN'⟩ |
    ⟨N', start, tip, hbegin, hN', hvault⟩
  · rw [hbegin]
    exact ⟨next, hN'⟩
  rw [hbegin]
  have hown' (txid : Txid) (vout amount : ℕ) (h : N'.OwnSplit txid vout amount) : S txid vout amount := by
    refine hown txid vout amount ?_
    rwa [OwnSplit, broadcastVaultUtxoSplit, ← hvault]
  obtain ⟨next', hblocks⟩ := indexBlocks_booked w tip hN' hown'
  refine ⟨next', ?_⟩
  dsimp only
  cases hend : N'.indexBlocks node c w start tip with
  | stopped M =>
    rw [hend] at hblocks
    exact hblocks
  | done M =>
    rw [hend] at hblocks
    have hpromoted := hblocks.promoteConfirming w tip
    rw [Attempt.done_andThen]
    cases hpromote : M.promoteConfirming c tip w with
    | stopped L => rwa [Attempt.state_done, hpromote] at hpromoted
    | done L => rwa [Attempt.state_done, hpromote] at hpromoted

/-! ## Runs -/

theorem setDepositAddress_cases {id : ℕ} {script : Bytes} (h : N.setDepositAddress id script = some N') :
    ∃ scripts, N.depositScripts.init script id = some scripts ∧
      N' = { N with depositScripts := scripts } := by
  simp only [setDepositAddress, Option.bind_eq_bind, Option.bind_eq_some_iff] at h
  obtain ⟨r, -, scripts, hscripts, h⟩ := h
  split_ifs at h
  exact ⟨scripts, hscripts, (Option.some.inj h).symm⟩

theorem step_booked {e : Event} (hN : Booked node c N₀ S next N)
    (hown : ∀ txid vout amount, N.OwnSplit txid vout amount → S txid vout amount)
    (hstep : step node c N e = some N') : ∃ next', Booked node c N₀ S next' N' := by
  cases e with
  | ledger op =>
    simp only [step] at hstep
    split_ifs at hstep with hop
    obtain ⟨l, hl, rfl⟩ := Option.map_eq_some_iff.mp hstep
    exact ⟨next, hN.step _ (Bool.eq_false_iff.mpr hop) hl⟩
  | depositAddress id script =>
    obtain ⟨scripts, hscripts, rfl⟩ := setDepositAddress_cases hstep
    have hkept (s : Bytes) (k : ℕ) (hs : N.depositScripts.get? s = some k) :
        scripts.get? s = some k := by
      rw [Store.get?_init hscripts]
      split_ifs with heq
      · rw [heq, Store.get?_eq_none.mpr (Store.init_eq_some hscripts).1] at hs
        cases hs
      · exact hs
    refine ⟨next, hN.tip, hN.rows, fun f hf => ?_, fun s hs => ?_, hN.seen⟩
    · exact (hN.accounted f hf).keeps (fun _ hk => hk) hkept fun _ r hget _ => ⟨r, hget, .refl⟩
    · obtain ⟨k, hk⟩ := Option.isSome_iff_exists.mp (hN.scripts s hs)
      exact Option.isSome_iff_exists.mpr ⟨k, hkept s k hk⟩
  | restart =>
    obtain rfl := Option.some.inj hstep
    exact ⟨next, hN.tip, hN.rows, hN.accounted, hN.scripts, hN.seen⟩
  | tick w =>
    obtain rfl := Option.some.inj hstep
    exact tick_booked hN hown

theorem run_booked (es : List Event) (hN : Booked node c N₀ S next N)
    (hown : ∀ e ∈ Run.history (step node c) N es,
      ∀ txid vout amount, e.1.OwnSplit txid vout amount → S txid vout amount) :
    ∃ next', Booked node c N₀ S next' (Run.final (step node c) N es) :=
  Run.invariant_of_history
    (fun N _ _ (h : ∃ next, Booked node c N₀ S next N)
      (hok : ∀ txid vout amount, N.OwnSplit txid vout amount → S txid vout amount) hstep =>
        have ⟨_, hN⟩ := h
        step_booked hN hok hstep) ⟨next, hN⟩ es hown

theorem empty_booked : Booked node c empty S (IndexerConfig.startHeight c) empty := by
  have hnone (k : ℤ) : empty.blocks.get? k = none := rfl
  constructor
  · exact ⟨fun k hk => (by rw [hnone] at hk; cases hk), .inr ⟨hnone, rfl⟩⟩
  · constructor
    · exact Ledger.wf_empty
    · intro id r hget
      cases hget
    · intro id id' r r' txid vout hget
      cases hget
  · intro f hf
    cases hf
  · exact fun _ hs => hs
  · intro k b hget
    rw [hnone] at hget
    cases hget

/-- From here on, the blocks that are there do not count. -/
theorem Booked.start (hN : Booked node c N₀ S next N) {S' : Txid → ℕ → ℕ → Prop} :
    Booked node c N S' next N where
  tip := hN.tip
  rows := hN.rows
  accounted := hN.accounted
  scripts _ hs := hs
  seen k b hget _ hnew := absurd (by rw [Stores, hget]; rfl) hnew

/-- How an output is on the books: unmatched, as the source of the request it names,
or since another output of its transaction is the source of that request. -/
inductive OnBooks (node : Node) (c : IndexerConfig) (N : Indexer) (txid : Txid) (vout : ℕ) : Prop
  | unmatched (h : (N.unmatched.get? (txid, vout)).isSome = true)
  | source (id : ℕ) (r : Request) (hget : N.ledger.requests.get? id = some r)
    (hsource : r.direction.sourceIsGoldcoin) (hnames : Names node c N txid vout id)
    (hpaid : r.PaidBy txid vout)
  | sibling (id : ℕ) (r : Request) (vout' : ℕ) (hget : N.ledger.requests.get? id = some r)
    (hsource : r.direction.sourceIsGoldcoin) (hnames : Names node c N txid vout id)
    (hne : vout' ≠ vout) (hpaid : r.PaidBy txid vout')

theorem Accounted.onBooks (h : Accounted node c N f) : OnBooks node c N f.txid f.vout := by
  rcases h with h | ⟨id, r, vout, hget, hsource, hnames, hpaid, -⟩
  · exact .unmatched h
  · by_cases hvout : vout = f.vout
    · exact .source id r hget hsource hnames (hvout ▸ hpaid)
    · exact .sibling id r vout hget hsource hnames hvout hpaid

/-- After the first part of a run, what its second part makes of the outputs of the
blocks it stores, and the source outpoints at its end. -/
structure Attributed (node : Node) (c : IndexerConfig) (es es' : List Event) : Prop where
  outputs : ∀ h b, (after node c (es ++ es')).blocks.get? h = some b → h ≠ 0 →
    ¬ (after node c es).Stores h b.hash →
      ∀ txid ∈ (node.header b.hash).tx, ∀ outs, node.transaction txid = some outs →
        ∀ o ∈ outs, (after node c es).Pays c o →
          OnBooks node c (after node c (es ++ es')) txid o.n ∨
            (o.script = c.vaultScript ∧ ∃ e ∈ Run.history (step node c) (after node c es) es',
              e.1.OwnSplit txid o.n o.value)
  unique : ∀ id id' r r' txid vout,
    (after node c (es ++ es')).ledger.requests.get? id = some r →
      (after node c (es ++ es')).ledger.requests.get? id' = some r' →
        r.PaidBy txid vout → r'.PaidBy txid vout → id = id'

/-- Over every run, whatever the node answers and wherever a tick stops: an output
of a stored block that pays the vault, or a deposit address that was there before,
is on the books, under the request it names, unless it is unmatched or the
service's own. No two requests have one source outpoint. -/
theorem outputs_attributed (node : Node) (c : IndexerConfig) (es es' : List Event) :
    Attributed node c es es' := by
  obtain ⟨next, hfirst⟩ := run_booked (S := fun _ _ _ => True) es
    (empty_booked : Booked node c empty _ _ _) fun _ _ _ _ _ _ => trivial
  obtain ⟨next', hlast⟩ := run_booked (S := fun txid vout amount =>
      ∃ e ∈ Run.history (step node c) (after node c es) es', e.1.OwnSplit txid vout amount)
    es' hfirst.start fun e he txid vout amount hown => ⟨e, he, hown⟩
  rw [← Run.final_append] at hlast
  constructor
  · intro h b hget hne hnew txid htxid outs houts o ho hpays
    refine (hlast.seen h b hget hne hnew txid htxid outs houts o ho hpays).imp_left fun hfound => ?_
    exact (hlast.accounted _ hfound).onBooks
  · exact hlast.rows.unique

/-- The deposit of the sample is the source of the request. -/
theorem outputs_attributed_sample :
    ∃ id r, (after sampleNode sampleConfig steadyRun).ledger.requests.get? id = some r ∧
      r.sourceTxid = some 7 := by
  have hattributed := outputs_attributed sampleNode sampleConfig sampleSetup
    [.tick (sampleTick 1 (sampleChain true) fun _ => true)]
  have hblock : (after sampleNode sampleConfig steadyRun).blocks.get? 1 = some ⟨101, 100, 0, 300⟩ := by
    decide +kernel
  have hpays : (after sampleNode sampleConfig sampleSetup).Pays sampleConfig ⟨0, 1000, [1]⟩ :=
    .inr (by decide +kernel)
  rcases hattributed.outputs 1 ⟨101, 100, 0, 300⟩ hblock (by decide) (by decide +kernel) 7 (by decide)
    [⟨0, 1000, [1]⟩] rfl ⟨0, 1000, [1]⟩ List.mem_cons_self hpays with hbooks | ⟨hscript, -⟩
  · cases hbooks with
    | unmatched h => exact absurd h (by decide +kernel)
    | source id r hget _ _ hpaid => exact ⟨id, r, hget, hpaid.1⟩
    | sibling id r _ hget _ _ _ hpaid => exact ⟨id, r, hget, hpaid.1⟩
  · exact absurd hscript (by decide)

end Indexer

end Service.Goldcoin
