-- SUMMARY: Which deposits of the best chain have a live observation: what each read of a range gives, the chains that a stored hash stands for, and the runs that record exactly the events up to the cursor.
import ReserveBridge.Service.Robinhood.DepositIndexer

/-!
# Recorded and emitted deposits

An anchor stands for every chain that has its hash. The invariant is that for
each anchor, on each chain it stands for, the live observations up to it are the
events up to it. A range keeps it when the chain that answers for the new cursor
has the events that were read and the old cursor's block.
-/

namespace Service.Robinhood
open Guard

variable {hash : Block → ℕ}

/-! ## Chains that share a hash -/

/-- Two blocks of known chains have one hash only if they are one block. -/
def CollisionFree (Known : BestChain hash → Prop) : Prop :=
  ∀ X Y, Known X → Known Y → ∀ b ∈ X.blocks, ∀ b' ∈ Y.blocks, hash b = hash b' → b = b'

namespace BestChain

variable {Known : BestChain hash → Prop} {X Y : BestChain hash} {n : ℕ}

theorem hashAt_eq_some {h : ℕ} :
    X.hashAt n = some h ↔ ∃ b, X.blocks[n]? = some b ∧ hash b = h := Option.map_eq_some_iff

theorem parentHash_eq {b b' : Block} (hb : X.blocks[n]? = some b)
    (hb' : X.blocks[n + 1]? = some b') : b'.parentHash = hash b := by
  obtain ⟨hn, rfl⟩ := List.getElem?_eq_some_iff.mp hb
  obtain ⟨hn', rfl⟩ := List.getElem?_eq_some_iff.mp hb'
  exact List.isChain_iff_getElem.mp X.linked n hn'

/-- A hash commits to every block below. -/
theorem agree (hfree : CollisionFree Known) (hX : Known X) (hY : Known Y) {h : ℕ}
    (hXn : X.hashAt n = some h) (hYn : Y.hashAt n = some h) :
    ∀ m ≤ n, X.blocks[m]? = Y.blocks[m]? := by
  induction n generalizing h with
  | zero =>
    obtain ⟨b, hb, hh⟩ := hashAt_eq_some.mp hXn
    obtain ⟨b', hb', hh'⟩ := hashAt_eq_some.mp hYn
    have heq := hfree X Y hX hY b (List.mem_of_getElem? hb) b' (List.mem_of_getElem? hb')
      (hh.trans hh'.symm)
    intro m hm
    rw [Nat.le_zero.mp hm, hb, hb', heq]
  | succ n ih =>
    obtain ⟨b, hb, hh⟩ := hashAt_eq_some.mp hXn
    obtain ⟨b', hb', hh'⟩ := hashAt_eq_some.mp hYn
    have heq := hfree X Y hX hY b (List.mem_of_getElem? hb) b' (List.mem_of_getElem? hb')
      (hh.trans hh'.symm)
    -- the blocks below are the parents of one block
    have hlen : n < X.blocks.length := by
      have := (List.getElem?_eq_some_iff.mp hb).1
      omega
    have hlen' : n < Y.blocks.length := by
      have := (List.getElem?_eq_some_iff.mp hb').1
      omega
    have hp : X.blocks[n]? = some X.blocks[n] := List.getElem?_eq_getElem hlen
    have hp' : Y.blocks[n]? = some Y.blocks[n] := List.getElem?_eq_getElem hlen'
    have hparent : hash X.blocks[n] = hash Y.blocks[n] := by
      rw [← parentHash_eq hp hb, ← parentHash_eq hp' hb', heq]
    have hbelow := ih (hashAt_eq_some.mpr ⟨_, hp, rfl⟩) (hashAt_eq_some.mpr ⟨_, hp', hparent.symm⟩)
    intro m hm
    rcases Nat.le_succ_iff.mp hm with hm | rfl
    · exact hbelow m hm
    · rw [hb, hb', heq]

/-! ## Events -/

/-- The logs of a block that the indexer asks for. -/
def events (X : BestChain hash) (c : IndexerConfig) (n : ℕ) : List EvmRawLog :=
  X.logsAt (c.filter n n) n

variable {c : IndexerConfig} {log : EvmRawLog}

theorem events_congr (h : X.blocks[n]? = Y.blocks[n]?) : X.events c n = Y.events c n := by
  rw [events, events, logsAt, logsAt, h]

theorem mem_logs {fromBlock toBlock : ℕ} :
    log ∈ X.logs (c.filter fromBlock toBlock) ↔
      ∃ n, fromBlock ≤ n ∧ n ≤ toBlock ∧ log ∈ X.events c n := by
  simp only [logs, List.mem_flatMap, List.mem_range'_1, IndexerConfig.filter]
  constructor
  · rintro ⟨n, hn, hlog⟩
    exact ⟨n, hn.1, by omega, hlog⟩
  · rintro ⟨n, hfrom, hto, hlog⟩
    exact ⟨n, ⟨hfrom, by omega⟩, hlog⟩

/-- What a log of the chain says of itself. -/
theorem of_mem_events (h : log ∈ X.events c n) :
    log.blockNumber = n ∧ X.hashAt n = some log.blockHash ∧
      log.address = c.bridgeContract ∧
      log.topics.head? = some (depositCreatedTopic0 c.keccak256) := by
  unfold events logsAt at h
  cases hb : X.blocks[n]? with
  | none =>
    rw [hb] at h
    cases h
  | some b =>
    rw [hb] at h
    obtain ⟨l, hl, rfl⟩ := List.mem_map.mp h
    have hmatch := of_decide_eq_true (List.mem_filter.mp hl).2
    exact ⟨rfl, hashAt_eq_some.mpr ⟨b, hb, rfl⟩, hmatch.1, hmatch.2⟩

end BestChain

/-! ## The reads of a range -/

section Reads

variable {c : IndexerConfig} {E : Endpoint hash} {logs : List EvmRawLog} {read read' : RangeLogs}

theorem mem_insertBlock {e : ℕ × ℕ} {block blockHash : ℕ} {blocks : List (ℕ × ℕ)}
    (h : e ∈ insertBlock block blockHash blocks) : e = (block, blockHash) ∨ e ∈ blocks := by
  induction blocks with
  | nil => simpa [insertBlock] using h
  | cons e' rest ih =>
    unfold insertBlock at h
    split_ifs at h with hlt heq
    · simpa using h
    · rw [List.mem_cons] at h ⊢
      exact h.imp_right .inr
    · rw [List.mem_cons] at h ⊢
      rcases h with rfl | h
      · exact .inr (.inl rfl)
      · exact (ih h).imp_right .inr

/-- All logs of the topic are decoded, and their events are what is read. -/
theorem readLogs_eq_ok (htopic : ∀ log ∈ logs, log.removed = false →
      log.topics.head? = some (depositCreatedTopic0 c.keccak256))
    (h : readLogs c read logs = .ok read') :
    (∀ log ∈ logs, log.removed = false →
      ∃ event, decodeDepositCreated c.keccak256 log = .ok event ∧
        event.observation ∈ read'.observations) ∧
    (∀ o, o ∈ read'.observations ↔ o ∈ read.observations ∨
      ∃ log ∈ logs, log.removed = false ∧
        ∃ event, decodeDepositCreated c.keccak256 log = .ok event ∧ event.observation = o) ∧
    ∀ e ∈ read'.depositBlocks, e ∈ read.depositBlocks ∨
      ∃ log ∈ logs, log.removed = false ∧ e = (log.blockNumber, log.blockHash) := by
  induction logs generalizing read with
  | nil =>
    obtain rfl := pure_eq_ok.mp h
    simp
  | cons log logs ih =>
    have hrest : ∀ log ∈ logs, log.removed = false →
        log.topics.head? = some (depositCreatedTopic0 c.keccak256) :=
      fun l hl => htopic l (List.mem_cons_of_mem _ hl)
    unfold readLogs at h
    split_ifs at h with hremoved
    · obtain ⟨hdecoded, hobs, hblocks⟩ := ih hrest h
      simp only [List.forall_mem_cons, List.exists_mem_cons_iff, hremoved, Bool.true_eq_false,
        false_implies, false_and, false_or, true_and]
      exact ⟨hdecoded, hobs, hblocks⟩
    · rw [Bool.not_eq_true] at hremoved
      split at h
      · rename_i herror
        exact absurd herror (decodeDepositCreated_ne_notDepositCreated
          (htopic log List.mem_cons_self hremoved))
      · cases h
      · cases h
      · rename_i event hevent
        simp only [bind_eq_ok, exists_unit, require_eq_ok] at h
        obtain ⟨hdecoded, hobs, hblocks⟩ := ih hrest h.2
        have hof := (decodeDepositCreated_of hevent).2
        simp only [List.forall_mem_cons, List.exists_mem_cons_iff, hremoved, true_and,
          forall_const]
        refine ⟨⟨⟨event, hevent, ?_⟩, hdecoded⟩, fun o => ?_, fun e he => ?_⟩
        · rw [hobs]
          exact .inl (by simp)
        · rw [hobs, List.mem_append, List.mem_singleton, or_assoc]
          refine or_congr_right (or_congr_left ?_)
          constructor
          · rintro rfl
            exact ⟨event, hevent, rfl⟩
          · rintro ⟨event', hevent', rfl⟩
            rw [hevent, Except.ok.injEq] at hevent'
            rw [hevent']
        · rcases hblocks e he with he | he
          · rcases mem_insertBlock he with rfl | he
            · exact .inr (.inl (by rw [hof.blockNumber, hof.blockHash]))
            · exact .inl he
          · exact .inr (.inr he)

/-- The blocks of deposits are anchored with the hashes that the logs claim. -/
theorem readDepositBlocks_eq_ok {i : ℕ} {blocks anchors : List (ℕ × ℕ)}
    (h : readDepositBlocks E i blocks = .ok anchors) : anchors = blocks := by
  induction blocks generalizing i anchors with
  | nil => exact (pure_eq_ok.mp h).symm
  | cons e rest ih =>
    obtain ⟨block, claimed⟩ := e
    simp only [readDepositBlocks, bind_eq_ok, orFail_eq_ok, exists_unit, require_eq_ok,
      pure_eq_ok] at h
    obtain ⟨found, -, live, -, rfl, anchors', hrest, rfl⟩ := h
    rw [ih hrest]

theorem canonicalHash_eq_ok {i block : ℕ} {found : Option ℕ}
    (h : E.canonicalHash i block = .ok found) : found = (E.chain i).hashAt block := by
  unfold Endpoint.canonicalHash Endpoint.call at h
  split_ifs at h
  exact (Except.ok.inj h).symm

theorem readStabilityAnchor_eq_ok {i head toBlock : ℕ} {anchors : List (ℕ × ℕ)}
    (h : readStabilityAnchor c E i head toBlock = .ok anchors) :
    (anchors = [] ∧ toBlock ≤ c.stabilityAnchor head) ∨
      c.stabilityAnchor head < toBlock ∧
        ∃ live, (E.chain i).hashAt (c.stabilityAnchor head) = some live ∧
          anchors = [(c.stabilityAnchor head, live)] := by
  unfold readStabilityAnchor at h
  split_ifs at h with hlt
  · simp only [bind_eq_ok, orFail_eq_ok, pure_eq_ok] at h
    obtain ⟨found, hfound, live, hlive, rfl⟩ := h
    rw [canonicalHash_eq_ok hfound] at hlive
    exact .inr ⟨hlt, live, hlive, rfl⟩
  · exact .inl ⟨(pure_eq_ok.mp h).symm, not_lt.mp hlt⟩

/-- A range that is read while the chain moves as if it stood still: the chain
that answers the last read has the events that were read, the block read at the
frontier, and the block of the cursor. -/
def SteadyRange (c : IndexerConfig) (E : Endpoint hash) (head : ℕ) (N : Indexer)
    (range : ℕ × ℕ) : Prop :=
  match readRange c E head N.calls range.1 range.2 with
  | .error _ => True
  | .ok read =>
    (E.chain N.calls).logs (c.filter range.1 range.2) =
        (E.chain (read.calls - 1)).logs (c.filter range.1 range.2) ∧
      (c.stabilityAnchor head < range.2 →
        (E.chain (read.calls - 2)).hashAt (c.stabilityAnchor head) =
          (E.chain (read.calls - 1)).hashAt (c.stabilityAnchor head)) ∧
      ∀ cursor ∈ N.store.robinhoodScanCursor,
        (E.chain (read.calls - 1)).hashAt cursor.1 = some cursor.2

/-- An event of a block of the chain, decoded. -/
def Emits (c : IndexerConfig) (X : BestChain hash) (n : ℕ) (o : DepositObservation) : Prop :=
  ∃ log ∈ X.events c n, ∃ event, decodeDepositCreated c.keccak256 log = .ok event ∧
    event.observation = o

theorem Emits.blockNumber {X : BestChain hash} {n : ℕ} {o : DepositObservation}
    (h : Emits c X n o) : o.blockNumber = n := by
  obtain ⟨log, hlog, event, hevent, rfl⟩ := h
  exact (decodeDepositCreated_of hevent).2.blockNumber.trans (BestChain.of_mem_events hlog).1

/-- What a steady range reads is what its last chain has. -/
structure Reads (c : IndexerConfig) (X : BestChain hash) (fromBlock toBlock : ℕ)
    (read : RangeRead) : Prop where
  decoded : ∀ n, fromBlock ≤ n → n ≤ toBlock → ∀ log ∈ X.events c n,
    ∃ event, decodeDepositCreated c.keccak256 log = .ok event ∧
      event.observation ∈ read.observations
  emitted : ∀ o ∈ read.observations, ∃ n, fromBlock ≤ n ∧ n ≤ toBlock ∧ Emits c X n o
  anchors : ∀ e ∈ read.anchors, (fromBlock ≤ e.1 ∨ c.startBlock ≤ e.1) ∧ e.1 ≤ toBlock ∧
    X.hashAt e.1 = some e.2
  cursor : X.hashAt toBlock = some read.cursorHash

theorem reads_of_readRange {head : ℕ} {N : Indexer} {fromBlock toBlock : ℕ} {read : RangeRead}
    (h : readRange c E head N.calls fromBlock toBlock = .ok read)
    (hsteady : SteadyRange c E head N (fromBlock, toBlock)) :
    Reads c (E.chain (read.calls - 1)) fromBlock toBlock read ∧
      ∀ cursor ∈ N.store.robinhoodScanCursor,
        (E.chain (read.calls - 1)).hashAt cursor.1 = some cursor.2 := by
  unfold SteadyRange at hsteady
  rw [h] at hsteady
  obtain ⟨hlogs, hfrontier, hcursor⟩ := hsteady
  refine ⟨?_, hcursor⟩
  simp only [readRange, bind_eq_ok, orFail_eq_ok, pure_eq_ok] at h
  obtain ⟨logs, hcall, rl, hread, anchors, hanchors, stability, hstability, found, hfound,
    cursorHash, hcursorHash, rfl⟩ := h
  obtain rfl := readDepositBlocks_eq_ok hanchors
  unfold Endpoint.call at hcall
  split_ifs at hcall
  obtain rfl := Except.ok.inj hcall
  simp only [Nat.add_sub_cancel] at hlogs hfrontier ⊢
  generalize hX : E.chain (N.calls + 1 + rl.depositBlocks.length + stability.length) = X
    at hlogs hfrontier hfound ⊢
  -- the logs that are not removed are those of `X`
  have hmem : ∀ log, (log ∈ E.getLogs N.calls (c.filter fromBlock toBlock) ∧
      log.removed = false) ↔ ∃ n, fromBlock ≤ n ∧ n ≤ toBlock ∧ log ∈ X.events c n := by
    intro log
    rw [← BestChain.mem_logs, ← hlogs, ← E.truthful, List.mem_filter]
    simp
  have htopic : ∀ log ∈ E.getLogs N.calls (c.filter fromBlock toBlock), log.removed = false →
      log.topics.head? = some (depositCreatedTopic0 c.keccak256) := by
    intro log hlog hremoved
    obtain ⟨n, -, -, hevent⟩ := (hmem log).mp ⟨hlog, hremoved⟩
    exact (BestChain.of_mem_events hevent).2.2.2
  obtain ⟨hdecoded, hobs, hblocks⟩ := readLogs_eq_ok htopic hread
  constructor
  case decoded =>
    intro n hfrom hto log hlog
    have hin := (hmem log).mpr ⟨n, hfrom, hto, hlog⟩
    exact hdecoded log hin.1 hin.2
  case emitted =>
    intro o ho
    rcases (hobs o).mp ho with ho | ⟨log, hlog, hremoved, event, hevent, rfl⟩
    · cases ho
    · obtain ⟨n, hfrom, hto, hin⟩ := (hmem log).mp ⟨hlog, hremoved⟩
      exact ⟨n, hfrom, hto, log, hin, event, hevent, rfl⟩
  case anchors =>
    intro e he
    rcases List.mem_append.mp he with he | he
    · rcases hblocks e he with he | ⟨log, hlog, hremoved, rfl⟩
      · cases he
      · obtain ⟨n, hfrom, hto, hin⟩ := (hmem log).mp ⟨hlog, hremoved⟩
        obtain ⟨hn, hhash, -⟩ := BestChain.of_mem_events hin
        exact ⟨.inl (hn ▸ hfrom), hn ▸ hto, hn ▸ hhash⟩
    · rcases readStabilityAnchor_eq_ok hstability with ⟨rfl, -⟩ | ⟨hlt, live, hlive, rfl⟩
      · cases he
      · obtain rfl := List.mem_singleton.mp he
        refine ⟨.inr (le_max_right _ _), hlt.le, ?_⟩
        rw [← hfrontier hlt]
        exact hlive
  case cursor =>
    rw [canonicalHash_eq_ok hfound, hX] at hcursorHash
    exact hcursorHash

end Reads

/-! ## Coverage -/

section Coverage

variable {Known : BestChain hash → Prop} {c : IndexerConfig} {X Y : BestChain hash}
  {T T' : ObservationTable} {bound bound' : ℕ}

/-- The live observations below a height are the events below it. -/
structure Covers (c : IndexerConfig) (X : BestChain hash) (T : ObservationTable) (bound : ℕ) :
    Prop where
  missed : ∀ n, c.startBlock ≤ n → n < bound → ∀ log ∈ X.events c n,
    ∃ event, decodeDepositCreated c.keccak256 log = .ok event ∧ Records T event.observation
  invented : ∀ o, Records T o → o.blockNumber < bound →
    ∃ n, c.startBlock ≤ n ∧ n < bound ∧ Emits c X n o

theorem Covers.mono (h : Covers c X T bound) (hle : bound' ≤ bound) : Covers c X T bound' := by
  constructor
  · intro n hstart hn log hlog
    exact h.missed n hstart (by omega) log hlog
  · intro o ho hlt
    obtain ⟨n, hstart, -, hemits⟩ := h.invented o ho (by omega)
    exact ⟨n, hstart, hemits.blockNumber ▸ hlt, hemits⟩

/-- Chains with the same blocks below the height are covered alike. -/
theorem Covers.congr_chain (h : Covers c X T bound)
    (hagree : ∀ n < bound, X.blocks[n]? = Y.blocks[n]?) : Covers c Y T bound := by
  constructor
  · intro n hstart hn log hlog
    rw [← BestChain.events_congr (hagree n hn)] at hlog
    exact h.missed n hstart hn log hlog
  · intro o ho hlt
    obtain ⟨n, hstart, hn, log, hlog, hevent⟩ := h.invented o ho hlt
    rw [BestChain.events_congr (hagree n hn)] at hlog
    exact ⟨n, hstart, hn, log, hlog, hevent⟩

/-- What is recorded above the height does not matter. -/
theorem Covers.congr_records (h : Covers c X T bound)
    (hrecords : ∀ o, o.blockNumber < bound → (Records T o ↔ Records T' o)) :
    Covers c X T' bound := by
  constructor
  · intro n hstart hn log hlog
    obtain ⟨event, hevent, hrec⟩ := h.missed n hstart hn log hlog
    have hblock : event.observation.blockNumber = n :=
      Emits.blockNumber ⟨log, hlog, event, hevent, rfl⟩
    exact ⟨event, hevent, (hrecords _ (by omega)).mp hrec⟩
  · intro o ho hlt
    exact h.invented o ((hrecords o hlt).mpr ho) hlt

/-- A range is covered, next to what was covered below it. -/
theorem Covers.extend {fromBlock toBlock : ℕ} {read : RangeRead}
    (h : Covers c X T fromBlock) (hstart : c.startBlock ≤ fromBlock) (hle : fromBlock ≤ toBlock)
    (hbelow : ∀ o, Records T o → o.blockNumber < fromBlock)
    (hread : Reads c X fromBlock toBlock read)
    (hrecords : ∀ o, Records T' o ↔ Records T o ∨ o ∈ read.observations) :
    Covers c X T' (toBlock + 1) := by
  constructor
  · intro n hstart hn log hlog
    by_cases hlt : n < fromBlock
    · obtain ⟨event, hevent, hrec⟩ := h.missed n hstart hlt log hlog
      exact ⟨event, hevent, (hrecords _).mpr (.inl hrec)⟩
    · obtain ⟨event, hevent, hin⟩ := hread.decoded n (not_lt.mp hlt) (by omega) log hlog
      exact ⟨event, hevent, (hrecords _).mpr (.inr hin)⟩
  · intro o ho _
    rcases (hrecords o).mp ho with ho | ho
    · obtain ⟨n, hn, hlt, hemits⟩ := h.invented o ho (hbelow o ho)
      exact ⟨n, hn, by omega, hemits⟩
    · obtain ⟨n, hfrom, hto, hemits⟩ := hread.emitted o ho
      exact ⟨n, by omega, by omega, hemits⟩

/-- The block is anchored with this hash. -/
def Anchored (s : ObservationStore) (n blockHash : ℕ) : Prop :=
  (s.scannedBlocks.get? n).map ScannedBlock.blockHash = some blockHash

/-- Every anchor stands for chains that are covered up to it, and nothing is
recorded above the cursor. -/
structure Covered (Known : BestChain hash → Prop) (c : IndexerConfig) (s : ObservationStore) :
    Prop where
  anchors : ∀ X, Known X → ∀ n blockHash, Anchored s n blockHash → X.hashAt n = some blockHash →
    Covers c X s.observations (n + 1)
  start : ∀ n blockHash, Anchored s n blockHash → c.startBlock ≤ n
  cursor : ∀ o, Records s.observations o →
    ∃ cursor ∈ s.robinhoodScanCursor, o.blockNumber ≤ cursor.1

/-- The scan goes on from here. -/
def Ready (c : IndexerConfig) (s : ObservationStore) (fromBlock : ℕ) : Prop :=
  match s.robinhoodScanCursor with
  | none => fromBlock = c.startBlock
  | some cursor => fromBlock = cursor.1 + 1

variable {s s' : ObservationStore} {n blockHash fromBlock toBlock head depth : ℕ} {now : ℤ}
  {read : RangeRead} {applied : RangeApplied}

theorem scanCursor_anchored {cursor : ℕ × ℕ} (h : s.robinhoodScanCursor = some cursor) :
    Anchored s cursor.1 cursor.2 :=
  (robinhoodScanCursor_eq_some.mp h).1

/-- No anchor is above the cursor. -/
theorem Anchored.le_cursor (h : Anchored s n blockHash) :
    ∃ cursor, s.robinhoodScanCursor = some cursor ∧ n ≤ cursor.1 := by
  obtain ⟨anchor, hget, -⟩ := Option.map_eq_some_iff.mp h
  have hkey : n ∈ s.scannedBlocks.keys := Store.get?_isSome.mp (by rw [hget]; rfl)
  cases hmax : s.scannedBlocks.keys.max? with
  | none =>
    rw [List.max?_eq_none_iff] at hmax
    rw [hmax] at hkey
    cases hkey
  | some m =>
    obtain ⟨hm, hle⟩ := List.max?_eq_some_iff.mp hmax
    obtain ⟨top, htop⟩ := Option.isSome_iff_exists.mp (Store.get?_isSome.mpr hm)
    have hcursor : s.robinhoodScanCursor = some (m, top.blockHash) :=
      robinhoodScanCursor_eq_some.mpr ⟨by rw [htop]; rfl, hle⟩
    exact ⟨(m, top.blockHash), hcursor, hle n hkey⟩

theorem Ready.covers (hready : Ready c s fromBlock) (h : Covered Known c s) (hX : Known X)
    (hcursor : ∀ cursor ∈ s.robinhoodScanCursor, X.hashAt cursor.1 = some cursor.2) :
    c.startBlock ≤ fromBlock ∧ Covers c X s.observations fromBlock ∧
      (∀ o, Records s.observations o → o.blockNumber < fromBlock) ∧
      ∀ n blockHash, Anchored s n blockHash → n < fromBlock := by
  unfold Ready at hready
  split at hready
  · rename_i hnone
    have hrecords : ∀ o, ¬ Records s.observations o := by
      intro o ho
      obtain ⟨cursor, hsome, -⟩ := h.cursor o ho
      rw [hnone] at hsome
      cases hsome
    refine ⟨hready.ge, ?_, fun o ho => absurd ho (hrecords o), fun n blockHash hanchored => ?_⟩
    · constructor
      · intro n hstart hn
        omega
      · intro o ho
        exact absurd ho (hrecords o)
    · obtain ⟨cursor, hsome, -⟩ := hanchored.le_cursor
      rw [hnone] at hsome
      cases hsome
  · rename_i cursor hsome
    have hanchored := scanCursor_anchored hsome
    have hstart := h.start _ _ hanchored
    refine ⟨by omega, ?_, fun o ho => ?_, fun n blockHash hn => ?_⟩
    · rw [hready]
      exact h.anchors X hX _ _ hanchored (hcursor cursor hsome)
    · obtain ⟨cursor', hsome', hle⟩ := h.cursor o ho
      obtain rfl := Option.some.inj (hsome.symm.trans hsome')
      omega
    · obtain ⟨cursor', hsome', hle⟩ := hn.le_cursor
      obtain rfl := Option.some.inj (hsome.symm.trans hsome')
      omega

/-- A range brings in the anchors it writes, and no others. -/
theorem anchored_of_applyScanRange {os : List DepositObservation} {anchors : List (ℕ × ℕ)}
    {cursorBlock cursorHash retain : ℕ}
    (h : s.robinhoodApplyScanRange os anchors cursorBlock cursorHash retain now =
      .ok (s', applied)) (hanchored : Anchored s' n blockHash) :
    Anchored s n blockHash ∨ (n, blockHash) ∈ anchors ∨ (n, blockHash) = (cursorBlock, cursorHash) := by
  obtain ⟨T, -, -, -, rfl⟩ := ObservationStore.robinhoodApplyScanRange_eq_ok.mp h
  unfold Anchored at hanchored
  rw [get?_pruneAnchors] at hanchored
  split_ifs at hanchored with hkept
  · rcases get?_foldl_anchorBlock s.scannedBlocks (anchors ++ [(cursorBlock, cursorHash)]) now n
      with ⟨-, hsame⟩ | ⟨h', hmem, hnew⟩
    · rw [ObservationStore.anchored, hsame] at hanchored
      exact .inl hanchored
    · rw [ObservationStore.anchored, hnew] at hanchored
      obtain rfl : h' = blockHash := by simpa using hanchored
      rw [List.mem_append, List.mem_singleton] at hmem
      exact .inr hmem
  · cases hanchored

/-- A range that reads what a known chain has, after the cursor's block on that
chain, keeps the coverage. -/
theorem Covered.applyScanRange (h : Covered Known c s) (hfree : CollisionFree Known)
    (hX : Known X) (hready : Ready c s fromBlock) (hle : fromBlock ≤ toBlock)
    (hcursor : ∀ cursor ∈ s.robinhoodScanCursor, X.hashAt cursor.1 = some cursor.2)
    (hread : Reads c X fromBlock toBlock read)
    (happly : s.robinhoodApplyScanRange read.observations read.anchors toBlock read.cursorHash
      depth now = .ok (s', applied)) :
    Covered Known c s' ∧ s'.robinhoodScanCursor = some (toBlock, read.cursorHash) := by
  obtain ⟨hstart, hcovers, hbelow, hanchorsBelow⟩ := hready.covers h hX hcursor
  have hrecords : ∀ o, Records s'.observations o ↔
      Records s.observations o ∨ o ∈ read.observations := by
    obtain ⟨T, hrecord, -, -, rfl⟩ := ObservationStore.robinhoodApplyScanRange_eq_ok.mp happly
    exact fun o => records_recordObservations_iff hrecord
  have hextended := hcovers.extend hstart hle hbelow hread hrecords
  -- an anchor is an old one, below the range, or it is on the chain that was read
  have hanchor : ∀ n blockHash, Anchored s' n blockHash →
      Anchored s n blockHash ∨
        (c.startBlock ≤ n ∧ n ≤ toBlock ∧ X.hashAt n = some blockHash) := by
    intro n blockHash hanchored
    rcases anchored_of_applyScanRange happly hanchored with hold | hmem | heq
    · exact .inl hold
    · obtain ⟨hn, hto, hhash⟩ := hread.anchors _ hmem
      exact .inr ⟨hn.elim hstart.trans id, hto, hhash⟩
    · obtain ⟨rfl, rfl⟩ := Prod.mk.inj heq
      exact .inr ⟨hstart.trans hle, le_rfl, hread.cursor⟩
  have hscan : s'.robinhoodScanCursor = some (toBlock, read.cursorHash) := by
    rw [robinhoodScanCursor_eq_some, (ObservationStore.retained happly).1]
    refine ⟨rfl, fun m hm => ?_⟩
    obtain ⟨anchor, hget⟩ := Option.isSome_iff_exists.mp (Store.get?_isSome.mpr hm)
    rcases hanchor m anchor.blockHash (by rw [Anchored, hget]; rfl) with hold | ⟨-, hto, -⟩
    · have hlt := hanchorsBelow _ _ hold
      omega
    · exact hto
  refine ⟨⟨?anchors, ?start, ?cursor⟩, hscan⟩
  case anchors =>
    intro Y hY n blockHash hanchored hYn
    rcases hanchor n blockHash hanchored with hold | ⟨-, hto, hXn⟩
    · have hlt := hanchorsBelow _ _ hold
      refine (h.anchors Y hY n blockHash hold hYn).congr_records fun o ho => ?_
      rw [hrecords]
      refine (or_iff_left fun hin => ?_).symm
      obtain ⟨m, hm, -, hemits⟩ := hread.emitted o hin
      have hblock := hemits.blockNumber
      omega
    · have hcov := hextended.mono (by omega : n + 1 ≤ toBlock + 1)
      exact hcov.congr_chain fun m hm =>
        BestChain.agree hfree hX hY hXn hYn m (by omega)
  case start =>
    intro n blockHash hanchored
    rcases hanchor n blockHash hanchored with hold | ⟨hn, -, -⟩
    · exact h.start n blockHash hold
    · exact hn
  case cursor =>
    intro o ho
    refine ⟨_, hscan, ?_⟩
    rcases (hrecords o).mp ho with ho | ho
    · have hlt := hbelow o ho
      change o.blockNumber ≤ toBlock
      omega
    · obtain ⟨m, -, hm, hemits⟩ := hread.emitted o ho
      exact hemits.blockNumber ▸ hm

theorem Covered.rollback {forkBlock forkHash oldTipBlock oldTipHash orphaned : ℕ}
    (h : Covered Known c s) (hfork : Anchored s forkBlock forkHash)
    (hroll : s.robinhoodRollbackReorg forkBlock forkHash oldTipBlock oldTipHash now =
      .ok (s', orphaned)) :
    Covered Known c s' ∧ s'.robinhoodScanCursor = some (forkBlock, forkHash) := by
  obtain ⟨hfinal, hrows, hanchors⟩ := ObservationStore.robinhoodRollbackReorg_eq_ok hroll
  have hscan := (ObservationStore.rolledBack hroll).1
  have hrecords : ∀ o, Records s'.observations o ↔
      Records s.observations o ∧ o.blockNumber ≤ forkBlock := by
    intro o
    rw [hrows, records_orphanRows_iff]
    · simp only [decide_eq_true_eq, not_lt]
    · intro k r hget hstate
      simpa using hfinal k r hget hstate
  have hanchor : ∀ n blockHash, Anchored s' n blockHash →
      Anchored s n blockHash ∧ n ≤ forkBlock := by
    intro n blockHash hanchored
    unfold Anchored at hanchored
    rw [hanchors, get?_anchorBlock, Store.get?_retain] at hanchored
    split_ifs at hanchored with hn hle
    · obtain rfl : forkHash = blockHash := by simpa using hanchored
      exact ⟨hn ▸ hfork, hn.le⟩
    · exact ⟨hanchored, of_decide_eq_true hle⟩
    · cases hanchored
  refine ⟨⟨?anchors, ?start, ?cursor⟩, hscan⟩
  case anchors =>
    intro X hX n blockHash hanchored hXn
    obtain ⟨hold, hle⟩ := hanchor n blockHash hanchored
    refine (h.anchors X hX n blockHash hold hXn).congr_records fun o ho => ?_
    rw [hrecords]
    exact (and_iff_left (by omega)).symm
  case start =>
    intro n blockHash hanchored
    exact h.start n blockHash (hanchor n blockHash hanchored).1
  case cursor =>
    intro o ho
    exact ⟨_, hscan, ((hrecords o).mp ho).2⟩

/-- Finality does not change what is recorded. -/
theorem Covered.promoteFinal {promoted : List ℕ} (h : Covered Known c s)
    (hpromote : s.robinhoodPromoteFinal head depth now = .ok (s', promoted)) :
    Covered Known c s' := by
  simp only [ObservationStore.robinhoodPromoteFinal, bind_eq_ok, toI64_eq_ok, pure_eq_ok,
    Prod.mk.injEq] at hpromote
  obtain ⟨x, -, y, -, rfl, -⟩ := hpromote
  refine ⟨?anchors, h.start, ?cursor⟩
  case anchors =>
    intro X hX n blockHash hanchored hXn
    exact (h.anchors X hX n blockHash hanchored hXn).congr_records
      fun o _ => records_finalizeRows_iff.symm
  case cursor =>
    intro o ho
    exact h.cursor o (records_finalizeRows_iff.mp ho)

theorem covered_empty : Covered Known c .empty := by
  refine ⟨?anchors, ?start, ?cursor⟩
  case anchors =>
    intro X _ n blockHash hanchored
    cases hanchored
  case start =>
    intro n blockHash hanchored
    cases hanchored
  case cursor =>
    rintro o ⟨k, r, hget, -⟩
    cases hget

end Coverage

/-! ## The tick -/

section Tick

variable {Known : BestChain hash → Prop} {c : IndexerConfig} {E : Endpoint hash}
  {N N' : Indexer} {now : ℤ} {head fromBlock toBlock scanFrom : ℕ}

/-- A halt is not in the store. -/
@[simp] theorem store_stop (stop : TickStop) : (N.stop now stop).store = N.store := by
  cases stop <;> rfl

/-- A chunk that is applied ends with the cursor, and one that is not leaves the
store. -/
theorem scanChunk_covered (hfree : CollisionFree Known) (hknown : ∀ i, Known (E.chain i))
    (h : Covered Known c N.store) (hready : Ready c N.store fromBlock) (hle : fromBlock ≤ toBlock)
    (hsteady : SteadyRange c E head N (fromBlock, toBlock)) :
    Covered Known c (Indexer.scanChunk c E head now N (fromBlock, toBlock)).state.store ∧
      ∀ N', Indexer.scanChunk c E head now N (fromBlock, toBlock) = .done N' →
        Ready c N'.store (toBlock + 1) := by
  have hstopped : ∀ stop, Covered Known c (Attempt.stopped (N.stop now stop)).state.store ∧
      ∀ N', Attempt.stopped (N.stop now stop) = .done N' → Ready c N'.store (toBlock + 1) := by
    intro stop
    refine ⟨?_, fun N' heq => by cases heq⟩
    rw [Attempt.state_stopped, store_stop]
    exact h
  unfold Indexer.scanChunk
  dsimp only
  cases hrange : readRange c E head N.calls fromBlock toBlock with
  | error e => exact hstopped e
  | ok read =>
    dsimp only
    obtain ⟨hread, hcursor⟩ := reads_of_readRange hrange hsteady
    cases happly : N.store.robinhoodApplyScanRange read.observations read.anchors toBlock
        read.cursorHash c.confirmationDepth now with
    | error e =>
      cases e with
      | observationConflict => exact hstopped _
      | postFinalityReorg => exact hstopped _
      | valueOutOfRange => exact hstopped _
      | sqlite => exact hstopped _
      | panicked => exact hstopped _
    | ok result =>
      obtain ⟨store, applied⟩ := result
      obtain ⟨hcovered, hscan⟩ := h.applyScanRange hfree (hknown _) hready hle hcursor hread happly
      refine ⟨hcovered, fun N' heq => ?_⟩
      injection heq with heq
      subst heq
      simp [Ready, hscan]

/-- The chunks follow each other, so each of them starts after the cursor. -/
theorem loop_covered (hfree : CollisionFree Known) (hknown : ∀ i, Known (E.chain i)) (range : ℕ)
    (blocks : ℕ) (h : Covered Known c N.store) (hready : Ready c N.store fromBlock)
    (hturns : Attempt.Turns (SteadyRange c E head) (Indexer.scanChunk c E head now) N
      (Indexer.chunks range head blocks fromBlock)) :
    Covered Known c (Attempt.loop (Indexer.scanChunk c E head now) N
      (Indexer.chunks range head blocks fromBlock)).state.store := by
  induction blocks generalizing N fromBlock with
  | zero => exact h
  | succ blocks ih =>
    unfold Indexer.chunks at hturns ⊢
    split_ifs at hturns ⊢ with hle
    · obtain ⟨hcovered, hnext⟩ := scanChunk_covered hfree hknown h hready
        (by omega : fromBlock ≤ min (fromBlock + (range - 1)) head) hturns.head
      refine @Attempt.andThen_keeps _ (fun N : Indexer => Covered Known c N.store) _ _ hcovered
        fun N' hdone hN' => ?_
      exact ih hN' (hnext N' hdone) (hturns.tail hdone)
    · exact h

theorem mem_robinhoodScanAnchorsDesc {s : ObservationStore} {n blockHash : ℕ}
    (h : (n, blockHash) ∈ s.robinhoodScanAnchorsDesc) : Anchored s n blockHash := by
  rw [ObservationStore.robinhoodScanAnchorsDesc, List.mem_insertionSort, List.mem_map] at h
  obtain ⟨e, he, heq⟩ := h
  obtain ⟨rfl, rfl⟩ := Prod.mk.inj heq
  rw [Anchored, Store.get?_of_mem he]
  rfl

theorem findFork_eq_ok {i calls : ℕ} {anchors : List (ℕ × ℕ)} {fork : ℕ × ℕ}
    (h : Indexer.findFork E i anchors = .ok (some fork, calls)) : fork ∈ anchors := by
  induction anchors generalizing i with
  | nil => cases h
  | cons e rest ih =>
    obtain ⟨block, stored⟩ := e
    rw [Indexer.findFork, bind_eq_ok] at h
    obtain ⟨live, -, h⟩ := h
    split_ifs at h
    · obtain ⟨heq, -⟩ := Prod.mk.inj (pure_eq_ok.mp h)
      rw [← Option.some.inj heq]
      exact List.mem_cons_self
    · exact List.mem_cons_of_mem _ (ih h)

theorem reconcileReorg_covered {cursorBlock cursorHash : ℕ} (h : Covered Known c N.store)
    (hreorg : Indexer.reconcileReorg E N cursorBlock cursorHash now = .ok (N', scanFrom)) :
    Covered Known c N'.store ∧ Ready c N'.store scanFrom := by
  rw [Indexer.reconcileReorg, bind_eq_ok] at hreorg
  obtain ⟨⟨fork, calls⟩, hfind, hreorg⟩ := hreorg
  cases fork with
  | none =>
    simp only [bind_eq_ok, exists_unit, require_eq_ok] at hreorg
    obtain ⟨above, -, -, hreorg⟩ := hreorg
    cases hreorg
  | some fork =>
    simp only [bind_eq_ok, exists_unit, require_eq_ok, mapError_eq_ok, pure_eq_ok,
      Prod.mk.injEq] at hreorg
    obtain ⟨above, -, -, ⟨store, orphaned⟩, hroll, rfl, rfl⟩ := hreorg
    obtain ⟨hcovered, hscan⟩ := h.rollback (mem_robinhoodScanAnchorsDesc (findFork_eq_ok hfind)) hroll
    refine ⟨hcovered, ?_⟩
    simp [Ready, hscan]

theorem prepare_covered (h : Covered Known c N.store)
    (hprepare : Indexer.prepare c E N now = .ok (N', head, scanFrom)) :
    Covered Known c N'.store ∧ Ready c N'.store scanFrom := by
  simp only [Indexer.prepare, bind_eq_ok, exists_unit, require_eq_ok] at hprepare
  obtain ⟨chainId, -, -, head', -, hprepare⟩ := hprepare
  split at hprepare
  · rename_i hnone
    obtain ⟨rfl, heq⟩ := Prod.mk.inj (pure_eq_ok.mp hprepare)
    obtain ⟨-, rfl⟩ := Prod.mk.inj heq
    refine ⟨h, ?_⟩
    simp [Ready, hnone]
  · rename_i cursorBlock cursorHash hsome
    rw [bind_eq_ok] at hprepare
    obtain ⟨live, -, hprepare⟩ := hprepare
    split_ifs at hprepare with hlive
    · obtain ⟨rfl, heq⟩ := Prod.mk.inj (pure_eq_ok.mp hprepare)
      obtain ⟨-, rfl⟩ := Prod.mk.inj heq
      refine ⟨h, ?_⟩
      simp [Ready, hsome]
    · rw [bind_eq_ok] at hprepare
      obtain ⟨⟨N₁, from₁⟩, hreorg, hprepare⟩ := hprepare
      obtain ⟨rfl, heq⟩ := Prod.mk.inj (pure_eq_ok.mp hprepare)
      obtain ⟨-, rfl⟩ := Prod.mk.inj heq
      have hcalls : Covered Known c { N with calls := 3 }.store := h
      exact reconcileReorg_covered hcalls hreorg

/-- Every range that the tick scans is steady in its turn. -/
def SteadyTick (c : IndexerConfig) (E : Endpoint hash) (now : ℤ) (N : Indexer) : Prop :=
  N.halt = none →
    match Indexer.prepare c E N now with
    | .error _ => True
    | .ok (N, head, scanFrom) =>
      Attempt.Turns (SteadyRange c E head) (Indexer.scanChunk c E head now) N
        (Indexer.chunks c.maxLogBlockRange head (head + 1 - scanFrom) scanFrom)

theorem tick_covered (hfree : CollisionFree Known) (hknown : ∀ i, Known (E.chain i))
    (h : Covered Known c N.store) (hsteady : SteadyTick c E now N) :
    Covered Known c (Indexer.tick c E now N).store := by
  unfold Indexer.tick
  split_ifs with hhalt
  · exact h
  · have hsteady := hsteady (Option.not_isSome_iff_eq_none.mp hhalt)
    cases hprepare : Indexer.prepare c E N now with
    | error e =>
      dsimp only
      rw [store_stop]
      exact h
    | ok result =>
      obtain ⟨N₁, head, scanFrom⟩ := result
      rw [hprepare] at hsteady
      dsimp only at hsteady ⊢
      obtain ⟨hcovered, hready⟩ := prepare_covered h hprepare
      have hloop := loop_covered hfree hknown c.maxLogBlockRange (head + 1 - scanFrom) hcovered
        hready hsteady
      cases hend : Attempt.loop (Indexer.scanChunk c E head now) N₁
          (Indexer.chunks c.maxLogBlockRange head (head + 1 - scanFrom) scanFrom) with
      | stopped N₂ =>
        rw [hend] at hloop
        exact hloop
      | done N₂ =>
        rw [hend] at hloop
        dsimp only [Attempt.state_done] at hloop ⊢
        unfold Indexer.promote
        split
        · rename_i store promoted hpromote
          exact hloop.promoteFinal hpromote
        · exact hloop

end Tick

/-! ## Runs -/

/-- Every range that a tick scans is steady. -/
def SteadyOp (c : IndexerConfig) (N : Indexer) : IndexerOp hash → Prop
  | .tick E now => SteadyTick c E now N
  | .clearHalt => True

/-- Every event up to the block has a live observation with exactly its fields. -/
def NoneMissed (c : IndexerConfig) (X : BestChain hash) (s : ObservationStore) (block : ℕ) :
    Prop :=
  ∀ n, c.startBlock ≤ n → n ≤ block → ∀ log ∈ X.events c n,
    ∃ event, decodeDepositCreated c.keccak256 log = .ok event ∧
      ∃ k r, s.observations.get? k = some r ∧ r.Live ∧ r.observation = event.observation

/-- Every live observation up to the block is of an event of the chain. -/
def NoneInvented (c : IndexerConfig) (X : BestChain hash) (s : ObservationStore) (block : ℕ) :
    Prop :=
  ∀ k r, s.observations.get? k = some r → r.Live → r.observation.blockNumber ≤ block →
    ∃ n, c.startBlock ≤ n ∧ n ≤ block ∧ ∃ log ∈ X.events c n,
      ∃ event, decodeDepositCreated c.keccak256 log = .ok event ∧
        event.observation = r.observation

/-- In every run of ticks whose ranges are steady, the live observations up to
the cursor are the events of the best chain up to it, whenever the chain has the
cursor's block. -/
theorem live_iff_emitted {Known : BestChain hash → Prop} (hfree : CollisionFree Known)
    (c : IndexerConfig) (ops : List (IndexerOp hash))
    (hknown : ∀ E now, IndexerOp.tick E now ∈ ops → ∀ i, Known (E.chain i))
    (hsteady : ∀ e ∈ Run.history (Indexer.step c) Indexer.init ops, SteadyOp c e.1 e.2)
    (X : BestChain hash) (hX : Known X) (cursorBlock cursorHash : ℕ)
    (hcursor : (Indexer.after c ops).store.robinhoodScanCursor = some (cursorBlock, cursorHash))
    (hlive : X.hashAt cursorBlock = some cursorHash) :
    NoneMissed c X (Indexer.after c ops).store cursorBlock ∧
      NoneInvented c X (Indexer.after c ops).store cursorBlock := by
  have hstep : ∀ (N : Indexer) (op : IndexerOp hash) (N' : Indexer), Covered Known c N.store →
      (op ∈ ops ∧ SteadyOp c N op) → Indexer.step c N op = some N' → Covered Known c N'.store := by
    intro N op N' hN hop hstep
    cases op with
    | tick E now =>
      obtain rfl := Option.some.inj hstep
      exact tick_covered hfree (hknown E now hop.1) hN hop.2
    | clearHalt =>
      obtain rfl := Option.some.inj hstep
      exact hN
  have hops : ∀ e ∈ Run.history (Indexer.step c) Indexer.init ops,
      e.2 ∈ ops ∧ SteadyOp c e.1 e.2 := fun e he =>
    ⟨Run.history_sublist.subset (List.mem_map_of_mem he), hsteady e he⟩
  have hcovered : Covered Known c (Indexer.after c ops).store :=
    Run.invariant_of_history hstep covered_empty ops hops
  have hcovers := hcovered.anchors X hX _ _ (scanCursor_anchored hcursor) hlive
  constructor
  · intro n hstart hn log hlog
    exact hcovers.missed n hstart (by omega) log hlog
  · intro k r hget hr hle
    obtain ⟨n, hstart, hn, hemits⟩ := hcovers.invented r.observation ⟨k, r, hget, hr, rfl⟩
      (by omega)
    exact ⟨n, hstart, by omega, hemits⟩

section Decisions

variable (c : IndexerConfig) (E : Endpoint hash) (head : ℕ) (now : ℤ) (N : Indexer)

instance (range : ℕ × ℕ) : Decidable (SteadyRange c E head N range) := by
  unfold SteadyRange
  cases readRange c E head N.calls range.1 range.2 with
  | error e => exact inferInstanceAs (Decidable True)
  | ok read => exact inferInstanceAs (Decidable (_ ∧ _ ∧ _))

instance : Decidable (SteadyTick c E now N) := by
  unfold SteadyTick
  cases Indexer.prepare c E N now with
  | error e => exact inferInstanceAs (Decidable (_ → True))
  | ok result => exact inferInstanceAs (Decidable (_ → Attempt.Turns _ _ _ _))

instance (op : IndexerOp hash) : Decidable (SteadyOp c N op) :=
  match op with
  | .tick E now => inferInstanceAs (Decidable (SteadyTick c E now N))
  | .clearHalt => inferInstanceAs (Decidable True)

end Decisions

/-! A deposit in block 1 of one of two chains that have one block 0. -/

/-- The hash of the event's signature. -/
def sampleTopic0 : Bytes.Bytes32 :=
  #v[218, 149, 203, 236, 14, 133, 6, 255, 83, 231, 152, 114, 250, 161, 150, 150, 177, 56, 230, 133,
    56, 224, 34, 128, 113, 249, 103, 83, 5, 169, 181, 55]

def sampleIndexerConfig : IndexerConfig where
  chainId := 4
  bridgeContract := 10
  startBlock := 0
  confirmationDepth := 3
  maxLogBlockRange := 100
  keccak256 _ := sampleTopic0

def sampleWord (value : ℕ) : Bytes.Bytes32 := Vector.ofFn fun i => (Bytes.beBytes 32 value).getD i 0

def sampleDeposit : BlockLog where
  address := 10
  topics := [sampleTopic0, sampleWord 0, sampleWord 20, sampleWord 2]
  data := Bytes.beBytes 32 50000000000 ++ Bytes.beBytes 32 5 ++ Bytes.beBytes 32 96 ++
    Bytes.beBytes 32 1 ++ 7 :: List.replicate 31 0
  txHash := 30
  logIndex := 0

def sampleHash (b : Block) : ℕ := b.parentHash * 4 + b.logs.length + 1

/-- Block 0, and on top of it a block with these logs. -/
def sampleChain (logs : List BlockLog) : BestChain sampleHash where
  blocks := [⟨0, []⟩, ⟨1, logs⟩]
  linked := by simp [sampleHash]

theorem live_iff_emitted_sample :
    NoneMissed sampleIndexerConfig (sampleChain [sampleDeposit])
        (Indexer.after sampleIndexerConfig
          [.tick (.steady 4 fun _ => sampleChain [sampleDeposit]) 100]).store 1 ∧
      NoneInvented sampleIndexerConfig (sampleChain [sampleDeposit])
        (Indexer.after sampleIndexerConfig
          [.tick (.steady 4 fun _ => sampleChain [sampleDeposit]) 100]).store 1 := by
  have hfree : CollisionFree fun X => X = sampleChain [sampleDeposit] := by
    rintro X Y rfl rfl
    decide +kernel
  refine live_iff_emitted hfree sampleIndexerConfig
    [.tick (.steady 4 fun _ => sampleChain [sampleDeposit]) 100] ?_ ?_ _ rfl 1 6 ?_ ?_
  · intro E now hmem i
    obtain ⟨rfl, -⟩ := IndexerOp.tick.inj (List.mem_singleton.mp hmem)
    rfl
  · decide +kernel
  · decide +kernel
  · decide +kernel

/-- The chain is the first one up to a call, and then the second. -/
def movingEndpoint (calls : ℕ) (before after : List BlockLog) : Endpoint sampleHash :=
  .steady 4 fun i => if i < calls then sampleChain before else sampleChain after

/-- A reorg of one block after the logs were read, and the deposit of the new
block is not recorded; or one after the block of the deposit was read again, and
a deposit that is on no chain any more is. In both the cursor is on the best
chain. -/
theorem moved_between_reads :
    (¬ ∀ (E : Endpoint sampleHash) (X : BestChain sampleHash),
      (∀ i, BestChain.ShallowReorg sampleIndexerConfig.confirmationDepth (E.chain i)
        (E.chain (i + 1))) → (∃ j, ∀ i, j ≤ i → E.chain i = X) →
      ∀ cursorBlock cursorHash,
        (Indexer.after sampleIndexerConfig [.tick E 100]).store.robinhoodScanCursor =
          some (cursorBlock, cursorHash) → X.hashAt cursorBlock = some cursorHash →
        NoneMissed sampleIndexerConfig X (Indexer.after sampleIndexerConfig [.tick E 100]).store
          cursorBlock) ∧
    (¬ ∀ (E : Endpoint sampleHash) (X : BestChain sampleHash),
      (∀ i, BestChain.ShallowReorg sampleIndexerConfig.confirmationDepth (E.chain i)
        (E.chain (i + 1))) → (∃ j, ∀ i, j ≤ i → E.chain i = X) →
      ∀ cursorBlock cursorHash,
        (Indexer.after sampleIndexerConfig [.tick E 100]).store.robinhoodScanCursor =
          some (cursorBlock, cursorHash) → X.hashAt cursorBlock = some cursorHash →
        NoneInvented sampleIndexerConfig X (Indexer.after sampleIndexerConfig [.tick E 100]).store
          cursorBlock) := by
  have hshallow : ∀ calls before after i,
      BestChain.ShallowReorg sampleIndexerConfig.confirmationDepth
        ((movingEndpoint calls before after).chain i)
        ((movingEndpoint calls before after).chain (i + 1)) := by
    intro calls before after i
    have hkeep : ∀ X Y : BestChain sampleHash, X.blocks.length = 2 →
        BestChain.ShallowReorg sampleIndexerConfig.confirmationDepth X Y := by
      intro X Y hlen
      rw [BestChain.ShallowReorg, hlen]
      exact List.nil_prefix
    apply hkeep
    unfold movingEndpoint Endpoint.steady
    dsimp only
    split_ifs <;> rfl
  have hsettles : ∀ calls before after, ∃ j, ∀ i, j ≤ i →
      (movingEndpoint calls before after).chain i = sampleChain after := by
    intro calls before after
    refine ⟨calls, fun i hi => ?_⟩
    unfold movingEndpoint Endpoint.steady
    exact if_neg (by omega)
  constructor
  · intro hall
    have hmissed := hall (movingEndpoint 3 [] [sampleDeposit]) _ (hshallow _ _ _) (hsettles _ _ _)
      1 6 (by decide +kernel) (by decide +kernel)
    obtain ⟨event, -, k, r, hget, -⟩ := hmissed 1 (Nat.zero_le 1) le_rfl
      (BestChain.rawLog sampleHash 1 ⟨1, [sampleDeposit]⟩ sampleDeposit)
      (by decide +kernel)
    have hnone : (Indexer.after sampleIndexerConfig
        [.tick (movingEndpoint 3 [] [sampleDeposit]) 100]).store.observations.rows.entries = [] := by
      decide +kernel
    have hmem := Store.mem_of_get? hget
    rw [hnone] at hmem
    cases hmem
  · intro hall
    have hinvented := hall (movingEndpoint 4 [sampleDeposit] []) _ (hshallow _ _ _)
      (hsettles _ _ _) 1 5 (by decide +kernel) (by decide +kernel)
    have hsome : ((Indexer.after sampleIndexerConfig [.tick (movingEndpoint 4 [sampleDeposit] [])
        100]).store.observations.get? 1).any fun r => r.Live ∧ r.observation.blockNumber ≤ 1 := by
      decide +kernel
    have hempty : ∀ n ≤ 1, (sampleChain []).events sampleIndexerConfig n = [] := by
      decide +kernel
    cases hget : (Indexer.after sampleIndexerConfig [.tick (movingEndpoint 4 [sampleDeposit] [])
        100]).store.observations.get? 1 with
    | none =>
      rw [hget] at hsome
      cases hsome
    | some r =>
      rw [hget, Option.any_some, decide_eq_true_eq] at hsome
      obtain ⟨n, -, hn, log, hlog, -⟩ := hinvented 1 r hget hsome.1 hsome.2
      rw [hempty n hn] at hlog
      cases hlog

end Service.Robinhood
