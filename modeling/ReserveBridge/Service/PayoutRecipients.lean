-- SUMMARY: Recipients of Goldcoin payouts: how the signer reads the bytes that were recorded, which bytes are read as one script, and runs in which no script is admitted twice within a wallet window.
import ReserveBridge.Goldcoin.Address
import ReserveBridge.Goldcoin.Payout
import ReserveBridge.Lib.Utf8
import ReserveBridge.Service.Ledger.Effects
import Mathlib.Data.List.DropRight

/-!
# Recipients of Goldcoin payouts

The window of a wallet compares the bytes that a deposit named for its recipient,
and the signer decodes them: as lossy UTF-8, without the NULs at the end, as an
address. An address has one spelling that is ASCII without NULs, and more that are
not.
-/

namespace Service
open Guard

/-! ## The recipient of a payout -/

section Recipients

variable (checksum : List UInt8 → Vector UInt8 4) (network : Goldcoin.Network)

/-- `String::from_utf8_lossy(..).trim_end_matches('\0')`. -/
def destAddr (recipient : Bytes) : String :=
  String.ofList ((Utf8.decodeLossy recipient).rdropWhile (· = Char.ofNat 0))

/-- The recipient as `rederive_plan` decodes it. -/
def destP2pkhHash (recipient : Bytes) : Except Goldcoin.AddressError (Vector UInt8 20) :=
  Goldcoin.decodeP2pkh checksum network (destAddr recipient)

/-- The output script of a payout to the recipient, where there is one. -/
def payoutScript (recipient : Bytes) : Option (List UInt8) :=
  (destP2pkhHash checksum network recipient).toOption.map Goldcoin.p2pkhScript

/-- ASCII without NULs. -/
def Plain (recipient : Bytes) : Prop := ∀ b ∈ recipient, 0 < b.toNat ∧ b.toNat < 0x80

variable {checksum network} {recipient recipient' : Bytes} {script : List UInt8}

theorem payoutScript_eq_some : payoutScript checksum network recipient = some script ↔
    ∃ hash, destP2pkhHash checksum network recipient = .ok hash ∧
      Goldcoin.p2pkhScript hash = script := by
  rw [payoutScript, Option.map_eq_some_iff]
  simp only [toOption_eq_some]

theorem p2pkhScript_inj {hash hash' : Vector UInt8 20}
    (h : Goldcoin.p2pkhScript hash = Goldcoin.p2pkhScript hash') : hash = hash' := by
  have hlists := (List.append_inj (List.append_inj h (by simp)).1 rfl).2
  exact Vector.toList_inj.mp hlists

/-! ### Plain spellings -/

theorem toNat_ofNat_byte {b : UInt8} (h : b.toNat < 0x80) : (Char.ofNat b.toNat).toNat = b.toNat := by
  rw [Char.ofNat, dif_pos (show b.toNat.isValidChar from .inl (by omega))]
  rfl

/-- A plain recipient is the text of its bytes. -/
theorem destAddr_plain (h : Plain recipient) : destAddr recipient = Goldcoin.fromAscii recipient := by
  rw [destAddr, Utf8.decodeLossy_ascii fun b hb => (h b hb).2, Goldcoin.fromAscii]
  congr 1
  rw [List.rdropWhile_eq_self_iff]
  intro hne
  obtain ⟨b, hb, hlast⟩ := List.mem_map.mp (List.getLast_mem hne)
  rw [← hlast, decide_eq_true_iff]
  intro hnul
  have hzero := congrArg Char.toNat hnul
  rw [toNat_ofNat_byte (h b hb).2] at hzero
  exact absurd hzero (Nat.pos_iff_ne_zero.mp (h b hb).1)

theorem isAscii_fromAscii (h : Plain recipient) : Goldcoin.IsAscii (Goldcoin.fromAscii recipient) := by
  intro c hc
  rw [Goldcoin.fromAscii, String.toList_ofList] at hc
  obtain ⟨b, hb, rfl⟩ := List.mem_map.mp hc
  rw [toNat_ofNat_byte (h b hb).2]
  exact (h b hb).2

theorem fromAscii_inj (h : Plain recipient) (h' : Plain recipient')
    (htext : Goldcoin.fromAscii recipient = Goldcoin.fromAscii recipient') :
    recipient = recipient' := by
  have bytes {b : Bytes} (hb : Plain b) :
      (Goldcoin.fromAscii b).toList.map (fun c => UInt8.ofNat c.toNat) = b := by
    rw [Goldcoin.fromAscii, String.toList_ofList, List.map_map]
    refine (List.map_congr_left fun x hx => ?_).trans (List.map_id b)
    rw [Function.comp_apply, toNat_ofNat_byte (hb x hx).2, UInt8.ofNat_toNat]
    rfl
  rw [← bytes h, ← bytes h', htext]

/-- A script has one plain spelling. -/
theorem plain_unique (h : Plain recipient) (h' : Plain recipient')
    (hscript : payoutScript checksum network recipient = some script)
    (hscript' : payoutScript checksum network recipient' = some script) : recipient = recipient' := by
  obtain ⟨hash, hdecode, rfl⟩ := payoutScript_eq_some.mp hscript
  obtain ⟨hash', hdecode', hsame⟩ := payoutScript_eq_some.mp hscript'
  obtain rfl := p2pkhScript_inj hsame
  have spelled {b : Bytes} (hb : Plain b) (hdecode : destP2pkhHash checksum network b = .ok hash') :
      Goldcoin.base58checkEncode checksum network.p2pkhVersion hash' =
        some (Goldcoin.fromAscii b) := by
    rw [destP2pkhHash, destAddr_plain hb, Goldcoin.decodeP2pkh,
      Goldcoin.decodeVersion_eq_ok] at hdecode
    exact (Goldcoin.base58checkEncode_eq_some_iff hdecode).mpr (isAscii_fromAscii hb)
  have htext := (spelled h hdecode).symm.trans (spelled h' hdecode')
  exact fromAscii_inj h h' (Option.some.inj htext)

/-! ### Other spellings -/

theorem rdropWhile_append_replicate {α : Type} [DecidableEq α] {x : α} {l : List α}
    (h : l.getLast? ≠ some x) (n : ℕ) : (l ++ List.replicate n x).rdropWhile (· = x) = l := by
  induction n with
  | zero =>
    rw [List.replicate_zero, List.append_nil, List.rdropWhile_eq_self_iff]
    intro hne
    rw [decide_eq_true_iff]
    intro hlast
    exact h ((List.getLast?_eq_some_getLast hne).trans (congrArg some hlast))
  | succ n ih =>
    rw [List.replicate_succ', ← List.append_assoc]
    exact (List.rdropWhile_concat_pos (fun y => decide (y = x)) _ x (decide_eq_true rfl)).trans ih

/-- A text that is written in UTF-8 and padded with NULs is read as itself. -/
theorem destAddr_padded {text : List Char} (h : text.getLast? ≠ some (Char.ofNat 0)) (n : ℕ) :
    destAddr (Goldcoin.utf8Bytes text ++ List.replicate n 0) = String.ofList text := by
  have hnul : String.utf8EncodeChar (Char.ofNat 0) = [0] := by decide
  have hbytes : Goldcoin.utf8Bytes text ++ List.replicate n 0 =
      (text ++ List.replicate n (Char.ofNat 0)).flatMap String.utf8EncodeChar := by
    rw [List.flatMap_append, List.flatMap_replicate, hnul, Goldcoin.utf8Bytes]
    simp
  rw [destAddr, hbytes, Utf8.decodeLossy_encode, rdropWhile_append_replicate h]

/-- However it is padded, and whatever its characters, a text that decodes is paid. -/
theorem payoutScript_padded {text : List Char} {hash : Vector UInt8 20}
    (h : text.getLast? ≠ some (Char.ofNat 0))
    (hdecode : Goldcoin.decodeP2pkh checksum network (String.ofList text) = .ok hash) (n : ℕ) :
    payoutScript checksum network (Goldcoin.utf8Bytes text ++ List.replicate n 0) =
      some (Goldcoin.p2pkhScript hash) := by
  rw [payoutScript_eq_some]
  refine ⟨hash, ?_, rfl⟩
  rw [destP2pkhHash, destAddr_padded h, hdecode]

/-- Nothing is paid to no bytes. -/
theorem ne_nil_of_payoutScript (h : payoutScript checksum network recipient = some script) :
    recipient ≠ [] := by
  rintro rfl
  obtain ⟨hash, hdecode, -⟩ := payoutScript_eq_some.mp h
  cases hdecode

end Recipients

/-! ## Admissions -/

namespace Request

/-- The deposit was not parked when it was folded. -/
def AdmittedAtFold (r : Request) : Prop := r.stateLog.head? = some (none, .sourceFinalized)

instance (r : Request) : Decidable r.AdmittedAtFold := inferInstanceAs (Decidable (_ = _))

/-- The row counts in the window of its recipient. -/
structure Windowed (r : Request) : Prop where
  late : r.isEarly = false
  counted : r.state.isRateLimitExcluded = false

end Request

namespace Direction

theorem not_sourceIsGoldcoin {d : Direction} (h : d.destinationIsGoldcoin) :
    ¬ d.sourceIsGoldcoin := by
  cases d <;> revert h <;> decide

end Direction

variable {op : Op} {l l' : Ledger} {id : ℕ} {r r' : Request} {δ : ℤ × ℤ}

/-- A new row that was admitted is final. -/
theorem NewRow.admitted (h : NewRow r) (hr : r.AdmittedAtFold) : r.state = .sourceFinalized := by
  rcases h.log _ (List.mem_of_head? hr) with hstate | hstate
  · exact hstate.symm
  · cases hstate

/-- What the window compares stays, and a row is not admitted afterwards. -/
structure SameKey (r r' : Request) : Prop where
  direction : r'.direction = r.direction
  recipient : r'.recipient = r.recipient
  createdAt : r'.createdAt = r.createdAt
  admitted : r'.AdmittedAtFold → r.AdmittedAtFold

namespace Transition

/-- The log of a row that no deposit is observed for only grows by states that follow one. -/
theorem stateLog_append (h : Transition op id r r' δ) (hd : ¬ r.direction.sourceIsGoldcoin) :
    ∃ added : List (Option RequestState × RequestState),
      r'.stateLog = r.stateLog ++ added ∧ ∀ e ∈ added, e.1.isSome := by
  have moved (prior next : RequestState) : ∃ added : List (Option RequestState × RequestState),
      r.stateLog ++ [(some prior, next)] = r.stateLog ++ added ∧ ∀ e ∈ added, e.1.isSome :=
    ⟨_, rfl, List.forall_mem_singleton.mpr rfl⟩
  have same : ∃ added : List (Option RequestState × RequestState),
      r.stateLog = r.stateLog ++ added ∧ ∀ e ∈ added, e.1.isSome :=
    ⟨[], (List.append_nil _).symm, fun e he => (by cases he)⟩
  have twice (a b c : RequestState) : ∃ added : List (Option RequestState × RequestState),
      r.stateLog ++ [(some a, b)] ++ [(some b, c)] = r.stateLog ++ added ∧ ∀ e ∈ added, e.1.isSome :=
    ⟨_, List.append_assoc _ _ _, by simp⟩
  cases h with
  | observed hop source => exact (hd source).elim
  | reorged => exact twice _ _ _
  | solanaRefundBroadcast =>
    split_ifs
    · exact moved _ _
    · exact same
  | releaseConfirmed =>
    split_ifs
    · exact twice _ _ _
    · exact moved _ _
  | robinhoodPayoutSettled =>
    split_ifs
    · exact twice _ _ _
    · exact moved _ _
  | confirmations | releaseAttested | goldcoinRefundSigned | payoutBuilt | payoutConfirmations
  | completionSubmitted | robinhoodTx => exact same
  | _ => exact moved _ _

theorem sameKey (h : Transition op id r r' δ) (hd : r.direction.destinationIsGoldcoin) :
    SameKey r r' := by
  have hsource := Direction.not_sourceIsGoldcoin hd
  have hadmitted : r'.AdmittedAtFold → r.AdmittedAtFold := by
    obtain ⟨added, hlog, hadded⟩ := h.stateLog_append hsource
    intro hr'
    rw [Request.AdmittedAtFold, hlog] at hr'
    cases hlist : r.stateLog with
    | nil =>
      rw [hlist, List.nil_append] at hr'
      cases hadded _ (List.mem_of_head? hr')
    | cons e log =>
      rw [hlist] at hr'
      rw [Request.AdmittedAtFold, hlist]
      exact hr'
  have hcolumns : r'.recipient = r.recipient ∧ r'.createdAt = r.createdAt := by
    cases h with
    | observed hop source => exact (hsource source).elim
    | solanaRefundBroadcast | releaseConfirmed | robinhoodPayoutSettled =>
      split_ifs <;> exact ⟨rfl, rfl⟩
    | _ => exact ⟨rfl, rfl⟩
  exact ⟨h.direction_eq, hcolumns.1, hcolumns.2, hadmitted⟩

/-- A row that counts in its window goes on to count. -/
theorem windowed (h : Transition op id r r' δ) (hr : r.Windowed)
    (hd : r.direction.destinationIsGoldcoin) : r'.Windowed := by
  have early {s : RequestState} (h : r.state = s)
      (hs : Request.isEarly { r with state := s } = true) : False := by
    have hlate := hr.late
    rw [← h] at hs
    rw [hs] at hlate
    cases hlate
  cases h with
  | expired h => exact (early h rfl).elim
  | cancelled h => rcases h with h | h <;> exact (early h rfl).elim
  | observed hop source => exact (Direction.not_sourceIsGoldcoin hd source).elim
  | reorged h => rcases h with h | h <;> exact (early h rfl).elim
  | confirmations | releaseAttested | goldcoinRefundSigned | payoutBuilt | payoutConfirmations
  | completionSubmitted | robinhoodTx | reviewed => exact ⟨hr.late, hr.counted⟩
  | solanaRefundBroadcast =>
    split_ifs
    · exact ⟨rfl, rfl⟩
    · exact ⟨hr.late, hr.counted⟩
  | releaseConfirmed | robinhoodPayoutSettled => split_ifs <;> exact ⟨rfl, rfl⟩
  | _ => exact ⟨rfl, rfl⟩

end Transition

/-! ### Windows -/

/-- A row that was admitted counts in its window, and two for one recipient were made
at least a window apart. -/
structure Ledger.Apart (l : Ledger) : Prop where
  windowed : ∀ id r, l.requests.get? id = some r → r.direction.destinationIsGoldcoin →
    r.AdmittedAtFold → r.Windowed
  apart : ∀ id r id' r', l.requests.get? id = some r → l.requests.get? id' = some r' → id ≠ id' →
    r.direction.destinationIsGoldcoin → r'.direction.destinationIsGoldcoin → r.AdmittedAtFold →
    r'.AdmittedAtFold → r.recipient ≠ [] → r.recipient = r'.recipient →
    walletWindowSecs ≤ |r.createdAt - r'.createdAt|

/-- A row with the recipient of one whose window is open was made before the window. -/
theorem Ledger.WindowOpen.le (h : l.WindowOpen r) (hget : l.requests.get? id = some r')
    (hchain : r'.direction.destinationChain = r.direction.destinationChain)
    (hcounted : r'.state.isRateLimitExcluded = false) (hne : r.recipient ≠ [])
    (hsame : r'.recipient = r.recipient) : r'.createdAt ≤ r.createdAt - walletWindowSecs := by
  rw [Ledger.WindowOpen, Ledger.walletWindowRetryAfter, Option.map_eq_none_iff,
    Ledger.walletWindowBlockerCreatedAt, if_neg hne, List.max?_eq_none_iff, List.map_eq_nil_iff,
    Ledger.windowRows, List.filter_eq_nil_iff] at h
  have hrow := h _ (Store.mem_of_get? hget)
  simp only [decide_eq_true_eq] at hrow
  by_contra hlt
  refine hrow ⟨hchain, congrArg some hsame, not_le.mp hlt, trivial, ?_⟩
  rw [hcounted]
  exact Bool.false_ne_true

theorem Effect.apart (h : Effect op l l') (hl : l.Apart) : l'.Apart := by
  induction h with
  | idle requests => exact ⟨requests ▸ hl.windowed, requests ▸ hl.apart⟩
  | configured requests => exact ⟨requests ▸ hl.windowed, requests ▸ hl.apart⟩
  | @inserted l l' r₀ δ hnew row requests books vault solana recorded window =>
    -- the new row, and one that was there
    have hpair : ∀ id r, l.requests.get? id = some r → r.direction.destinationIsGoldcoin →
        r₀.direction.destinationIsGoldcoin → r.AdmittedAtFold → r₀.AdmittedAtFold →
        r₀.recipient ≠ [] → r.recipient = r₀.recipient →
        walletWindowSecs ≤ |r.createdAt - r₀.createdAt| := by
      intro id r hget hd hd₀ hr hr₀ hne hsame
      have hopen := window (hnew.newRow.admitted hr₀)
      have hle := hopen.le hget (hd.trans hd₀.symm) (hl.windowed id r hget hd hr).counted hne hsame
      rw [abs_sub_comm]
      exact le_abs.mpr (.inl (by omega))
    refine ⟨fun id r hget hd hr => ?_, fun id r id' r' hget hget' hne hd hd' hr hr' hsome hsame => ?_⟩
    · rw [requests, Store.get?_push] at hget
      split_ifs at hget
      · obtain rfl := Option.some.inj hget
        have hstate := hnew.newRow.admitted hr
        constructor
        · rw [Request.isEarly, hstate]
        · rw [hstate]
          rfl
      · exact hl.windowed id r hget hd hr
    · rw [requests, Store.get?_push] at hget hget'
      split_ifs at hget hget' with hid hid'
      · exact (hne (hid.trans hid'.symm)).elim
      · obtain rfl := Option.some.inj hget
        rw [abs_sub_comm]
        exact hpair id' r' hget' hd' hd hr' hr hsome hsame.symm
      · obtain rfl := Option.some.inj hget'
        exact hpair id r hget hd hd' hr hr' (hsame ▸ hsome) hsame
      · exact hl.apart id r id' r' hget hget' hne hd hd' hr hr' hsome hsame
  | @moved l l' k r₀ r₁ δ found ht requests =>
    -- every row of the new ledger has a row of the old one under its key
    have hback : ∀ id r, l'.requests.get? id = some r → r.direction.destinationIsGoldcoin →
        ∃ r', l.requests.get? id = some r' ∧ SameKey r' r ∧ (r'.Windowed → r.Windowed) := by
      intro id r hget hd
      rw [requests, Store.get?_modify] at hget
      split_ifs at hget with hid
      · subst hid
        rw [found] at hget
        obtain rfl := Option.some.inj hget
        have hd₀ : r₀.direction.destinationIsGoldcoin := ht.direction_eq ▸ hd
        exact ⟨r₀, found, ht.sameKey hd₀, fun hr => ht.windowed hr hd₀⟩
      · exact ⟨r, hget, ⟨rfl, rfl, rfl, fun h => h⟩, fun h => h⟩
    refine ⟨fun id r hget hd hr => ?_, fun id r id' r' hget hget' hne hd hd' hr hr' hsome hsame => ?_⟩
    · obtain ⟨r', hget', hkey, hwindowed⟩ := hback id r hget hd
      exact hwindowed (hl.windowed id r' hget' (hkey.direction ▸ hd) (hkey.admitted hr))
    · obtain ⟨s, hs, hkey, -⟩ := hback id r hget hd
      obtain ⟨s', hs', hkey', -⟩ := hback id' r' hget' hd'
      rw [hkey.createdAt, hkey'.createdAt]
      exact hl.apart id s id' s' hs hs' hne (hkey.direction ▸ hd) (hkey'.direction ▸ hd')
        (hkey.admitted hr) (hkey'.admitted hr') (hkey.recipient ▸ hsome)
        (hkey.recipient ▸ hkey'.recipient ▸ hsame)
  | seq _ _ _ ih₁ ih => exact ih (ih₁ hl)

/-! ## Runs -/

section Runs

variable (checksum : List UInt8 → Vector UInt8 4) (network : Goldcoin.Network)

/-- The condition on a step: a recipient of a Goldcoin payout that it records and that
can be paid is ASCII without NULs. -/
def Op.RecordsPlain (op : Op) : Prop :=
  ∀ d recipient, op.recorded = some (d, recipient) → d.destinationIsGoldcoin →
    (payoutScript checksum network recipient).isSome → Plain recipient

namespace Ledger

/-- Every recipient of a Goldcoin payout that can be paid is plain. -/
def PaysPlain (l : Ledger) : Prop :=
  ∀ id r, l.requests.get? id = some r → r.direction.destinationIsGoldcoin →
    (payoutScript checksum network r.recipient).isSome → Plain r.recipient

/-- Of two requests that are paid at one script, made within a window, not both are
admitted without being parked. -/
def AdmitsScriptsOnce (l : Ledger) : Prop :=
  ∀ id r id' r', l.requests.get? id = some r → l.requests.get? id' = some r' → id ≠ id' →
    r.direction.destinationIsGoldcoin → r'.direction.destinationIsGoldcoin →
    (payoutScript checksum network r.recipient).isSome →
    payoutScript checksum network r.recipient = payoutScript checksum network r'.recipient →
    |r.createdAt - r'.createdAt| < walletWindowSecs → ¬ (r.AdmittedAtFold ∧ r'.AdmittedAtFold)

/-- What the window compares is equal exactly when the scripts are. -/
def KeyedByScript (l : Ledger) : Prop :=
  ∀ id r id' r', l.requests.get? id = some r → l.requests.get? id' = some r' →
    r.direction.destinationIsGoldcoin → r'.direction.destinationIsGoldcoin →
    (payoutScript checksum network r.recipient).isSome →
    (r.recipient = r'.recipient ↔
      payoutScript checksum network r.recipient = payoutScript checksum network r'.recipient)

variable {checksum network}

theorem PaysPlain.step (hl : l.PaysPlain checksum network) (hwf : l.Wf)
    (hplain : op.RecordsPlain checksum network) (h : l.step op = some l') :
    l'.PaysPlain checksum network := by
  refine (effect_of_step hwf h).forall_rows_traced
    (fun id r δ _ _ hrecorded hd => hplain r.direction r.recipient hrecorded hd)
    (fun id r r' δ _ ht hr hd => ?_) hl
  have hd₀ : r.direction.destinationIsGoldcoin := ht.direction_eq ▸ hd
  rw [(ht.sameKey hd₀).recipient]
  exact hr hd₀

theorem PaysPlain.keyed (hl : l.PaysPlain checksum network) : l.KeyedByScript checksum network := by
  intro id r id' r' hget hget' hd hd' hpaid
  refine ⟨congrArg _, fun hscript => ?_⟩
  obtain ⟨script, hr⟩ := Option.isSome_iff_exists.mp hpaid
  have hr' := hscript.symm.trans hr
  exact plain_unique (hl id r hget hd hpaid)
    (hl id' r' hget' hd' (Option.isSome_iff_exists.mpr ⟨script, hr'⟩)) hr hr'

theorem Apart.admitsOnce (hl : l.Apart) (hkeyed : l.KeyedByScript checksum network) :
    l.AdmitsScriptsOnce checksum network := by
  rintro id r id' r' hget hget' hne hd hd' hpaid hscript hwindow ⟨hr, hr'⟩
  have hsame := (hkeyed id r id' r' hget hget' hd hd' hpaid).mpr hscript
  obtain ⟨script, hsome⟩ := Option.isSome_iff_exists.mp hpaid
  have happart := hl.apart id r id' r' hget hget' hne hd hd' hr hr'
    (ne_nil_of_payoutScript hsome) hsame
  exact absurd happart (not_le.mpr hwindow)

variable (checksum network) in
/-- In every run whose steps record plain recipients, the window tells recipients apart
exactly as their payouts do, and of two requests that are paid at one script within a
window one is parked. -/
theorem scripts_admitted_once (ops : List Op)
    (hplain : ∀ e ∈ Run.history step empty ops, e.2.RecordsPlain checksum network) :
    (after ops).AdmitsScriptsOnce checksum network ∧ (after ops).KeyedByScript checksum network := by
  have hempty {P : ℕ → Request → Prop} : ∀ id r, empty.requests.get? id = some r → P id r :=
    fun id r hget => (by cases hget)
  have hstep : ∀ (l : Ledger) (op : Op) (l' : Ledger),
      l.Wf ∧ l.Apart ∧ l.PaysPlain checksum network → op.RecordsPlain checksum network →
        l.step op = some l' → l'.Wf ∧ l'.Apart ∧ l'.PaysPlain checksum network := by
    rintro l op l' ⟨hwf, happart, hpays⟩ hplain h
    exact ⟨hwf.step h, (effect_of_step hwf h).apart happart, hpays.step hwf hplain h⟩
  have hstart : empty.Wf ∧ empty.Apart ∧ empty.PaysPlain checksum network :=
    ⟨wf_empty, ⟨hempty, fun id r id' r' hget => (by cases hget)⟩, hempty⟩
  have hinv : (after ops).Wf ∧ (after ops).Apart ∧ (after ops).PaysPlain checksum network := by
    apply Run.invariant_of_history hstep hstart ops
    exact hplain
  obtain ⟨-, happart, hpays⟩ := hinv
  exact ⟨happart.admitsOnce hpays.keyed, hpays.keyed⟩

/-! ### Two spellings of an address -/

/-- The text of an address, as a deposit names it. -/
def sampleRecipient : Bytes := Goldcoin.utf8Bytes Goldcoin.sampleAddress.toList

/-- A deposit of a wallet for a recipient. -/
def recipientFold (index : ℕ) (wallet recipient : Bytes) (now : ℤ) : Op :=
  .foldSolDeposit index sampleAmounts wallet recipient none now

/-- Deposits of two wallets within a minute, for the recipients given. -/
def recipientRun (first second : Bytes) : List Op :=
  [.configureReserve .goldcoinReserve (10 ^ 10) 0, recipientFold 0 [1] first 1000,
    recipientFold 1 [2] second 1060]

theorem plain_sampleRecipient : Plain sampleRecipient := by
  unfold Plain
  decide +kernel

/-- The second is parked. -/
theorem scripts_admitted_once_sample :
    (after (recipientRun sampleRecipient sampleRecipient)).requests.entries.map
        (fun e => (e.2.state, e.2.manualReviewNote)) =
      [(.sourceFinalized, none), (.manualReview, some .walletDestinationLimit)] ∧
    (after (recipientRun sampleRecipient sampleRecipient)).AdmitsScriptsOnce
      Goldcoin.sampleChecksum .mainnet ∧
    (after (recipientRun sampleRecipient sampleRecipient)).KeyedByScript
      Goldcoin.sampleChecksum .mainnet := by
  refine ⟨by decide +kernel, ?_⟩
  apply scripts_admitted_once
  intro e he d recipient hrecorded _ _
  have hmem := Run.history_sublist.subset (List.mem_map_of_mem (f := Prod.snd) he)
  simp only [recipientRun, List.mem_cons, List.not_mem_nil, or_false] at hmem
  rcases hmem with h | h | h <;> rw [h] at hrecorded
  · cases hrecorded
  · cases hrecorded
    exact plain_sampleRecipient
  · cases hrecorded
    exact plain_sampleRecipient

/-- With one NUL after the address, or another character for its first letter, the bytes
differ, and the payout is to the same script. -/
theorem sampleRecipient_spellings :
    payoutScript Goldcoin.sampleChecksum .mainnet sampleRecipient =
      some (Goldcoin.p2pkhScript Goldcoin.sampleAddressHash) ∧
    payoutScript Goldcoin.sampleChecksum .mainnet (sampleRecipient ++ [0]) =
      some (Goldcoin.p2pkhScript Goldcoin.sampleAddressHash) ∧
    payoutScript Goldcoin.sampleChecksum .mainnet
        (Goldcoin.utf8Bytes Goldcoin.aliasedAddress.toList) =
      some (Goldcoin.p2pkhScript Goldcoin.sampleAddressHash) := by
  have hlast : Goldcoin.sampleAddress.toList.getLast? ≠ some (Char.ofNat 0) := by decide +kernel
  have hdecode : Goldcoin.decodeP2pkh Goldcoin.sampleChecksum .mainnet
      (String.ofList Goldcoin.sampleAddress.toList) = .ok Goldcoin.sampleAddressHash := by
    decide +kernel
  refine ⟨?_, payoutScript_padded hlast hdecode 1, ?_⟩
  · have hbytes : sampleRecipient = sampleRecipient ++ List.replicate 0 0 := (List.append_nil _).symm
    rw [hbytes]
    exact payoutScript_padded hlast hdecode 0
  · have hbytes := (List.append_nil (Goldcoin.utf8Bytes Goldcoin.aliasedAddress.toList)).symm
    rw [hbytes]
    exact payoutScript_padded (by decide +kernel) (by decide +kernel) 0

/-- Both are admitted, and paid at one script. -/
theorem padded_recipient_admitted :
    ¬ (after (recipientRun sampleRecipient (sampleRecipient ++ [0]))).AdmitsScriptsOnce
      Goldcoin.sampleChecksum .mainnet := by
  have hfirst : ((after (recipientRun sampleRecipient (sampleRecipient ++ [0]))).requests.get? 1).map
      (fun r => (r.direction, r.recipient, r.createdAt, decide r.AdmittedAtFold)) =
      some (.solToGlc, sampleRecipient, 1000, true) := by
    decide +kernel
  have hsecond : ((after (recipientRun sampleRecipient (sampleRecipient ++ [0]))).requests.get? 2).map
      (fun r => (r.direction, r.recipient, r.createdAt, decide r.AdmittedAtFold)) =
      some (.solToGlc, sampleRecipient ++ [0], 1060, true) := by
    decide +kernel
  obtain ⟨r, hget, hcolumns⟩ := Option.map_eq_some_iff.mp hfirst
  obtain ⟨r', hget', hcolumns'⟩ := Option.map_eq_some_iff.mp hsecond
  simp only [Prod.mk.injEq] at hcolumns hcolumns'
  obtain ⟨hdirection, hrecipient, hcreated, hadmitted⟩ := hcolumns
  obtain ⟨hdirection', hrecipient', hcreated', hadmitted'⟩ := hcolumns'
  obtain ⟨hplain, hpadded, -⟩ := sampleRecipient_spellings
  intro honce
  refine honce 1 r 2 r' hget hget' (by decide) (by rw [hdirection]; rfl) (by rw [hdirection']; rfl)
    (by rw [hrecipient, hplain]; rfl) (by rw [hrecipient, hrecipient', hplain, hpadded]) ?_
    ⟨of_decide_eq_true hadmitted, of_decide_eq_true hadmitted'⟩
  rw [hcreated, hcreated']
  decide

end Ledger

end Runs

end Service
