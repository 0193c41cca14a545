-- SUMMARY: A Robinhood refund that was interrupted: where an invocation may leave its request, and from which of these places a second invocation finishes.
import ReserveBridge.Service.BeginRefund
import ReserveBridge.Service.Ledger.Effects

/-!
# Interrupted refunds

A second invocation returns at once when it finds a refund row. So a refund can
be driven to its end from before the row was begun, and needs nothing when the
first invocation was finished. In between it stays where it is.
-/

namespace Service
open Guard Ledger

/-! ## Finality -/

/-- The way of a refund operation to its finality, and what finality does to
its request. -/
def Ledger.finalizeRefund (l : Ledger) (id rawTx block : ℕ) (confirmations required now : ℤ) :
    Except LedgerError Ledger := do
  let l ← l.recordRobinhoodSigned .refund id rawTx
  let l ← l.recordRobinhoodBroadcast .refund id
  let l ← l.recordRobinhoodReceipt .refund id true block
  let l ← l.updateRobinhoodConfirmations .refund id confirmations required now
  l.markRobinhoodRefundConfirmed id

/-! ## A request with its refund row -/

@[simp] theorem Request.robinhoodTx_setRobinhoodTx {r : Request} {kind : RobinhoodTxKind}
    {t : RobinhoodTx} : (r.setRobinhoodTx kind t).robinhoodTx kind = some t := if_pos rfl

/-- A request of a Robinhood deposit, with its refund operation. -/
structure RefundRow (l : Ledger) (id : ℕ) (r : Request) (t : RobinhoodTx) : Prop where
  found : l.requests.get? id = some r
  source : r.direction.sourceIsRobinhood
  tx : r.robinhoodTx .refund = some t

/-- The row of an operation that nothing was sent for yet. -/
def RobinhoodTx.isUnsent (t : RobinhoodTx) : Prop := t.rawTx = none ∧ t.receiptBlock = none

namespace RefundRow

variable {s : Settler} {w : Answers} {l : Ledger} {id : ℕ} {r r' : Request} {t t' : RobinhoodTx}

/-- The request is rewritten, with its refund operation. -/
theorem set (h : RefundRow l id r t) (hd : r'.direction = r.direction)
    (ht : r'.robinhoodTx .refund = some t') : RefundRow (l.setRequest id r') id r' t' where
  found := by rw [get?_setRequest h.found, if_pos rfl]
  source := by rw [hd]; exact h.source
  tx := ht

/-- The operation is rewritten. -/
theorem setTx (h : RefundRow l id r t) (t' : RobinhoodTx) :
    RefundRow (l.setRequest id (r.setRobinhoodTx .refund t')) id (r.setRobinhoodTx .refund t') t' :=
  h.set rfl Request.robinhoodTx_setRobinhoodTx

/-- The request moves on. -/
theorem transition (h : RefundRow l id r t) (next : RequestState) :
    RefundRow (l.setRequest id (r.transition next)) id (r.transition next) t :=
  h.set rfl h.tx

theorem robinhoodTx_eq (h : RefundRow l id r t) : l.robinhoodTx .refund id = .ok (r, t) :=
  robinhoodTx_eq_ok.mpr ⟨h.found, h.tx⟩

/-- A quorum is recorded on a row that still waits for it. -/
theorem recordAuthorization (h : RefundRow l id r t) (hstate : t.state = .authorizing)
    (hnone : t.signatures = []) (hunsent : t.isUnsent) {signatures : List (ℕ × ℕ)}
    (hquorum : s.Verifies t.authDigest signatures) :
    ∃ l' r' t', l.recordRobinhoodAuthorization .refund id signatures = .ok l' ∧
      RefundRow l' id r' t' ∧ r'.state = r.state ∧ t'.state = .authorized ∧ t'.isUnsent ∧
      s.Verifies t'.authDigest t'.signatures := by
  refine ⟨_, _, { t with state := .authorized, signatures := signatures }, ?_, h.setTx _,
    rfl, rfl, hunsent, hquorum⟩
  simp only [recordRobinhoodAuthorization, bind_eq_ok, require_eq_ok, exists_unit]
  refine ⟨hquorum.length, hquorum.distinct, (r, t), h.robinhoodTx_eq, ?_⟩
  rw [if_neg (by simpa using hnone)]
  simp only [bind_eq_ok, require_eq_ok, exists_unit, pure_eq_ok, and_true]
  exact hstate

/-- A parked request moves on. -/
theorem markPending (h : RefundRow l id r t) (hstate : r.state = .manualReview) :
    ∃ l' r', l.markRobinhoodRefundPending id = .ok l' ∧ RefundRow l' id r' t ∧
      r'.state = .refundPending := by
  refine ⟨_, _, ?_, h.transition .refundPending, rfl⟩
  simp only [markRobinhoodRefundPending, bind_eq_ok, request_eq_ok, require_eq_ok, exists_unit]
  refine ⟨r, h.found, h.source, ?_⟩
  rw [if_neg (by simp [hstate, RequestState.isRefundLifecycle])]
  simp only [bind_eq_ok, require_eq_ok, exists_unit, pure_eq_ok, and_true]
  exact hstate

/-- There is nothing left for a second invocation to do. -/
theorem beginRefund_eq (h : RefundRow l id r t) : s.beginRefund w l id = l := by
  have hcheck : s.check l id = .ok none := by
    simp only [Settler.check, bind_eq_ok, mapError_eq_ok, request_eq_ok]
    refine ⟨r, h.found, ?_⟩
    rw [if_pos (by rw [h.tx]; rfl), pure_eq_ok]
  rw [Settler.beginRefund, Settler.beginRefundUntil, hcheck]

/-- The transaction is signed. -/
theorem recordSigned (h : RefundRow l id r t) (ht : t.state = .authorized) (hunsent : t.isUnsent)
    (rawTx : ℕ) : ∃ l' r' t', l.recordRobinhoodSigned .refund id rawTx = .ok l' ∧
      RefundRow l' id r' t' ∧ r'.state = r.state ∧ t'.state = .signed ∧ t'.receiptBlock = none := by
  refine ⟨_, _, { t with state := .signed, rawTx := some rawTx }, ?_, h.setTx _, rfl, rfl, hunsent.2⟩
  rw [recordRobinhoodSigned, bind_eq_ok]
  refine ⟨(r, t), h.robinhoodTx_eq, ?_⟩
  simp only [hunsent.1, bind_eq_ok, require_eq_ok, exists_unit, pure_eq_ok, and_true]
  exact ht

/-- It is sent. -/
theorem recordBroadcast (h : RefundRow l id r t) (ht : t.state = .signed)
    (hreceipt : t.receiptBlock = none) : ∃ l' r' t', l.recordRobinhoodBroadcast .refund id = .ok l' ∧
      RefundRow l' id r' t' ∧ r'.state = r.state ∧ t'.state = .broadcast ∧ t'.receiptBlock = none := by
  refine ⟨_, _, { t with state := .broadcast }, ?_, h.setTx _, rfl, rfl, hreceipt⟩
  rw [recordRobinhoodBroadcast, bind_eq_ok]
  refine ⟨(r, t), h.robinhoodTx_eq, ?_⟩
  simp only [bind_eq_ok, require_eq_ok, exists_unit, pure_eq_ok, and_true]
  exact .inl ht

/-- It is included. -/
theorem recordReceipt (h : RefundRow l id r t) (ht : t.state = .broadcast)
    (hreceipt : t.receiptBlock = none) (block : ℕ) :
    ∃ l' r' t', l.recordRobinhoodReceipt .refund id true block = .ok l' ∧
      RefundRow l' id r' t' ∧ r'.state = r.state ∧ t'.state = .included := by
  refine ⟨_, _, { t with state := .included, receiptBlock := some block }, ?_, h.setTx _, rfl, rfl⟩
  rw [recordRobinhoodReceipt, bind_eq_ok]
  refine ⟨(r, t), h.robinhoodTx_eq, ?_⟩
  dsimp only
  rw [if_neg (by simp [hreceipt]), if_neg (by simp [ht])]
  simp only [bind_eq_ok, require_eq_ok, exists_unit, pure_eq_ok, if_true, and_true]
  exact .inl ht

/-- It is final. -/
theorem updateConfirmations (h : RefundRow l id r t) (ht : t.state = .included)
    {confirmations required : ℤ} (hdepth : required ≤ confirmations) (now : ℤ) :
    ∃ l' r' t', l.updateRobinhoodConfirmations .refund id confirmations required now = .ok l' ∧
      RefundRow l' id r' t' ∧ r'.state = r.state := by
  refine ⟨_, _, { t with state := .finalized, finalizedAt := some now }, ?_, h.setTx _, rfl⟩
  rw [updateRobinhoodConfirmations, bind_eq_ok]
  refine ⟨(r, t), h.robinhoodTx_eq, ?_⟩
  dsimp only
  rw [if_neg (by simp [ht])]
  simp only [bind_eq_ok, require_eq_ok, exists_unit, pure_eq_ok, if_pos hdepth, and_true]
  exact ht

/-- And its request is refunded. -/
theorem markConfirmed (h : RefundRow l id r t) (hstate : r.state = .refundPending) :
    ∃ l' r', l.markRobinhoodRefundConfirmed id = .ok l' ∧ RefundRow l' id r' t ∧
      r'.state = .refunded := by
  refine ⟨_, _, ?_, h.transition .refunded, rfl⟩
  simp only [markRobinhoodRefundConfirmed, bind_eq_ok, request_eq_ok, require_eq_ok, exists_unit]
  refine ⟨r, h.found, h.source, ?_⟩
  rw [if_neg (by simp [hstate])]
  simp only [bind_eq_ok, require_eq_ok, exists_unit, pure_eq_ok, and_true]
  exact .inl hstate

/-- The operation goes its way, and its finality concludes the request. -/
theorem finalize (h : RefundRow l id r t) (ht : t.state = .authorized) (hunsent : t.isUnsent)
    (hr : r.state = .refundPending) (rawTx block : ℕ) {confirmations required : ℤ} (now : ℤ)
    (hdepth : required ≤ confirmations) :
    ∃ l' r', l.finalizeRefund id rawTx block confirmations required now = .ok l' ∧
      l'.requests.get? id = some r' ∧ r'.state = .refunded := by
  obtain ⟨l₁, r₁, t₁, hsigned, h₁, hr₁, ht₁, hnone₁⟩ := h.recordSigned ht hunsent rawTx
  obtain ⟨l₂, r₂, t₂, hsent, h₂, hr₂, ht₂, hnone₂⟩ := h₁.recordBroadcast ht₁ hnone₁
  obtain ⟨l₃, r₃, t₃, hincluded, h₃, hr₃, ht₃⟩ := h₂.recordReceipt ht₂ hnone₂ block
  obtain ⟨l₄, r₄, t₄, hfinal, h₄, hr₄⟩ := h₃.updateConfirmations ht₃ hdepth now
  have hpending : r₄.state = .refundPending := by rw [hr₄, hr₃, hr₂, hr₁, hr]
  obtain ⟨l', r', hrefunded, h', hr'⟩ := h₄.markConfirmed hpending
  refine ⟨l', r', ?_, h'.found, hr'⟩
  simp only [finalizeRefund, bind_eq_ok]
  exact ⟨l₁, hsigned, l₂, hsent, l₃, hincluded, l₄, hfinal, hrefunded⟩

end RefundRow

/-! ## Where an invocation leaves its request -/

/-- The row a refund begins with. -/
def RobinhoodTx.begun (digest : ℕ) : RobinhoodTx where
  state := .authorizing
  authDigest := digest
  signatures := []
  rawTx := none
  receiptBlock := none
  finalizedAt := none
  completionSignature := none

/-- The refund is authorized by a quorum over its digest, its request is pending,
and its finality concludes the request. -/
def RefundDriven (s : Settler) (l : Ledger) (id : ℕ) : Prop :=
  ∃ r t, RefundRow l id r t ∧ t.state ≠ .authorizing ∧ s.Verifies t.authDigest t.signatures ∧
    r.state = .refundPending ∧
    ∀ rawTx block confirmations required now, required ≤ confirmations →
      ∃ l' r', l.finalizeRefund id rawTx block confirmations required now = .ok l' ∧
        l'.requests.get? id = some r' ∧ r'.state = .refunded

/-- The refund is begun, and not authorized or not pending. -/
def RefundStuck (l : Ledger) (id : ℕ) : Prop :=
  ∃ r t, RefundRow l id r t ∧ (t.state = .authorizing ∨ r.state = .manualReview)

variable {s : Settler} {w : Answers} {l : Ledger} {id n : ℕ} {c : RefundCall}

theorem RefundStuck.not_driven (h : RefundStuck l id) : ¬ RefundDriven s l id := by
  rintro ⟨r, t, hrow, ht, -, hr, -⟩
  obtain ⟨r', t', hrow', hstuck⟩ := h
  obtain rfl := Option.some.inj (hrow.found.symm.trans hrow'.found)
  obtain rfl := Option.some.inj (hrow.tx.symm.trans hrow'.tx)
  rcases hstuck with h | h
  · exact ht h
  · rw [hr] at h
    cases h

/-- A second invocation finds the row of a refund that is done. -/
theorem RefundDriven.beginRefund_eq (h : RefundDriven s l id) : s.beginRefund w l id = l :=
  have ⟨_, _, hrow, _⟩ := h
  hrow.beginRefund_eq

/-- And of one that is not. -/
theorem RefundStuck.beginRefund_eq (h : RefundStuck l id) : s.beginRefund w l id = l :=
  have ⟨_, _, hrow, _⟩ := h
  hrow.beginRefund_eq

/-- The first transaction of a call that was checked. -/
theorem beginRobinhoodTx_eq {r : Request} (hget : l.requests.get? id = some r)
    (hnone : r.robinhoodTx .refund = none) (digest : ℕ) :
    l.beginRobinhoodTx .refund id digest =
      .ok (l.setRequest id (r.setRobinhoodTx .refund (.begun digest))) := by
  simp only [beginRobinhoodTx, bind_eq_ok, request_eq_ok]
  refine ⟨r, hget, ?_⟩
  rw [if_neg (by simp [hnone]), pure_eq_ok]
  rfl

theorem Settler.readObligation_eq_ok {d : Direction} {index digest : ℕ} {auth : RefundAuth}
    (h : s.readObligation w d index = .ok (auth, digest)) : s.digest auth = some digest := by
  simp only [readObligation, bind_eq_ok, orFail_eq_ok, require_eq_ok, exists_unit, pure_eq_ok,
    Prod.mk.injEq] at h
  obtain ⟨_, -, -, -, -, _, -, _, hdigest, rfl, rfl⟩ := h
  exact hdigest

/-! ### The call, step by step -/

namespace Settler

variable {l' : Ledger} {c' : RefundCall} {e : RefundError}

theorem drive_zero : s.drive w 0 l c = l := rfl

theorem drive_of_step (h : s.advance w l c = .ok (l', some c')) :
    s.drive w (n + 1) l c = s.drive w n l' c' := by
  rw [drive, h]

theorem drive_of_done (h : s.advance w l c = .ok (l', none)) : s.drive w (n + 1) l c = l' := by
  rw [drive, h]

/-- The call ends where it fails. -/
theorem drive_of_error (h : s.advance w l c = .error e) : s.drive w n l c = l := by
  cases n with
  | zero => rfl
  | succ n => rw [drive, h]

end Settler

/-! ## Interruption -/

namespace Settler

/-- The invocation gets past the commit of the refund row: the chain was read,
and the process went on. -/
def Begins (s : Settler) (w : Answers) (n : ℕ) (d : Direction) (index : ℕ) : Prop :=
  2 ≤ n ∧ ∃ auth digest, s.readObligation w d index = .ok (auth, digest)

/-- The invocation gets to its end: a quorum signed, and the process went on. -/
def Finishes (s : Settler) (w : Answers) (n : ℕ) (d : Direction) (index : ℕ) : Prop :=
  5 ≤ n ∧ ∃ auth digest signatures, s.readObligation w d index = .ok (auth, digest) ∧
    s.collectQuorum w.signers auth = .ok signatures

variable {d : Direction} {index : ℕ}

/-- Past the commit, the invocation is stuck or gets to its end. -/
theorem drive_begun {r : Request} {auth : RefundAuth} {digest : ℕ}
    (hrow : RefundRow l id r (.begun digest)) (hstate : r.state = .manualReview)
    (hdigest : s.digest auth = some digest) :
    (¬ (3 ≤ n ∧ ∃ signatures, s.collectQuorum w.signers auth = .ok signatures) ∧
        RefundStuck (s.drive w n l (.begun id auth)) id) ∨
      ((3 ≤ n ∧ ∃ signatures, s.collectQuorum w.signers auth = .ok signatures) ∧
        RefundDriven s (s.drive w n l (.begun id auth)) id) := by
  have hbegun : RefundStuck l id := ⟨r, _, hrow, .inl rfl⟩
  cases hquorum : s.collectQuorum w.signers auth with
  | error e =>
    have hstep : s.advance w l (.begun id auth) = .error e := by
      rw [advance, hquorum]
      rfl
    rw [drive_of_error hstep]
    exact .inl ⟨by simp, hbegun⟩
  | ok signatures =>
    obtain ⟨digest', hdigest', hverifies⟩ := collectQuorum_eq_ok hquorum
    obtain rfl := Option.some.inj (hdigest.symm.trans hdigest')
    have hcollect : s.advance w l (.begun id auth) = .ok (l, some (.signed id signatures)) := by
      rw [advance, hquorum]
      rfl
    -- the authorization is recorded, and then the request moves
    obtain ⟨l₁, r₁, t₁, hrecorded, hrow₁, hr₁, ht₁, hunsent, hvalid⟩ :=
      hrow.recordAuthorization rfl rfl ⟨rfl, rfl⟩ hverifies
    have hrecord : s.advance w l (.signed id signatures) = .ok (l₁, some (.authorized id)) := by
      rw [advance, hrecorded]
      rfl
    obtain ⟨l₂, r₂, hpending, hrow₂, hr₂⟩ := hrow₁.markPending (hr₁.trans hstate)
    have hmark : s.advance w l₁ (.authorized id) = .ok (l₂, none) := by
      rw [advance, hpending]
      rfl
    match n with
    | 0 => exact .inl ⟨by omega, hbegun⟩
    | 1 =>
      rw [drive_of_step hcollect, drive_zero]
      exact .inl ⟨by omega, hbegun⟩
    | 2 =>
      rw [drive_of_step hcollect, drive_of_step hrecord, drive_zero]
      exact .inl ⟨by omega, r₁, t₁, hrow₁, .inr (hr₁.trans hstate)⟩
    | n + 3 =>
      rw [drive_of_step hcollect, drive_of_step hrecord, drive_of_done hmark]
      refine .inr ⟨⟨by omega, signatures, rfl⟩, r₂, t₁, hrow₂, by simp [ht₁], hvalid, hr₂, ?_⟩
      exact fun rawTx block _ _ now hdepth => hrow₂.finalize ht₁ hunsent hr₂ rawTx block now hdepth

/-- Where an invocation may leave the request it was accepted for. -/
theorem beginRefundUntil_cases (haccept : s.check l id = .ok (some (.checked id d index))) :
    (¬ s.Begins w n d index ∧ s.beginRefundUntil w n l id = l) ∨
      (s.Begins w n d index ∧ ¬ s.Finishes w n d index ∧
        RefundStuck (s.beginRefundUntil w n l id) id) ∨
      (s.Finishes w n d index ∧ RefundDriven s (s.beginRefundUntil w n l id) id) := by
  obtain ⟨r, _, hget, hnone, hsource, hstate, -, -, -, hc⟩ := check_eq_ok haccept
  have huntil : s.beginRefundUntil w n l id = s.drive w n l (.checked id d index) := by
    rw [beginRefundUntil, haccept]
  rw [huntil]
  cases hread : s.readObligation w d index with
  | error e =>
    have hstep : s.advance w l (.checked id d index) = .error e := by
      rw [advance, hread]
      rfl
    exact .inl ⟨by simp [Begins, hread], drive_of_error hstep⟩
  | ok found =>
    obtain ⟨auth, digest⟩ := found
    have hread' : s.advance w l (.checked id d index) = .ok (l, some (.verified id auth digest)) := by
      rw [advance, hread]
      rfl
    have hbegin : s.advance w l (.verified id auth digest) = .ok
        (l.setRequest id (r.setRobinhoodTx .refund (.begun digest)), some (.begun id auth)) := by
      rw [advance, beginRobinhoodTx_eq hget hnone]
      rfl
    match n with
    | 0 => exact .inl ⟨by simp [Begins], rfl⟩
    | 1 => exact .inl ⟨by simp [Begins], by rw [drive_of_step hread', drive_zero]⟩
    | n + 2 =>
      have hrow : RefundRow (l.setRequest id (r.setRobinhoodTx .refund (.begun digest))) id
          (r.setRobinhoodTx .refund (.begun digest)) (.begun digest) :=
        ⟨by rw [get?_setRequest hget, if_pos rfl], hsource, Request.robinhoodTx_setRobinhoodTx⟩
      have hbegins : s.Begins w (n + 2) d index := ⟨by omega, auth, digest, hread⟩
      have hfinishes : s.Finishes w (n + 2) d index ↔
          3 ≤ n ∧ ∃ signatures, s.collectQuorum w.signers auth = .ok signatures := by
        simp only [Finishes, hread, Except.ok.injEq, Prod.mk.injEq]
        constructor
        · rintro ⟨hn, _, _, signatures, ⟨rfl, -⟩, hquorum⟩
          exact ⟨by omega, signatures, hquorum⟩
        · rintro ⟨hn, signatures, hquorum⟩
          exact ⟨by omega, auth, digest, signatures, ⟨rfl, rfl⟩, hquorum⟩
      rw [drive_of_step hread', drive_of_step hbegin, hfinishes]
      rcases drive_begun (n := n) (w := w) hrow hstate (readObligation_eq_ok hread) with h | h
      · exact .inr (.inl ⟨hbegins, h⟩)
      · exact .inr (.inr h)

/-! ## Recovery -/

/-- The chain and the signers work: the obligation is pending and on its route,
and some quorum signs. -/
structure Works (s : Settler) (w : Answers) (d : Direction) : Prop where
  obligation : ∃ o ∈ w.obligation, o.isPending ∧ some o.route = d.contractRouteId ∧
    o.amount < 2 ^ 128
  epoch : w.signerEpoch.isSome
  encodable : ∀ auth : RefundAuth, auth.route = d → (s.digest auth).isSome
  quorate : ∀ auth digest, s.digest auth = some digest → s.Quorate w.signers auth digest

theorem Works.finishes (h : s.Works w d) : s.Finishes w 5 d index := by
  obtain ⟨o, ho, hpending, hroute, hamount⟩ := h.obligation
  obtain ⟨epoch, hepoch⟩ := Option.isSome_iff_exists.mp h.epoch
  let auth : RefundAuth :=
    { route := d
      obligationIndex := index
      recipient := o.depositor
      amount := o.amount
      signerEpoch := epoch
      expiry := min ((w.now % 2 ^ 64).toNat + s.authorizationTtl) (2 ^ 64 - 1) }
  obtain ⟨digest, hdigest⟩ := Option.isSome_iff_exists.mp (h.encodable auth rfl)
  obtain ⟨signatures, hquorum⟩ := exists_quorum hdigest (h.quorate auth digest hdigest)
  refine ⟨le_rfl, auth, digest, signatures, ?_, hquorum⟩
  simp only [readObligation, bind_eq_ok, orFail_eq_ok, require_eq_ok, exists_unit, pure_eq_ok]
  exact ⟨o, ho, hpending, hroute, hamount, epoch, hepoch, digest, hdigest, rfl⟩

end Settler

/-- After an invocation that ended anywhere, another one with working signers
and chain drives the refund to its end exactly when the first one did not get
past the commit of the refund row, or got to its own end. -/
theorem refund_resumes {w₁ w₂ : Answers} {d : Direction} {index : ℕ}
    (haccept : s.check l id = .ok (some (.checked id d index))) (hworks : s.Works w₂ d) :
    RefundDriven s (s.beginRefund w₂ (s.beginRefundUntil w₁ n l id) id) id ↔
      (s.Begins w₁ n d index → s.Finishes w₁ n d index) := by
  rcases Settler.beginRefundUntil_cases (w := w₁) (n := n) haccept with
    ⟨hbegins, hl⟩ | ⟨hbegins, hfinishes, hstuck⟩ | ⟨hfinishes, hdriven⟩
  · -- nothing was begun, and the second invocation does it all
    rw [hl]
    refine ⟨fun _ h => absurd h hbegins, fun _ => ?_⟩
    rcases Settler.beginRefundUntil_cases (w := w₂) (n := 5) haccept with
      ⟨hnot, -⟩ | ⟨-, hnot, -⟩ | ⟨-, hdriven⟩
    · have hfinishes : s.Finishes w₂ 5 d index := hworks.finishes
      obtain ⟨-, auth, digest, _, hread, -⟩ := hfinishes
      exact absurd ⟨by omega, auth, digest, hread⟩ hnot
    · exact absurd hworks.finishes hnot
    · exact hdriven
  · -- begun and not finished: the second invocation returns at once
    rw [hstuck.beginRefund_eq]
    exact ⟨fun h => absurd h hstuck.not_driven, fun h => absurd (h hbegins) hfinishes⟩
  · rw [hdriven.beginRefund_eq]
    exact ⟨fun _ _ => hfinishes, fun _ => hdriven⟩

/-- The sample deposit is one that a refund accepts. -/
theorem sampleParked_accepted :
    sampleSettler.check sampleParked 1 = .ok (some (.checked 1 .rhnToSol 0)) := by decide

theorem sampleAnswers_work : sampleSettler.Works sampleAnswers .rhnToSol where
  obligation := ⟨_, rfl, rfl, rfl, by decide⟩
  epoch := rfl
  encodable := fun _ _ => rfl
  quorate := by
    rintro auth digest ⟨⟩
    have signs : ∀ address ∈ sampleSettler.signers,
        sampleSettler.Signs auth (auth.amount + auth.expiry) (sampleSigner address) :=
      fun address h => ⟨_, rfl, by simp [sampleSettler, sampleSigner], h⟩
    refine ⟨fun signer h => .inl ?_, sampleSigner 1, ?_, sampleSigner 2, ?_, ?_,
      signs 1 (by decide), signs 2 (by decide)⟩
    · simp only [sampleAnswers, List.mem_cons, List.not_mem_nil, or_false] at h
      rcases h with rfl | rfl | rfl <;> exact signs _ (by decide)
    · simp [sampleAnswers]
    · simp [sampleAnswers]
    · simp [sampleSigner]

theorem refund_resumes_sample :
    RefundDriven sampleSettler (sampleSettler.beginRefund sampleAnswers
        (sampleSettler.beginRefundUntil sampleAnswers 1 sampleParked 1) 1) 1 ↔
      (sampleSettler.Begins sampleAnswers 1 .rhnToSol 0 →
        sampleSettler.Finishes sampleAnswers 1 .rhnToSol 0) :=
  refund_resumes sampleParked_accepted sampleAnswers_work

/-- A process that stops right after the refund row is committed leaves a refund
that no later invocation drives on. -/
theorem refund_not_resumed :
    sampleSettler.check sampleParked 1 = .ok (some (.checked 1 .rhnToSol 0)) ∧
      sampleSettler.Works sampleAnswers .rhnToSol ∧
      ¬ RefundDriven sampleSettler (sampleSettler.beginRefund sampleAnswers
        (sampleSettler.beginRefundUntil sampleAnswers 2 sampleParked 1) 1) 1 := by
  refine ⟨sampleParked_accepted, sampleAnswers_work, ?_⟩
  rcases Settler.beginRefundUntil_cases (w := sampleAnswers) (n := 2) sampleParked_accepted with
    ⟨hbegins, -⟩ | ⟨-, -, hstuck⟩ | ⟨⟨hn, -⟩, -⟩
  · exact absurd ⟨le_rfl, _, _, rfl⟩ hbegins
  · rw [hstuck.beginRefund_eq]
    exact hstuck.not_driven
  · omega

end Service
