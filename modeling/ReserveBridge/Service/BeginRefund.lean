-- SUMMARY: The refund of a Robinhood deposit as its separate steps: the checks on the ledger, the chain reads, the operation row, the signer quorum, and the two records that follow it.
import ReserveBridge.Service.Ledger.Step
import ReserveBridge.Service.Quorum

/-!
# Beginning a Robinhood refund

`begin_refund` of `service/src/robinhood/refund.rs`, and `collect_quorum` of
`service/src/robinhood/signer.rs`. An invocation waits for the chain and for
the signers between its transactions, so it is a call with a place to go on
from: every step is one transaction or one wait.
-/

namespace Service
open Guard

inductive RefundError
  | ledger (e : LedgerError)
  | wrongDirection | notRefundable | alreadySettled | alreadyPaidOut | foreignContract | invalid
  | gate | obligationNotPending | auth | quorum
  deriving DecidableEq, Repr

/-! ## What is authorized -/

/-- The route byte of the custody contract. -/
def Direction.contractRouteId : Direction → Option ℕ
  | .glcToSol | .solToGlc => none
  | .glcToRhn => some 1
  | .rhnToGlc => some 2
  | .solToRhn => some 3
  | .rhnToSol => some 4

/-- One obligation as the contract holds it. -/
structure Obligation where
  depositor : ℕ
  status : ℕ
  route : ℕ
  amount : ℕ
  deriving DecidableEq

namespace Obligation

def statusPending : ℕ := 1

def isPending (o : Obligation) : Prop := o.status = statusPending

instance (o : Obligation) : Decidable o.isPending := inferInstanceAs (Decidable (_ = _))

end Obligation

/-- The fields of a refund authorization that vary under one deployment. The
request id of the contract is derived from route and obligation index. -/
structure RefundAuth where
  route : Direction
  obligationIndex : ℕ
  recipient : ℕ
  amount : ℕ
  signerEpoch : ℕ
  expiry : ℕ
  deriving DecidableEq

structure EvmAuthSigner where
  address : ℕ
  signAuthorization : RefundAuth → SignerAnswer

/-- The deployment a settler is bound to, with the digest of an authorization
and the address that a signature over a digest recovers to. -/
structure Settler where
  bridgeContract : ℕ
  /-- The signer set read from the contract. -/
  signers : List ℕ
  authorizationTtl : ℕ
  digest : RefundAuth → Option ℕ
  recoverAddress : ℕ → ℕ → Option ℕ

/-- What the chain and the signers answer at some time. A read that fails
answers nothing. -/
structure Answers where
  obligation : Option Obligation
  signerEpoch : Option ℕ
  signers : List EvmAuthSigner
  now : ℤ

/-! ## The quorum -/

namespace Settler

/-- The checks on a signature that was returned. -/
def checkSignature (s : Settler) (digest claimed signature : ℕ) : Except RefundError Unit := do
  let recovered ← orFail (s.recoverAddress digest signature) .quorum
  require (recovered = claimed) .quorum
  require (recovered ∈ s.signers) .quorum

/-- The loop of `collect_quorum`, on what is collected so far. -/
def collectFrom (s : Settler) (auth : RefundAuth) (digest : ℕ) :
    List EvmAuthSigner → List (ℕ × ℕ) → Except RefundError (List (ℕ × ℕ))
  | [], collected => .ok collected
  | signer :: rest, collected =>
    if collected.length = signerThreshold then .ok collected
    else if signer.address ∈ collected.map Prod.fst then s.collectFrom auth digest rest collected
    else match signer.signAuthorization auth with
      | .declined | .timedOut => s.collectFrom auth digest rest collected
      | .untrustworthy => .error .quorum
      | .signed signature => do
        s.checkSignature digest signer.address signature
        s.collectFrom auth digest rest (collected ++ [(signer.address, signature)])

/-- `collect_quorum`. -/
def collectQuorum (s : Settler) (signers : List EvmAuthSigner) (auth : RefundAuth) :
    Except RefundError (List (ℕ × ℕ)) := do
  let digest ← orFail (s.digest auth) .auth
  require (signerThreshold ≤ signers.length) .quorum
  let collected ← s.collectFrom auth digest signers []
  require (collected.length = signerThreshold) .quorum
  require (collected.map Prod.fst).Nodup .quorum
  return collected

/-! ## The call -/

/-- The reads of the chain: the obligation, which says who is refunded how
much, and the signer epoch. -/
def readObligation (s : Settler) (w : Answers) (d : Direction) (index : ℕ) :
    Except RefundError (RefundAuth × ℕ) := do
  let obligation ← orFail w.obligation .gate
  require obligation.isPending .obligationNotPending
  require (some obligation.route = d.contractRouteId) .invalid
  require (obligation.amount < 2 ^ 128) .invalid
  let epoch ← orFail w.signerEpoch .gate
  let auth : RefundAuth :=
    { route := d
      obligationIndex := index
      recipient := obligation.depositor
      amount := obligation.amount
      signerEpoch := epoch
      expiry := min ((w.now % 2 ^ 64).toNat + s.authorizationTtl) (2 ^ 64 - 1) }
  let digest ← orFail (s.digest auth) .auth
  return (auth, digest)

end Settler

/-- Where an invocation of `begin_refund` goes on from. -/
inductive RefundCall
  /-- The ledger was checked. -/
  | checked (id : ℕ) (d : Direction) (index : ℕ)
  /-- The chain was read. -/
  | verified (id : ℕ) (auth : RefundAuth) (digest : ℕ)
  /-- The operation row is there. -/
  | begun (id : ℕ) (auth : RefundAuth)
  /-- The quorum is collected. -/
  | signed (id : ℕ) (signatures : List (ℕ × ℕ))
  /-- The authorization is recorded. -/
  | authorized (id : ℕ)
  deriving DecidableEq

namespace Settler

/-- The first step: everything that is decided by the ledger alone. `none` when
a refund exists already. -/
def check (s : Settler) (l : Ledger) (id : ℕ) : Except RefundError (Option RefundCall) := do
  let r ← (l.request id).mapError .ledger
  if (r.robinhoodTx .refund).isSome then return none
  require (r.robinhoodTx .settlement = none) .alreadySettled
  require r.direction.sourceIsRobinhood .wrongDirection
  require (r.state = .manualReview) .notRefundable
  require (∀ p ∈ r.goldcoinPayout, p.txid = none) .alreadyPaidOut
  require (r.destinationTxid = none) .alreadyPaidOut
  (l.refuseUnlessDecided id).mapError .ledger
  let index ← orFail r.sourceObligationIndex .invalid
  require (r.sourceContract = some s.bridgeContract) .foreignContract
  return some (.checked id r.direction index)

/-- The next step of a call. The call is over when nothing is left of it. -/
def advance (s : Settler) (w : Answers) (l : Ledger) :
    RefundCall → Except RefundError (Ledger × Option RefundCall)
  | .checked id d index => do
    let (auth, digest) ← s.readObligation w d index
    return (l, some (.verified id auth digest))
  | .verified id auth digest => do
    let l ← (l.beginRobinhoodTx .refund id digest).mapError .ledger
    return (l, some (.begun id auth))
  | .begun id auth => do
    let signatures ← s.collectQuorum w.signers auth
    return (l, some (.signed id signatures))
  | .signed id signatures => do
    let l ← (l.recordRobinhoodAuthorization .refund id signatures).mapError .ledger
    return (l, some (.authorized id))
  | .authorized id => do
    let l ← (l.markRobinhoodRefundPending id).mapError .ledger
    return (l, none)

/-- At most `n` further steps of a call. It ends with the step that fails. -/
def drive (s : Settler) (w : Answers) : ℕ → Ledger → RefundCall → Ledger
  | 0, l, _ => l
  | n + 1, l, c =>
    match s.advance w l c with
    | .ok (l', some c') => s.drive w n l' c'
    | .ok (l', none) => l'
    | .error _ => l

/-- An invocation that gets `n` steps past its first. -/
def beginRefundUntil (s : Settler) (w : Answers) (n : ℕ) (l : Ledger) (id : ℕ) : Ledger :=
  match s.check l id with
  | .ok (some c) => s.drive w n l c
  | _ => l

/-- `begin_refund`, of which nothing stops the process. -/
def beginRefund (s : Settler) (w : Answers) (l : Ledger) (id : ℕ) : Ledger :=
  s.beginRefundUntil w 5 l id

variable {s : Settler} {auth : RefundAuth} {digest : ℕ}

/-- What the checks establish. -/
theorem check_eq_ok {l : Ledger} {id : ℕ} {c : RefundCall} (h : s.check l id = .ok (some c)) :
    ∃ r index, l.requests.get? id = some r ∧ r.robinhoodTx .refund = none ∧
      r.direction.sourceIsRobinhood ∧ r.state = .manualReview ∧
      (∀ p ∈ r.goldcoinPayout, p.txid = none) ∧ r.destinationTxid = none ∧
      r.sourceObligationIndex = some index ∧ c = .checked id r.direction index := by
  simp only [check, bind_eq_ok, mapError_eq_ok, Ledger.request_eq_ok] at h
  obtain ⟨r, hget, h⟩ := h
  split_ifs at h with hrefund
  · simp [pure, Except.pure] at h
  · simp only [bind_eq_ok, require_eq_ok, exists_unit, mapError_eq_ok, orFail_eq_ok, pure_eq_ok] at h
    obtain ⟨-, hsource, hstate, hpayout, htxid, -, index, hindex, -, hc⟩ := h
    exact ⟨r, index, hget, by simpa using hrefund, hsource, hstate, hpayout, htxid, hindex,
      (Option.some.inj hc).symm⟩

/-! ## What the quorum is -/

/-- What signatures are checked against. -/
def verifier (s : Settler) : Quorum.Verifier := ⟨s.recoverAddress, s.signers⟩

/-- A pair that is a quorum over the digest: two of the signers of the contract,
each with a signature that recovers to it. -/
structure Verifies (s : Settler) (digest : ℕ) (signatures : List (ℕ × ℕ)) : Prop where
  length : signatures.length = signerThreshold
  distinct : (signatures.map Prod.fst).Nodup
  recovers : ∀ e ∈ signatures, s.recoverAddress digest e.2 = some e.1 ∧ e.1 ∈ s.signers

theorem checkSignature_eq_ok {claimed signature : ℕ} {u : Unit} :
    s.checkSignature digest claimed signature = .ok u ↔
      s.recoverAddress digest signature = some claimed ∧ claimed ∈ s.signers := by
  simp only [checkSignature, bind_eq_ok, orFail_eq_ok, require_eq_ok, exists_unit]
  constructor
  · rintro ⟨_, hrecovered, rfl, hmem⟩
    exact ⟨hrecovered, hmem⟩
  · rintro ⟨hrecovered, hmem⟩
    exact ⟨claimed, hrecovered, rfl, hmem⟩

/-- The loop is the one of any authorization. -/
theorem collectFrom_refines {signers : List EvmAuthSigner} {collected signatures : List (ℕ × ℕ)}
    (h : s.collectFrom auth digest signers collected = .ok signatures)
    (lastFailure : Option Quorum.QuorumError) :
    ∃ lastFailure', s.verifier.collectFrom auth digest
      (signers.map fun q => ⟨q.address, q.signAuthorization⟩) collected lastFailure =
        .ok (signatures, lastFailure') := by
  induction signers generalizing collected lastFailure with
  | nil =>
    obtain rfl := Except.ok.inj h
    exact ⟨lastFailure, rfl⟩
  | cons signer rest ih =>
    rw [collectFrom] at h
    rw [List.map_cons, Quorum.Verifier.collectFrom]
    split_ifs at h ⊢ with hfull hseen
    · obtain rfl := Except.ok.inj h
      exact ⟨lastFailure, rfl⟩
    · exact ih h lastFailure
    · dsimp only
      cases hanswer : signer.signAuthorization auth with
      | declined =>
        rw [hanswer] at h
        exact ih h _
      | timedOut =>
        rw [hanswer] at h
        exact ih h _
      | untrustworthy =>
        rw [hanswer] at h
        cases h
      | signed signature =>
        rw [hanswer] at h
        simp only [bind_eq_ok, checkSignature_eq_ok, exists_unit] at h
        obtain ⟨lastFailure', hrest⟩ := ih h.2 lastFailure
        refine ⟨lastFailure', ?_⟩
        simp only [bind_eq_ok, Quorum.Verifier.checkSignature_eq_ok, exists_unit]
        exact ⟨h.1, hrest⟩

/-- What the loop collects is checked, and by distinct signers. -/
theorem collectFrom_eq_ok {signers : List EvmAuthSigner} {collected signatures : List (ℕ × ℕ)}
    (h : s.collectFrom auth digest signers collected = .ok signatures)
    (hlength : collected.length ≤ signerThreshold) (hdistinct : (collected.map Prod.fst).Nodup)
    (hrecovers : ∀ e ∈ collected, s.recoverAddress digest e.2 = some e.1 ∧ e.1 ∈ s.signers) :
    (signatures.map Prod.fst).Nodup ∧
      ∀ e ∈ signatures, s.recoverAddress digest e.2 = some e.1 ∧ e.1 ∈ s.signers := by
  obtain ⟨lastFailure, hcollected⟩ := collectFrom_refines h none
  exact (Quorum.Verifier.collectFrom_eq_ok hcollected hlength hdistinct hrecovers).2

theorem collectQuorum_eq_ok {signers : List EvmAuthSigner} {signatures : List (ℕ × ℕ)}
    (h : s.collectQuorum signers auth = .ok signatures) :
    ∃ digest, s.digest auth = some digest ∧ s.Verifies digest signatures := by
  simp only [collectQuorum, bind_eq_ok, orFail_eq_ok, require_eq_ok, exists_unit, pure_eq_ok] at h
  obtain ⟨digest, hdigest, -, collected, hcollected, hlength, -, rfl⟩ := h
  obtain ⟨hdistinct, hrecovers⟩ := collectFrom_eq_ok hcollected (Nat.zero_le _) List.nodup_nil
    (by simp)
  exact ⟨digest, hdigest, hlength, hdistinct, hrecovers⟩

/-! ## When there is one -/

/-- The signer signs this digest, under its own address, and the contract knows
it. -/
def Signs (s : Settler) (auth : RefundAuth) (digest : ℕ) (signer : EvmAuthSigner) : Prop :=
  ∃ signature, signer.signAuthorization auth = .signed signature ∧
    s.recoverAddress digest signature = some signer.address ∧ signer.address ∈ s.signers

/-- The signer is out of reach or will not sign. -/
def Abstains (auth : RefundAuth) (signer : EvmAuthSigner) : Prop :=
  signer.signAuthorization auth = .declined ∨ signer.signAuthorization auth = .timedOut

/-- Where no signer answers wrong, the loop ends with a full quorum or with all
that sign. -/
theorem collectFrom_complete {signers : List EvmAuthSigner} {collected : List (ℕ × ℕ)}
    (hsigners : ∀ signer ∈ signers, s.Signs auth digest signer ∨ Abstains auth signer)
    (hlength : collected.length ≤ signerThreshold) :
    ∃ signatures, s.collectFrom auth digest signers collected = .ok signatures ∧
      signatures.length ≤ signerThreshold ∧ collected.map Prod.fst ⊆ signatures.map Prod.fst ∧
      (signatures.length = signerThreshold ∨
        ∀ signer ∈ signers, s.Signs auth digest signer → signer.address ∈ signatures.map Prod.fst) := by
  induction signers generalizing collected with
  | nil => exact ⟨collected, rfl, hlength, List.Subset.refl _, .inr (by simp)⟩
  | cons signer rest ih =>
    have hrest : ∀ q ∈ rest, s.Signs auth digest q ∨ Abstains auth q :=
      fun q hq => hsigners q (List.mem_cons_of_mem _ hq)
    by_cases hfull : collected.length = signerThreshold
    · refine ⟨collected, ?_, hlength, List.Subset.refl _, .inl hfull⟩
      rw [collectFrom, if_pos hfull]
    by_cases hseen : signer.address ∈ collected.map Prod.fst
    · obtain ⟨signatures, hok, hle, hsub, hall⟩ := ih hrest hlength
      refine ⟨signatures, ?_, hle, hsub, hall.imp_right fun hall q hq hsigns => ?_⟩
      · rw [collectFrom, if_neg hfull, if_pos hseen]
        exact hok
      · rcases List.mem_cons.mp hq with rfl | hq
        · exact hsub hseen
        · exact hall q hq hsigns
    rcases hsigners signer List.mem_cons_self with ⟨signature, hanswer, hsignature⟩ | habstains
    · have hroom : (collected ++ [(signer.address, signature)]).length ≤ signerThreshold := by
        rw [List.length_append, List.length_singleton]
        omega
      obtain ⟨signatures, hok, hle, hsub, hall⟩ := ih hrest hroom
      have hmine : signer.address ∈ signatures.map Prod.fst := hsub (by simp)
      refine ⟨signatures, ?_, hle, fun a ha => hsub (by simp [ha]), hall.imp_right fun hall q hq hsigns => ?_⟩
      · rw [collectFrom, if_neg hfull, if_neg hseen, hanswer]
        simp only [bind_eq_ok, checkSignature_eq_ok, exists_unit]
        exact ⟨hsignature, hok⟩
      · rcases List.mem_cons.mp hq with rfl | hq
        · exact hmine
        · exact hall q hq hsigns
    · obtain ⟨signatures, hok, hle, hsub, hall⟩ := ih hrest hlength
      refine ⟨signatures, ?_, hle, hsub, hall.imp_right fun hall q hq hsigns => ?_⟩
      · rw [collectFrom, if_neg hfull, if_neg hseen]
        rcases habstains with hanswer | hanswer <;> rw [hanswer] <;> exact hok
      · rcases List.mem_cons.mp hq with rfl | hq
        · obtain ⟨_, hanswer, -⟩ := hsigns
          rcases habstains with h | h <;> rw [h] at hanswer <;> cases hanswer
        · exact hall q hq hsigns

/-- Signers that make a quorum: none answers wrong, and two of them sign. -/
structure Quorate (s : Settler) (signers : List EvmAuthSigner) (auth : RefundAuth) (digest : ℕ) :
    Prop where
  trustworthy : ∀ signer ∈ signers, s.Signs auth digest signer ∨ Abstains auth signer
  two : ∃ a ∈ signers, ∃ b ∈ signers, a.address ≠ b.address ∧
    s.Signs auth digest a ∧ s.Signs auth digest b

theorem exists_quorum {signers : List EvmAuthSigner} (hdigest : s.digest auth = some digest)
    (h : s.Quorate signers auth digest) : ∃ signatures, s.collectQuorum signers auth = .ok signatures := by
  obtain ⟨a, ha, b, hb, hne, hsa, hsb⟩ := h.two
  have hnone : ([] : List (ℕ × ℕ)).length ≤ signerThreshold := Nat.zero_le _
  obtain ⟨signatures, hok, hle, -, hall⟩ := collectFrom_complete h.trustworthy hnone
  have hdistinct := (collectFrom_eq_ok hok hnone List.nodup_nil (by simp)).1
  -- two addresses among what was collected make it a full quorum
  have hfull : signatures.length = signerThreshold := by
    rcases hall with hfull | hall
    · exact hfull
    · have hsub : [a.address, b.address] ⊆ signatures.map Prod.fst := by
        simp only [List.cons_subset, List.nil_subset, and_true]
        exact ⟨hall a ha hsa, hall b hb hsb⟩
      have hcard := (List.nodup_cons.mpr ⟨by simpa using hne, List.nodup_singleton b.address⟩).length_le_of_subset
        hsub
      rw [List.length_map] at hcard
      exact le_antisymm hle hcard
  -- and two signers there are
  have htwo : signerThreshold ≤ signers.length := by
    have hsub : [a, b] ⊆ signers := by
      simp only [List.cons_subset, List.nil_subset, and_true]
      exact ⟨ha, hb⟩
    have hab : a ≠ b := fun hab => hne (hab ▸ rfl)
    exact (List.nodup_cons.mpr ⟨by simpa using hab, List.nodup_singleton b⟩).length_le_of_subset hsub
  refine ⟨signatures, ?_⟩
  simp only [collectQuorum, bind_eq_ok, orFail_eq_ok, require_eq_ok, exists_unit, pure_eq_ok]
  exact ⟨digest, hdigest, htwo, signatures, hok, hfull, hdistinct, rfl⟩

end Settler

/-! ## A sample settler -/

/-- A settler of a contract with three signers. A signature is the digest with
the address of its signer added. -/
def sampleSettler : Settler where
  bridgeContract := 7
  signers := [1, 2, 3]
  authorizationTtl := 600
  digest := fun auth => some (auth.amount + auth.expiry)
  recoverAddress := fun digest signature => if digest ≤ signature then some (signature - digest) else none

def sampleSigner (address : ℕ) : EvmAuthSigner where
  address := address
  signAuthorization := fun auth => .signed (auth.amount + auth.expiry + address)

/-- The obligation of the sample deposit, and three signers that sign. -/
def sampleAnswers : Answers where
  obligation := some { depositor := 1, status := 1, route := 4, amount := 1000 }
  signerEpoch := some 1
  signers := [sampleSigner 1, sampleSigner 2, sampleSigner 3]
  now := 200

/-- The ledger with the sample deposit, parked. -/
def sampleParked : Ledger := Ledger.after
  [.configureReserve .solanaReserve 5000 0,
   .foldRobinhoodDeposit Ledger.sampleObservation Ledger.sampleAmounts (some [2]) true
    (some .bandExceeded) 100]

end Service
