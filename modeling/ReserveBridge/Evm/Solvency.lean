-- SUMMARY: Solvency of the Robinhood reserve contract: the liability counters agree with the obligation map, the balance covers them, and spending never reaches the protected reserve.
import ReserveBridge.Evm.Step
import Mathlib.Algebra.BigOperators.Group.Finset.Basic
import Mathlib.Algebra.Order.BigOperators.Group.Finset
import Mathlib.Logic.Encodable.Basic
import Mathlib.Logic.Equiv.List

/-!
# Solvency and liability accounting

`Booked` relates the two liability counters to the obligation map. It is a
statement about storage alone. `Solvent` adds that the token balance covers the
outstanding principal. Opening and closing an obligation are the only two
moves that touch the books, so each is treated once.
-/

namespace Evm

variable {Sig : Type} {C : Crypto Sig} {I : Immutables} {s : Storage} {w w' : World}

/-- The indices of the obligations that are still pending. -/
def Storage.pending (s : Storage) : Finset ℕ :=
  (Finset.range s.obligationCount).filter fun i => (s.obligations i).status = .pending

/-- The counters of the contract describe its obligation map. -/
structure Booked (s : Storage) : Prop where
  count : s.outstandingRefundableCount = s.pending.card
  principal : s.outstandingRefundablePrincipal = ∑ i ∈ s.pending, (s.obligations i).amount
  created : ∀ i, (s.obligations i).status ≠ .none ↔ i < s.obligationCount

/-- The books are right and the balance covers what is still refundable. -/
structure Solvent (I : Immutables) (w : World) : Prop where
  booked : Booked w.bridge
  covered : w.bridge.outstandingRefundablePrincipal ≤ w.token.balanceOf I.self

/-- The balance covers the protected reserve on top of the liabilities. -/
def ReserveCovered (I : Immutables) (w : World) : Prop :=
  w.bridge.limits.protectedMinReserve + w.bridge.outstandingRefundablePrincipal ≤
    w.token.balanceOf I.self

theorem Storage.mem_pending {i : ℕ} :
    i ∈ s.pending ↔ i < s.obligationCount ∧ (s.obligations i).status = .pending := by
  simp [Storage.pending]

/-! ## Closing an obligation -/

theorem Storage.pending_close {index : ℕ} {status : ObligationStatus}
    (hstatus : status ≠ .pending) : (s.close index status).pending = s.pending.erase index := by
  ext i
  rw [Finset.mem_erase, Storage.mem_pending, Storage.mem_pending]
  by_cases hi : i = index
  · subst hi
    simp [Storage.close, hstatus]
  · simp [Storage.close, hi]

/-- The counters cover every pending obligation, so releasing it never
underflows. -/
theorem Booked.releasable {index : ℕ} (h : Booked s) (hmem : index ∈ s.pending) :
    Releasable s index := by
  obtain ⟨hlt, hpending⟩ := Storage.mem_pending.mp hmem
  refine ⟨hlt, hpending, ?_, ?_⟩
  · rw [h.count]
    exact Finset.card_pos.mpr ⟨index, hmem⟩
  · rw [h.principal]
    exact Finset.single_le_sum (f := fun i => (s.obligations i).amount)
      (fun _ _ => Nat.zero_le _) hmem

theorem Booked.close {index : ℕ} {status : ObligationStatus} (h : Booked s)
    (hpending : Releasable s index) (hterminal : status ≠ .pending) (hset : status ≠ .none) :
    Booked (s.close index status) := by
  have hmem : index ∈ s.pending := Storage.mem_pending.mpr ⟨hpending.exists_, hpending.pending⟩
  refine ⟨?_, ?_, fun i => ?_⟩
  · rw [Storage.pending_close hterminal, Finset.card_erase_of_mem hmem, ← h.count]
    rfl
  · rw [Storage.pending_close hterminal]
    have hsame : ∀ i ∈ s.pending.erase index,
        ((s.close index status).obligations i).amount = (s.obligations i).amount := by
      intro i hi
      simp [Storage.close, Finset.ne_of_mem_erase hi]
    have hsplit := Finset.add_sum_erase s.pending (fun i => (s.obligations i).amount) hmem
    rw [Finset.sum_congr rfl hsame]
    have hprincipal := h.principal
    simp only [Storage.close]
    omega
  · by_cases hi : i = index
    · subst hi
      simp [Storage.close, hset, hpending.exists_]
    · simpa [Storage.close, hi] using h.created i

/-! ## Opening an obligation -/

theorem Storage.pending_open {window : Window} {ob : Obligation} (hstatus : ob.status = .pending) :
    (s.openObligation window ob).pending = insert s.obligationCount s.pending := by
  ext i
  rw [Finset.mem_insert, Storage.mem_pending, Storage.mem_pending]
  by_cases hi : i = s.obligationCount
  · subst hi
    simp [Storage.openObligation, setObligation, hstatus]
  · have hlt : i < s.obligationCount + 1 ↔ i < s.obligationCount := by omega
    simp [Storage.openObligation, setObligation, hi, hlt]

theorem Booked.open {window : Window} {ob : Obligation} (h : Booked s)
    (hstatus : ob.status = .pending) : Booked (s.openObligation window ob) := by
  have hnew : s.obligationCount ∉ s.pending := by simp [Storage.pending]
  refine ⟨?_, ?_, fun i => ?_⟩
  · rw [Storage.pending_open hstatus, Finset.card_insert_of_notMem hnew, ← h.count]
    rfl
  · rw [Storage.pending_open hstatus, Finset.sum_insert hnew]
    have hsame : ∀ i ∈ s.pending,
        ((s.openObligation window ob).obligations i).amount = (s.obligations i).amount := by
      intro i hi
      have hne : i ≠ s.obligationCount := fun heq => hnew (heq ▸ hi)
      simp [Storage.openObligation, setObligation, hne]
    have hprincipal := h.principal
    rw [Finset.sum_congr rfl hsame]
    simp [Storage.openObligation, setObligation]
    omega
  · by_cases hi : i = s.obligationCount
    · subst hi
      simp [Storage.openObligation, setObligation, hstatus]
    · have hlt : i < s.obligationCount + 1 ↔ i < s.obligationCount := by omega
      simpa [Storage.openObligation, setObligation, hi, hlt] using h.created i

/-! ## The invariant -/

theorem Booked.spend {key : Word} (h : Booked s) : Booked (s.spend key) :=
  ⟨h.count, h.principal, h.created⟩

theorem Booked.effect {env : CallEnv} {c : Call Sig} (h : Booked w.bridge)
    (heff : Effect C I w env c w') : Booked w'.bridge := by
  cases heff with
  | deposit live uncommitted unpaused credit => exact h.open rfl
  | executeRefund live pending =>
    exact h.spend.close ⟨pending.1, pending.2, pending.3, pending.4⟩ nofun nofun
  | executeSettlement live pending =>
    exact h.spend.close ⟨pending.1, pending.2, pending.3, pending.4⟩ nofun nofun
  | executeAbandonment live pending =>
    exact h.spend.close ⟨pending.1, pending.2, pending.3, pending.4⟩ nofun nofun
  | _ => exact ⟨h.count, h.principal, h.created⟩

/-- Where the balance stands after an accepted call. -/
theorem Solvent.covered_effect {env : CallEnv} {c : Call Sig} (h : Solvent I w)
    (heff : Effect C I w env c w') :
    w'.bridge.outstandingRefundablePrincipal ≤ w'.token.balanceOf I.self := by
  have hcovered := h.covered
  cases heff with
  | deposit live uncommitted unpaused credit =>
    simp only [Storage.openObligation, setObligation]
    omega
  | executePayout live unpaused legs signed fresh floor =>
    simp only [Storage.spend]
    omega
  | executeTreasuryWithdraw live signed fresh floor =>
    simp only [Storage.spend]
    omega
  | executeRefund live pending recipient amount legs signed fresh paid =>
    -- the refund leaves the balance and the principal together
    have hsrc := Erc20.transfer_src paid
    simp only [Storage.close, Storage.spend]
    omega
  | executeSettlement | executeAbandonment =>
    simp only [Storage.close, Storage.spend]
    omega
  | finalizeMigration live committed drained =>
    simp only [drained.2, Nat.zero_le]
  | _ => exact hcovered

theorem Solvent.step {op : Op Sig} (h : Solvent I w) (hs : step C I w op = some w') :
    Solvent I w' := by
  rcases step_cases hs with ⟨env, c, -, -, heff⟩ | ⟨token, -, hle, rfl⟩
  · exact ⟨h.booked.effect heff, h.covered_effect heff⟩
  · exact ⟨h.booked, h.covered.trans hle⟩

theorem Solvent.run (h : Solvent I w) (ops : List (Op Sig)) :
    Solvent I (Run.final (Evm.step C I) w ops) :=
  Run.invariant (fun _ _ _ hw hs => hw.step hs) h ops

/-- Deployment starts with empty books. -/
theorem Solvent.construct {env : CallEnv} {decimals : ℕ} {signers guardians : Triple}
    {limits : Limits} {token₀ : Erc20}
    (h : construct I env decimals signers guardians limits token₀ = .ok w) : Solvent I w := by
  obtain rfl := construct_ok h
  refine ⟨⟨rfl, rfl, fun i => ?_⟩, Nat.zero_le _⟩
  simp [Storage.blank, Obligation.unset]

/-- Spending stops above the protected reserve. -/
theorem Effect.reserveCovered {env : CallEnv} {c : Call Sig} (heff : Effect C I w env c w')
    (hc : match c with
      | .executePayout .. | .executeTreasuryWithdraw .. => True
      | _ => False) : ReserveCovered I w' := by
  cases heff with
  | executePayout live unpaused legs signed fresh floor => exact floor
  | executeTreasuryWithdraw live signed fresh floor => exact floor
  | _ => exact hc.elim

/-! ## A sample deployment -/

/-- A number for each preimage, different for different preimages. -/
def Preimage.code : Preimage → List ℕ
  | .text s => 0 :: s.toList.map Char.toNat
  | .encode words => 1 :: words
  | .typedData domainSeparator structHash => [2, domainSeparator, structHash]

/-- An ideal scheme: an injective hash, and signatures that carry their signer
and the digest they were made over. -/
def idealCrypto : Crypto (Address × Word) where
  keccak256 := fun p => Encodable.encode p.code
  recover := fun digest sig => if sig.2 = digest then some sig.1 else none

theorem idealCrypto_injective : Function.Injective idealCrypto.keccak256 := by
  intro p q h
  have hcode : p.code = q.code := Encodable.encode_injective h
  cases p <;> cases q <;> simp_all [Preimage.code]
  exact String.toList_injective (List.map_injective_iff.mpr (fun _ _ => Char.toNat_inj.mp) hcode)

def sampleImmutables : Immutables where
  self := 1
  token := 2
  protocolChainGoldcoin := 10
  protocolChainRobinhood := 20
  protocolChainSolana := 30
  treasury := 3
  domainSeparator := 4

/-- Every account answers as a bridge of the same protocol over the same token. -/
def sampleEnv (sender : Address) : CallEnv where
  sender := sender
  timestamp := 1000
  codeLength := fun _ => 1
  successorToken := fun _ => some 2
  successorProtocolId := fun _ => some (bridgeProtocolId idealCrypto)

def sampleSigners : Triple := ⟨101, 102, 103⟩
def sampleGuardians : Triple := ⟨201, 202, 203⟩

def sampleLimits : Limits where
  inboundMin := canonicalScale
  inboundMax := canonicalScale
  inboundRollingLimit := canonicalScale
  outboundMin := canonicalScale
  outboundMax := canonicalScale
  outboundRollingLimit := canonicalScale
  protectedMinReserve := 0

def sampleToken : Erc20 where
  balanceOf := fun _ => 5 * canonicalScale
  allowance := fun _ _ => canonicalScale

def sampleWorld : World where
  bridge := { Storage.blank with
    signers := sampleSigners
    isSigner := mark (fun _ => false) sampleSigners true
    guardians := sampleGuardians
    isGuardian := mark (fun _ => false) sampleGuardians true
    limits := sampleLimits
    depositsPaused := true
    payoutsPaused := true
    inboundWindow := ⟨1000, 0⟩
    outboundWindow := ⟨1000, 0⟩ }
  token := sampleToken

theorem sampleWorld_constructed :
    construct sampleImmutables (sampleEnv 0) 18 sampleSigners sampleGuardians sampleLimits
      sampleToken = .ok sampleWorld := rfl

/-! ## Every run -/

/-- From deployment on, whatever is called by whomever and whatever third
parties add to the contract, the books describe the obligations and the balance
covers them. A payout or a treasury withdrawal also leaves the protected
reserve in place. -/
theorem solvent_of_run {env : CallEnv} {decimals : ℕ} {signers guardians : Triple}
    {limits : Limits} {token₀ : Erc20}
    (h : construct I env decimals signers guardians limits token₀ = .ok w)
    (ops : List (Op Sig)) :
    Solvent I (Run.final (step C I) w ops) ∧
    (∀ i ∈ (Run.final (step C I) w ops).bridge.pending,
      Releasable (Run.final (step C I) w ops).bridge i) ∧
    (∀ env req signatures w',
      exec C I (Run.final (step C I) w ops) env (.executePayout req signatures) = .ok w' →
        ReserveCovered I w') ∧
    (∀ env req signatures w',
      exec C I (Run.final (step C I) w ops) env (.executeTreasuryWithdraw req signatures) =
        .ok w' → ReserveCovered I w') := by
  have hsolvent : Solvent I (Run.final (step C I) w ops) :=
    (Solvent.construct h).run ops
  refine ⟨hsolvent, fun i hi => hsolvent.booked.releasable hi, ?_, ?_⟩
  · intro env req signatures w' hexec
    exact (Effect.of_exec hexec).reserveCovered trivial
  · intro env req signatures w' hexec
    exact (Effect.of_exec hexec).reserveCovered trivial

/-- A polynomial of the words in place of the hash, which can be evaluated. -/
def Preimage.polynomial : Preimage → Word
  | .text _ => 0
  | .encode words => words.foldl (fun h word => (31 * h + word) % 2 ^ 256) 7
  | .typedData domainSeparator structHash => (31 * domainSeparator + structHash) % 2 ^ 256

def polynomialCrypto : Crypto (Address × Word) := ⟨Preimage.polynomial, idealCrypto.recover⟩

/-- Two sample signers over a struct hash. -/
def polynomialPair (structHash : Word) : List (Address × Word) :=
  [(101, hashTypedData polynomialCrypto sampleImmutables structHash),
    (102, hashTypedData polynomialCrypto sampleImmutables structHash)]

def polynomialGovernance (action : ℕ) (payload : List Word) (nonce : ℕ) : List (Address × Word) :=
  polynomialPair (governanceStructHash polynomialCrypto action
    (polynomialCrypto.keccak256 (.encode payload)) 0 nonce 5000)

def samplePayout : PayoutRequest := ⟨routeGlcToRhn, 8, 77, canonicalScale, 0, 5000⟩

def sampleRefund : RefundRequest := ⟨9, 0, 55, canonicalScale, 0, 5000⟩

/-- The quorum opens both directions, account 55 deposits, and account 77 is paid. -/
def sampleTraffic : List (Op (Address × Word)) :=
  [.call (sampleEnv 9) (.setPaused false false 0 5000 (polynomialGovernance actionSetPause [0, 0] 0)),
    .call (sampleEnv 9) (.setRouteEnabled routeRhnToGlc true 1 5000
      (polynomialGovernance actionSetRouteEnabled [routeRhnToGlc, 1] 1)),
    .call (sampleEnv 9) (.setRouteEnabled routeGlcToRhn true 2 5000
      (polynomialGovernance actionSetRouteEnabled [routeGlcToRhn, 1] 2)),
    .call (sampleEnv 55) (.deposit routeRhnToGlc canonicalScale [1, 2, 3]),
    .call (sampleEnv 9) (.executePayout samplePayout
      (polynomialPair (payoutStructHash polynomialCrypto sampleImmutables samplePayout 10 20)))]

/-- The deposit is refunded. -/
def sampleReturn : Op (Address × Word) :=
  .call (sampleEnv 9) (.executeRefund sampleRefund (polynomialPair
    (refundStructHash polynomialCrypto sampleImmutables sampleRefund routeRhnToGlc 20 10)))

/-- The sample deployment after some calls. -/
abbrev sampleAfter (ops : List (Op (Address × Word))) : World :=
  Run.final (step polynomialCrypto sampleImmutables) sampleWorld ops

/-- The payout leaves the balance above the deposit, which is owed until it is
refunded. -/
theorem solvent_of_run_sample :
    (Solvent sampleImmutables (sampleAfter sampleTraffic) ∧
      (sampleAfter sampleTraffic).bridge.outstandingRefundablePrincipal = canonicalScale ∧
      (sampleAfter sampleTraffic).token.balanceOf 77 = 6 * canonicalScale) ∧
    Solvent sampleImmutables (sampleAfter (sampleTraffic ++ [sampleReturn])) ∧
    ((sampleAfter (sampleTraffic ++ [sampleReturn])).bridge.obligations 0).status = .refunded ∧
    (sampleAfter (sampleTraffic ++ [sampleReturn])).token.balanceOf 1 = 4 * canonicalScale :=
  ⟨⟨(solvent_of_run sampleWorld_constructed _).1, by decide +kernel, by decide +kernel⟩,
    (solvent_of_run sampleWorld_constructed _).1, by decide +kernel, by decide +kernel⟩

end Evm
