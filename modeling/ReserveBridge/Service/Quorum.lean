-- SUMMARY: The collection of a quorum of two over one authorization: which signatures it accepts, and what a collected pair is.
import Mathlib.Data.List.Nodup
import Mathlib.Data.Nat.Notation
import ReserveBridge.Lib.Guard

/-!
# The signer quorum

`collect_quorum` of `service/src/robinhood/signer.rs`, for any kind of
authorization. Every signature is checked against the digest of the one
authorization the signers were asked for, before it counts.
-/

namespace Service
open Guard

inductive SignerAnswer
  | signed (signature : ℕ)
  /-- The signer refused, or is not there: `is_tolerable`. -/
  | declined
  /-- The signer answered, and answered wrong. -/
  | untrustworthy
  | timedOut
  deriving DecidableEq, Repr

/-- `SIGNER_THRESHOLD`. -/
def signerThreshold : ℕ := 2

namespace Quorum

inductive QuorumError
  | notEnoughSigners (available required : ℕ)
  | signerFailed (signer : ℕ)
  | identityMismatch (claimed recovered : ℕ)
  | notAuthorized (address : ℕ)
  | unrecoverable (address : ℕ)
  | duplicateSigner (address : ℕ)
  | untrustworthy (address : ℕ)
  | notEncodable
  deriving DecidableEq, Repr

/-- A signer of authorizations of type `A`. -/
structure Signer (A : Type) where
  address : ℕ
  signAuthorization : A → SignerAnswer

/-- What signatures are checked against: the recovery of an address from a
signature over a digest, and the signer set of the contract. -/
structure Verifier where
  recoverAddress : ℕ → ℕ → Option ℕ
  authorized : List ℕ

variable {A : Type}

namespace Verifier

/-- The checks on a signature that was returned. -/
def checkSignature (v : Verifier) (digest claimed signature : ℕ) : Except QuorumError Unit := do
  let recovered ← orFail (v.recoverAddress digest signature) (.unrecoverable claimed)
  require (recovered = claimed) (.identityMismatch claimed recovered)
  require (recovered ∈ v.authorized) (.notAuthorized recovered)

/-- The loop, on what is collected so far and the last failure. -/
def collectFrom (v : Verifier) (request : A) (digest : ℕ) :
    List (Signer A) → List (ℕ × ℕ) → Option QuorumError →
      Except QuorumError (List (ℕ × ℕ) × Option QuorumError)
  | [], collected, lastFailure => .ok (collected, lastFailure)
  | signer :: rest, collected, lastFailure =>
    if collected.length = signerThreshold then .ok (collected, lastFailure)
    else if signer.address ∈ collected.map Prod.fst then
      v.collectFrom request digest rest collected lastFailure
    else match signer.signAuthorization request with
      | .declined | .timedOut =>
        v.collectFrom request digest rest collected (some (.signerFailed signer.address))
      | .untrustworthy => .error (.untrustworthy signer.address)
      | .signed signature => do
        v.checkSignature digest signer.address signature
        v.collectFrom request digest rest (collected ++ [(signer.address, signature)]) lastFailure

/-- `collect_quorum`. -/
def collectQuorum (v : Verifier) (digestOf : A → Option ℕ) (signers : List (Signer A))
    (request : A) : Except QuorumError (List (ℕ × ℕ)) := do
  let digest ← orFail (digestOf request) .notEncodable
  require (signerThreshold ≤ signers.length) (.notEnoughSigners signers.length signerThreshold)
  let (collected, lastFailure) ← v.collectFrom request digest signers [] none
  require (signerThreshold ≤ collected.length)
    (lastFailure.getD (.notEnoughSigners collected.length signerThreshold))
  require (collected.map Prod.fst).Nodup (.duplicateSigner ((collected.map Prod.fst).headD 0))
  return collected

/-- A pair that is a quorum over the digest: two signers of the contract, each
with a signature that recovers to it. -/
structure Accepts (v : Verifier) (digest : ℕ) (signatures : List (ℕ × ℕ)) : Prop where
  length : signatures.length = signerThreshold
  distinct : (signatures.map Prod.fst).Nodup
  recovers : ∀ e ∈ signatures, v.recoverAddress digest e.2 = some e.1 ∧ e.1 ∈ v.authorized

instance (v : Verifier) (digest : ℕ) (signatures : List (ℕ × ℕ)) :
    Decidable (v.Accepts digest signatures) :=
  decidable_of_iff (signatures.length = signerThreshold ∧ (signatures.map Prod.fst).Nodup ∧
      ∀ e ∈ signatures, v.recoverAddress digest e.2 = some e.1 ∧ e.1 ∈ v.authorized)
    ⟨fun h => ⟨h.1, h.2.1, h.2.2⟩, fun h => ⟨h.length, h.distinct, h.recovers⟩⟩

variable {v : Verifier} {request : A} {digest : ℕ}

theorem checkSignature_eq_ok {claimed signature : ℕ} {u : Unit} :
    v.checkSignature digest claimed signature = .ok u ↔
      v.recoverAddress digest signature = some claimed ∧ claimed ∈ v.authorized := by
  simp only [checkSignature, bind_eq_ok, orFail_eq_ok, require_eq_ok, exists_unit]
  constructor
  · rintro ⟨_, hrecovered, rfl, hmem⟩
    exact ⟨hrecovered, hmem⟩
  · rintro ⟨hrecovered, hmem⟩
    exact ⟨claimed, hrecovered, rfl, hmem⟩

/-- What the loop collects is checked, by distinct signers, and at most a
quorum. -/
theorem collectFrom_eq_ok {signers : List (Signer A)} {collected signatures : List (ℕ × ℕ)}
    {lastFailure lastFailure' : Option QuorumError}
    (h : v.collectFrom request digest signers collected lastFailure =
      .ok (signatures, lastFailure'))
    (hlength : collected.length ≤ signerThreshold) (hdistinct : (collected.map Prod.fst).Nodup)
    (hrecovers : ∀ e ∈ collected, v.recoverAddress digest e.2 = some e.1 ∧ e.1 ∈ v.authorized) :
    signatures.length ≤ signerThreshold ∧ (signatures.map Prod.fst).Nodup ∧
      ∀ e ∈ signatures, v.recoverAddress digest e.2 = some e.1 ∧ e.1 ∈ v.authorized := by
  induction signers generalizing collected lastFailure with
  | nil =>
    obtain ⟨rfl, -⟩ := Prod.mk.inj (Except.ok.inj h)
    exact ⟨hlength, hdistinct, hrecovers⟩
  | cons signer rest ih =>
    rw [collectFrom] at h
    split_ifs at h with hfull hseen
    · obtain ⟨rfl, -⟩ := Prod.mk.inj (Except.ok.inj h)
      exact ⟨hlength, hdistinct, hrecovers⟩
    · exact ih h hlength hdistinct hrecovers
    · split at h
      · exact ih h hlength hdistinct hrecovers
      · exact ih h hlength hdistinct hrecovers
      · cases h
      · rename_i signature _
        simp only [bind_eq_ok, checkSignature_eq_ok, exists_unit] at h
        obtain ⟨hsignature, h⟩ := h
        refine ih h ?_ ?_ ?_
        · rw [List.length_append, List.length_singleton]
          omega
        · rw [List.map_append, List.nodup_append]
          refine ⟨hdistinct, by simp, ?_⟩
          rintro a ha b hb rfl
          obtain rfl := List.mem_singleton.mp hb
          exact hseen ha
        · intro e he
          rcases List.mem_append.mp he with he | he
          · exact hrecovers e he
          · rw [List.mem_singleton.mp he]
            exact hsignature

/-- A quorum is one over the digest of what was asked for. -/
theorem collectQuorum_eq_ok {digestOf : A → Option ℕ} {signers : List (Signer A)}
    {signatures : List (ℕ × ℕ)} (h : v.collectQuorum digestOf signers request = .ok signatures) :
    ∃ digest, digestOf request = some digest ∧ v.Accepts digest signatures := by
  simp only [collectQuorum, bind_eq_ok, orFail_eq_ok, require_eq_ok, exists_unit, pure_eq_ok] at h
  obtain ⟨digest, hdigest, -, ⟨collected, lastFailure⟩, hcollected, hlength, -, rfl⟩ := h
  obtain ⟨hle, hdistinct, hrecovers⟩ := collectFrom_eq_ok hcollected (Nat.zero_le _) List.nodup_nil
    (by simp)
  exact ⟨digest, hdigest, Nat.le_antisymm hle hlength, hdistinct, hrecovers⟩

end Verifier

end Quorum

end Service
