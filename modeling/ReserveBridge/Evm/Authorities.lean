-- SUMMARY: The signer and guardian sets of the Robinhood reserve contract: what rotations do to them, that the authorization mappings list exactly their members in every reachable state, and what an accepted quorum consists of.
import ReserveBridge.Evm.Authorization

/-!
# Signer and guardian sets

The contract keeps each set twice: as an array, which the views list, and as a
mapping, which the checks read. A rotation clears the mapping at the members it
replaces before it marks the new ones.
-/

namespace Evm
open Guard

variable {Sig : Type} {C : Crypto Sig} {I : Immutables} {s : Storage} {w w' : World}
  {env : CallEnv} {c : Call Sig} {t : Triple}

/-! ## Sets of three -/

/-- Three accounts, none of which is zero, and all of which differ. -/
structure Triple.Valid (t : Triple) : Prop where
  nonzero : 0 ∉ t.toList
  distinct : t.toList.Nodup

/-- The mapping holds for the members and for no other account. -/
def Lists (isMember : Address → Bool) (t : Triple) : Prop :=
  ∀ a, isMember a = true ↔ a ∈ t.toList

theorem validateTriple_ok {duplicate : Revert} {u : Unit}
    (h : validateTriple t duplicate = .ok u) : t.Valid := by
  simp only [validateTriple, bind_eq_ok, require_eq_ok, exists_unit] at h
  obtain ⟨⟨hfst, hsnd, hthd⟩, hne₀, hne₁, hne₂⟩ := h
  constructor
  · simp only [Triple.toList, List.mem_cons, List.not_mem_nil, or_false, not_or]
    exact ⟨hfst.symm, hsnd.symm, hthd.symm⟩
  · simp only [Triple.toList, List.nodup_cons, List.mem_cons, List.not_mem_nil, or_false, not_or]
    exact ⟨⟨hne₀, hne₁⟩, hne₂, not_false, List.nodup_nil⟩

theorem mark_apply (f : Address → Bool) (t : Triple) (member : Bool) (a : Address) :
    mark f t member a = if a ∈ t.toList then member else f a := by
  simp only [mark, Triple.toList, List.foldl_cons, List.foldl_nil, List.mem_cons,
    List.not_mem_nil, or_false, Function.update_apply]
  by_cases hfst : a = t.fst
  · simp [hfst]
  · by_cases hsnd : a = t.snd <;> simp [hfst, hsnd]

/-- Marking a set where no account is marked lists that set. -/
theorem lists_mark {f : Address → Bool} (hf : ∀ a, f a = false) (t : Triple) :
    Lists (mark f t true) t := by
  intro a
  rw [mark_apply]
  split_ifs with ha
  · exact iff_of_true rfl ha
  · rw [hf a]
    exact iff_of_false Bool.false_ne_true ha

/-- Clearing the members of the set that is listed leaves no account marked. -/
theorem Lists.cleared {f : Address → Bool} (h : Lists f t) (a : Address) :
    mark f t false a = false := by
  rw [mark_apply]
  split_ifs with ha
  · rfl
  · exact Bool.eq_false_iff.mpr fun hmarked => ha ((h a).mp hmarked)

/-! ## The sets of the contract -/

/-- Both mappings list the members of their arrays, which are valid sets. -/
structure Storage.Faithful (s : Storage) : Prop where
  signers : s.signers.Valid
  isSigner : Lists s.isSigner s.signers
  guardians : s.guardians.Valid
  isGuardian : Lists s.isGuardian s.guardians

/-- What the checks of the quorum and of the guardians read. -/
structure Storage.SameSets (s s' : Storage) : Prop where
  signers : s'.signers = s.signers
  isSigner : s'.isSigner = s.isSigner
  signerEpoch : s'.signerEpoch = s.signerEpoch
  guardians : s'.guardians = s.guardians
  isGuardian : s'.isGuardian = s.isGuardian

theorem Storage.SameSets.faithful {s' : Storage} (hsame : s.SameSets s') (h : s.Faithful) :
    s'.Faithful := by
  obtain ⟨hsigners, hisSigner, -, hguardians, hisGuardian⟩ := hsame
  refine ⟨?_, ?_, ?_, ?_⟩
  · rw [hsigners]
    exact h.signers
  · rw [hisSigner, hsigners]
    exact h.isSigner
  · rw [hguardians]
    exact h.guardians
  · rw [hisGuardian, hguardians]
    exact h.isGuardian

/-- The set a call installs, if it rotates one. -/
def Call.rotates : Call Sig → Option Triple
  | .rotateSigners newSigners _ _ _ => some newSigners
  | .rotateGuardians newGuardians _ _ _ => some newGuardians
  | _ => none

/-- A rotation installs three valid accounts. -/
theorem rotates_valid (h : exec C I w env c = .ok w') (ht : c.rotates = some t) : t.Valid := by
  cases c with
  | rotateSigners newSigners nonce expiry signatures =>
    cases ht
    obtain ⟨s, hs, -⟩ := onBridge_ok.mp h
    simp only [rotateSigners, installSigners, validateSignerTriple, bind_eq_ok, require_eq_ok,
      pure_eq_ok, exists_unit, governance_ok] at hs
    obtain ⟨-, _, -, _, ⟨hvalid, -⟩, -⟩ := hs
    exact validateTriple_ok hvalid
  | rotateGuardians newGuardians nonce expiry signatures =>
    cases ht
    obtain ⟨s, hs, -⟩ := onBridge_ok.mp h
    simp only [rotateGuardians, installGuardians, validateGuardianTriple, bind_eq_ok,
      require_eq_ok, pure_eq_ok, exists_unit, governance_ok] at hs
    obtain ⟨-, _, -, hvalid, -⟩ := hs
    exact validateTriple_ok hvalid
  | _ => cases ht

/-- Calls that rotate no set leave both alone. -/
theorem Effect.sameSets (heff : Effect C I w env c w') (hc : c.rotates = none) :
    w.bridge.SameSets w'.bridge := by
  cases heff with
  | rotateSigners => cases hc
  | rotateGuardians => cases hc
  | _ => exact ⟨rfl, rfl, rfl, rfl, rfl⟩

theorem exec_faithful (h : exec C I w env c = .ok w') (hw : w.bridge.Faithful) :
    w'.bridge.Faithful := by
  have heff : Effect C I w env c w' := .of_exec h
  cases hc : c.rotates with
  | none => exact (heff.sameSets hc).faithful hw
  | some t =>
    have hvalid := rotates_valid h hc
    cases heff with
    | rotateSigners =>
      cases hc
      exact ⟨hvalid, lists_mark hw.isSigner.cleared _, hw.guardians, hw.isGuardian⟩
    | rotateGuardians =>
      cases hc
      exact ⟨hw.signers, hw.isSigner, hvalid, lists_mark hw.isGuardian.cleared _⟩
    | _ => cases hc

theorem construct_faithful {decimals : ℕ} {signers guardians : Triple} {limits : Limits}
    {token₀ : Erc20} (h : construct I env decimals signers guardians limits token₀ = .ok w) :
    w.bridge.Faithful ∧ w.bridge.signerEpoch = 0 := by
  have hvalid : signers.Valid ∧ guardians.Valid := by
    simp only [construct, installSigners, installGuardians, validateSignerTriple,
      validateGuardianTriple, bind_eq_ok, require_eq_ok, pure_eq_ok, exists_unit] at h
    obtain ⟨-, -, -, -, -, -, _, ⟨hsigners, -⟩, _, ⟨hguardians, -⟩, -⟩ := h
    exact ⟨validateTriple_ok hsigners, validateTriple_ok hguardians⟩
  rw [construct_ok h]
  exact ⟨⟨hvalid.1, lists_mark (fun _ => rfl) _, hvalid.2, lists_mark (fun _ => rfl) _⟩, rfl⟩

/-! ## The epoch -/

/-- The operation replaces the signer set. -/
def Op.rotatesSigners : Op Sig → Bool
  | .call _ (.rotateSigners ..) => true
  | _ => false

/-- An accepted rotation of the signers raises the epoch by one, and nothing else
changes it. -/
theorem signerEpoch_step {op : Op Sig} (h : step C I w op = some w') :
    w'.bridge.signerEpoch = w.bridge.signerEpoch + op.rotatesSigners.toNat := by
  rcases step_cases h with ⟨env, c, rfl, -, heff⟩ | ⟨token, rfl, -, rfl⟩
  · cases heff with
    | rotateSigners => rfl
    | _ => rfl
  · rfl

theorem faithful_step {op : Op Sig} (hw : w.bridge.Faithful) (h : step C I w op = some w') :
    w'.bridge.Faithful := by
  rcases step_cases h with ⟨env, c, rfl, hexec, -⟩ | ⟨token, rfl, -, rfl⟩
  · exact exec_faithful hexec hw
  · exact hw

/-- The epoch counts the rotations of the signers that were accepted. -/
theorem signerEpoch_final (ops : List (Op Sig)) :
    (Run.final (step C I) w ops).bridge.signerEpoch =
      w.bridge.signerEpoch +
        (Run.history (step C I) w ops).countP fun e => e.2.rotatesSigners := by
  induction ops generalizing w with
  | nil => rfl
  | cons op ops ih =>
    cases hs : step C I w op with
    | none =>
      rw [Run.final_cons, Run.advance_of_none hs, Run.history_cons_of_none hs]
      exact ih
    | some w₁ =>
      rw [Run.final_cons, Run.advance_of_some hs, Run.history_cons_of_some hs, ih,
        signerEpoch_step hs, List.countP_cons]
      cases op.rotatesSigners
      · simp
      · simp
        omega

/-! ## Quorums -/

/-- The signatures are two, and recover the digest of the authorization to two
different members of the signer array. -/
def Quorum (C : Crypto Sig) (I : Immutables) (s : Storage) (a : Authorization)
    (signatures : List Sig) : Prop :=
  ∃ sig₀ sig₁ first second, signatures = [sig₀, sig₁] ∧
    C.recover (a.digest C I) sig₀ = some first ∧ C.recover (a.digest C I) sig₁ = some second ∧
    first ∈ s.signers.toList ∧ second ∈ s.signers.toList ∧ first ≠ second

theorem Checked.quorum {a : Authorization} {signatures : List Sig}
    (h : Checked C I s env a signatures) (hs : s.Faithful) : Quorum C I s a signatures := by
  obtain ⟨expiry, hauth⟩ := h
  obtain ⟨-, -, sig₀, sig₁, first, second, hsigs, hfirst, hsecond, hs₀, hs₁, hne⟩ :=
    authorize_ok hauth
  exact ⟨sig₀, sig₁, first, second, hsigs, hfirst, hsecond, (hs.isSigner first).mp hs₀,
    (hs.isSigner second).mp hs₁, hne⟩

/-! ## Every run -/

/-- From deployment on the mappings list exactly the members of the current
arrays, which are valid sets; the epoch counts the rotations of the signers; and
a call that needs signatures is accepted only with those of a quorum of the
signers of that moment. -/
theorem authorities_of_run {env₀ : CallEnv} {decimals : ℕ} {signers guardians : Triple}
    {limits : Limits} {token₀ : Erc20}
    (h : construct I env₀ decimals signers guardians limits token₀ = .ok w)
    (ops : List (Op Sig)) :
    (Run.final (step C I) w ops).bridge.Faithful ∧
    (Run.final (step C I) w ops).bridge.signerEpoch =
      ((Run.history (step C I) w ops).countP fun e => e.2.rotatesSigners) ∧
    (∀ v op, (v, op) ∈ Run.history (step C I) w ops →
      (Run.advance (step C I) v op).bridge.signerEpoch =
        v.bridge.signerEpoch + op.rotatesSigners.toNat) ∧
    ∀ v env c a, (v, .call env c) ∈ Run.history (step C I) w ops →
      c.authorization I v.bridge = some a → Quorum C I v.bridge a c.signatures := by
  obtain ⟨hfaithful, hzero⟩ := construct_faithful h
  have hstep : ∀ (w : World) op w', w.bridge.Faithful → step C I w op = some w' →
      w'.bridge.Faithful := fun _ _ _ hw hs => faithful_step hw hs
  have hrun : (Run.final (step C I) w ops).bridge.Faithful := Run.invariant hstep hfaithful ops
  refine ⟨hrun, ?_, ?_, ?_⟩
  · rw [signerEpoch_final, hzero, zero_add]
  · intro v op hmem
    obtain ⟨-, -, v', -, -, hs⟩ := Run.mem_history hmem
    rw [Run.advance_of_some hs]
    exact signerEpoch_step hs
  · intro v env c a hmem ha
    have hv : v.bridge.Faithful := Run.invariant_history hstep hfaithful hmem
    obtain ⟨-, -, v', -, -, hs⟩ := Run.mem_history hmem
    have heff : Effect C I v env c v' := .of_exec (by simpa [step] using hs)
    have hchecked := heff.checked
    simp only [ha] at hchecked
    exact hchecked.quorum hv

/-- The quorum replaces two of the three signers. -/
def sampleRotation : Call (Address × Word) :=
  .rotateSigners ⟨101, 104, 105⟩ 0 5000 (samplePair (governanceStructHash idealCrypto
    actionRotateSigners (idealCrypto.keccak256 (.encode [101, 104, 105])) 0 0 5000))

theorem sampleRotation_accepted :
    ∃ w', step idealCrypto sampleImmutables sampleWorld (.call (sampleEnv 9) sampleRotation) =
      some w' := by
  have hexec : ∃ w', exec idealCrypto sampleImmutables sampleWorld (sampleEnv 9) sampleRotation =
      .ok w' := by
    simp only [sampleRotation, exec, onBridge_ok, rotateSigners, installSigners,
      validateSignerTriple, validateTriple, bind_eq_ok, require_eq_ok, pure_eq_ok, exists_unit,
      governance_ok, checkedAdd_eq_ok]
    exact ⟨_, _, ⟨rfl, _, ⟨⟨rfl, authorize_samplePair (by decide) rfl rfl rfl⟩, rfl⟩, _,
      ⟨⟨by decide, by decide⟩, rfl⟩, 1, ⟨by decide, rfl⟩, rfl⟩, rfl⟩
  obtain ⟨w', hw'⟩ := hexec
  exact ⟨w', by simpa [step] using hw'⟩

theorem authorities_of_run_sample :
    (Run.final (step idealCrypto sampleImmutables) sampleWorld
      [.call (sampleEnv 9) sampleRotation]).bridge.Faithful ∧
    (Run.final (step idealCrypto sampleImmutables) sampleWorld
      [.call (sampleEnv 9) sampleRotation]).bridge.signerEpoch = 1 := by
  have hrun := authorities_of_run (C := idealCrypto) sampleWorld_constructed
    [.call (sampleEnv 9) sampleRotation]
  obtain ⟨w', hw'⟩ := sampleRotation_accepted
  refine ⟨hrun.1, ?_⟩
  rw [hrun.2.1, Run.history_cons_of_some hw']
  rfl

end Evm
