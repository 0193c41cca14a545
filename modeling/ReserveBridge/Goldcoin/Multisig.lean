-- SUMMARY: The m-of-n vault and the assembly of its signatures: which partials are accepted, what the script of an input pushes, and that it does not depend on the order or the form of the signatures.
import ReserveBridge.Lib.Bytes
import ReserveBridge.Lib.Guard
import Mathlib.Data.List.Sort
import Mathlib.Data.List.Nodup

/-!
# Multisig vaults

`service/src/goldcoin/{vault,multisig}.rs`. A vault is a set of keys with a
threshold. The partial signatures of an input are checked one by one, brought
into the order of their keys in the redeem script, and pushed before it. The
curve is a parameter.
-/

namespace Goldcoin
open Bytes Guard

/-! ## Vaults -/

abbrev Pubkey := Vector UInt8 33

def maxVaultSigners : ℕ := 8
def minThreshold : ℕ := 2
def opCheckMultisig : UInt8 := 0xae
def pubkeyPushLen : UInt8 := 0x21

inductive VaultError
  | emptySignerSet
  | tooManySigners
  | thresholdBelowMinimum
  | thresholdExceedsSignerCount (threshold count : ℕ)
  | invalidPubkey (index : ℕ)
  | duplicatePubkey
  deriving DecidableEq, Repr

def validateSignerSet (pubkeys : List Pubkey) (threshold : ℕ) : Except VaultError Unit := do
  require (pubkeys ≠ []) .emptySignerSet
  require (pubkeys.length ≤ maxVaultSigners) .tooManySigners
  require (minThreshold ≤ threshold) .thresholdBelowMinimum
  require (threshold ≤ pubkeys.length) (.thresholdExceedsSignerCount threshold pubkeys.length)
  match pubkeys.findIdx? fun pk => pk[0] ≠ 0x02 ∧ pk[0] ≠ 0x03 with
  | some i => .error (.invalidPubkey i)
  | none => require pubkeys.Nodup .duplicatePubkey

/-- A vault whose signer set was validated. -/
structure MultisigVault where
  signerPubkeys : List Pubkey
  threshold : ℕ
  valid : validateSignerSet signerPubkeys threshold = .ok ()

def opN (n : ℕ) : UInt8 := UInt8.ofNat (0x50 + n)

def buildRedeemScript (pubkeys : List Pubkey) (threshold : ℕ) : List UInt8 :=
  [opN threshold] ++ pubkeys.flatMap (fun pk => pubkeyPushLen :: pk.toList) ++
    [opN pubkeys.length, opCheckMultisig]

namespace MultisigVault

def redeemScript (v : MultisigVault) : List UInt8 := buildRedeemScript v.signerPubkeys v.threshold

def signerPosition (v : MultisigVault) (pubkey : Pubkey) : Option ℕ :=
  v.signerPubkeys.findIdx? (· = pubkey)

/-- `script_pubkey`, for the hash of the platform. -/
def scriptPubkey (hash160 : List UInt8 → Vector UInt8 20) (v : MultisigVault) : List UInt8 :=
  [0xa9, 0x14] ++ (hash160 v.redeemScript).toList ++ [0x87]

variable {v : MultisigVault}

/-- What a validated signer set is. -/
theorem bounds (v : MultisigVault) : v.signerPubkeys.length ≤ 8 ∧ 2 ≤ v.threshold ∧
    v.threshold ≤ v.signerPubkeys.length ∧ v.signerPubkeys.Nodup := by
  have h := v.valid
  simp only [validateSignerSet, bind_eq_ok, require_eq_ok, exists_unit] at h
  obtain ⟨-, hmax, hmin, hle, h⟩ := h
  split at h
  · cases h
  · exact ⟨hmax, hmin, hle, require_eq_ok.mp h⟩

theorem length_redeemScript : v.redeemScript.length = 3 + 34 * v.signerPubkeys.length := by
  have hkeys (pks : List Pubkey) :
      (pks.flatMap fun pk => pubkeyPushLen :: pk.toList).length = 34 * pks.length := by
    induction pks with
    | nil => rfl
    | cons pk pks ih =>
      rw [List.flatMap_cons, List.length_append, ih, List.length_cons, List.length_cons,
        Vector.length_toList]
      omega
  rw [redeemScript, buildRedeemScript, List.length_append, List.length_append, hkeys]
  simp only [List.length_cons, List.length_nil]
  omega

theorem signerPosition_isSome {pubkey : Pubkey} :
    (v.signerPosition pubkey).isSome ↔ pubkey ∈ v.signerPubkeys := by
  rw [signerPosition, List.findIdx?_isSome, List.any_eq_true]
  simp

/-- Members have positions of their own. -/
theorem signerPosition_inj {pk pk' : Pubkey} {i : ℕ} (h : v.signerPosition pk = some i)
    (h' : v.signerPosition pk' = some i) : pk = pk' := by
  obtain ⟨_, hpk, -⟩ := List.findIdx?_eq_some_iff_getElem.mp h
  obtain ⟨_, hpk', -⟩ := List.findIdx?_eq_some_iff_getElem.mp h'
  exact (of_decide_eq_true hpk).symm.trans (of_decide_eq_true hpk')

end MultisigVault

/-! ## Pushes -/

/-- `push_data`. Longer data panics in the source. What is pushed is a signature
or a redeem script. -/
def pushData (data : List UInt8) : List UInt8 :=
  if data.length < 0x4c then UInt8.ofNat data.length :: data
  else if data.length ≤ 0xff then 0x4c :: UInt8.ofNat data.length :: data
  else 0x4d :: (leBytes 2 data.length ++ data)

/-- The first push of a script, and what follows it. -/
def readPush : List UInt8 → Option (List UInt8 × List UInt8)
  | [] => none
  | op :: rest =>
    if op.toNat < 0x4c then
      if op.toNat ≤ rest.length then some (rest.take op.toNat, rest.drop op.toNat) else none
    else if op = 0x4c then
      match rest with
      | [] => none
      | n :: rest =>
        if n.toNat ≤ rest.length then some (rest.take n.toNat, rest.drop n.toNat) else none
    else if op = 0x4d then
      if 2 ≤ rest.length then
        let n := leValue (rest.take 2)
        let rest := rest.drop 2
        if n ≤ rest.length then some (rest.take n, rest.drop n) else none
      else none
    else none

def readPushes : ℕ → List UInt8 → Option (List (List UInt8))
  | _, [] => some []
  | 0, _ :: _ => none
  | n + 1, b :: bs => do
    let (data, rest) ← readPush (b :: bs)
    let pushes ← readPushes n rest
    some (data :: pushes)

/-- A script read push by push. Every push takes at least a byte. -/
def readScript (script : List UInt8) : Option (List (List UInt8)) := readPushes script.length script

theorem readPush_pushData {data rest : List UInt8} (h : data.length ≤ 0xffff) :
    readPush (pushData data ++ rest) = some (data, rest) := by
  unfold pushData
  split_ifs with hshort hmedium
  · have hop : (UInt8.ofNat data.length).toNat = data.length :=
      UInt8.toNat_ofNat_of_lt' (by rw [UInt8.size]; omega)
    rw [List.cons_append, readPush.eq_def]
    dsimp only
    rw [hop, if_pos hshort, if_pos (by rw [List.length_append]; omega), List.take_left,
      List.drop_left]
  · have hn : (UInt8.ofNat data.length).toNat = data.length :=
      UInt8.toNat_ofNat_of_lt' (by rw [UInt8.size]; omega)
    rw [List.cons_append, List.cons_append, readPush.eq_def]
    dsimp only
    rw [if_neg (by decide), if_pos rfl, hn, if_pos (by rw [List.length_append]; omega),
      List.take_left, List.drop_left]
  · have htake : ((leBytes 2 data.length ++ data) ++ rest).take 2 = leBytes 2 data.length := by
      rw [List.append_assoc, List.take_append_of_le_length (by simp), List.take_of_length_le (by simp)]
    have hdrop : ((leBytes 2 data.length ++ data) ++ rest).drop 2 = data ++ rest := by
      rw [List.append_assoc, List.drop_append_of_le_length (by simp), List.drop_of_length_le (by simp),
        List.nil_append]
    have hvalue : leValue (leBytes 2 data.length) = data.length := by
      rw [leValue_leBytes]
      exact Nat.mod_eq_of_lt (by omega)
    rw [List.cons_append, readPush.eq_def]
    dsimp only
    rw [if_neg (by decide), if_neg (by decide), if_pos rfl,
      if_pos (by rw [List.length_append, List.length_append, length_leBytes]; omega), htake, hdrop,
      hvalue, if_pos (by rw [List.length_append]; omega), List.take_left, List.drop_left]

theorem one_le_length_pushData (data : List UInt8) : 1 ≤ (pushData data).length := by
  unfold pushData
  split_ifs <;> simp

/-- A sequence of pushes is read back. -/
theorem readPushes_flatMap {pushes : List (List UInt8)} (h : ∀ data ∈ pushes, data.length ≤ 0xffff)
    {n : ℕ} (hn : pushes.length ≤ n) : readPushes n (pushes.flatMap pushData) = some pushes := by
  induction pushes generalizing n with
  | nil => cases n <;> rfl
  | cons data pushes ih =>
    rw [List.forall_mem_cons] at h
    cases n with
    | zero => cases hn
    | succ n =>
      have hread : readPush (pushData data ++ pushes.flatMap pushData) = _ := readPush_pushData h.1
      have hpos := one_le_length_pushData data
      cases hscript : pushData data ++ pushes.flatMap pushData with
      | nil =>
        have hlen := congrArg List.length hscript
        rw [List.length_append, List.length_nil] at hlen
        omega
      | cons b bs =>
        rw [hscript] at hread
        rw [List.flatMap_cons, hscript, readPushes, hread]
        simp only [Option.bind_eq_bind, Option.bind_some, ih h.2 (Nat.le_of_succ_le_succ hn)]

theorem readScript_flatMap {pushes : List (List UInt8)} (h : ∀ data ∈ pushes, data.length ≤ 0xffff) :
    readScript (pushes.flatMap pushData) = some pushes := by
  refine readPushes_flatMap h ?_
  induction pushes with
  | nil => exact Nat.zero_le _
  | cons data pushes ih =>
    have hrest := ih fun d hd => h d (List.mem_cons_of_mem _ hd)
    have hpos := one_le_length_pushData data
    rw [List.flatMap_cons, List.length_append, List.length_cons]
    omega

/-! ## Assembly -/

/-- The curve, as the service uses it. -/
structure Ecdsa where
  Signature : Type
  PublicKey : Type
  parseCompressed : Pubkey → Option PublicKey
  parseDer : List UInt8 → Option Signature
  verify : Bytes32 → Signature → PublicKey → Bool
  normalizeS : Signature → Signature
  serializeDer : Signature → List UInt8

inductive MultisigError
  | signerNotInVault
  | duplicateSigner
  | thresholdNotMet («have» threshold : ℕ)
  | tooManySignatures («have» threshold : ℕ)
  | invalidSignature
  deriving DecidableEq, Repr

def sighashAllByte : UInt8 := 0x01

structure PartialSignature where
  vaultPubkey : Pubkey
  derSignature : List UInt8

section Assemble

variable (E : Ecdsa)

def verifyPartial (pubkey : Pubkey) (sighash : Bytes32) (derSignature : List UInt8) : Bool :=
  match E.parseCompressed pubkey, E.parseDer derSignature with
  | some pk, some sig => E.verify sighash sig pk
  | _, _ => false

/-- The low-S form of a signature, serialized again. -/
def normalized (derSignature : List UInt8) : Option (List UInt8) :=
  (E.parseDer derSignature).map fun sig => E.serializeDer (E.normalizeS sig)

/-- The loop of `assemble`, with what it has placed and the positions it has
seen. A signature that verifies has been parsed. -/
def placeAll (vault : MultisigVault) (sighash : Bytes32) (placed : List (ℕ × List UInt8))
    (seenPositions : List ℕ) :
    List PartialSignature → Except MultisigError (List (ℕ × List UInt8))
  | [] => .ok placed
  | p :: rest => do
    let position ← orFail (vault.signerPosition p.vaultPubkey) .signerNotInVault
    require (position ∉ seenPositions) .duplicateSigner
    require (verifyPartial E p.vaultPubkey sighash p.derSignature = true) .invalidSignature
    let der ← orFail (normalized E p.derSignature) .invalidSignature
    placeAll vault sighash (placed ++ [(position, der)]) (position :: seenPositions) rest

def assemble (vault : MultisigVault) (sighash : Bytes32) (partials : List PartialSignature) :
    Except MultisigError (List UInt8) := do
  let placed ← placeAll E vault sighash [] [] partials
  require (vault.threshold ≤ placed.length) (.thresholdNotMet placed.length vault.threshold)
  require (placed.length ≤ vault.threshold) (.tooManySignatures placed.length vault.threshold)
  let sorted := placed.insertionSort fun a b => a.1 ≤ b.1
  return [0x00] ++ sorted.flatMap (fun p => pushData (p.2 ++ [sighashAllByte])) ++
    pushData vault.redeemScript

end Assemble

/-! ## What is placed -/

section Placed

variable {E : Ecdsa} {vault : MultisigVault} {sighash : Bytes32} {p p' : PartialSignature}
  {partials : List PartialSignature}

/-- A signature of a member that verifies. -/
def PartialSignature.Valid (E : Ecdsa) (vault : MultisigVault) (sighash : Bytes32)
    (p : PartialSignature) : Prop :=
  p.vaultPubkey ∈ vault.signerPubkeys ∧ verifyPartial E p.vaultPubkey sighash p.derSignature = true

/-- The position of a signature and its low-S form. -/
def slot (E : Ecdsa) (vault : MultisigVault) (p : PartialSignature) : ℕ × List UInt8 :=
  ((vault.signerPosition p.vaultPubkey).getD 0, (normalized E p.derSignature).getD [])

theorem PartialSignature.Valid.position (h : p.Valid E vault sighash) :
    vault.signerPosition p.vaultPubkey = some (slot E vault p).1 := by
  obtain ⟨i, hi⟩ := Option.isSome_iff_exists.mp (MultisigVault.signerPosition_isSome.mpr h.1)
  rw [slot, hi]
  rfl

theorem PartialSignature.Valid.normalized (h : p.Valid E vault sighash) :
    normalized E p.derSignature = some (slot E vault p).2 := by
  have hverify := h.2
  unfold verifyPartial at hverify
  split at hverify
  · rename_i sig _ hsig
    rw [slot, Goldcoin.normalized, hsig]
    rfl
  · cases hverify

theorem length_slot_le (hder : ∀ sig, (E.serializeDer sig).length ≤ 72)
    (h : p.Valid E vault sighash) : (slot E vault p).2.length ≤ 72 := by
  obtain ⟨sig, -, hsig⟩ := Option.map_eq_some_iff.mp h.normalized
  rw [← hsig]
  exact hder _

/-- Valid signatures of different members have different positions. -/
theorem slot_eq (h : p.Valid E vault sighash) (h' : p'.Valid E vault sighash)
    (heq : (slot E vault p).1 = (slot E vault p').1) : p.vaultPubkey = p'.vaultPubkey := by
  have hpos := h'.position
  rw [← heq] at hpos
  exact MultisigVault.signerPosition_inj h.position hpos

theorem nodup_slots (h : ∀ p ∈ partials, p.Valid E vault sighash) :
    (partials.map fun p => (slot E vault p).1).Nodup ↔
      (partials.map PartialSignature.vaultPubkey).Nodup := by
  induction partials with
  | nil => simp
  | cons p partials ih =>
    rw [List.forall_mem_cons] at h
    rw [List.map_cons, List.map_cons, List.nodup_cons, List.nodup_cons, ih h.2]
    refine and_congr_left fun _ => not_congr ?_
    simp only [List.mem_map]
    constructor
    · rintro ⟨q, hq, heq⟩
      exact ⟨q, hq, slot_eq (h.2 q hq) h.1 heq⟩
    · rintro ⟨q, hq, heq⟩
      exact ⟨q, hq, by rw [slot, slot, heq]⟩

/-- The loop places every signature, or stops at one that is not valid or is of
a member that was seen. -/
theorem placeAll_eq_ok {placed out : List (ℕ × List UInt8)} {seen : List ℕ} :
    placeAll E vault sighash placed seen partials = .ok out ↔
      (∀ p ∈ partials, p.Valid E vault sighash) ∧
      (partials.map fun p => (slot E vault p).1).Nodup ∧
      (∀ p ∈ partials, (slot E vault p).1 ∉ seen) ∧ placed ++ partials.map (slot E vault) = out := by
  induction partials generalizing placed seen with
  | nil => simp [placeAll]
  | cons p partials ih =>
    rw [List.forall_mem_cons, List.forall_mem_cons, List.map_cons, List.map_cons, List.nodup_cons]
    simp only [placeAll, bind_eq_ok, orFail_eq_ok, require_eq_ok, exists_unit, ih]
    simp only [List.mem_cons, not_or]
    constructor
    · rintro ⟨position, hposition, hnew, hverify, der, hder, hvalid, hnodup, hseen, rfl⟩
      have hp : p.Valid E vault sighash :=
        ⟨MultisigVault.signerPosition_isSome.mp (by rw [hposition]; rfl), hverify⟩
      obtain rfl := Option.some.inj (hposition.symm.trans hp.position)
      obtain rfl := Option.some.inj (hder.symm.trans hp.normalized)
      refine ⟨⟨hp, hvalid⟩, ⟨fun hmem => ?_, hnodup⟩, ⟨hnew, fun q hq => (hseen q hq).2⟩, by simp⟩
      obtain ⟨q, hq, heq⟩ := List.mem_map.mp hmem
      exact (hseen q hq).1 heq
    · rintro ⟨⟨hp, hvalid⟩, ⟨hout, hnodup⟩, ⟨hnew, hseen⟩, rfl⟩
      refine ⟨_, hp.position, hnew, hp.2, _, hp.normalized, hvalid, hnodup, fun q hq => ?_, by simp⟩
      exact ⟨fun heq => hout (List.mem_map.mpr ⟨q, hq, heq⟩), hseen q hq⟩

end Placed

/-! ## What is assembled -/

section Assembled

variable {E : Ecdsa} {vault : MultisigVault} {sighash : Bytes32} {p q : PartialSignature}
  {partials variants : List PartialSignature} {script : List UInt8}

/-- Signatures of as many members as the threshold asks for. -/
structure Quorum (E : Ecdsa) (vault : MultisigVault) (sighash : Bytes32)
    (partials : List PartialSignature) : Prop where
  count : partials.length = vault.threshold
  distinct : (partials.map PartialSignature.vaultPubkey).Nodup
  valid : ∀ p ∈ partials, p.Valid E vault sighash

/-- The signatures in the order of their keys in the redeem script. -/
def ordered (E : Ecdsa) (vault : MultisigVault) (partials : List PartialSignature) :
    List PartialSignature :=
  partials.insertionSort fun p q => (slot E vault p).1 ≤ (slot E vault q).1

/-- What the script of an input pushes. -/
def pushes (vault : MultisigVault) (placed : List (ℕ × List UInt8)) : List (List UInt8) :=
  [] :: placed.map (fun p => p.2 ++ [sighashAllByte]) ++ [vault.redeemScript]

theorem ordered_perm : (ordered E vault partials).Perm partials :=
  List.perm_insertionSort _ _

theorem assemble_eq_ok : assemble E vault sighash partials = .ok script ↔
    Quorum E vault sighash partials ∧
      (pushes vault ((ordered E vault partials).map (slot E vault))).flatMap pushData = script := by
  have hsort : (partials.map (slot E vault)).insertionSort (fun a b => a.1 ≤ b.1) =
      (ordered E vault partials).map (slot E vault) := by
    symm
    apply List.map_insertionSort
    exact fun _ _ _ _ => Iff.rfl
  have hscript : (pushes vault ((ordered E vault partials).map (slot E vault))).flatMap pushData =
      [0x00] ++ ((ordered E vault partials).map (slot E vault)).flatMap
        (fun p => pushData (p.2 ++ [sighashAllByte])) ++ pushData vault.redeemScript := by
    rw [pushes, List.flatMap_append, List.flatMap_cons, List.flatMap_map, List.flatMap_singleton]
    rfl
  rw [hscript, ← hsort]
  simp only [assemble, bind_eq_ok, require_eq_ok, exists_unit, placeAll_eq_ok, List.nil_append,
    pure_eq_ok]
  constructor
  · rintro ⟨placed, ⟨hvalid, hnodup, -, rfl⟩, hle, hge, rfl⟩
    rw [List.length_map] at hle hge
    exact ⟨⟨le_antisymm hge hle, (nodup_slots hvalid).mp hnodup, hvalid⟩, rfl⟩
  · rintro ⟨hquorum, rfl⟩
    have hlen : (partials.map (slot E vault)).length = vault.threshold := by
      rw [List.length_map, hquorum.count]
    exact ⟨_, ⟨hquorum.valid, (nodup_slots hquorum.valid).mpr hquorum.distinct,
      fun _ _ => List.not_mem_nil, rfl⟩, hlen.ge, hlen.le, rfl⟩

/-- The positions of a quorum ascend strictly. -/
theorem Quorum.ascending (h : Quorum E vault sighash partials) :
    ((ordered E vault partials).map (slot E vault)).Pairwise fun a b => a.1 < b.1 := by
  have hnodup : ((ordered E vault partials).map fun p => (slot E vault p).1).Nodup :=
    (ordered_perm.map _).nodup_iff.mpr ((nodup_slots h.valid).mpr h.distinct)
  have hle : (ordered E vault partials).Pairwise fun p q => (slot E vault p).1 ≤ (slot E vault q).1 :=
    List.pairwise_insertionSort _ _
  rw [List.pairwise_map]
  exact (hle.and (List.pairwise_map.mp hnodup)).imp fun hpq => lt_of_le_of_ne hpq.1 hpq.2

/-- Two quorums that fill the same slots are brought into the same order. -/
theorem Quorum.ordered_eq (h : Quorum E vault sighash partials)
    (h' : Quorum E vault sighash variants)
    (hperm : (partials.map (slot E vault)).Perm (variants.map (slot E vault))) :
    (ordered E vault partials).map (slot E vault) = (ordered E vault variants).map (slot E vault) := by
  apply List.Perm.eq_of_pairwise _ h.ascending h'.ascending
  · exact (ordered_perm.map _).trans (hperm.trans (ordered_perm.map _).symm)
  · intro a b _ _ hab hba
    exact absurd hab hba.asymm

/-! ### Variants -/

/-- Signatures of one key with one low-S form. -/
def PartialSignature.Variant (E : Ecdsa) (p q : PartialSignature) : Prop :=
  p.vaultPubkey = q.vaultPubkey ∧ ∃ sig sig', E.parseDer p.derSignature = some sig ∧
    E.parseDer q.derSignature = some sig' ∧ E.normalizeS sig = E.normalizeS sig'

theorem PartialSignature.Variant.slot (h : p.Variant E q) : slot E vault p = slot E vault q := by
  obtain ⟨hkey, sig, sig', hsig, hsig', hnormal⟩ := h
  simp only [Goldcoin.slot, normalized, hkey, hsig, hsig', Option.map_some, hnormal]

/-- A variant of a valid signature is valid, where the curve accepts a signature
as its low-S form. -/
theorem PartialSignature.Variant.valid (hverify : ∀ hash sig pk,
    E.verify hash (E.normalizeS sig) pk = E.verify hash sig pk) (h : p.Variant E q)
    (hp : p.Valid E vault sighash) : q.Valid E vault sighash := by
  obtain ⟨hkey, sig, sig', hsig, hsig', hnormal⟩ := h
  refine ⟨hkey ▸ hp.1, ?_⟩
  have hok := hp.2
  rw [verifyPartial, hsig] at hok
  rw [verifyPartial, hsig', ← hkey]
  cases hpk : E.parseCompressed p.vaultPubkey with
  | none =>
    rw [hpk] at hok
    cases hok
  | some pk =>
    rw [hpk] at hok
    have hsame : E.verify sighash sig' pk = E.verify sighash sig pk := by
      rw [← hverify, ← hnormal, hverify]
    exact hsame.trans hok

theorem Quorum.perm (h : Quorum E vault sighash partials) (hperm : variants.Perm partials) :
    Quorum E vault sighash variants where
  count := hperm.length_eq.trans h.count
  distinct := (hperm.map _).nodup_iff.mpr h.distinct
  valid p hp := h.valid p (hperm.mem_iff.mp hp)

/-- Variants have the keys and fill the slots of the signatures. -/
theorem map_variants {α : Type} {f : PartialSignature → α}
    (hf : ∀ p q : PartialSignature, p.Variant E q → f p = f q)
    (hvariants : List.Forall₂ (PartialSignature.Variant E) partials variants) :
    partials.map f = variants.map f := by
  induction hvariants with
  | nil => rfl
  | cons hv _ ih => rw [List.map_cons, List.map_cons, hf _ _ hv, ih]

theorem Quorum.of_variants (hverify : ∀ hash sig pk,
    E.verify hash (E.normalizeS sig) pk = E.verify hash sig pk)
    (hvariants : List.Forall₂ (PartialSignature.Variant E) partials variants)
    (h : Quorum E vault sighash partials) : Quorum E vault sighash variants where
  count := hvariants.length_eq.symm.trans h.count
  distinct := map_variants (fun _ _ hv => hv.1) hvariants ▸ h.distinct
  valid := by
    have hvalid := h.valid
    clear h
    induction hvariants with
    | nil => exact fun _ hq => absurd hq List.not_mem_nil
    | cons hv _ ih =>
      rw [List.forall_mem_cons] at hvalid ⊢
      exact ⟨hv.valid hverify hvalid.1, ih hvalid.2⟩

/-- The script of a quorum is read back as its pushes. -/
theorem readScript_pushes (hder : ∀ sig, (E.serializeDer sig).length ≤ 72)
    (h : Quorum E vault sighash partials) :
    readScript ((pushes vault ((ordered E vault partials).map (slot E vault))).flatMap pushData) =
      some (pushes vault ((ordered E vault partials).map (slot E vault))) := by
  apply readScript_flatMap
  intro data hdata
  rw [pushes, List.cons_append, List.mem_cons, List.mem_append, List.mem_map,
    List.mem_singleton] at hdata
  rcases hdata with rfl | ⟨placed, hplaced, rfl⟩ | rfl
  · exact Nat.zero_le _
  · obtain ⟨p, hp, rfl⟩ := List.mem_map.mp hplaced
    have hshort := length_slot_le hder (h.valid p (ordered_perm.mem_iff.mp hp))
    rw [List.length_append, List.length_singleton]
    omega
  · have hkeys := vault.bounds.1
    rw [MultisigVault.length_redeemScript]
    omega

/-- The assembly accepts exactly the quorums, for a curve whose serialized
signatures have at most 72 bytes and that accepts a signature as its low-S form.
The script of the input pushes the dummy, the low-S signatures in the order of
their keys and the redeem script. It is the same for every order and every
variant of the signatures. -/
theorem assemble_exact (E : Ecdsa) (hder : ∀ sig, (E.serializeDer sig).length ≤ 72)
    (hverify : ∀ hash sig pk, E.verify hash (E.normalizeS sig) pk = E.verify hash sig pk)
    (vault : MultisigVault) (sighash : Bytes32) (partials : List PartialSignature) :
    ((∃ script, assemble E vault sighash partials = .ok script) ↔
      partials.length = vault.threshold ∧
      (partials.map PartialSignature.vaultPubkey).Nodup ∧
      ∀ p ∈ partials, p.vaultPubkey ∈ vault.signerPubkeys ∧
        verifyPartial E p.vaultPubkey sighash p.derSignature = true) ∧
    ∀ script, assemble E vault sighash partials = .ok script →
      (∃ inOrder : List PartialSignature, ∃ signatures : List (List UInt8),
        inOrder.Perm partials ∧
        inOrder.Pairwise (fun p q => ∃ i j, vault.signerPosition p.vaultPubkey = some i ∧
          vault.signerPosition q.vaultPubkey = some j ∧ i < j) ∧
        inOrder.map (fun p => normalized E p.derSignature) = signatures.map some ∧
        readScript script =
          some ([] :: signatures.map (· ++ [sighashAllByte]) ++ [vault.redeemScript])) ∧
      ∀ permuted variants : List PartialSignature, permuted.Perm partials →
        List.Forall₂ (PartialSignature.Variant E) permuted variants →
        assemble E vault sighash variants = .ok script := by
  refine ⟨⟨?_, ?_⟩, ?_⟩
  · rintro ⟨script, h⟩
    have hquorum := (assemble_eq_ok.mp h).1
    exact ⟨hquorum.count, hquorum.distinct, hquorum.valid⟩
  · rintro ⟨hcount, hdistinct, hvalid⟩
    exact ⟨_, assemble_eq_ok.mpr ⟨⟨hcount, hdistinct, hvalid⟩, rfl⟩⟩
  · intro script h
    obtain ⟨hquorum, rfl⟩ := assemble_eq_ok.mp h
    have hmem {p} (hp : p ∈ ordered E vault partials) : p.Valid E vault sighash :=
      hquorum.valid p (ordered_perm.mem_iff.mp hp)
    constructor
    · refine ⟨ordered E vault partials, (ordered E vault partials).map fun p => (slot E vault p).2,
        ordered_perm, ?_, ?_, ?_⟩
      · have hascending := List.pairwise_map.mp hquorum.ascending
        exact hascending.imp_of_mem fun hp hq hlt =>
          ⟨_, _, (hmem hp).position, (hmem hq).position, hlt⟩
      · rw [List.map_map]
        exact List.map_congr_left fun p hp => (hmem hp).normalized
      · rw [readScript_pushes hder hquorum, pushes, List.map_map, List.map_map]
        rfl
    · intro permuted variants hperm hvariants
      have hvariant := (hquorum.perm hperm).of_variants hverify hvariants
      have hslots : (variants.map (slot E vault)).Perm (partials.map (slot E vault)) := by
        rw [← map_variants (fun p q hv => hv.slot) hvariants]
        exact hperm.map _
      exact assemble_eq_ok.mpr ⟨hvariant, by rw [hvariant.ordered_eq hquorum hslots]⟩

/-! ### Two signatures of the curve -/

def curveOrder : ℕ := 0xfffffffffffffffffffffffffffffffebaaedce6af48a03bbfd25e8cd0364141

/-- A coordinate in DER: big-endian, without leading zeros, and positive. -/
def derInteger (x : ℕ) : List UInt8 :=
  let digits := (beBytes 32 x).dropWhile (· = 0)
  let digits := if digits.headD 0x80 < 0x80 then digits else 0 :: digits
  0x02 :: UInt8.ofNat digits.length :: digits

def derSignature (r s : ℕ) : List UInt8 :=
  0x30 :: UInt8.ofNat (derInteger r ++ derInteger s).length :: (derInteger r ++ derInteger s)

theorem length_derSignature_le (r s : ℕ) : (derSignature r s).length ≤ 72 := by
  have hinteger (x : ℕ) : (derInteger x).length ≤ 35 := by
    have hdigits : ((beBytes 32 x).dropWhile (· = 0)).length ≤ 32 :=
      (List.dropWhile_sublist _).length_le.trans (length_beBytes _ _).le
    unfold derInteger
    dsimp only
    split_ifs <;> simp only [List.length_cons] <;> omega
  have hr := hinteger r
  have hs := hinteger s
  rw [derSignature, List.length_cons, List.length_cons, List.length_append]
  omega

def lowS (s : ℕ) : ℕ := if curveOrder / 2 < s then curveOrder - s else s

theorem lowS_lowS (s : ℕ) : lowS (lowS s) = lowS s := by
  unfold lowS curveOrder
  split_ifs <;> omega

/-- 32 bytes, big-endian. -/
def beWord (x : ℕ) : Bytes32 := ⟨(beBytes 32 x).toArray, by
  rw [List.size_toArray, length_beBytes]⟩

/-- The compressed key with an even second coordinate. -/
def evenPubkey (x : ℕ) : Pubkey := ⟨(0x02 :: beBytes 32 x).toArray, by
  rw [List.size_toArray, List.length_cons, length_beBytes]⟩

/-- The points 1, 2 and 3 of the curve. -/
def sampleVault : MultisigVault where
  signerPubkeys := [
    evenPubkey 0x79be667ef9dcbbac55a06295ce870b07029bfcdb2dce28d959f2815b16f81798,
    evenPubkey 0xc6047f9441ed7d6d3045406e95c07cd85c778e4b8cef3ca7abac09b95c709ee5,
    evenPubkey 0xf9308a019258c31049344f85f89d5229b531c845836f99b08601f113bce036f9]
  threshold := 2
  valid := by decide +kernel

def sampleHash : Bytes32 := Vector.replicate 32 0x11

/-- A signature of the hash with the first key, and one with the second. -/
def firstSignature : ℕ × ℕ :=
  (0x5cbdf0646e5db4eaa398f365f2ea7a0e3d419b7e0330e39ce92bddedcac4f9bc,
    0x344224c7a47d89ff62f3b77eb76d13dfb824ca7e89a61545f6022fa63d265402)

def secondSignature : ℕ × ℕ :=
  (0x2f8bde4d1a07209355b4a7250a5c5128e88b84bddc619ab7cba8d569b240efe4,
    0x166e8f88a76caa0b25b213123ac1f0ad606e6bb5c1f7414cee7a25941783c9c5)

/-- The curve, as far as some low-S signatures of a hash go. -/
def knownEcdsa (hash : Bytes32) (known : List (Pubkey × ℕ × ℕ)) : Ecdsa where
  Signature := ℕ × ℕ
  PublicKey := Pubkey
  parseCompressed pubkey := (known.map Prod.fst).find? (· = pubkey)
  parseDer der := (known.flatMap fun k => [k.2, (k.2.1, curveOrder - k.2.2)]).find?
    fun sig => derSignature sig.1 sig.2 = der
  verify h sig pubkey := h = hash ∧ (pubkey, sig.1, lowS sig.2) ∈ known
  normalizeS sig := (sig.1, lowS sig.2)
  serializeDer sig := derSignature sig.1 sig.2

instance (hash : Bytes32) (known : List (Pubkey × ℕ × ℕ)) :
    DecidableEq (knownEcdsa hash known).Signature := inferInstanceAs (DecidableEq (ℕ × ℕ))

def sampleEcdsa : Ecdsa :=
  knownEcdsa sampleHash (sampleVault.signerPubkeys.zip [firstSignature, secondSignature])

instance : DecidableEq sampleEcdsa.Signature := inferInstanceAs (DecidableEq (ℕ × ℕ))

def samplePartial (member : Fin 3) (sig : ℕ × ℕ) : PartialSignature :=
  ⟨sampleVault.signerPubkeys.get member, derSignature sig.1 sig.2⟩

theorem assemble_exact_sample :
    assemble sampleEcdsa sampleVault sampleHash
        [samplePartial 1 secondSignature, samplePartial 0 firstSignature] =
      assemble sampleEcdsa sampleVault sampleHash
        [samplePartial 0 (firstSignature.1, curveOrder - firstSignature.2),
          samplePartial 1 secondSignature] := by
  obtain ⟨haccepted, hscript⟩ := assemble_exact sampleEcdsa
    (fun sig => length_derSignature_le sig.1 sig.2)
    (fun hash sig pk => by simp only [sampleEcdsa, knownEcdsa, lowS_lowS])
    sampleVault sampleHash [samplePartial 1 secondSignature, samplePartial 0 firstSignature]
  obtain ⟨script, h⟩ := haccepted.mpr (by decide +kernel)
  have hvariant : PartialSignature.Variant sampleEcdsa (samplePartial 0 firstSignature)
      (samplePartial 0 (firstSignature.1, curveOrder - firstSignature.2)) :=
    ⟨rfl, firstSignature, (firstSignature.1, curveOrder - firstSignature.2), by decide +kernel,
      by decide +kernel, by decide +kernel⟩
  have hsame : PartialSignature.Variant sampleEcdsa (samplePartial 1 secondSignature)
      (samplePartial 1 secondSignature) :=
    ⟨rfl, secondSignature, secondSignature, by decide +kernel, by decide +kernel, rfl⟩
  rw [h]
  exact ((hscript script h).2 [samplePartial 0 firstSignature, samplePartial 1 secondSignature] _
    (List.Perm.swap _ _ _) (.cons hvariant (.cons hsame .nil))).symm

end Assembled

end Goldcoin
