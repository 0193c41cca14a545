-- SUMMARY: The layout of the proofs the on-chain parser accepts, byte by byte, what the parser can conclude from one, and that it cannot panic.
import ReserveBridge.Lib.Bounds
import ReserveBridge.Solana.Verification

/-!
# Layout of attestation proofs

The parser reads offsets that the sender chose. It accepts a proof exactly when
every range named by an entry lies inside the data, every message is the
expected one, and the keys are distinct members of the set. The parser with its
indices and its sums in their places panics on no data.
-/

namespace Solana
open Bytes Guard

/-- Field `k` of entry `i`: the `k`-th little-endian pair of bytes of its row. -/
def entryField (data : List UInt8) (i k : ℕ) : ℕ :=
  leValue ((data.drop (2 + i * 14 + 2 * k)).take 2)

/-- The bytes of a range. -/
def range (data : List UInt8) (offset size : ℕ) : List UInt8 := (data.drop offset).take size

/-- A proof over the message by `n` keys of the set, read off the data. -/
structure WellFormedProof (data message : List UInt8) (keys : List Pubkey) (n : ℕ) : Prop where
  header : data.head? = some (UInt8.ofNat n) ∧ data[1]? = some 0
  count : 1 ≤ n ∧ n < 256
  table : 2 + n * 14 ≤ data.length
  indices : ∀ i < n, entryField data i 1 = 65535 ∧ entryField data i 3 = 65535 ∧
    entryField data i 6 = 65535
  signatures : ∀ i < n, entryField data i 0 + 64 ≤ data.length
  pubkeys : ∀ i < n, entryField data i 2 + 32 ≤ data.length
  messages : ∀ i < n, entryField data i 4 + entryField data i 5 ≤ data.length ∧
    range data (entryField data i 4) (entryField data i 5) = message
  members : ∀ i < n, ∃ key ∈ keys, key.toList = range data (entryField data i 2) 32
  distinct : ∀ i < n, ∀ j < n,
    range data (entryField data i 2) 32 = range data (entryField data j 2) 32 → i = j

/-! ## Entries -/

theorem slice_eq_some {data bytes : List UInt8} {offset size : ℕ} :
    slice data offset (offset + size) = some bytes ↔
      offset + size ≤ data.length ∧ range data offset size = bytes := by
  unfold slice range
  by_cases h : offset + size ≤ data.length
  · simp [h]
  · simp [h]

theorem u16At_eq_ok {data : List UInt8} {offset x : ℕ} :
    u16At data offset = .ok x ↔
      offset + 2 ≤ data.length ∧ leValue ((data.drop offset).take 2) = x := by
  simp only [u16At, bind_eq_ok, orFail_eq_ok, slice_eq_some, pure_eq_ok]
  constructor
  · rintro ⟨bytes, ⟨hle, rfl⟩, rfl⟩
    exact ⟨hle, rfl⟩
  · rintro ⟨hle, rfl⟩
    exact ⟨_, ⟨hle, rfl⟩, rfl⟩

/-- The entry in row `i`. -/
def entryAt (data : List UInt8) (i : ℕ) : Entry where
  signatureOffset := entryField data i 0
  signatureIxIndex := entryField data i 1
  publicKeyOffset := entryField data i 2
  publicKeyIxIndex := entryField data i 3
  messageOffset := entryField data i 4
  messageSize := entryField data i 5
  messageIxIndex := entryField data i 6

theorem readEntry_eq_ok {data : List UInt8} {i : ℕ} {e : Entry} :
    readEntry data i = .ok e ↔ 2 + i * 14 + 14 ≤ data.length ∧ e = entryAt data i := by
  simp only [readEntry, bind_eq_ok, u16At_eq_ok, pure_eq_ok, ed25519HeaderLen, ed25519EntryLen]
  constructor
  · rintro ⟨_, ⟨-, rfl⟩, _, ⟨-, rfl⟩, _, ⟨-, rfl⟩, _, ⟨-, rfl⟩, _, ⟨-, rfl⟩, _, ⟨-, rfl⟩, _,
      ⟨hle, rfl⟩, rfl⟩
    exact ⟨by omega, rfl⟩
  · rintro ⟨hle, rfl⟩
    exact ⟨_, ⟨by omega, rfl⟩, _, ⟨by omega, rfl⟩, _, ⟨by omega, rfl⟩, _, ⟨by omega, rfl⟩, _,
      ⟨by omega, rfl⟩, _, ⟨by omega, rfl⟩, _, ⟨by omega, rfl⟩, rfl⟩

theorem designates_iff {data message signature : List UInt8} {i : ℕ} {key : Pubkey} :
    Designates data i key signature message ↔ 2 + i * 14 + 14 ≤ data.length ∧
      (entryField data i 1 = 65535 ∧ entryField data i 3 = 65535 ∧ entryField data i 6 = 65535) ∧
      (entryField data i 0 + 64 ≤ data.length ∧ range data (entryField data i 0) 64 = signature) ∧
      (entryField data i 2 + 32 ≤ data.length ∧
        range data (entryField data i 2) 32 = key.toList) ∧
      entryField data i 4 + entryField data i 5 ≤ data.length ∧
        range data (entryField data i 4) (entryField data i 5) = message := by
  simp only [Designates, readEntry_eq_ok, slice_eq_some, signatureLen, pubkeyLen, selfReference]
  constructor
  · rintro ⟨_, ⟨hle, rfl⟩, hself, hsig, hpk, hmsg⟩
    exact ⟨hle, hself, hsig, hpk, hmsg⟩
  · rintro ⟨hle, hself, hsig, hpk, hmsg⟩
    exact ⟨_, ⟨hle, rfl⟩, hself, hsig, hpk, hmsg⟩

/-! ## Acceptance -/

section Acceptance

variable {data message : List UInt8} {keys signers : List Pubkey} {n : ℕ}

/-- What the parser has counted when it accepts is a well-formed proof. -/
theorem Counted.wellFormed (h : Counted data message keys n signers) (hlen : 2 ≤ data.length)
    (hnum : (data.getD 0 0).toNat = n) (hpad : data.getD 1 0 = 0) (hpos : 1 ≤ n) :
    WellFormedProof data message keys n := by
  have hlt := (data.getD 0 0).toNat_lt
  have hentry : ∀ i (hi : i < n), ∃ signature,
      Designates data i (signers.get ⟨i, h.length ▸ hi⟩) signature message :=
    fun i hi => h.designated i (h.length ▸ hi)
  have hpk : ∀ i (hi : i < n),
      range data (entryField data i 2) 32 = (signers.get ⟨i, h.length ▸ hi⟩).toList := fun i hi => by
    obtain ⟨_, hdes⟩ := hentry i hi
    exact (designates_iff.mp hdes).2.2.2.1.2
  refine ⟨⟨?_, ?_⟩, ⟨hpos, by omega⟩, ?_, ?_, ?_, ?_, ?_, ?_, ?_⟩
  · obtain ⟨b, rest, rfl⟩ := List.exists_cons_of_length_pos (by omega : 0 < data.length)
    rw [← hnum]
    simp
  · rw [List.getD_eq_getElem?_getD, List.getElem?_eq_getElem (by omega)] at hpad
    rw [List.getElem?_eq_getElem (by omega)]
    exact congrArg some hpad
  · obtain ⟨_, hdes⟩ := hentry (n - 1) (by omega)
    have hrow := (designates_iff.mp hdes).1
    omega
  · intro i hi
    obtain ⟨_, hdes⟩ := hentry i hi
    exact (designates_iff.mp hdes).2.1
  · intro i hi
    obtain ⟨_, hdes⟩ := hentry i hi
    exact (designates_iff.mp hdes).2.2.1.1
  · intro i hi
    obtain ⟨_, hdes⟩ := hentry i hi
    exact (designates_iff.mp hdes).2.2.2.1.1
  · intro i hi
    obtain ⟨_, hdes⟩ := hentry i hi
    exact (designates_iff.mp hdes).2.2.2.2
  · exact fun i hi => ⟨_, h.mem _ (List.getElem_mem _), (hpk i hi).symm⟩
  · intro i hi j hj heq
    rw [hpk i hi, hpk j hj, Vector.toList_inj] at heq
    exact (h.nodup.getElem_inj_iff).mp heq

/-- The keys of a well-formed proof, in the order of its entries. -/
theorem WellFormedProof.exists_counted (h : WellFormedProof data message keys n) :
    ∃ signers, Counted data message keys n signers := by
  choose! key hmem hkey using h.members
  have hget : ∀ i (hi : i < ((List.range n).map key).length),
      ((List.range n).map key)[i] = key i := fun i hi => by simp
  refine ⟨(List.range n).map key, by simp, ?_, ?_, fun i hi => ?_⟩
  · refine List.Nodup.map_on (fun i hi j hj heq => ?_) List.nodup_range
    rw [List.mem_range] at hi hj
    refine h.distinct i hi j hj ?_
    rw [← hkey i hi, ← hkey j hj, heq]
  · intro k hk
    obtain ⟨i, hi, rfl⟩ := List.mem_map.mp hk
    exact hmem i (List.mem_range.mp hi)
  · have hin : i < n := by simpa using hi
    have htable := h.table
    rw [hget i hi]
    exact ⟨_, designates_iff.mpr ⟨by omega, h.indices i hin, ⟨h.signatures i hin, rfl⟩,
      ⟨h.pubkeys i hin, (hkey i hin).symm⟩, h.messages i hin⟩⟩

end Acceptance

/-! ## Reads within bounds -/

section WithinBounds

open Bounds Checked

/-- `u16_at`, with its sum and its two indices. -/
def readU16At (data : List UInt8) (offset : ℕ) : Checked BridgeError ℕ := do
  let hi ← read (addUsize offset 2)
  let bytes ← found (slice data offset hi) .malformedSignatureVerification
  let low ← read bytes[0]?
  let high ← read bytes[1]?
  return leValue [low, high]

/-- The reads of entry `i`. The position of the row is checked, those of the fields
in it are not. -/
def readEntryWithinBounds (data : List UInt8) (i : ℕ) : Checked BridgeError Entry := do
  let row ← found (mulUsize i ed25519EntryLen) .malformedSignatureVerification
  let entryBase ← found (addUsize ed25519HeaderLen row) .malformedSignatureVerification
  let signatureOffset ← readU16At data entryBase
  let position ← read (addUsize entryBase 2)
  let signatureIxIndex ← readU16At data position
  let position ← read (addUsize entryBase 4)
  let publicKeyOffset ← readU16At data position
  let position ← read (addUsize entryBase 6)
  let publicKeyIxIndex ← readU16At data position
  let position ← read (addUsize entryBase 8)
  let messageOffset ← readU16At data position
  let position ← read (addUsize entryBase 10)
  let messageSize ← readU16At data position
  let position ← read (addUsize entryBase 12)
  let messageIxIndex ← readU16At data position
  return ⟨signatureOffset, signatureIxIndex, publicKeyOffset, publicKeyIxIndex, messageOffset,
    messageSize, messageIxIndex⟩

def checkEntryWithinBounds (data expectedMessage : List UInt8) (keys : List Pubkey)
    (acc : BitVec 16 × ℕ) (i : ℕ) : Checked BridgeError (BitVec 16 × ℕ) := do
  let e ← readEntryWithinBounds data i
  check (e.signatureIxIndex = selfReference ∧ e.publicKeyIxIndex = selfReference ∧
    e.messageIxIndex = selfReference) .malformedSignatureVerification
  let sigEnd ← found (addUsize e.signatureOffset signatureLen) .malformedSignatureVerification
  let _ ← found (slice data e.signatureOffset sigEnd) .malformedSignatureVerification
  let msgEnd ← found (addUsize e.messageOffset e.messageSize) .malformedSignatureVerification
  let message ← found (slice data e.messageOffset msgEnd) .malformedSignatureVerification
  check (message = expectedMessage) .signatureMessageMismatch
  let pkEnd ← found (addUsize e.publicKeyOffset pubkeyLen) .malformedSignatureVerification
  let pkBytes ← found (slice data e.publicKeyOffset pkEnd) .malformedSignatureVerification
  let signer ← found (Pubkey.tryFrom pkBytes) .malformedSignatureVerification
  let keyIndex ← found (keys.findIdx? (· = signer)) .unknownAttestationSigner
  let bit ← found (checkedShl keyIndex) .malformedSignatureVerification
  check (acc.1 &&& bit = 0#16) .duplicateAttestationSignature
  let count ← found (addUsize acc.2 1) .malformedSignatureVerification
  return (acc.1 ||| bit, count)

/-- `count_unique_attestation_signers`, with every index, slice and sum in the
place where it is taken. -/
def countWithinBounds (data expectedMessage : List UInt8) (keys : List Pubkey) :
    Checked BridgeError ℕ := do
  check (ed25519HeaderLen ≤ data.length) .malformedSignatureVerification
  let first ← read data[0]?
  let numSignatures := first.toNat
  check (1 ≤ numSignatures) .malformedSignatureVerification
  let second ← read data[1]?
  check (second = 0) .malformedSignatureVerification
  let (_, count) ← (List.range numSignatures).foldlM
    (checkEntryWithinBounds data expectedMessage keys) (0#16, 0)
  return count

variable {data message : List UInt8} {keys : List Pubkey}

/-- A slice of two bytes has both of them. -/
theorem readU16At_run {offset : ℕ} (h : offset + 2 < 2 ^ 64) :
    (readU16At data offset).run = some (u16At data offset) := by
  unfold readU16At u16At
  refine read_bind (addUsize_eq h) ?_
  refine found_bind fun bytes hbytes => ?_
  have hlength : bytes.length = 2 := by
    obtain ⟨hle, rfl⟩ := slice_eq_some.mp hbytes
    rw [range, List.length_take, List.length_drop]
    omega
  obtain ⟨low, high, rfl⟩ := List.length_eq_two.mp hlength
  rfl

theorem readEntryWithinBounds_run {i : ℕ} (h : i < 256) :
    (readEntryWithinBounds data i).run = some (readEntry data i) := by
  have hbase : ed25519HeaderLen + i * ed25519EntryLen < 2 ^ 63 := by
    unfold ed25519HeaderLen ed25519EntryLen
    omega
  unfold readEntryWithinBounds readEntry
  refine found_some_bind (mulUsize_eq (by omega)) ?_
  refine found_some_bind (addUsize_eq (by omega)) ?_
  generalize ed25519HeaderLen + i * ed25519EntryLen = entryBase at hbase ⊢
  refine bind_run (readU16At_run (by omega)) fun _ _ => ?_
  refine read_bind (addUsize_eq (by omega)) ?_
  refine bind_run (readU16At_run (by omega)) fun _ _ => ?_
  refine read_bind (addUsize_eq (by omega)) ?_
  refine bind_run (readU16At_run (by omega)) fun _ _ => ?_
  refine read_bind (addUsize_eq (by omega)) ?_
  refine bind_run (readU16At_run (by omega)) fun _ _ => ?_
  refine read_bind (addUsize_eq (by omega)) ?_
  refine bind_run (readU16At_run (by omega)) fun _ _ => ?_
  refine read_bind (addUsize_eq (by omega)) ?_
  refine bind_run (readU16At_run (by omega)) fun _ _ => ?_
  refine read_bind (addUsize_eq (by omega)) ?_
  exact bind_run (readU16At_run (by omega)) fun _ _ => rfl

/-- The fields of an entry are 16-bit. -/
theorem entryField_lt {i k : ℕ} : entryField data i k < 2 ^ 16 := by
  have hlt := leValue_lt ((data.drop (2 + i * 14 + 2 * k)).take 2)
  have hpow := Nat.pow_le_pow_right (n := 256) (by decide)
    (List.length_take_le 2 (data.drop (2 + i * 14 + 2 * k)))
  exact lt_of_lt_of_le hlt hpow

theorem checkEntryWithinBounds_run {acc : BitVec 16 × ℕ} {i : ℕ} (hi : i < 256)
    (hcount : acc.2 + 1 < 2 ^ 64) :
    (checkEntryWithinBounds data message keys acc i).run =
      some (checkEntry data message keys acc i) := by
  unfold checkEntryWithinBounds checkEntry
  refine bind_run (readEntryWithinBounds_run hi) fun e he => ?_
  obtain ⟨-, rfl⟩ := readEntry_eq_ok.mp he
  have hsignature : entryField data i 0 < 2 ^ 16 := entryField_lt
  have hpubkey : entryField data i 2 < 2 ^ 16 := entryField_lt
  have hoffset : entryField data i 4 < 2 ^ 16 := entryField_lt
  have hsize : entryField data i 5 < 2 ^ 16 := entryField_lt
  dsimp only [entryAt]
  refine check_bind fun _ => ?_
  refine found_some_bind (addUsize_eq (by unfold signatureLen; omega)) ?_
  refine found_bind fun _ _ => ?_
  refine found_some_bind (addUsize_eq (by omega)) ?_
  refine found_bind fun _ _ => ?_
  refine check_bind fun _ => ?_
  refine found_some_bind (addUsize_eq (by unfold pubkeyLen; omega)) ?_
  refine found_bind fun _ _ => ?_
  refine found_bind fun _ _ => ?_
  refine found_bind fun _ _ => ?_
  refine found_bind fun _ _ => ?_
  refine check_bind fun _ => ?_
  refine found_some_bind (addUsize_eq hcount) ?_
  rfl

/-- The count of the loop is the number of its passes. -/
theorem loop_run {n : ℕ} (hn : n < 256) :
    ((List.range n).foldlM (checkEntryWithinBounds data message keys) (0#16, 0)).run =
      some ((List.range n).foldlM (checkEntry data message keys) (0#16, 0)) := by
  induction n with
  | zero => rfl
  | succ n ih =>
    rw [List.range_succ, List.foldlM_append, List.foldlM_append]
    refine bind_run (ih (by omega)) fun acc hacc => ?_
    have hcount : acc.2 = n := (loop_ok hacc).1
    rw [List.foldlM_cons, List.foldlM_cons]
    exact bind_run (checkEntryWithinBounds_run (by omega) (by omega)) fun _ _ => rfl

/-- The parser does not panic, whatever the data. -/
theorem countWithinBounds_run (data message : List UInt8) (keys : List Pubkey) :
    (countWithinBounds data message keys).run =
      some (countUniqueAttestationSigners data message keys) := by
  unfold countWithinBounds countUniqueAttestationSigners
  refine check_bind fun hlen => ?_
  rw [ed25519HeaderLen] at hlen
  have hread {i : ℕ} (hi : i < data.length) : data[i]? = some (data.getD i 0) := by
    rw [List.getD_eq_getElem?_getD, List.getElem?_eq_getElem hi, Option.getD_some]
  refine read_bind (hread (by omega)) ?_
  dsimp only
  have hboth : require (1 ≤ (data.getD 0 0).toNat ∧ data.getD 1 0 = 0)
      BridgeError.malformedSignatureVerification =
        (require (1 ≤ (data.getD 0 0).toNat) .malformedSignatureVerification >>= fun _ =>
          require (data.getD 1 0 = 0) .malformedSignatureVerification) := require_and
  rw [hboth, bind_assoc]
  refine check_bind fun _ => ?_
  refine read_bind (hread (by omega)) ?_
  refine check_bind fun _ => ?_
  exact bind_run (loop_run (data.getD 0 0).toNat_lt) fun _ _ => rfl

end WithinBounds

/-- Every proof the parser accepts is well formed, and every well-formed proof
is accepted with the count of its entries. Where the precompile has verified
every entry it was handed, `n` distinct keys of the set have signed the
message. With its indices, slices and sums in their places the parser panics on
no data, and returns the same. -/
theorem counted_iff_wellFormed (data message : List UInt8) (keys : List Pubkey)
    (hkeys : keys.length ≤ 16) :
    (∀ n, countUniqueAttestationSigners data message keys = .ok n ↔
      WellFormedProof data message keys n) ∧
    (∀ n, countUniqueAttestationSigners data message keys = .ok n → n ≤ keys.length ∧
      ∀ verified : Pubkey → List UInt8 → List UInt8 → Prop,
        (∀ i < n, ∀ key signature m, Designates data i key signature m →
          verified key signature m) →
        ∃ signers : List Pubkey, signers.length = n ∧ signers.Nodup ∧ signers ⊆ keys ∧
          ∀ key ∈ signers, ∃ signature, verified key signature message) ∧
    (countWithinBounds data message keys).run =
      some (countUniqueAttestationSigners data message keys) := by
  refine ⟨fun n => ⟨fun h => ?_, fun h => ?_⟩, fun n h => ?_,
    countWithinBounds_run data message keys⟩
  · obtain ⟨hnum, signers, hcounted⟩ := countUniqueAttestationSigners_ok h
    simp only [countUniqueAttestationSigners, bind_eq_ok, require_eq_ok, exists_unit] at h
    obtain ⟨hlen, ⟨hpos, hpad⟩, -⟩ := h
    exact hcounted.wellFormed hlen hnum hpad (hnum ▸ hpos)
  · obtain ⟨signers, hcounted⟩ := h.exists_counted
    have htable := h.table
    have hnum : (data.getD 0 0).toNat = n := by
      obtain ⟨b, rest, rfl⟩ := List.exists_cons_of_length_pos (by omega : 0 < data.length)
      obtain rfl := Option.some.inj h.header.1
      exact UInt8.toNat_ofNat_of_lt h.count.2
    have hpad : data.getD 1 0 = 0 := by
      rw [List.getD, h.header.2]
      rfl
    rw [← hcounted.length]
    exact countUniqueAttestationSigners_of_designates hkeys (hcounted.length ▸ h.count.1)
      (by rw [ed25519HeaderLen]; omega) (hnum.trans hcounted.length.symm) hpad hcounted.nodup
      hcounted.mem hcounted.designated
  · obtain ⟨-, signers, hcounted⟩ := countUniqueAttestationSigners_ok h
    have hsub : signers ⊆ keys := fun key hkey => hcounted.mem key hkey
    refine ⟨hcounted.length ▸ (List.subperm_of_subset hcounted.nodup hsub).length_le, fun verified hverified => ?_⟩
    refine ⟨signers, hcounted.length, hcounted.nodup, hsub, fun key hkey => ?_⟩
    obtain ⟨i, hi, rfl⟩ := List.getElem_of_mem hkey
    obtain ⟨signature, hdes⟩ := hcounted.designated i hi
    exact ⟨signature, hverified i (hcounted.length ▸ hi) _ _ _ hdes⟩

/-- A proof of one entry whose key and signature overlap. -/
theorem counted_iff_wellFormed_sample :
    WellFormedProof ([1, 0, 16, 0, 255, 255, 16, 0, 255, 255, 80, 0, 1, 0, 255, 255] ++
      List.replicate 64 5 ++ [9]) [9] [Vector.replicate 32 5] 1 := by
  refine ((counted_iff_wellFormed _ _ _ (by simp)).1 1).mp ?_
  decide +kernel

end Solana
