-- SUMMARY: The on-chain parser of the ed25519 instruction that carries attestation signatures, and what it accepts: distinct current keys, each named by an entry over the expected message.
import ReserveBridge.Solana.Types

/-!
# Attestation proofs

`programs/glc-reserve-bridge/src/verification.rs`. An entry of the ed25519
instruction gives the offsets of a signature, a public key and a message. The
parser counts the entries and refuses any whose message is not the expected
one, whose key is not in the set, or whose key was seen before.

Offsets are 16-bit and at most 255 entries are read, so the checked additions
of the source never overflow and are additions of naturals here.
-/

namespace Solana
open Bytes Guard

def ed25519HeaderLen : ℕ := 2
def ed25519EntryLen : ℕ := 14
def signatureLen : ℕ := 64
def pubkeyLen : ℕ := 32
def selfReference : ℕ := 65535

def u16At (data : List UInt8) (offset : ℕ) : Except BridgeError ℕ := do
  let bytes ← orFail (slice data offset (offset + 2)) .malformedSignatureVerification
  return leValue bytes

/-- The fields of one entry of the offset table. -/
structure Entry where
  signatureOffset : ℕ
  signatureIxIndex : ℕ
  publicKeyOffset : ℕ
  publicKeyIxIndex : ℕ
  messageOffset : ℕ
  messageSize : ℕ
  messageIxIndex : ℕ

/-- The reads of entry `i`, in the order of the source. -/
def readEntry (data : List UInt8) (i : ℕ) : Except BridgeError Entry := do
  let entryBase := ed25519HeaderLen + i * ed25519EntryLen
  let signatureOffset ← u16At data entryBase
  let signatureIxIndex ← u16At data (entryBase + 2)
  let publicKeyOffset ← u16At data (entryBase + 4)
  let publicKeyIxIndex ← u16At data (entryBase + 6)
  let messageOffset ← u16At data (entryBase + 8)
  let messageSize ← u16At data (entryBase + 10)
  let messageIxIndex ← u16At data (entryBase + 12)
  return ⟨signatureOffset, signatureIxIndex, publicKeyOffset, publicKeyIxIndex, messageOffset,
    messageSize, messageIxIndex⟩

/-- `Pubkey::try_from`. -/
def Pubkey.tryFrom (bytes : List UInt8) : Option Pubkey :=
  if h : bytes.length = 32 then some ⟨bytes.toArray, by simpa using h⟩ else none

/-- `1u16.checked_shl(key_index)`. -/
def checkedShl (keyIndex : ℕ) : Option (BitVec 16) :=
  if keyIndex < 16 then some (BitVec.twoPow 16 keyIndex) else none

/-- One pass of the loop: the keys seen so far as a bitmask, and their count. -/
def checkEntry (data expectedMessage : List UInt8) (keys : List Pubkey)
    (acc : BitVec 16 × ℕ) (i : ℕ) : Except BridgeError (BitVec 16 × ℕ) := do
  let e ← readEntry data i
  require (e.signatureIxIndex = selfReference ∧ e.publicKeyIxIndex = selfReference ∧
    e.messageIxIndex = selfReference) .malformedSignatureVerification
  let _ ← orFail (slice data e.signatureOffset (e.signatureOffset + signatureLen))
    .malformedSignatureVerification
  let message ← orFail (slice data e.messageOffset (e.messageOffset + e.messageSize))
    .malformedSignatureVerification
  require (message = expectedMessage) .signatureMessageMismatch
  let pkBytes ← orFail (slice data e.publicKeyOffset (e.publicKeyOffset + pubkeyLen))
    .malformedSignatureVerification
  let signer ← orFail (Pubkey.tryFrom pkBytes) .malformedSignatureVerification
  let keyIndex ← orFail (keys.findIdx? (· = signer)) .unknownAttestationSigner
  let bit ← orFail (checkedShl keyIndex) .malformedSignatureVerification
  require (acc.1 &&& bit = 0#16) .duplicateAttestationSignature
  return (acc.1 ||| bit, acc.2 + 1)

def countUniqueAttestationSigners (data expectedMessage : List UInt8) (keys : List Pubkey) :
    Except BridgeError ℕ := do
  require (ed25519HeaderLen ≤ data.length) .malformedSignatureVerification
  let numSignatures := (data.getD 0 0).toNat
  require (1 ≤ numSignatures ∧ data.getD 1 0 = 0) .malformedSignatureVerification
  let (_, count) ← (List.range numSignatures).foldlM (checkEntry data expectedMessage keys) (0#16, 0)
  return count

/-! ## Entries -/

/-- Entry `i` of the data names this key, this signature and this message, all
inside the data itself. -/
def Designates (data : List UInt8) (i : ℕ) (key : Pubkey) (signature message : List UInt8) :
    Prop :=
  ∃ e, readEntry data i = .ok e ∧
    (e.signatureIxIndex = selfReference ∧ e.publicKeyIxIndex = selfReference ∧
      e.messageIxIndex = selfReference) ∧
    slice data e.signatureOffset (e.signatureOffset + signatureLen) = some signature ∧
    slice data e.publicKeyOffset (e.publicKeyOffset + pubkeyLen) = some key.toList ∧
    slice data e.messageOffset (e.messageOffset + e.messageSize) = some message

/-- An entry names one message. -/
theorem Designates.message_eq {data : List UInt8} {i : ℕ} {key key' : Pubkey}
    {signature signature' message message' : List UInt8}
    (h : Designates data i key signature message)
    (h' : Designates data i key' signature' message') : message = message' := by
  obtain ⟨e, he, -, -, -, hmessage⟩ := h
  obtain ⟨e', he', -, -, -, hmessage'⟩ := h'
  obtain rfl := Except.ok.inj (he.symm.trans he')
  exact Option.some.inj (hmessage.symm.trans hmessage')

theorem Pubkey.tryFrom_toList (key : Pubkey) : Pubkey.tryFrom key.toList = some key := by
  rw [Pubkey.tryFrom, dif_pos (by simp)]
  rfl

theorem Pubkey.toList_of_tryFrom {bytes : List UInt8} {key : Pubkey}
    (h : Pubkey.tryFrom bytes = some key) : key.toList = bytes := by
  unfold Pubkey.tryFrom at h
  split_ifs at h
  obtain rfl := Option.some.inj h
  rfl

theorem checkedShl_eq_some {j : ℕ} {bit : BitVec 16} :
    checkedShl j = some bit ↔ j < 16 ∧ bit = BitVec.twoPow 16 j := by
  by_cases hj : j < 16 <;> simp [checkedShl, hj, eq_comm]

/-- The duplicate test reads one bit of the mask. -/
theorem and_twoPow_eq_zero {x : BitVec 16} {j : ℕ} (hj : j < 16) :
    x &&& BitVec.twoPow 16 j = 0#16 ↔ x.getLsbD j = false := by
  rw [BitVec.and_twoPow]
  cases hx : x.getLsbD j with
  | false => simp
  | true =>
    have hne : BitVec.twoPow 16 j ≠ 0#16 := by
      intro h
      have hbit := congrArg (fun y => y.getLsbD j) h
      simp [hj] at hbit
    simpa using hne

/-- An accepted entry names a key of the set that was not seen before. -/
theorem checkEntry_ok {data message : List UInt8} {keys : List Pubkey} {acc acc' : BitVec 16 × ℕ}
    {i : ℕ} :
    checkEntry data message keys acc i = .ok acc' ↔
    ∃ key signature j, Designates data i key signature message ∧
      keys.findIdx? (· = key) = some j ∧ j < 16 ∧ acc.1.getLsbD j = false ∧
      acc' = (acc.1 ||| BitVec.twoPow 16 j, acc.2 + 1) := by
  simp only [checkEntry, bind_eq_ok, require_eq_ok, orFail_eq_ok, pure_eq_ok, exists_unit,
    checkedShl_eq_some]
  constructor
  · rintro ⟨e, he, hself, signature, hsig, _, hmsg, rfl, pkBytes, hpk, key, hkey, j, hj, _,
      ⟨hlt, rfl⟩, hseen, rfl⟩
    rw [← Pubkey.toList_of_tryFrom hkey] at hpk
    exact ⟨key, signature, j, ⟨e, he, hself, hsig, hpk, hmsg⟩, hj, hlt,
      (and_twoPow_eq_zero hlt).mp hseen, rfl⟩
  · rintro ⟨key, signature, j, ⟨e, he, hself, hsig, hpk, hmsg⟩, hj, hlt, hseen, rfl⟩
    exact ⟨e, he, hself, signature, hsig, message, hmsg, rfl, key.toList, hpk, key,
      Pubkey.tryFrom_toList key, j, hj, _, ⟨hlt, rfl⟩, (and_twoPow_eq_zero hlt).mpr hseen, rfl⟩

/-! ## The loop -/

/-- The mask has exactly the bits of the positions of `signers` in `keys`. -/
def SeenMask (keys signers : List Pubkey) (seen : BitVec 16) : Prop :=
  ∀ j < 16, seen.getLsbD j = true ↔ ∃ key ∈ signers, keys.findIdx? (· = key) = some j

/-- Different keys have different positions. -/
theorem findIdx?_inj {keys : List Pubkey} {key key' : Pubkey} {j : ℕ}
    (h : keys.findIdx? (· = key) = some j) (h' : keys.findIdx? (· = key') = some j) :
    key = key' := by
  obtain ⟨hlt, hkey, -⟩ := List.findIdx?_eq_some_iff_getElem.mp h
  obtain ⟨_, hkey', -⟩ := List.findIdx?_eq_some_iff_getElem.mp h'
  simp only [decide_eq_true_eq] at hkey hkey'
  exact hkey.symm.trans hkey'

theorem SeenMask.insert {keys signers : List Pubkey} {seen : BitVec 16} {key : Pubkey} {j : ℕ}
    (h : SeenMask keys signers seen) (hj : keys.findIdx? (· = key) = some j) (hlt : j < 16) :
    SeenMask keys (signers ++ [key]) (seen ||| BitVec.twoPow 16 j) := by
  intro i hi
  simp only [BitVec.getLsbD_or, BitVec.getLsbD_twoPow, Bool.or_eq_true, Bool.and_eq_true,
    decide_eq_true_eq, h i hi, List.mem_append, List.mem_singleton]
  constructor
  · rintro (⟨k, hk, hki⟩ | ⟨-, rfl⟩)
    · exact ⟨k, .inl hk, hki⟩
    · exact ⟨key, .inr rfl, hj⟩
  · rintro ⟨k, hk | rfl, hki⟩
    · exact .inl ⟨k, hk, hki⟩
    · exact .inr ⟨hlt, Option.some.inj (hj.symm.trans hki)⟩

/-- What the loop knows after `n` entries: the distinct keys it has counted, in
the order of their entries. -/
structure Counted (data message : List UInt8) (keys : List Pubkey) (n : ℕ)
    (signers : List Pubkey) : Prop where
  length : signers.length = n
  nodup : signers.Nodup
  mem : ∀ key ∈ signers, key ∈ keys
  designated : ∀ i (h : i < signers.length), ∃ signature,
    Designates data i signers[i] signature message

theorem mem_of_findIdx? {keys : List Pubkey} {key : Pubkey} {j : ℕ}
    (h : keys.findIdx? (· = key) = some j) : key ∈ keys := by
  obtain ⟨hlt, hkey, -⟩ := List.findIdx?_eq_some_iff_getElem.mp h
  simp only [decide_eq_true_eq] at hkey
  exact hkey ▸ List.getElem_mem hlt

theorem loop_ok {data message : List UInt8} {keys : List Pubkey} {n : ℕ}
    {acc : BitVec 16 × ℕ}
    (h : (List.range n).foldlM (checkEntry data message keys) (0#16, 0) = .ok acc) :
    acc.2 = n ∧ ∃ signers, Counted data message keys n signers ∧
      SeenMask keys signers acc.1 := by
  induction n generalizing acc with
  | zero =>
    simp only [List.range_zero, List.foldlM_nil, pure_eq_ok] at h
    obtain rfl := h
    exact ⟨rfl, [], ⟨rfl, List.nodup_nil, by simp, by simp⟩, fun j _ => by simp⟩
  | succ n ih =>
    rw [List.range_succ, List.foldlM_append, bind_eq_ok] at h
    obtain ⟨mid, hmid, hlast⟩ := h
    simp only [List.foldlM_cons, List.foldlM_nil, bind_eq_ok, pure_eq_ok] at hlast
    obtain ⟨_, hlast, rfl⟩ := hlast
    obtain ⟨hcount, signers, hcounted, hmask⟩ := ih hmid
    obtain ⟨key, signature, j, hdes, hj, hlt, hfree, rfl⟩ := checkEntry_ok.mp hlast
    -- the bit was free, so the key is new
    have hnew : key ∉ signers := by
      intro hmem
      have := (hmask j hlt).mpr ⟨key, hmem, hj⟩
      simp [this] at hfree
    refine ⟨by simp [hcount], signers ++ [key], ⟨by simp [hcounted.length], ?_, ?_, ?_⟩,
      hmask.insert hj hlt⟩
    · exact List.nodup_append.mpr ⟨hcounted.nodup, List.nodup_singleton _,
        fun a ha b hb hab => hnew (by rw [List.mem_singleton] at hb; exact hb ▸ hab ▸ ha)⟩
    · intro k hk
      rcases List.mem_append.mp hk with hk | hk
      · exact hcounted.mem k hk
      · exact List.mem_singleton.mp hk ▸ mem_of_findIdx? hj
    · intro i hi
      rw [List.getElem_append]
      split_ifs with hlt'
      · exact hcounted.designated i hlt'
      · have hi' : i = n := by
          have := hcounted.length
          simp only [List.length_append, List.length_singleton] at hi
          omega
        simpa [hi'] using ⟨signature, hdes⟩

/-- An accepted proof has as many distinct current keys as it counts, each
named by an entry over the expected message. -/
theorem countUniqueAttestationSigners_ok {data message : List UInt8} {keys : List Pubkey} {n : ℕ}
    (h : countUniqueAttestationSigners data message keys = .ok n) :
    (data.getD 0 0).toNat = n ∧ ∃ signers, Counted data message keys n signers := by
  simp only [countUniqueAttestationSigners, bind_eq_ok, require_eq_ok, exists_unit] at h
  obtain ⟨-, -, ⟨seen, count⟩, hloop, hn⟩ := h
  obtain ⟨hcount, signers, hcounted, -⟩ := loop_ok hloop
  simp only [pure_eq_ok] at hn
  simp only at hcount
  obtain rfl := hn
  exact ⟨hcount.symm, signers, hcount ▸ hcounted⟩

/-! ## Completeness -/

theorem loop_of_designates {data message : List UInt8} {keys signers : List Pubkey}
    (hlen : keys.length ≤ 16) (hnodup : signers.Nodup) (hmem : ∀ key ∈ signers, key ∈ keys)
    (hdes : ∀ i (h : i < signers.length), ∃ signature,
      Designates data i signers[i] signature message) {n : ℕ} (hn : n ≤ signers.length) :
    ∃ seen, (List.range n).foldlM (checkEntry data message keys) (0#16, 0) = .ok (seen, n) ∧
      SeenMask keys (signers.take n) seen := by
  induction n with
  | zero => exact ⟨0#16, rfl, fun j _ => by simp⟩
  | succ n ih =>
    obtain ⟨seen, hloop, hmask⟩ := ih (Nat.le_of_succ_le hn)
    have hlt : n < signers.length := hn
    obtain ⟨signature, hsig⟩ := hdes n hlt
    obtain ⟨j, hj⟩ : ∃ j, keys.findIdx? (· = signers[n]) = some j := by
      rw [← Option.isSome_iff_exists, List.findIdx?_isSome, List.any_eq_true]
      exact ⟨signers[n], hmem _ (List.getElem_mem hlt), by simp⟩
    have hj16 : j < 16 := by
      obtain ⟨hjlt, -, -⟩ := List.findIdx?_eq_some_iff_getElem.mp hj
      omega
    -- the keys counted before are different, so the bit is free
    have hfree : seen.getLsbD j = false := by
      rw [Bool.eq_false_iff, ne_eq, hmask j hj16]
      rintro ⟨key, hkey, hidx⟩
      obtain rfl := findIdx?_inj hidx hj
      exact (List.disjoint_take_drop hnodup le_rfl hkey)
        (by rw [List.drop_eq_getElem_cons hlt]; exact List.mem_cons_self)
    refine ⟨seen ||| BitVec.twoPow 16 j, ?_, ?_⟩
    · rw [List.range_succ, List.foldlM_append, bind_eq_ok]
      refine ⟨(seen, n), hloop, ?_⟩
      simp only [List.foldlM_cons, List.foldlM_nil, bind_eq_ok, pure_eq_ok, exists_eq_right]
      exact checkEntry_ok.mpr ⟨signers[n], signature, j, hsig, hj, hj16, hfree, rfl⟩
    · rw [List.take_succ_eq_append_getElem hlt]
      exact hmask.insert hj hj16

/-- Entries that designate distinct keys of the set over the expected message
are counted, all of them. -/
theorem countUniqueAttestationSigners_of_designates {data message : List UInt8}
    {keys signers : List Pubkey} (hkeys : keys.length ≤ 16) (hpos : 1 ≤ signers.length)
    (hlen : ed25519HeaderLen ≤ data.length)
    (hnum : (data.getD 0 0).toNat = signers.length) (hpad : data.getD 1 0 = 0)
    (hnodup : signers.Nodup) (hmem : ∀ key ∈ signers, key ∈ keys)
    (hdes : ∀ i (h : i < signers.length), ∃ signature,
      Designates data i signers[i] signature message) :
    countUniqueAttestationSigners data message keys = .ok signers.length := by
  obtain ⟨seen, hloop, -⟩ := loop_of_designates hkeys hnodup hmem hdes le_rfl
  simp only [countUniqueAttestationSigners, bind_eq_ok, require_eq_ok, exists_unit, hnum]
  exact ⟨hlen, ⟨hpos, hpad⟩, _, hloop, rfl⟩

end Solana
