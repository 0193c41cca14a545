-- SUMMARY: Goldcoin transactions: their serialization, the preimage that is signed, and the injectivity of both.
import ReserveBridge.Lib.Bytes
import ReserveBridge.Lib.Delimited

/-!
# Transactions

`service/src/goldcoin/tx.rs`. A transaction is serialized field by field, with
compact sizes before its lists. The preimage of a signature is the serialization
with the redeem script in the input that is signed and no script in the others.
-/

namespace Goldcoin
open Bytes

/-! ## Serialization -/

structure TxIn where
  prevTxid : Bytes32
  prevVout : UInt32
  scriptSig : List UInt8
  sequence : UInt32
  deriving DecidableEq

def TxIn.unsigned (prevTxid : Bytes32) (prevVout : UInt32) : TxIn where
  prevTxid := prevTxid
  prevVout := prevVout
  scriptSig := []
  sequence := 0xffffffff

structure TxOut where
  valueAtomic : UInt64
  scriptPubkey : List UInt8
  deriving DecidableEq

structure Transaction where
  version : Int32
  inputs : List TxIn
  outputs : List TxOut
  locktime : UInt32
  deriving DecidableEq

/-- `write_varint`. -/
def writeVarint (n : ℕ) : List UInt8 :=
  if n < 0xfd then [UInt8.ofNat n]
  else if n ≤ 0xffff then 0xfd :: leBytes 2 n
  else if n ≤ 0xffffffff then 0xfe :: leBytes 4 n
  else 0xff :: leBytes 8 n

/-- A script after its length. -/
def writeScript (script : List UInt8) : List UInt8 := writeVarint script.length ++ script

/-- The txid is kept in display order and written in internal order. -/
def TxIn.serialize (i : TxIn) : List UInt8 :=
  i.prevTxid.toList.reverse ++ (u32Bytes i.prevVout ++ (writeScript i.scriptSig ++
    u32Bytes i.sequence))

def TxOut.serialize (o : TxOut) : List UInt8 := u64Bytes o.valueAtomic ++ writeScript o.scriptPubkey

namespace Transaction

def serialize (tx : Transaction) : List UInt8 :=
  u32Bytes tx.version.toUInt32 ++ ((writeVarint tx.inputs.length ++ tx.inputs.flatMap TxIn.serialize) ++
    ((writeVarint tx.outputs.length ++ tx.outputs.flatMap TxOut.serialize) ++ u32Bytes tx.locktime))

/-- The transaction with the redeem script in one input and no script in the
others. -/
def stripped (tx : Transaction) (inputIndex : ℕ) (redeemScript : List UInt8) : Transaction :=
  { tx with inputs := tx.inputs.mapIdx fun i input =>
      { input with scriptSig := if i = inputIndex then redeemScript else [] } }

/-- The bytes that `sighash_all` hashes. -/
def sighashPreimage (tx : Transaction) (inputIndex : ℕ) (redeemScript : List UInt8) : List UInt8 :=
  (tx.stripped inputIndex redeemScript).serialize ++ u32Bytes 1

/-- `sighash_all`, for the hash of the platform. -/
def sighashAll (sha256 : List UInt8 → Bytes32) (tx : Transaction) (inputIndex : ℕ)
    (redeemScript : List UInt8) : Bytes32 :=
  sha256 (sha256 (tx.sighashPreimage inputIndex redeemScript)).toList

end Transaction

/-! ## Sizes -/

/-- What a compact size can hold. -/
def Sized (n : ℕ) : Prop := n < 2 ^ 64

instance (n : ℕ) : Decidable (Sized n) := inferInstanceAs (Decidable (n < _))

def TxIn.Sized (i : TxIn) : Prop := Goldcoin.Sized i.scriptSig.length

def TxOut.Sized (o : TxOut) : Prop := Goldcoin.Sized o.scriptPubkey.length

/-- All lengths of the transaction fit in a compact size. -/
structure Transaction.Sized (tx : Transaction) : Prop where
  inputCount : Goldcoin.Sized tx.inputs.length
  inputs : ∀ i ∈ tx.inputs, i.Sized
  outputCount : Goldcoin.Sized tx.outputs.length
  outputs : ∀ o ∈ tx.outputs, o.Sized

/-! ## Unique decoding -/

/-- The first byte of a compact size tells its width. -/
theorem writeVarint_delimited : Delimited.On Sized writeVarint := by
  intro n m r r' hn hm heq
  have hbyte {k : ℕ} (hk : k < 0xfd) : (UInt8.ofNat k).toNat = k :=
    UInt8.toNat_ofNat_of_lt' (by rw [UInt8.size]; omega)
  have hne {k : ℕ} {marker : UInt8} (hk : k < 0xfd) (hmarker : 0xfd ≤ marker.toNat) :
      UInt8.ofNat k ≠ marker := by
    intro h
    have hk' := hbyte hk
    rw [h] at hk'
    omega
  have hwide {w : ℕ} (hn : n < 256 ^ w) (hm : m < 256 ^ w)
      (h : leBytes w n ++ r = leBytes w m ++ r') : n = m ∧ r = r' := by
    have hsplit := List.append_inj h (by simp)
    exact ⟨leBytes_inj hn hm hsplit.1, hsplit.2⟩
  unfold Sized at hn hm
  simp only [writeVarint] at heq
  split_ifs at heq <;>
    simp only [List.cons_append, List.nil_append, List.cons.injEq] at heq <;>
    obtain ⟨hhead, htail⟩ := heq
  · refine ⟨?_, htail⟩
    have hnat := congrArg UInt8.toNat hhead
    rwa [hbyte ‹_›, hbyte ‹_›] at hnat
  all_goals first
    | exact absurd hhead (hne ‹_› (by decide))
    | exact absurd hhead.symm (hne ‹_› (by decide))
    | exact absurd hhead (by decide)
    | exact hwide (by omega) (by omega) htail

theorem flatMap_singleton (s : List UInt8) : s.flatMap (fun b => [b]) = s := by
  induction s with
  | nil => rfl
  | cons b s ih => rw [List.flatMap_cons, ih]; rfl

theorem writeScript_delimited :
    Delimited.On (fun s : List UInt8 => Sized s.length) writeScript := by
  have h := writeVarint_delimited.counted (Delimited.singleton (γ := UInt8))
  simp only [flatMap_singleton] at h
  exact h.mono fun s hs => ⟨hs, fun _ _ => trivial⟩

theorem u32Bytes_delimited : Delimited.On (fun _ => True) u32Bytes :=
  Delimited.of_length (fun x _ => length_u32Bytes x) fun _ _ _ _ h => u32Bytes_inj.mp h

theorem u64Bytes_delimited : Delimited.On (fun _ => True) u64Bytes :=
  Delimited.of_length (fun x _ => length_u64Bytes x) fun _ _ _ _ h => u64Bytes_inj.mp h

theorem txid_delimited : Delimited.On (fun _ => True) fun txid : Bytes32 => txid.toList.reverse :=
  Delimited.of_length (fun txid _ => by rw [List.length_reverse, Vector.length_toList])
    fun _ _ _ _ h => Vector.toList_inj.mp (List.reverse_injective h)

namespace TxIn

theorem serialize_delimited : Delimited.On TxIn.Sized TxIn.serialize := by
  have h := (txid_delimited.append (u32Bytes_delimited.append
    (writeScript_delimited.append u32Bytes_delimited))).comp
    (f := fun i : TxIn => (i.prevTxid, i.prevVout, i.scriptSig, i.sequence))
    fun ⟨_, _, _, _⟩ ⟨_, _, _, _⟩ h => by simpa using h
  exact h.mono fun i hi => ⟨trivial, trivial, hi, trivial⟩

end TxIn

namespace TxOut

theorem serialize_delimited : Delimited.On TxOut.Sized TxOut.serialize := by
  have h := (u64Bytes_delimited.append writeScript_delimited).comp
    (f := fun o : TxOut => (o.valueAtomic, o.scriptPubkey))
    fun ⟨_, _⟩ ⟨_, _⟩ h => by simpa using h
  exact h.mono fun o ho => ⟨trivial, ho⟩

end TxOut

namespace Transaction

variable {tx tx' : Transaction} {inputIndex inputIndex' : ℕ} {redeemScript redeemScript' : List UInt8}

theorem serialize_delimited : Delimited.On Transaction.Sized serialize := by
  have h := (u32Bytes_delimited.append ((writeVarint_delimited.counted TxIn.serialize_delimited).append
    ((writeVarint_delimited.counted TxOut.serialize_delimited).append u32Bytes_delimited))).comp
    (f := fun tx : Transaction => (tx.version.toUInt32, tx.inputs, tx.outputs, tx.locktime))
    fun ⟨v, _, _, _⟩ ⟨v', _, _, _⟩ h => by
      simp only [Prod.mk.injEq] at h
      obtain ⟨hv, rfl, rfl, rfl⟩ := h
      cases v
      cases v'
      cases hv
      rfl
  exact h.mono fun tx ht => ⟨trivial, ⟨ht.inputCount, ht.inputs⟩, ⟨ht.outputCount, ht.outputs⟩, trivial⟩

/-! ## The preimage -/

/-- What a preimage says about a transaction. -/
structure Agrees (tx tx' : Transaction) : Prop where
  version : tx.version = tx'.version
  inputs : tx.inputs.map (fun i => (i.prevTxid, i.prevVout, i.sequence)) =
    tx'.inputs.map fun i => (i.prevTxid, i.prevVout, i.sequence)
  outputs : tx.outputs = tx'.outputs
  locktime : tx.locktime = tx'.locktime

theorem sized_stripped (h : tx.Sized) (hredeem : Goldcoin.Sized redeemScript.length) :
    (tx.stripped inputIndex redeemScript).Sized where
  inputCount := by
    rw [stripped, List.length_mapIdx]
    exact h.inputCount
  inputs i hi := by
    obtain ⟨k, hk, rfl⟩ := List.mem_mapIdx.mp hi
    unfold TxIn.Sized
    dsimp only
    split_ifs
    · exact hredeem
    · exact Nat.pow_pos (by decide)
  outputCount := h.outputCount
  outputs := h.outputs

/-- The scripts of the stripped inputs. -/
theorem scriptSig_stripped {k : ℕ} (hk : k < tx.inputs.length) :
    ((tx.stripped inputIndex redeemScript).inputs.map TxIn.scriptSig)[k]? =
      some (if k = inputIndex then redeemScript else []) := by
  simp [stripped, hk]

/-- Stripping touches nothing but scripts. -/
theorem map_stripped : (tx.stripped inputIndex redeemScript).inputs.map
      (fun i => (i.prevTxid, i.prevVout, i.sequence)) =
    tx.inputs.map fun i => (i.prevTxid, i.prevVout, i.sequence) := by
  refine List.ext_getElem (by simp [stripped]) fun k hk hk' => ?_
  simp [stripped]

theorem agrees_of_stripped (h : tx.stripped inputIndex redeemScript =
    tx'.stripped inputIndex' redeemScript') : tx.Agrees tx' where
  version := by simpa [stripped] using congrArg Transaction.version h
  inputs := by rw [← map_stripped, h, map_stripped]
  outputs := by simpa [stripped] using congrArg Transaction.outputs h
  locktime := by simpa [stripped] using congrArg Transaction.locktime h

/-- The input that is signed is the one with a script. -/
theorem eq_of_stripped (hindex : inputIndex < tx.inputs.length) (hredeem : redeemScript ≠ [])
    (h : tx.stripped inputIndex redeemScript = tx'.stripped inputIndex' redeemScript') :
    inputIndex = inputIndex' ∧ redeemScript = redeemScript' := by
  have hlen : tx.inputs.length = tx'.inputs.length := by
    have hlength := congrArg (fun tx => tx.inputs.length) h
    simpa [stripped] using hlength
  have hscript : redeemScript = if inputIndex = inputIndex' then redeemScript' else [] := by
    have hat := @scriptSig_stripped tx inputIndex redeemScript inputIndex hindex
    rw [h, scriptSig_stripped (hlen ▸ hindex), if_pos rfl] at hat
    exact (Option.some.inj hat).symm
  by_cases hsame : inputIndex = inputIndex'
  · rw [if_pos hsame] at hscript
    exact ⟨hsame, hscript⟩
  · rw [if_neg hsame] at hscript
    exact absurd hscript hredeem

theorem stripped_eq_of_preimage (hsized : tx.Sized) (hsized' : tx'.Sized)
    (hredeem : Goldcoin.Sized redeemScript.length) (hredeem' : Goldcoin.Sized redeemScript'.length)
    (h : tx.sighashPreimage inputIndex redeemScript = tx'.sighashPreimage inputIndex' redeemScript') :
    tx.stripped inputIndex redeemScript = tx'.stripped inputIndex' redeemScript' :=
  (serialize_delimited _ _ _ _ (sized_stripped hsized hredeem) (sized_stripped hsized' hredeem') h).1

end Transaction

/-- A serialized transaction can be decoded in one way, whatever follows it. The
preimages of two signatures are equal only for the same signed input and redeem
script, and for transactions that agree on all but their scripts. -/
theorem encodings_injective :
    (∀ (tx tx' : Transaction) (rest rest' : List UInt8), tx.Sized → tx'.Sized →
      tx.serialize ++ rest = tx'.serialize ++ rest' → tx = tx' ∧ rest = rest') ∧
    ∀ (tx tx' : Transaction) (inputIndex inputIndex' : ℕ) (redeemScript redeemScript' : List UInt8),
      tx.Sized → tx'.Sized → Sized redeemScript.length → Sized redeemScript'.length →
      inputIndex < tx.inputs.length → inputIndex' < tx'.inputs.length →
      redeemScript ≠ [] → redeemScript' ≠ [] →
      tx.sighashPreimage inputIndex redeemScript = tx'.sighashPreimage inputIndex' redeemScript' →
        tx.Agrees tx' ∧ inputIndex = inputIndex' ∧ redeemScript = redeemScript' := by
  refine ⟨fun tx tx' rest rest' hsized hsized' h =>
    Transaction.serialize_delimited tx tx' rest rest' hsized hsized' h, ?_⟩
  intro tx tx' inputIndex inputIndex' redeemScript redeemScript' hsized hsized' hlen hlen' hindex
    _ hredeem _ h
  have hstripped := Transaction.stripped_eq_of_preimage hsized hsized' hlen hlen' h
  exact ⟨Transaction.agrees_of_stripped hstripped,
    Transaction.eq_of_stripped hindex hredeem hstripped⟩

/-- A transaction with one input, signed or not. -/
def sampleTx (scriptSig : List UInt8) : Transaction where
  version := 1
  inputs := [⟨Vector.replicate 32 7, 1, scriptSig, 0xffffffff⟩]
  outputs := [⟨500, [1, 2, 3]⟩]
  locktime := 0

theorem sampleTx_sized (scriptSig : List UInt8) (h : Sized scriptSig.length) :
    (sampleTx scriptSig).Sized where
  inputCount := (by decide : Sized 1)
  inputs i hi := by
    obtain rfl := List.mem_singleton.mp hi
    exact h
  outputCount := (by decide : Sized 1)
  outputs o ho := by
    obtain rfl := List.mem_singleton.mp ho
    exact (by decide : Sized 3)

theorem encodings_injective_sample :
    (sampleTx [9] = sampleTx [9] ∧ [4] = ([4] : List UInt8)) ∧
      (sampleTx [9]).Agrees (sampleTx []) ∧ 0 = 0 ∧ [5] = ([5] : List UInt8) := by
  have hsized : Sized ([9] : List UInt8).length := by decide
  have hempty : Sized ([] : List UInt8).length := by decide
  exact ⟨encodings_injective.1 _ _ [4] [4] (sampleTx_sized _ hsized) (sampleTx_sized _ hsized) rfl,
    encodings_injective.2 _ _ 0 0 [5] [5] (sampleTx_sized _ hsized) (sampleTx_sized _ hempty)
      (by decide) (by decide) (by decide) (by decide) (by decide) (by decide) (by decide +kernel)⟩

end Goldcoin
