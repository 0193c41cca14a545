-- SUMMARY: Redeem scripts read back: the hex decoder and the parser of the vault's script, which accepts exactly the scripts that the builder produces.
import ReserveBridge.Goldcoin.Payout
import ReserveBridge.Goldcoin.Split

/-!
# Redeem scripts

`from_redeem_script_hex` of `service/src/goldcoin/vault.rs` and the hex decoder of
`service/src/goldcoin/hex.rs` it reads its text with.
-/

namespace Goldcoin
open Guard

/-! ## Hex -/

inductive HexError
  | oddLength (length : ℕ)
  | invalidDigit (digits : List Char)
  /-- A slice would cut a character: the call does not return. -/
  | cutCharacter
  deriving DecidableEq, Repr

/-- `char::to_digit(16)`. -/
def toDigit16 (c : Char) : Option ℕ :=
  if '0' ≤ c ∧ c ≤ '9' then some (c.toNat - '0'.toNat)
  else if 'a' ≤ c ∧ c ≤ 'f' then some (c.toNat - 'a'.toNat + 10)
  else if 'A' ≤ c ∧ c ≤ 'F' then some (c.toNat - 'A'.toNat + 10)
  else none

/-- `u8::from_str_radix` on two characters. It takes a sign. -/
def parseHexPair (c d : Char) : Option UInt8 :=
  if c = '+' then (toDigit16 d).map UInt8.ofNat
  else do
    let high ← toDigit16 c
    let low ← toDigit16 d
    return UInt8.ofNat (16 * high + low)

/-- The loop of `decode_vec` over slices of two bytes. -/
def decodePairs : List Char → Except HexError (List UInt8)
  | [] => .ok []
  | [c] => .error (if c.utf8Size = 2 then .invalidDigit [c] else .cutCharacter)
  | c :: d :: rest => do
    require (c.utf8Size ≠ 2) (.invalidDigit [c])
    require (c.utf8Size = 1 ∧ d.utf8Size = 1) .cutCharacter
    let byte ← orFail (parseHexPair c d) (.invalidDigit [c, d])
    return byte :: (← decodePairs rest)

/-- `str::len`, in bytes. -/
def byteLength (s : List Char) : ℕ := (s.map Char.utf8Size).sum

def decodeVec (s : String) : Except HexError (List UInt8) := do
  require (byteLength s.toList % 2 = 0) (.oddLength (byteLength s.toList))
  decodePairs s.toList

/-! ## The parser -/

/-- `VaultError`, with the reasons for which a script is malformed. -/
inductive RedeemScriptError
  | hex (error : HexError)
  | malformed (reason : String)
  | vault (error : VaultError)
  deriving DecidableEq

def MultisigVault.new (signerPubkeys : List Pubkey) (threshold : ℕ) :
    Except VaultError MultisigVault :=
  match h : validateSignerSet signerPubkeys threshold with
  | .ok () => .ok ⟨signerPubkeys, threshold, h⟩
  | .error e => .error e

/-- The loop over the pushed keys: the keys, and what follows them. -/
def readKeys : List UInt8 → Except RedeemScriptError (List Pubkey × List UInt8)
  | [] => .ok ([], [])
  | op :: rest =>
    if op = pubkeyPushLen then
      if h : 33 ≤ rest.length then do
        let pk : Pubkey := ⟨(rest.take 33).toArray, by simpa using h⟩
        let (pubkeys, trailer) ← readKeys (rest.drop 33)
        return (pk :: pubkeys, trailer)
      else .error (.malformed "truncated pubkey push")
    else .ok ([], op :: rest)
termination_by script => script.length
decreasing_by
  rw [List.length_drop, List.length_cons]
  omega

/-- What follows the keys. -/
def readTrailer (pubkeys : List Pubkey) : List UInt8 → Except RedeemScriptError Unit
  | [nByte, checkmultisigByte] => do
    require (checkmultisigByte = opCheckMultisig) (.malformed "missing OP_CHECKMULTISIG")
    let n ← orFail (checkedSub nByte.toNat 0x50) (.malformed "bad OP_N")
    require (n = pubkeys.length)
      (.malformed s!"OP_N={n} does not match {pubkeys.length} pubkeys")
  | _ => .error (.malformed "unexpected trailer length")

/-- The parser after the hex decoder. -/
def fromRedeemScript (script : List UInt8) : Except RedeemScriptError MultisigVault := do
  require (3 ≤ script.length) (.malformed "too short")
  let m ← orFail (checkedSub (script.headD 0).toNat 0x50) (.malformed "bad OP_M")
  let (pubkeys, trailer) ← readKeys script.tail
  readTrailer pubkeys trailer
  (MultisigVault.new pubkeys m).mapError .vault

def fromRedeemScriptHex (redeemScriptHex : String) : Except RedeemScriptError MultisigVault := do
  let script ← (decodeVec redeemScriptHex).mapError .hex
  fromRedeemScript script

/-! ## What is read is what was built -/

theorem MultisigVault.new_eq_ok {signerPubkeys : List Pubkey} {threshold : ℕ} {v : MultisigVault} :
    MultisigVault.new signerPubkeys threshold = .ok v ↔
      v.signerPubkeys = signerPubkeys ∧ v.threshold = threshold := by
  unfold MultisigVault.new
  split
  · rw [Except.ok.injEq]
    constructor
    · rintro rfl
      exact ⟨rfl, rfl⟩
    · rintro ⟨rfl, rfl⟩
      rfl
  · rename_i e he
    constructor
    · intro h
      cases h
    · rintro ⟨rfl, rfl⟩
      rw [v.valid] at he
      cases he

/-- The part of a script that pushes its keys. -/
def keyPushes (pubkeys : List Pubkey) : List UInt8 :=
  pubkeys.flatMap fun pk => pubkeyPushLen :: pk.toList

theorem take_pubkey_append (pk : Pubkey) (rest : List UInt8) :
    (pk.toList ++ rest).take 33 = pk.toList := by
  rw [List.take_append_of_le_length (by simp), List.take_of_length_le (by simp)]

theorem drop_pubkey_append (pk : Pubkey) (rest : List UInt8) :
    (pk.toList ++ rest).drop 33 = rest := by
  rw [List.drop_append_of_le_length (by simp), List.drop_of_length_le (by simp), List.nil_append]

/-- The keys are read up to a byte that pushes none. -/
theorem readKeys_keyPushes {trailer : List UInt8} (htrailer : trailer.head? ≠ some pubkeyPushLen)
    (pubkeys : List Pubkey) : readKeys (keyPushes pubkeys ++ trailer) = .ok (pubkeys, trailer) := by
  induction pubkeys with
  | nil =>
    cases trailer with
    | nil => simp [keyPushes, readKeys]
    | cons op rest =>
      have hop : op ≠ pubkeyPushLen := fun h => htrailer (congrArg some h)
      rw [keyPushes, List.flatMap_nil, List.nil_append, readKeys, if_neg hop]
  | cons pk pubkeys ih =>
    have hcons : keyPushes (pk :: pubkeys) ++ trailer =
        pubkeyPushLen :: (pk.toList ++ (keyPushes pubkeys ++ trailer)) := by
      rw [keyPushes, List.flatMap_cons, List.cons_append, List.cons_append, List.append_assoc]
      rfl
    have hlength : 33 ≤ (pk.toList ++ (keyPushes pubkeys ++ trailer)).length := by
      rw [List.length_append, Vector.length_toList]
      omega
    rw [hcons, readKeys, if_pos rfl, dif_pos hlength]
    simp only [drop_pubkey_append, ih, take_pubkey_append]
    rfl

/-- What was read are pushes of the keys, and what follows pushes none. -/
theorem readKeys_eq_ok {script trailer : List UInt8} {pubkeys : List Pubkey}
    (h : readKeys script = .ok (pubkeys, trailer)) : script = keyPushes pubkeys ++ trailer := by
  fun_induction readKeys script generalizing pubkeys trailer with
  | case1 =>
    cases h
    rfl
  | case2 rest hlength pk =>
    rename_i ih
    simp only [bind_eq_ok, pure_eq_ok, Prod.exists] at h
    obtain ⟨pubkeys', trailer', hread, h⟩ := h
    obtain ⟨rfl, rfl⟩ := Prod.mk.inj h
    rw [keyPushes, List.flatMap_cons, List.cons_append, List.cons_append, List.append_assoc]
    congr 1
    calc rest = rest.take 33 ++ rest.drop 33 := (List.take_append_drop 33 rest).symm
      _ = pk.toList ++ (keyPushes pubkeys' ++ trailer') := by rw [ih hread]; rfl
  | case3 => cases h
  | case4 op rest =>
    cases h
    rfl

theorem readTrailer_eq_ok {pubkeys : List Pubkey} {trailer : List UInt8} :
    readTrailer pubkeys trailer = .ok () ↔
      ∃ nByte : UInt8, trailer = [nByte, opCheckMultisig] ∧ nByte.toNat = 0x50 + pubkeys.length := by
  unfold readTrailer
  split
  · simp only [bind_eq_ok, require_eq_ok, orFail_eq_ok, checkedSub_eq_some, exists_unit]
    constructor
    · rintro ⟨rfl, _, ⟨hle, rfl⟩, hn⟩
      exact ⟨_, rfl, by omega⟩
    · rintro ⟨nByte, htrailer, hn⟩
      obtain ⟨rfl, rfl⟩ : _ ∧ _ := by simpa using htrailer
      exact ⟨rfl, _, ⟨by omega, rfl⟩, by omega⟩
  · rename_i hshape
    constructor
    · intro h
      cases h
    · rintro ⟨nByte, rfl, -⟩
      exact absurd rfl (hshape nByte opCheckMultisig)

theorem toNat_opN {n : ℕ} (h : n ≤ 8) : (opN n).toNat = 0x50 + n :=
  UInt8.toNat_ofNat_of_lt' (by rw [UInt8.size]; omega)

/-- A byte is the opcode of the number above 0x50 it holds. -/
theorem eq_opN {b : UInt8} {n : ℕ} (h : b.toNat = 0x50 + n) : b = opN n := by
  rw [opN, ← h, UInt8.ofNat_toNat]

theorem redeemScript_eq (v : MultisigVault) : v.redeemScript =
    opN v.threshold :: (keyPushes v.signerPubkeys ++ [opN v.signerPubkeys.length, opCheckMultisig]) :=
  rfl

/-- The parser accepts the script of a vault as that vault, and nothing else. -/
theorem fromRedeemScript_eq_ok {script : List UInt8} {v : MultisigVault} :
    fromRedeemScript script = .ok v ↔ script = v.redeemScript := by
  simp only [fromRedeemScript, bind_eq_ok, require_eq_ok, orFail_eq_ok, checkedSub_eq_some,
    Prod.exists, exists_unit, mapError_eq_ok, MultisigVault.new_eq_ok]
  constructor
  · rintro ⟨hlength, m, ⟨hle, rfl⟩, pubkeys, trailer, hread, htrailer, rfl, hm⟩
    obtain ⟨nByte, rfl, hn⟩ := readTrailer_eq_ok.mp htrailer
    cases script with
    | nil => cases hlength
    | cons opM body =>
      rw [List.headD_cons] at hle hm
      rw [redeemScript_eq, ← eq_opN hn, ← readKeys_eq_ok hread, List.tail_cons, ← eq_opN]
      omega
  · rintro rfl
    obtain ⟨hmax, hmin, hthreshold, -⟩ := v.bounds
    have hn : (opN v.signerPubkeys.length).toNat = 0x50 + v.signerPubkeys.length := toNat_opN hmax
    have hm : (opN v.threshold).toNat = 0x50 + v.threshold := toNat_opN (hthreshold.trans hmax)
    have hpush : pubkeyPushLen.toNat = 0x21 := rfl
    have hop : opN v.signerPubkeys.length ≠ pubkeyPushLen := by
      intro h
      have hnat := congrArg UInt8.toNat h
      omega
    have htrailer : [opN v.signerPubkeys.length, opCheckMultisig].head? ≠ some pubkeyPushLen :=
      fun h => hop (Option.some.inj h)
    have hread := readKeys_keyPushes htrailer v.signerPubkeys
    refine ⟨?_, v.threshold, ?_, v.signerPubkeys, _, hread, readTrailer_eq_ok.mpr ⟨_, rfl, hn⟩, rfl,
      rfl⟩
    · rw [MultisigVault.length_redeemScript]
      omega
    · rw [redeemScript_eq, List.headD_cons, hm]
      omega

/-! ## Hex read back -/

theorem toDigit16_digitChar {k : ℕ} (h : k < 16) : toDigit16 (Nat.digitChar k) = some k := by
  revert k
  decide

theorem utf8Size_digitChar {k : ℕ} (h : k < 16) : (Nat.digitChar k).utf8Size = 1 := by
  revert k
  decide

theorem digitChar_ne_plus {k : ℕ} (h : k < 16) : Nat.digitChar k ≠ '+' := by
  revert k
  decide

/-- The two digits of a byte. -/
def hexPair (b : UInt8) : List Char := [Nat.digitChar (b.toNat / 16), Nat.digitChar (b.toNat % 16)]

theorem toList_hexEncode (bytes : List UInt8) : (hexEncode bytes).toList = bytes.flatMap hexPair := by
  rw [hexEncode, String.toList_ofList]
  rfl

theorem decodePairs_flatMap (bytes : List UInt8) :
    decodePairs (bytes.flatMap hexPair) = .ok bytes := by
  induction bytes with
  | nil => rfl
  | cons b bytes ih =>
    have hb : b.toNat < 256 := b.toNat_lt
    have hhigh : b.toNat / 16 < 16 := by omega
    have hlow : b.toNat % 16 < 16 := by omega
    have hbyte : parseHexPair (Nat.digitChar (b.toNat / 16)) (Nat.digitChar (b.toNat % 16)) =
        some b := by
      rw [parseHexPair, if_neg (digitChar_ne_plus hhigh), toDigit16_digitChar hhigh,
        toDigit16_digitChar hlow]
      have hvalue : 16 * (b.toNat / 16) + b.toNat % 16 = b.toNat := by omega
      simp only [Option.bind_eq_bind, Option.bind_some, hvalue, UInt8.ofNat_toNat]
      rfl
    rw [List.flatMap_cons, hexPair, List.cons_append, List.cons_append, List.nil_append, decodePairs]
    simp only [utf8Size_digitChar hhigh, utf8Size_digitChar hlow, hbyte, ih, bind_eq_ok,
      require_eq_ok, orFail_eq_ok, exists_unit, pure_eq_ok]
    exact ⟨by decide, ⟨trivial, trivial⟩, b, rfl, bytes, rfl, rfl⟩

theorem byteLength_flatMap (bytes : List UInt8) :
    byteLength (bytes.flatMap hexPair) = 2 * bytes.length := by
  induction bytes with
  | nil => rfl
  | cons b bytes ih =>
    have hb : b.toNat < 256 := b.toNat_lt
    have hhigh : b.toNat / 16 < 16 := by omega
    have hlow : b.toNat % 16 < 16 := by omega
    have hpair : byteLength (hexPair b) = 2 := by
      simp [byteLength, hexPair, utf8Size_digitChar hhigh, utf8Size_digitChar hlow]
    have happend (s t : List Char) : byteLength (s ++ t) = byteLength s + byteLength t := by
      simp [byteLength]
    rw [List.flatMap_cons, happend, hpair, ih, List.length_cons]
    omega

theorem decodeVec_hexEncode (bytes : List UInt8) : decodeVec (hexEncode bytes) = .ok bytes := by
  have heven : byteLength (hexEncode bytes).toList % 2 = 0 := by
    rw [toList_hexEncode, byteLength_flatMap]
    omega
  simp only [decodeVec, bind_eq_ok, require_eq_ok, exists_unit]
  refine ⟨heven, ?_⟩
  rw [toList_hexEncode]
  exact decodePairs_flatMap bytes

/-- For every threshold and every list of keys that the builder of vaults accepts,
the script is read back as the threshold and the keys, in their order, from its
bytes and from its hex text. Every byte string that the parser accepts is the
script built from what it read, and so is the byte string of every accepted text.
What is accepted are the scripts of vaults. -/
theorem redeem_script_codec :
    (∀ (pubkeys : List Pubkey) (threshold : ℕ) (vault : MultisigVault),
      MultisigVault.new pubkeys threshold = .ok vault →
        vault.threshold = threshold ∧ vault.signerPubkeys = pubkeys ∧
        fromRedeemScript (buildRedeemScript pubkeys threshold) = .ok vault ∧
        fromRedeemScriptHex (hexEncode (buildRedeemScript pubkeys threshold)) = .ok vault) ∧
    (∀ (script : List UInt8) (vault : MultisigVault), fromRedeemScript script = .ok vault →
      buildRedeemScript vault.signerPubkeys vault.threshold = script) ∧
    (∀ (text : String) (vault : MultisigVault), fromRedeemScriptHex text = .ok vault →
      decodeVec text = .ok (buildRedeemScript vault.signerPubkeys vault.threshold)) ∧
    ∀ script : List UInt8, Succeeds (fromRedeemScript script) ↔
      ∃ (pubkeys : List Pubkey) (threshold : ℕ),
        validateSignerSet pubkeys threshold = .ok () ∧
        script = buildRedeemScript pubkeys threshold := by
  refine ⟨?_, ?_, ?_, ?_⟩
  · intro pubkeys threshold vault h
    obtain ⟨rfl, rfl⟩ := MultisigVault.new_eq_ok.mp h
    have hread : fromRedeemScript vault.redeemScript = .ok vault := fromRedeemScript_eq_ok.mpr rfl
    refine ⟨rfl, rfl, hread, ?_⟩
    simp only [fromRedeemScriptHex, bind_eq_ok, mapError_eq_ok]
    exact ⟨_, decodeVec_hexEncode _, hread⟩
  · intro script vault h
    exact (fromRedeemScript_eq_ok.mp h).symm
  · intro text vault h
    simp only [fromRedeemScriptHex, bind_eq_ok, mapError_eq_ok] at h
    obtain ⟨script, hscript, h⟩ := h
    rw [hscript, fromRedeemScript_eq_ok.mp h]
    rfl
  · intro script
    constructor
    · rintro ⟨vault, h⟩
      exact ⟨vault.signerPubkeys, vault.threshold, vault.valid, fromRedeemScript_eq_ok.mp h⟩
    · rintro ⟨pubkeys, threshold, hvalid, rfl⟩
      exact ⟨⟨pubkeys, threshold, hvalid⟩, fromRedeemScript_eq_ok.mpr rfl⟩

theorem redeem_script_codec_sample :
    fromRedeemScript (buildRedeemScript sampleVault.signerPubkeys 2) = .ok sampleVault ∧
      buildRedeemScript sampleVault.signerPubkeys sampleVault.threshold = sampleVault.redeemScript ∧
      decodeVec (hexEncode sampleVault.redeemScript) = .ok sampleVault.redeemScript := by
  have hnew : MultisigVault.new sampleVault.signerPubkeys 2 = .ok sampleVault :=
    MultisigVault.new_eq_ok.mpr ⟨rfl, rfl⟩
  obtain ⟨-, -, hread, hhex⟩ := redeem_script_codec.1 _ _ _ hnew
  exact ⟨hread, redeem_script_codec.2.1 _ _ hread, redeem_script_codec.2.2.1 _ _ hhex⟩

end Goldcoin
