-- SUMMARY: The off-chain builder of attestation proofs, and its agreement with the on-chain parser.
import ReserveBridge.Solana.Verification

/-!
# Building attestation proofs

`service/src/solana/ed25519.rs`. The builder lays out a header, an offset table
of 14-byte entries, the keys, the signatures and one copy of the message. The
parser in `Solana.Verification` was written independently. The last theorem
says that the two agree.
-/

namespace Service
open Bytes Solana

abbrev Signature := Vector UInt8 64

structure Instruction where
  programId : Pubkey
  accounts : List Pubkey
  data : List UInt8

/-- `SELF_REFERENCE`, `u16::MAX`. -/
def selfReference : UInt16 := 65535

/-- One pass of the builder's loop, over the ends of the blocks. -/
def writeSignature (entriesEnd keysEnd msgOff messageLen : ℕ) (data : List UInt8)
    (entry : (Pubkey × Signature) × ℕ) : List UInt8 :=
  let ((pubkey, signature), i) := entry
  let base := 2 + i * 14
  let pkOff := UInt16.ofNat (entriesEnd + i * 32)
  let sigOff := UInt16.ofNat (keysEnd + i * 64)
  let data := write data base (u16Bytes sigOff)
  let data := write data (base + 2) (u16Bytes selfReference)
  let data := write data (base + 4) (u16Bytes pkOff)
  let data := write data (base + 6) (u16Bytes selfReference)
  let data := write data (base + 8) (u16Bytes (UInt16.ofNat msgOff))
  let data := write data (base + 10) (u16Bytes (UInt16.ofNat messageLen))
  let data := write data (base + 12) (u16Bytes selfReference)
  let data := write data (entriesEnd + i * 32) pubkey.toList
  write data (keysEnd + i * 64) signature.toList

def buildAttestationProof (ed25519Program : Pubkey) (signatures : List (Pubkey × Signature))
    (message : List UInt8) : Instruction :=
  let n := signatures.length
  let entriesEnd := 2 + n * 14
  let keysEnd := entriesEnd + n * 32
  let sigsEnd := keysEnd + n * 64
  let msgOff := sigsEnd
  let data := List.replicate (msgOff + message.length) 0
  let data := write data 0 [UInt8.ofNat n]
  let data := write data 1 [0]
  let data := signatures.zipIdx.foldl
    (writeSignature entriesEnd keysEnd msgOff message.length) data
  let data := write data msgOff message
  ⟨ed25519Program, [], data⟩

/-! ## One entry -/

/-- The 14 bytes of an entry of the offset table. -/
def row (sigOff pkOff msgOff messageLen : ℕ) : List UInt8 :=
  u16Bytes (UInt16.ofNat sigOff) ++ (u16Bytes selfReference ++
    (u16Bytes (UInt16.ofNat pkOff) ++ (u16Bytes selfReference ++
      (u16Bytes (UInt16.ofNat msgOff) ++ (u16Bytes (UInt16.ofNat messageLen) ++
        u16Bytes selfReference)))))

@[simp] theorem length_row (sigOff pkOff msgOff messageLen : ℕ) :
    (row sigOff pkOff msgOff messageLen).length = 14 := by
  simp [row]

/-- The seven writes of an entry are one write of its row. -/
theorem write_row {data a b c d e f g : List UInt8} {base : ℕ} (ha : a.length = 2)
    (hb : b.length = 2) (hc : c.length = 2) (hd : d.length = 2) (he : e.length = 2)
    (hf : f.length = 2) (hg : g.length = 2) (hlen : base + 14 ≤ data.length) :
    write (write (write (write (write (write (write data base a) (base + 2) b) (base + 4) c)
      (base + 6) d) (base + 8) e) (base + 10) f) (base + 12) g =
      write data base (a ++ (b ++ (c ++ (d ++ (e ++ (f ++ g)))))) := by
  have hjoin : ∀ {bs cs : List UInt8} {off : ℕ}, off = base + bs.length →
      base + (bs ++ cs).length ≤ data.length →
      write (write data base bs) off cs = write data base (bs ++ cs) := by
    rintro bs cs off rfl h
    exact write_append h
  rw [hjoin (by omega) (by simp only [List.length_append]; omega),
    hjoin (by simp only [List.length_append]; omega) (by simp only [List.length_append]; omega),
    hjoin (by simp only [List.length_append]; omega) (by simp only [List.length_append]; omega),
    hjoin (by simp only [List.length_append]; omega) (by simp only [List.length_append]; omega),
    hjoin (by simp only [List.length_append]; omega) (by simp only [List.length_append]; omega),
    hjoin (by simp only [List.length_append]; omega) (by simp only [List.length_append]; omega)]
  simp only [List.append_assoc]

/-- A pass of the loop writes one entry, one key and one signature. -/
theorem writeSignature_eq {entriesEnd keysEnd msgOff messageLen i : ℕ} {data : List UInt8}
    {pair : Pubkey × Signature} (hlen : 2 + i * 14 + 14 ≤ data.length) :
    writeSignature entriesEnd keysEnd msgOff messageLen data (pair, i) =
      write (write (write data (2 + i * 14)
        (row (keysEnd + i * 64) (entriesEnd + i * 32) msgOff messageLen))
        (entriesEnd + i * 32) pair.1.toList) (keysEnd + i * 64) pair.2.toList := by
  simp only [writeSignature, row]
  rw [write_row (length_u16Bytes _) (length_u16Bytes _) (length_u16Bytes _) (length_u16Bytes _)
    (length_u16Bytes _) (length_u16Bytes _) (length_u16Bytes _) hlen]

/-! ## The loop -/

/-- Entry `i` of `n` and the pair it stands for are in place. -/
structure Placed (n messageLen : ℕ) (data : List UInt8) (i : ℕ) (pair : Pubkey × Signature) :
    Prop where
  row : At data (2 + i * 14) (row (2 + n * 14 + n * 32 + i * 64) (2 + n * 14 + i * 32)
    (2 + n * 14 + n * 32 + n * 64) messageLen)
  key : At data (2 + n * 14 + i * 32) pair.1.toList
  signature : At data (2 + n * 14 + n * 32 + i * 64) pair.2.toList

/-- The builder's loop body for `n` pairs. -/
def place (n messageLen : ℕ) : List UInt8 → (Pubkey × Signature) × ℕ → List UInt8 :=
  writeSignature (2 + n * 14) (2 + n * 14 + n * 32) (2 + n * 14 + n * 32 + n * 64) messageLen

/-- What the loop body writes for pair `i`: its row in the entry table, its key
and its signature in their blocks. -/
def placedFields (n messageLen i : ℕ) (pair : Pubkey × Signature) : List (ℕ × List UInt8) :=
  [(2 + i * 14, row (2 + n * 14 + n * 32 + i * 64) (2 + n * 14 + i * 32)
      (2 + n * 14 + n * 32 + n * 64) messageLen),
    (2 + n * 14 + i * 32, pair.1.toList), (2 + n * 14 + n * 32 + i * 64, pair.2.toList)]

section Place

variable {n messageLen i : ℕ} {data : List UInt8} {pair : Pubkey × Signature}

theorem place_eq (hi : i < n) (hlen : data.length = 2 + n * 14 + n * 32 + n * 64 + messageLen) :
    place n messageLen data (pair, i) =
      (placedFields n messageLen i pair).foldl (fun d f => write d f.1 f.2) data := by
  rw [place, writeSignature_eq (by omega)]
  rfl

theorem placedFields_fit (hi : i < n)
    (hlen : data.length = 2 + n * 14 + n * 32 + n * 64 + messageLen) :
    ∀ f ∈ placedFields n messageLen i pair, f.1 + f.2.length ≤ data.length := by
  simp only [placedFields, List.forall_mem_cons, length_row, Vector.length_toList]
  exact ⟨by omega, by omega, by omega, by simp⟩

theorem placedFields_apart (hi : i < n) :
    (placedFields n messageLen i pair).Pairwise Apart := by
  simp only [placedFields, List.pairwise_cons, List.forall_mem_cons, Apart, length_row,
    Vector.length_toList]
  exact ⟨⟨by omega, by omega, by simp⟩, ⟨by omega, by simp⟩, by simp⟩

theorem length_place (hi : i < n)
    (hlen : data.length = 2 + n * 14 + n * 32 + n * 64 + messageLen) :
    (place n messageLen data (pair, i)).length = data.length := by
  rw [place_eq hi hlen, length_foldl_write (placedFields_fit hi hlen)]

theorem placed_place (hi : i < n)
    (hlen : data.length = 2 + n * 14 + n * 32 + n * 64 + messageLen) :
    Placed n messageLen (place n messageLen data (pair, i)) i pair := by
  have hapart : (placedFields n messageLen i pair).Pairwise Apart := placedFields_apart hi
  have hat := at_foldl_write (placedFields_fit hi hlen) hapart
  rw [← place_eq hi hlen] at hat
  simp only [placedFields, List.forall_mem_cons] at hat
  exact ⟨hat.1, hat.2.1, hat.2.2.1⟩

/-- What lies outside the three fields of pair `i` survives. -/
theorem at_place {off : ℕ} {bs : List UInt8} (h : At data off bs) (hi : i < n)
    (hlen : data.length = 2 + n * 14 + n * 32 + n * 64 + messageLen)
    (hrow : off + bs.length ≤ 2 + i * 14 ∨ 2 + i * 14 + 14 ≤ off)
    (hkey : off + bs.length ≤ 2 + n * 14 + i * 32 ∨ 2 + n * 14 + i * 32 + 32 ≤ off)
    (hsig : off + bs.length ≤ 2 + n * 14 + n * 32 + i * 64 ∨
      2 + n * 14 + n * 32 + i * 64 + 64 ≤ off) :
    At (place n messageLen data (pair, i)) off bs := by
  rw [place_eq hi hlen]
  refine h.foldl_write (placedFields_fit hi hlen) ?_
  simp only [placedFields, List.forall_mem_cons, Apart, length_row, Vector.length_toList]
  exact ⟨hrow, hkey, hsig, by simp⟩

theorem Placed.place {j : ℕ} {other : Pubkey × Signature} (h : Placed n messageLen data j other)
    (hj : j < i) (hi : i < n)
    (hlen : data.length = 2 + n * 14 + n * 32 + n * 64 + messageLen) :
    Placed n messageLen (place n messageLen data (pair, i)) j other := by
  refine ⟨at_place h.row hi hlen ?_ ?_ ?_, at_place h.key hi hlen ?_ ?_ ?_,
    at_place h.signature hi hlen ?_ ?_ ?_⟩
  all_goals
    simp only [length_row, Vector.length_toList]
    omega

end Place

theorem loop_placed {n messageLen k : ℕ} (pairs : List (Pubkey × Signature)) {data : List UInt8}
    (hk : k + pairs.length ≤ n)
    (hlen : data.length = 2 + n * 14 + n * 32 + n * 64 + messageLen) :
    ((pairs.zipIdx k).foldl (place n messageLen) data).length = data.length ∧
    (∀ j (h : j < pairs.length),
      Placed n messageLen ((pairs.zipIdx k).foldl (place n messageLen) data) (k + j) pairs[j]) ∧
    (∀ j < k, ∀ other, Placed n messageLen data j other →
      Placed n messageLen ((pairs.zipIdx k).foldl (place n messageLen) data) j other) ∧
    ∀ off bs, off + bs.length ≤ 2 → At data off bs →
      At ((pairs.zipIdx k).foldl (place n messageLen) data) off bs := by
  induction pairs generalizing k data with
  | nil => exact ⟨rfl, by simp, fun _ _ _ h => h, fun _ _ _ h => h⟩
  | cons pair pairs ih =>
    rw [List.length_cons] at hk
    have hkn : k < n := by omega
    have hlen₁ : (place n messageLen data (pair, k)).length = data.length :=
      length_place hkn hlen
    obtain ⟨hlen₂, hrest, hold₂, hhead₂⟩ := ih (k := k + 1) (by omega) (hlen₁.trans hlen)
    rw [List.zipIdx_cons, List.foldl_cons]
    refine ⟨hlen₂.trans hlen₁, ?_, ?_, ?_⟩
    · intro j hj
      cases j with
      | zero => exact hold₂ k (Nat.lt_succ_self k) _ (placed_place hkn hlen)
      | succ j =>
        have := hrest j (by simpa using hj)
        rwa [Nat.add_assoc, Nat.add_comm 1 j] at this
    · intro j hj other hplaced
      exact hold₂ j (by omega) other (hplaced.place hj hkn hlen)
    · intro off bs hoff hat
      exact hhead₂ off bs hoff (at_place hat hkn hlen (by omega) (by omega) (by omega))

/-! ## Agreement with the parser -/

theorem u16At_of_at {data : List UInt8} {off : ℕ} {x : UInt16} (h : At data off (u16Bytes x)) :
    u16At data off = .ok x.toNat := by
  have hslice := h.slice
  rw [length_u16Bytes] at hslice
  simp only [u16At, Guard.bind_eq_ok, Guard.orFail_eq_ok, Guard.pure_eq_ok]
  exact ⟨_, hslice, leValue_u16Bytes x⟩

theorem readEntry_of_at {data : List UInt8} {i sigOff pkOff msgOff messageLen : ℕ}
    (h : At data (2 + i * 14) (row sigOff pkOff msgOff messageLen))
    (hsig : sigOff < 2 ^ 16) (hpk : pkOff < 2 ^ 16) (hmsg : msgOff < 2 ^ 16)
    (hlen : messageLen < 2 ^ 16) :
    readEntry data i = .ok ⟨sigOff, 65535, pkOff, 65535, msgOff, messageLen, 65535⟩ := by
  have hcast : ∀ {x : ℕ}, x < 2 ^ 16 → (UInt16.ofNat x).toNat = x := fun hx =>
    UInt16.toNat_ofNat_of_lt hx
  have hself : selfReference.toNat = 65535 := rfl
  have h₁ := h.right
  have h₂ := h₁.right
  have h₃ := h₂.right
  have h₄ := h₃.right
  have h₅ := h₄.right
  have h₆ := h₅.right
  simp only [length_u16Bytes, Nat.add_assoc, Nat.reduceAdd] at h₁ h₂ h₃ h₄ h₅ h₆
  simp only [readEntry, ed25519HeaderLen, ed25519EntryLen, Guard.bind_eq_ok, Nat.add_assoc,
    u16At_of_at h.left, u16At_of_at h₁.left, u16At_of_at h₂.left, u16At_of_at h₃.left,
    u16At_of_at h₄.left, u16At_of_at h₅.left, u16At_of_at h₆, Except.ok.injEq, exists_eq_left',
    Guard.pure_eq_ok, hcast hsig, hcast hpk, hcast hmsg, hcast hlen, hself]

/-- A pair in place is what its entry designates. -/
theorem Placed.designates {n i : ℕ} {data message : List UInt8} {pair : Pubkey × Signature}
    (h : Placed n message.length data i pair) (hi : i < n) (hn : n ≤ 8)
    (hmsg : message.length < 2 ^ 16) (hat : At data (2 + n * 14 + n * 32 + n * 64) message) :
    Designates data i pair.1 pair.2.toList message := by
  have hkey := h.key.slice
  have hsig := h.signature.slice
  simp only [Vector.length_toList] at hkey hsig
  exact ⟨_, readEntry_of_at h.row (by omega) (by omega) (by omega) hmsg, ⟨rfl, rfl, rfl⟩, hsig,
    hkey, hat.slice⟩

theorem getD_of_at {data : List UInt8} {off : ℕ} {b : UInt8} (h : At data off [b]) :
    data.getD off 0 = b := by
  have hget := (at_iff_getElem?.mp h).2 0 (by simp)
  rw [Nat.add_zero] at hget
  simp [List.getD, hget]

/-- The data of a built proof: its header, its entries and its message. -/
theorem buildAttestationProof_data (ed25519Program : Pubkey)
    (signatures : List (Pubkey × Signature)) (message : List UInt8) :
    At (buildAttestationProof ed25519Program signatures message).data 0
      [UInt8.ofNat signatures.length] ∧
    At (buildAttestationProof ed25519Program signatures message).data 1 [0] ∧
    At (buildAttestationProof ed25519Program signatures message).data
      (2 + signatures.length * 14 + signatures.length * 32 + signatures.length * 64) message ∧
    ∀ i (h : i < signatures.length), Placed signatures.length message.length
      (buildAttestationProof ed25519Program signatures message).data i signatures[i] := by
  -- the header goes first, the message last
  have hlen₀ : (List.replicate (2 + signatures.length * 14 + signatures.length * 32 +
      signatures.length * 64 + message.length) (0 : UInt8)).length = 2 + signatures.length * 14 +
      signatures.length * 32 + signatures.length * 64 + message.length := List.length_replicate
  have hle₀ : 0 + [UInt8.ofNat signatures.length].length ≤ (List.replicate (2 +
      signatures.length * 14 + signatures.length * 32 + signatures.length * 64 + message.length)
      (0 : UInt8)).length := by
    rw [hlen₀, List.length_singleton]
    omega
  have hlen₁ := (length_write hle₀).trans hlen₀
  have hle₁ : 1 + [(0 : UInt8)].length ≤ (write (List.replicate (2 + signatures.length * 14 +
      signatures.length * 32 + signatures.length * 64 + message.length) (0 : UInt8)) 0
      [UInt8.ofNat signatures.length]).length := by
    rw [hlen₁, List.length_singleton]
    omega
  have hlen₂ := (length_write hle₁).trans hlen₁
  obtain ⟨hlen₃, hplaced, -, hhead⟩ := loop_placed signatures (k := 0) (by omega) hlen₂
  have hle₄ := (hlen₃.trans hlen₂).ge
  refine ⟨?_, ?_, at_write hle₄, fun i hi => ?_⟩
  · exact (hhead 0 _ (by simp) ((at_write hle₀).write hle₁ (by simp))).write hle₄
      (by rw [List.length_singleton]; omega)
  · exact (hhead 1 _ (by simp) (at_write hle₁)).write hle₄ (by rw [List.length_singleton]; omega)
  · obtain ⟨hrow, hkey, hsig⟩ := hplaced i hi
    rw [Nat.zero_add] at hrow hkey hsig
    have hkeyLen : signatures[i].1.toList.length = 32 := by simp
    have hsigLen : signatures[i].2.toList.length = 64 := by simp
    exact ⟨hrow.write hle₄ (by rw [length_row]; omega), hkey.write hle₄ (by omega),
      hsig.write hle₄ (by omega)⟩

theorem designates_buildAttestationProof {ed25519Program : Pubkey}
    {signatures : List (Pubkey × Signature)} {message : List UInt8} (hle : signatures.length ≤ 8)
    (hmsg : message.length < 2 ^ 16) (i : ℕ) (hi : i < signatures.length) :
    Designates (buildAttestationProof ed25519Program signatures message).data i signatures[i].1
      signatures[i].2.toList message := by
  obtain ⟨-, -, hat, hplaced⟩ := buildAttestationProof_data ed25519Program signatures message
  exact (hplaced i hi).designates hi hle hmsg hat

theorem countUniqueAttestationSigners_buildAttestationProof {ed25519Program : Pubkey}
    {signatures : List (Pubkey × Signature)} {message : List UInt8} {keys : List Pubkey}
    (hpos : 1 ≤ signatures.length) (hle : signatures.length ≤ 8)
    (hnodup : (signatures.map Prod.fst).Nodup) (hmem : ∀ pair ∈ signatures, pair.1 ∈ keys)
    (hkeys : keys.length ≤ 16) (hmsg : message.length < 2 ^ 16) :
    countUniqueAttestationSigners
      (buildAttestationProof ed25519Program signatures message).data message keys =
      .ok signatures.length := by
  obtain ⟨hnum, hpad, hat, -⟩ := buildAttestationProof_data ed25519Program signatures message
  have hcount : (UInt8.ofNat signatures.length).toNat = signatures.length :=
    UInt8.toNat_ofNat_of_lt (lt_of_le_of_lt hle (by decide))
  have hlength := hat.1
  have hsigners : (signatures.map Prod.fst).length = signatures.length := List.length_map _
  rw [← hsigners] at hpos ⊢
  refine countUniqueAttestationSigners_of_designates hkeys hpos ?_ ?_ (getD_of_at hpad) hnodup
    ?_ ?_
  · rw [ed25519HeaderLen]
    omega
  · rw [getD_of_at hnum, hcount, List.length_map]
  · intro key hkey
    obtain ⟨pair, hpair, rfl⟩ := List.mem_map.mp hkey
    exact hmem pair hpair
  · intro i hi
    rw [List.length_map] at hi
    rw [List.getElem_map]
    exact ⟨_, designates_buildAttestationProof hle hmsg i hi⟩

/-- For one to eight distinct keys of the set and any message whose length fits
in 16 bits, the parser counts every pair of a built proof, and each entry
designates its own key, its own signature and the message. The set has at most
16 keys, the width of the parser's mask. -/
theorem built_proof_parses (ed25519Program : Pubkey)
    (signatures : List (Pubkey × Signature)) (message : List UInt8) (keys : List Pubkey)
    (hpos : 1 ≤ signatures.length) (hle : signatures.length ≤ 8)
    (hnodup : (signatures.map Prod.fst).Nodup) (hmem : ∀ pair ∈ signatures, pair.1 ∈ keys)
    (hkeys : keys.length ≤ 16) (hmsg : message.length < 2 ^ 16) :
    countUniqueAttestationSigners
      (buildAttestationProof ed25519Program signatures message).data message keys =
      .ok signatures.length ∧
    ∀ i (h : i < signatures.length),
      Designates (buildAttestationProof ed25519Program signatures message).data i
        signatures[i].1 signatures[i].2.toList message :=
  ⟨countUniqueAttestationSigners_buildAttestationProof hpos hle hnodup hmem hkeys hmsg,
    fun i hi => designates_buildAttestationProof hle hmsg i hi⟩

theorem built_proof_parses_two :
    countUniqueAttestationSigners
      (buildAttestationProof (Vector.replicate 32 9)
        [(Vector.replicate 32 1, Vector.replicate 64 7),
          (Vector.replicate 32 2, Vector.replicate 64 8)] [1, 2, 3]).data [1, 2, 3]
      [Vector.replicate 32 2, Vector.replicate 32 3, Vector.replicate 32 1] = .ok 2 :=
  (built_proof_parses (Vector.replicate 32 9)
    [(Vector.replicate 32 1, Vector.replicate 64 7),
      (Vector.replicate 32 2, Vector.replicate 64 8)] [1, 2, 3]
    [Vector.replicate 32 2, Vector.replicate 32 3, Vector.replicate 32 1]
    (by decide) (by decide) (by decide) (by simp) (by decide) (by decide)).1

end Service
