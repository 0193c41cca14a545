-- SUMMARY: The DepositCreated decoder against the encoder of the event: it accepts the encodings of deposits the contract can make and nothing else, returns what they say, and never reads outside the log.
import ReserveBridge.Evm.Bridge
import ReserveBridge.Lib.Abi
import ReserveBridge.Lib.Bounds
import ReserveBridge.Service.Robinhood.DepositEvent

/-!
# The encoding of `DepositCreated`

The event as the compiler of the contract encodes it, the decoder with the bounds of
its reads, and the two against one another.
-/

namespace Service.Robinhood
open Guard Bytes

/-! ## Reads within bounds -/

open Bounds Checked

/-- `word_at`, which slices the data. -/
def readWordAt (data : List UInt8) (offset : ℕ) : Checked DepositDecodeError ℕ :=
  beValue <$> read (slice data offset (offset + 32))

/-- `decode_deposit_created`, with every index and slice in the place where it is
taken. -/
def decodeWithinBounds (keccak256 : List UInt8 → Bytes32) (log : EvmRawLog) :
    Checked DepositDecodeError DepositCreatedEvent := do
  check (log.topics.head? = some (depositCreatedTopic0 keccak256)) .notDepositCreated
  check (log.topics.length = 4) (.wrongTopicCount log.topics.length)
  let obligationWord ← read log.topics[1]?
  let obligationIndex := beValue obligationWord.toList
  check (obligationIndex < 2 ^ 64) (.obligationIndexTooLarge obligationIndex)
  let depositorWord ← read log.topics[2]?
  let leading ← read (slice depositorWord.toList 0 12)
  check (AllZero leading) (.dirtyTopicPadding 2 "address" 12)
  let depositorBytes ← read (slice depositorWord.toList 12 32)
  let depositor := beValue depositorBytes
  let routeWord ← read log.topics[3]?
  let leading ← read (slice routeWord.toList 0 31)
  check (AllZero leading) (.dirtyTopicPadding 3 "uint8" 31)
  let routeByte ← read routeWord.toList[31]?
  let contractRouteId := routeByte.toNat
  let route ← found (inboundRouteFromContractId contractRouteId)
    (.notAnInboundRoute contractRouteId)
  check (dataHeadLen ≤ log.data.length) (.dataTooShort log.data.length)
  let amountWord ← readWordAt log.data 0
  let canonicalWord ← readWordAt log.data 32
  let offsetWord ← readWordAt log.data 64
  check (offsetWord = destinationTailOffset)
    (.unexpectedTailOffset destinationTailOffset offsetWord)
  check (dataHeadLen + 32 ≤ log.data.length) (.dataTooShort log.data.length)
  let declaredLen ← readWordAt log.data dataHeadLen
  check (declaredLen < 2 ^ 64) (.destinationLengthTooLarge declaredLen)
  check (declaredLen ≠ 0 ∧ declaredLen ≤ maxDestinationLen)
    (.destinationLengthOutOfRange declaredLen maxDestinationLen)
  let expectedLen := dataHeadLen + 32 + (declaredLen + 31) / 32 * 32
  check (log.data.length = expectedLen) (.wrongDataLength expectedLen log.data.length declaredLen)
  let payloadStart := dataHeadLen + 32
  let destination ← read (slice log.data payloadStart (payloadStart + declaredLen))
  let padding ← read (slice log.data (payloadStart + declaredLen) log.data.length)
  check (AllZero padding) .dirtyDestinationPadding
  check (amountWord ≠ 0) .zeroAmount
  check (amountWord < 2 ^ 128) (.amountTooLarge amountWord)
  let derived ← found (toCanonical amountWord)
    (.canonicalAmountMismatch amountWord canonicalWord none)
  check (canonicalWord < 2 ^ 64) (.canonicalAmountTooLarge canonicalWord)
  check (canonicalWord = derived) (.canonicalAmountMismatch amountWord canonicalWord (some derived))
  return {
    obligationIndex := obligationIndex
    route := route
    contractRouteId := contractRouteId
    depositor := depositor
    destination := destination
    amountWord := amountWord
    amount := amountWord
    canonicalAmount := derived
    contract := log.address
    txHash := log.txHash
    logIndex := log.logIndex
    blockNumber := log.blockNumber
    blockHash := log.blockHash }

theorem readWordAt_bind {α : Type} {data : List UInt8} {offset : ℕ}
    {f : ℕ → Checked DepositDecodeError α}
    {x : Except DepositDecodeError α} (hlen : offset + 32 ≤ data.length)
    (h : (f (wordAt data offset)).run = some x) : (readWordAt data offset >>= f).run = some x := by
  have hslice : slice data offset (offset + 32) = some ((data.drop offset).take 32) := by
    rw [slice, if_pos ⟨Nat.le_add_right _ _, hlen⟩, Nat.add_sub_cancel_left]
  rw [readWordAt, map_eq_pure_bind, bind_assoc]
  refine read_bind hslice ?_
  rw [pure_bind]
  exact h

theorem slice_eq {d : List UInt8} {lo hi : ℕ} (hlo : lo ≤ hi) (hhi : hi ≤ d.length) :
    slice d lo hi = some ((d.drop lo).take (hi - lo)) :=
  if_pos ⟨hlo, hhi⟩

theorem slice_take {d : List UInt8} {n : ℕ} (h : n ≤ d.length) :
    slice d 0 n = some (d.take n) :=
  slice_eq (Nat.zero_le n) h

theorem slice_drop {d : List UInt8} {n : ℕ} (h : n ≤ d.length) :
    slice d n d.length = some (d.drop n) := by
  rw [slice_eq h (Nat.le_refl _), List.take_of_length_le]
  rw [List.length_drop]

theorem slice_take_drop {d : List UInt8} {n m : ℕ} (h : n + m ≤ d.length) :
    slice d n (n + m) = some ((d.drop n).take m) := by
  rw [slice_eq (Nat.le_add_right n m) h, Nat.add_sub_cancel_left]

/-- No read is out of bounds, whatever the log. -/
theorem decodeWithinBounds_eq (keccak256 : List UInt8 → Bytes32) (log : EvmRawLog) :
    (decodeWithinBounds keccak256 log).run = some (decodeDepositCreated keccak256 log) := by
  unfold decodeWithinBounds decodeDepositCreated
  refine check_bind fun _ => ?_
  refine check_bind fun hcount => ?_
  obtain ⟨topic0, topic1, topic2, topic3, htopics⟩ := List.length_eq_four.mp hcount
  have hword (topic : Bytes32) : topic.toList.length = 32 := topic.length_toList
  rw [htopics]
  dsimp only
  refine read_bind (a := topic1) rfl ?_
  refine check_bind fun _ => ?_
  refine read_bind (a := topic2) rfl ?_
  refine read_bind (slice_take (by rw [hword]; omega)) ?_
  refine check_bind fun _ => ?_
  refine read_bind (a := topic2.toList.drop 12) ?_ ?_
  · have hdrop := slice_drop (d := topic2.toList) (n := 12) (by rw [hword]; omega)
    rwa [hword] at hdrop
  refine read_bind (a := topic3) rfl ?_
  refine read_bind (slice_take (by rw [hword]; omega)) ?_
  refine check_bind fun _ => ?_
  refine read_bind (a := topic3.toList.getD 31 0) ?_ ?_
  · have hlast : 31 < topic3.toList.length := by
      rw [hword]
      omega
    rw [List.getD_eq_getElem?_getD, List.getElem?_eq_getElem hlast, Option.getD_some]
  refine found_bind fun route _ => ?_
  refine check_bind fun hhead => ?_
  unfold dataHeadLen at hhead
  refine readWordAt_bind (by omega) ?_
  refine readWordAt_bind (by omega) ?_
  refine readWordAt_bind (by omega) ?_
  refine check_bind fun _ => ?_
  refine check_bind fun htail => ?_
  refine readWordAt_bind htail ?_
  refine check_bind fun _ => ?_
  refine check_bind fun _ => ?_
  refine check_bind fun hlength => ?_
  have hpayload : dataHeadLen + 32 + wordAt log.data dataHeadLen ≤ log.data.length := by omega
  refine read_bind (slice_take_drop hpayload) ?_
  refine read_bind (slice_drop hpayload) ?_
  rw [← List.drop_drop]
  refine check_bind fun _ => ?_
  refine check_bind fun _ => ?_
  refine check_bind fun _ => ?_
  refine found_bind fun derived _ => ?_
  refine check_bind fun _ => ?_
  refine check_bind fun _ => ?_
  rfl

/-! ## The event as the contract encodes it -/

/-- The arguments of `emit DepositCreated`. -/
structure Emission where
  obligationIndex : ℕ
  depositor : ℕ
  route : ℕ
  amount : ℕ
  canonicalAmount : ℕ
  destination : List UInt8

namespace Emission

/-- The signature and the three indexed parameters. -/
def topics (keccak256 : List UInt8 → Bytes32) (e : Emission) : List Bytes32 :=
  [depositCreatedTopic0 keccak256, Abi.natWord e.obligationIndex, Abi.natWord e.depositor,
    Abi.natWord e.route]

/-- The other parameters as `abi.encode` writes them. -/
def data (e : Emission) : List UInt8 :=
  Abi.encode [.word (Abi.natWord e.amount), .word (Abi.natWord e.canonicalAmount),
    .bytes e.destination]

/-- What a deposit of the contract can say, as far as the service can hold it. -/
structure Valid (e : Emission) : Prop where
  index_lt : e.obligationIndex < 2 ^ 64
  depositor_lt : e.depositor < 2 ^ 160
  inbound : e.route = 0x02 ∨ e.route = 0x04
  amount_eq : e.amount = e.canonicalAmount * 10 ^ 10
  canonical_pos : 1 ≤ e.canonicalAmount
  canonical_lt : e.canonicalAmount < 2 ^ 64
  destination_pos : 1 ≤ e.destination.length
  destination_le : e.destination.length ≤ 64

/-- The deposit that the arguments say, at the place of a log. -/
def event (e : Emission) (log : EvmRawLog) : DepositCreatedEvent where
  obligationIndex := e.obligationIndex
  route := if e.route = 0x02 then .rhnToGlc else .rhnToSol
  contractRouteId := e.route
  depositor := e.depositor
  destination := e.destination
  amountWord := e.amount
  amount := e.amount
  canonicalAmount := e.canonicalAmount
  contract := log.address
  txHash := log.txHash
  logIndex := log.logIndex
  blockNumber := log.blockNumber
  blockHash := log.blockHash

/-- The data, word by word. -/
theorem data_eq (e : Emission) :
    e.data = beBytes 32 e.amount ++ (beBytes 32 e.canonicalAmount ++ (beBytes 32 96 ++
      Abi.encodeBytes e.destination)) := by
  rw [data, Abi.encode]
  simp [Abi.heads, Abi.Arg.head, Abi.Arg.tail]

end Emission

/-! ## What a log says -/

/-- A word of the data and what follows it. -/
theorem drop_eq_word {data : List UInt8} {offset : ℕ} (h : offset + 32 ≤ data.length) :
    data.drop offset = beBytes 32 (wordAt data offset) ++ data.drop (offset + 32) := by
  have hlen : ((data.drop offset).take 32).length = 32 := by
    rw [List.length_take, List.length_drop]
    omega
  rw [wordAt, beBytes_beValue hlen, ← List.drop_drop, List.take_append_drop]

theorem AllZero.eq_replicate {bs : List UInt8} (h : AllZero bs) :
    bs = List.replicate bs.length 0 :=
  List.eq_replicate_iff.mpr ⟨rfl, h⟩

/-- A word that is padded on the left is the word of its low bytes. -/
theorem natWord_of_padded {word : Bytes32} {n : ℕ} (hn : n ≤ 32)
    (h : AllZero (word.toList.take n)) : word = Abi.natWord (beValue (word.toList.drop n)) := by
  have hlow : (word.toList.drop n).length = 32 - n := by
    rw [List.length_drop, Vector.length_toList]
  have hhigh : (word.toList.take n).length = n := by
    rw [List.length_take, Vector.length_toList, Nat.min_eq_left hn]
  have hzeros := h.eq_replicate
  have hlt := beValue_lt (word.toList.drop n)
  rw [hhigh] at hzeros
  rw [hlow] at hlt
  apply Vector.toList_inj.mp
  calc word.toList = word.toList.take n ++ word.toList.drop n := (List.take_append_drop n _).symm
    _ = List.replicate n 0 ++ beBytes (32 - n) (beValue (word.toList.drop n)) := by
      rw [hzeros, beBytes_beValue hlow]
    _ = beBytes 32 (beValue (word.toList.drop n)) := by
      rw [← beBytes_add hlt, Nat.add_sub_cancel' hn]
    _ = _ := (Abi.toList_natWord _).symm

theorem natWord_beValue (word : Bytes32) : word = Abi.natWord (beValue word.toList) := by
  apply Vector.toList_inj.mp
  rw [Abi.toList_natWord, beBytes_beValue word.length_toList]

theorem beValue_last (word : Bytes32) :
    beValue (word.toList.drop 31) = (word.toList.getD 31 0).toNat := by
  have hlast : 31 < word.toList.length := by
    rw [Vector.length_toList]
    omega
  have hnil : word.toList.drop 32 = [] := List.drop_eq_nil_of_le (Nat.le_of_eq word.length_toList)
  rw [List.drop_eq_getElem_cons hlast, hnil, beValue_cons, List.getD_eq_getElem?_getD,
    List.getElem?_eq_getElem hlast, Option.getD_some]
  simp [beValue, leValue]

theorem inboundRoute_eq_some {id : ℕ} {route : Direction} :
    inboundRouteFromContractId id = some route ↔
      (id = 0x02 ∨ id = 0x04) ∧ route = if id = 0x02 then .rhnToGlc else .rhnToSol := by
  have hroutes : inboundRouteFromContractId id =
      if id = 0x02 then some .rhnToGlc else if id = 0x04 then some .rhnToSol else none := by
    unfold inboundRouteFromContractId inboundDepositRoutes
    by_cases htwo : id = 0x02
    · subst htwo
      decide
    · by_cases hfour : id = 0x04
      · subst hfour
        decide
      · simp [Direction.contractRouteId, Ne.symm htwo, Ne.symm hfour, htwo, hfour]
  rw [hroutes]
  split_ifs with htwo hfour
  · simp [htwo, eq_comm]
  · simp [hfour, eq_comm]
  · simp [htwo, hfour]

theorem toCanonical_eq_some {amount canonical : ℕ} :
    toCanonical amount = some canonical ↔ amount = canonical * 10 ^ 10 ∧ canonical < 2 ^ 64 := by
  unfold toCanonical canonicalToRobinhoodScale
  split_ifs with h
  · rw [Option.some_inj]
    omega
  · simp only [false_iff]
    omega

/-- Data of the right length, with its offset and its padding, is the encoding of what
it holds. -/
theorem data_eq_encode {data : List UInt8} (hoffset : wordAt data 64 = 96)
    (hlength : data.length = 96 + 32 + (wordAt data 96 + 31) / 32 * 32)
    (hpadding : AllZero ((data.drop 128).drop (wordAt data 96))) :
    data = beBytes 32 (wordAt data 0) ++ (beBytes 32 (wordAt data 32) ++ (beBytes 32 96 ++
      Abi.encodeBytes ((data.drop 128).take (wordAt data 96)))) := by
  have hdestination : ((data.drop 128).take (wordAt data 96)).length = wordAt data 96 := by
    rw [List.length_take, List.length_drop]
    omega
  have hrest : ((data.drop 128).drop (wordAt data 96)).length =
      Abi.ceil32 (wordAt data 96) - wordAt data 96 := by
    unfold Abi.ceil32
    rw [List.length_drop, List.length_drop]
    omega
  have hzeros := hpadding.eq_replicate
  rw [hrest] at hzeros
  calc data = data.drop 0 := List.drop_zero.symm
    _ = beBytes 32 (wordAt data 0) ++ data.drop 32 := drop_eq_word (by omega)
    _ = beBytes 32 (wordAt data 0) ++ (beBytes 32 (wordAt data 32) ++ data.drop 64) := by
      rw [@drop_eq_word data 32 (by omega)]
    _ = beBytes 32 (wordAt data 0) ++ (beBytes 32 (wordAt data 32) ++ (beBytes 32 96 ++
        data.drop 96)) := by
      rw [@drop_eq_word data 64 (by omega), hoffset]
    _ = _ := by
      rw [@drop_eq_word data 96 (by omega), Abi.encodeBytes, hdestination, ← hzeros,
        List.take_append_drop]

/-- What a decoded log says is an event of the contract, and the log is its encoding. -/
theorem encoded_of_decode {keccak256 : List UInt8 → Bytes32} {log : EvmRawLog}
    {event : DepositCreatedEvent} (h : decodeDepositCreated keccak256 log = .ok event) :
    ∃ e : Emission, e.Valid ∧ log.topics = e.topics keccak256 ∧ log.data = e.data ∧
      event = e.event log := by
  simp only [decodeDepositCreated, bind_eq_ok, exists_unit, require_eq_ok, orFail_eq_ok,
    pure_eq_ok, inboundRoute_eq_some, toCanonical_eq_some] at h
  obtain ⟨htopic0, hcount, hindex, hpad2, hpad3, route, ⟨hinbound, hroute⟩, hhead, hoffset, htail,
    hdeclared, hbounds, hlength, hpadding, hnonzero, hnarrow, derived, ⟨hamount, hderived⟩,
    hclaimed, hagree, hevent⟩ := h
  obtain ⟨topic0, topic1, topic2, topic3, htopics⟩ := List.length_eq_four.mp hcount
  have htopic1 : ((log.topics[1]?).map Vector.toList).getD [] = topic1.toList := by
    rw [htopics]
    rfl
  have htopic2 : ((log.topics[2]?).map Vector.toList).getD [] = topic2.toList := by
    rw [htopics]
    rfl
  have htopic3 : ((log.topics[3]?).map Vector.toList).getD [] = topic3.toList := by
    rw [htopics]
    rfl
  rw [htopic1] at hindex
  rw [htopic2] at hpad2
  rw [htopic3] at hpad3 hinbound hroute
  rw [htopic1, htopic2, htopic3] at hevent
  rw [← beValue_last] at hinbound hroute hevent
  have hdepositor : beValue (topic2.toList.drop 12) < 256 ^ 20 := by
    have hlt := beValue_lt (topic2.toList.drop 12)
    rwa [List.length_drop, Vector.length_toList] at hlt
  have hdestination : ((log.data.drop 128).take (wordAt log.data 96)).length =
      wordAt log.data 96 := by
    rw [List.length_take, List.length_drop]
    unfold dataHeadLen at hlength
    omega
  unfold maxDestinationLen dataHeadLen at hbounds
  refine ⟨⟨beValue topic1.toList, beValue (topic2.toList.drop 12), beValue (topic3.toList.drop 31),
    wordAt log.data 0, wordAt log.data 32, (log.data.drop 128).take (wordAt log.data 96)⟩,
    ?_, ?_, ?_, ?_⟩
  · constructor
    case index_lt => exact hindex
    case depositor_lt => omega
    case inbound => exact hinbound
    case amount_eq => rw [hagree, hamount]
    case canonical_pos =>
      change 1 ≤ wordAt log.data 32
      omega
    case canonical_lt => exact hclaimed
    case destination_pos => rw [hdestination]; omega
    case destination_le => rw [hdestination]; omega
  · rw [htopics, Emission.topics, ← natWord_beValue, ← natWord_of_padded (by omega) hpad2,
      ← natWord_of_padded (by omega) hpad3]
    rw [htopics, List.head?_cons] at htopic0
    rw [Option.some.inj htopic0]
  · rw [Emission.data_eq]
    exact data_eq_encode hoffset hlength hpadding
  · rw [← hevent, Emission.event, hroute, hagree]
    rfl

theorem wordAt_word {n : ℕ} (hn : n < 256 ^ 32) (rest : List UInt8) :
    wordAt (beBytes 32 n ++ rest) 0 = n := by
  have htake : (beBytes 32 n ++ rest).take 32 = beBytes 32 n :=
    List.take_left' (length_beBytes 32 n)
  rw [wordAt, List.drop_zero, htake, beValue_beBytes hn]

theorem drop_word (n : ℕ) (rest : List UInt8) (offset : ℕ) :
    (beBytes 32 n ++ rest).drop (offset + 32) = rest.drop offset := by
  rw [Nat.add_comm, ← List.drop_drop, List.drop_left' (length_beBytes 32 n)]

theorem wordAt_append (n : ℕ) (rest : List UInt8) (offset : ℕ) :
    wordAt (beBytes 32 n ++ rest) (offset + 32) = wordAt rest offset := by
  rw [wordAt, drop_word, wordAt]

theorem allZero_replicate (n : ℕ) : AllZero (List.replicate n 0) :=
  fun _ hb => List.eq_of_mem_replicate hb

/-- The word of a small number: its padding and its low bytes. -/
theorem padded_word {n m x : ℕ} (hx : x < 256 ^ m) :
    AllZero ((beBytes (n + m) x).take n) ∧ (beBytes (n + m) x).drop n = beBytes m x := by
  rw [beBytes_add hx, List.take_left' List.length_replicate, List.drop_left' List.length_replicate]
  exact ⟨allZero_replicate n, rfl⟩

/-- The encoding of an event of the contract is decoded to what it says. -/
theorem decode_encoded {keccak256 : List UInt8 → Bytes32} {log : EvmRawLog} {e : Emission}
    (he : e.Valid) (htopics : log.topics = e.topics keccak256) (hdata : log.data = e.data) :
    decodeDepositCreated keccak256 log = .ok (e.event log) := by
  obtain ⟨hindex, hdepositor, hinbound, hamount, hpos, hcanonical, hdestpos, hdestle⟩ := he
  rw [e.data_eq, Abi.encodeBytes] at hdata
  have hword0 : wordAt log.data 0 = e.amount := by
    rw [hdata]
    exact wordAt_word (by omega) _
  have hword1 : wordAt log.data 32 = e.canonicalAmount := by
    rw [hdata, wordAt_append _ _ 0]
    exact wordAt_word (by omega) _
  have hword2 : wordAt log.data 64 = 96 := by
    rw [hdata, wordAt_append _ _ 32, wordAt_append _ _ 0]
    exact wordAt_word (by decide) _
  have hword3 : wordAt log.data 96 = e.destination.length := by
    rw [hdata, wordAt_append _ _ 64, wordAt_append _ _ 32, wordAt_append _ _ 0]
    exact wordAt_word (by omega) _
  have hpayload : log.data.drop 128 = e.destination ++
      List.replicate (Abi.ceil32 e.destination.length - e.destination.length) 0 := by
    rw [hdata, drop_word _ _ 96, drop_word _ _ 64, drop_word _ _ 32, drop_word _ _ 0,
      List.drop_zero]
  have hlength : log.data.length = 128 + Abi.ceil32 e.destination.length := by
    have hle := Abi.le_ceil32 e.destination.length
    simp only [hdata, List.length_append, length_beBytes, List.length_replicate]
    omega
  have htopic1 : ((log.topics[1]?).map Vector.toList).getD [] = beBytes 32 e.obligationIndex := by
    rw [htopics]
    exact Abi.toList_natWord _
  have htopic2 : ((log.topics[2]?).map Vector.toList).getD [] = beBytes 32 e.depositor := by
    rw [htopics]
    exact Abi.toList_natWord _
  have htopic3 : ((log.topics[3]?).map Vector.toList).getD [] = (Abi.natWord e.route).toList := by
    rw [htopics]
    rfl
  obtain ⟨hpad2, hlow2⟩ := padded_word (n := 12) (m := 20) (x := e.depositor) (by omega)
  obtain ⟨hpad3, hlow3⟩ := padded_word (n := 31) (m := 1) (x := e.route) (by omega)
  have hroute : ((Abi.natWord e.route).toList.getD 31 0).toNat = e.route := by
    rw [← beValue_last, Abi.toList_natWord, hlow3, beValue_beBytes (by omega)]
  have hwords : wordAt log.data dataHeadLen = e.destination.length := hword3
  simp only [decodeDepositCreated, bind_eq_ok, exists_unit, require_eq_ok, orFail_eq_ok,
    pure_eq_ok, inboundRoute_eq_some, toCanonical_eq_some, htopic1, htopic2, htopic3, hroute,
    hword0, hword1, hword2, hwords]
  refine ⟨?_, ?_, ?_, hpad2, ?_, _, ⟨hinbound, rfl⟩, ?_, rfl, ?_, ?_, ?_, hlength, ?_, ?_, ?_,
    e.canonicalAmount, ⟨hamount, hcanonical⟩, hcanonical, rfl, ?_⟩
  · rw [htopics]
    rfl
  · rw [htopics]
    rfl
  · rwa [beValue_beBytes (by omega)]
  · rw [Abi.toList_natWord]
    exact hpad3
  · unfold dataHeadLen
    omega
  · unfold dataHeadLen
    omega
  · omega
  · exact ⟨by omega, hdestle⟩
  · change AllZero ((log.data.drop 128).drop e.destination.length)
    rw [hpayload, List.drop_left]
    exact allZero_replicate _
  · omega
  · omega
  · change DepositCreatedEvent.mk _ _ _ (beValue ((beBytes 32 e.depositor).drop 12))
      ((log.data.drop 128).take e.destination.length) _ _ _ _ _ _ _ _ = _
    rw [hpayload, List.take_left, hlow2, beValue_beBytes (n := 20) (by omega),
      beValue_beBytes (by omega)]
    rfl

/-- The decoder returns a deposit exactly where the log is the encoding of one that the
contract can make. -/
theorem decode_iff_encoded {keccak256 : List UInt8 → Bytes32} {log : EvmRawLog}
    {event : DepositCreatedEvent} :
    decodeDepositCreated keccak256 log = .ok event ↔
      ∃ e : Emission, e.Valid ∧ log.topics = e.topics keccak256 ∧ log.data = e.data ∧
        event = e.event log := by
  constructor
  · exact encoded_of_decode
  · rintro ⟨e, he, htopics, hdata, rfl⟩
    exact decode_encoded he htopics hdata

/-- What an event says of its emission is all of it. -/
theorem Emission.event_inj {e e' : Emission} {log log' : EvmRawLog}
    (h : e.event log = e'.event log') : e = e' := by
  obtain ⟨index, depositor, route, amount, canonical, destination⟩ := e
  obtain ⟨index', depositor', route', amount', canonical', destination'⟩ := e'
  simp only [event, DepositCreatedEvent.mk.injEq] at h
  obtain ⟨rfl, -, rfl, rfl, rfl, rfl, -, rfl, -⟩ := h
  rfl

theorem log_eq_of_decode {keccak256 : List UInt8 → Bytes32} {log log' : EvmRawLog}
    {event : DepositCreatedEvent} (h : decodeDepositCreated keccak256 log = .ok event)
    (h' : decodeDepositCreated keccak256 log' = .ok event) :
    log' = { log with removed := log'.removed } := by
  obtain ⟨e, -, htopics, hdata, hevent⟩ := encoded_of_decode h
  obtain ⟨e', -, htopics', hdata', hevent'⟩ := encoded_of_decode h'
  rw [hevent] at hevent'
  obtain rfl := Emission.event_inj hevent'
  rw [← htopics] at htopics'
  rw [← hdata] at hdata'
  simp only [Emission.event, DepositCreatedEvent.mk.injEq, true_and] at hevent'
  obtain ⟨address, topics, data, blockNumber, blockHash, txHash, logIndex, removed⟩ := log
  obtain ⟨address', topics', data', blockNumber', blockHash', txHash', logIndex', removed'⟩ := log'
  obtain ⟨rfl, rfl, rfl, rfl, rfl⟩ := hevent'
  obtain rfl : topics' = topics := htopics'
  obtain rfl : data' = data := hdata'
  rfl

/-- The decoder accepts exactly the encodings of deposits that the contract can make and
returns what they say, two accepted logs that say the same are the same but for what
the endpoint says of their block, and no log makes it read out of bounds. -/
theorem deposit_decoder_accepts_exactly_the_encodings (keccak256 : List UInt8 → Bytes32)
    (log log' : EvmRawLog) (event : DepositCreatedEvent) :
    (decodeDepositCreated keccak256 log = .ok event ↔
        ∃ e : Emission, e.Valid ∧ log.topics = e.topics keccak256 ∧ log.data = e.data ∧
          event = e.event log) ∧
      (decodeDepositCreated keccak256 log = .ok event ∧
          decodeDepositCreated keccak256 log' = .ok event →
        log' = { log with removed := log'.removed }) ∧
      (decodeWithinBounds keccak256 log).run = some (decodeDepositCreated keccak256 log) := by
  refine ⟨decode_iff_encoded, ?_, decodeWithinBounds_eq keccak256 log⟩
  rintro ⟨h, h'⟩
  exact log_eq_of_decode h h'

/-! ## The deposits of the contract -/

/-- A deposit that went through emits a valid event, as long as its index and its amount
fit what the service can hold. -/
theorem deposit_emits_valid {I : Evm.Immutables} {w w' : Evm.World} {env : Evm.CallEnv}
    {route amount index : ℕ} {destination : List UInt8}
    (h : Evm.deposit I w env route amount destination = .ok (index, w'))
    (hindex : index < 2 ^ 64) (hsender : env.sender < 2 ^ 160)
    (hamount : amount / Evm.canonicalScale < 2 ^ 64) :
    (Emission.mk index env.sender route amount (amount / Evm.canonicalScale)
      destination).Valid := by
  simp only [Evm.deposit, Evm.requireCanonicalAmount, bind_eq_ok, require_eq_ok, pure_eq_ok,
    exists_unit, Prod.mk.injEq] at h
  obtain ⟨-, -, ⟨_, _, inbound⟩, hlegs, rfl, -, hdestination, ⟨hnonzero, hmultiple⟩, -⟩ := h
  unfold Evm.canonicalScale at hmultiple
  unfold Evm.maxDestinationLen at hdestination
  have hroute : route = 0x02 ∨ route = 0x04 := by
    unfold Evm.routeLegs at hlegs
    split_ifs at hlegs with h1 h2 h3 h4
    · cases hlegs
    · exact .inl h2
    · cases hlegs
    · exact .inr h4
  constructor
  case index_lt => exact hindex
  case depositor_lt => exact hsender
  case inbound => exact hroute
  case amount_eq =>
    change amount = amount / 10 ^ 10 * 10 ^ 10
    omega
  case canonical_pos =>
    change 1 ≤ amount / 10 ^ 10
    omega
  case canonical_lt => exact hamount
  case destination_pos => exact Nat.pos_of_ne_zero hdestination.1
  case destination_le => exact hdestination.2

/-- Every such deposit is decoded from the log it leaves, to what was deposited. -/
theorem deposit_is_decoded {keccak256 : List UInt8 → Bytes32} {I : Evm.Immutables}
    {w w' : Evm.World} {env : Evm.CallEnv} {route amount index : ℕ} {destination : List UInt8}
    {log : EvmRawLog} (h : Evm.deposit I w env route amount destination = .ok (index, w'))
    (hindex : index < 2 ^ 64) (hsender : env.sender < 2 ^ 160)
    (hamount : amount / Evm.canonicalScale < 2 ^ 64)
    (htopics : log.topics = (Emission.mk index env.sender route amount
      (amount / Evm.canonicalScale) destination).topics keccak256)
    (hdata : log.data = (Emission.mk index env.sender route amount
      (amount / Evm.canonicalScale) destination).data) :
    ∃ event, decodeDepositCreated keccak256 log = .ok event ∧ event.obligationIndex = index ∧
      event.depositor = env.sender ∧ event.amount = amount ∧ event.destination = destination :=
  ⟨_, decode_encoded (deposit_emits_valid h hindex hsender hamount) htopics hdata, rfl, rfl, rfl,
    rfl⟩

end Service.Robinhood
