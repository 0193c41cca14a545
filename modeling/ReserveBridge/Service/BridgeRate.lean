-- SUMMARY: Amounts at a bridge rate: the fee rule, the quote of a deposit, the row that stores it, the scale read off the row, and the verification of what settles.
import ReserveBridge.Service.Ledger.Goldcoin

/-!
# Amounts at a bridge rate

`service/src/amount_conversion.rs` and `service/src/bridge_rate.rs`. A quote is
floored to whole units of the destination. The scale of that floor is no column
of its own: the row gives it away as the ratio of its net to its destination
figure.
-/

namespace Service
open Guard

/-! ## Conversion -/

abbrev U64 := Fin (2 ^ 64)

instance u64NeZero : NeZero (2 ^ 64) := ⟨by decide⟩

/-- `ConversionError`. -/
inductive ConversionError
  | notExactlyRepresentable (amount : U64) (fromDecimals toDecimals remainder : ℕ)
  | overflow (amount : U64)
  | accountingMismatch (gross storedFee recomputedFee storedNet recomputedNet : U64)
  | feeBpsOutOfRange (feeBps max : ℕ)
  | invalidBridgePrice (sourcePrice destinationPrice : U64)
  | quoteMismatch (grossIn sourcePrice destinationPrice storedGrossOut recomputedGrossOut storedFee
      recomputedFee storedNet recomputedNet : U64)
  | quoteNotLocked (quotedAt : ℤ)
  | invalidDestinationScale
  deriving DecidableEq

/-- `u64::try_from`, and the checked operations of `u64`. -/
def narrow (n : ℕ) (e : ConversionError) : Except ConversionError U64 :=
  if h : n < 2 ^ 64 then .ok ⟨n, h⟩ else .error e

/-- `convert_atomic_amount`. -/
def convertAtomicAmount (amount : U64) (fromDecimals toDecimals : ℕ) : Except ConversionError U64 :=
  if fromDecimals = toDecimals then .ok amount
  else if fromDecimals < toDecimals then do
    let scale ← narrow (10 ^ (toDecimals - fromDecimals)) (.overflow amount)
    narrow (amount * scale) (.overflow amount)
  else do
    let scale ← narrow (10 ^ (fromDecimals - toDecimals)) (.overflow amount)
    require (amount.val % scale = 0)
      (.notExactlyRepresentable amount fromDecimals toDecimals (amount % scale))
    return ⟨amount / scale, (Nat.div_le_self _ _).trans_lt amount.isLt⟩

/-- `GOLDCOIN_DECIMALS`. -/
def goldcoinDecimals : ℕ := 8

/-- `goldcoin_to_solana_atomic`. -/
def goldcoinToSolanaAtomic (amount : U64) (solanaDecimals : ℕ) : Except ConversionError U64 :=
  convertAtomicAmount amount goldcoinDecimals solanaDecimals

/-- `destination_scale_for_decimals`. -/
def destinationScaleForDecimals (decimals : ℕ) : ℕ :=
  if goldcoinDecimals ≤ decimals then 1 else 10 ^ (goldcoinDecimals - decimals)

/-! ## The fee rule and the quote -/

/-- `FeeBreakdown`. -/
structure FeeBreakdown where
  gross : U64
  feeBps : ℕ
  fee : U64
  net : U64
  deriving DecidableEq

/-- `BPS_DENOMINATOR`. -/
def bpsDenominator : ℕ := 10000

/-- `compute_fee_at_bps`. -/
def computeFeeAtBps (gross : U64) (feeBps : ℕ) : Except ConversionError FeeBreakdown := do
  require (feeBps ≤ bpsDenominator) (.feeBpsOutOfRange feeBps bpsDenominator)
  let scaled ← narrow (gross * feeBps) (.overflow gross)
  let fee ← narrow (scaled / bpsDenominator) (.overflow gross)
  require (fee ≤ gross) (.overflow gross)
  return ⟨gross, feeBps, fee, ⟨gross - fee, (Nat.sub_le _ _).trans_lt gross.isLt⟩⟩

/-- `verify_fee_breakdown`. -/
def verifyFeeBreakdown (gross : U64) (storedFeeBps : ℕ) (storedFee storedNet : U64) :
    Except ConversionError FeeBreakdown := do
  let fb ← computeFeeAtBps gross storedFeeBps
  require (fb.fee = storedFee ∧ fb.net = storedNet)
    (.accountingMismatch gross storedFee fb.fee storedNet fb.net)
  return fb

/-- `gross_out_at_rate`. -/
def grossOutAtRate (grossIn sourcePrice destinationPrice : U64) : Except ConversionError U64 := do
  require (sourcePrice ≠ 0 ∧ destinationPrice ≠ 0) (.invalidBridgePrice sourcePrice destinationPrice)
  narrow (grossIn.val * sourcePrice.val / destinationPrice.val) (.overflow grossIn)

/-- `QuotedBreakdown`. -/
structure QuotedBreakdown where
  grossOut : U64
  feeBps : ℕ
  feeOut : U64
  netOut : U64
  dustOut : U64
  deriving DecidableEq

/-- `as_fee_breakdown`. -/
def QuotedBreakdown.asFeeBreakdown (q : QuotedBreakdown) : FeeBreakdown :=
  ⟨q.grossOut, q.feeBps, q.feeOut, q.netOut⟩

/-- `quoted_breakdown`: the fee is taken off what the rate yields, and the net is
floored to whole units of the destination. -/
def quotedBreakdown (grossIn sourcePrice destinationPrice : U64) (feeBps destinationScale : ℕ) :
    Except ConversionError QuotedBreakdown := do
  require (destinationScale ≠ 0) .invalidDestinationScale
  let grossOut ← grossOutAtRate grossIn sourcePrice destinationPrice
  let fb ← computeFeeAtBps grossOut feeBps
  return {
    grossOut := fb.gross
    feeBps := fb.feeBps
    feeOut := fb.fee
    netOut := ⟨fb.net - fb.net % destinationScale, (Nat.sub_le _ _).trans_lt fb.net.isLt⟩
    dustOut := ⟨fb.net % destinationScale, (Nat.mod_le _ _).trans_lt fb.net.isLt⟩ }

/-- `RailPrices`. -/
structure RailPrices where
  sourcePrice : U64
  destinationPrice : U64
  sourceFeedAt : ℤ
  destinationFeedAt : ℤ
  deriving DecidableEq

/-- `BridgeQuote`. -/
structure BridgeQuote where
  sourcePrice : U64
  destinationPrice : U64
  grossIn : U64
  grossOut : U64
  feeBps : ℕ
  feeOut : U64
  netOut : U64
  dustOut : U64
  quotedAt : ℤ
  quoteExpiresAt : ℤ
  sourceFeedAt : ℤ
  destinationFeedAt : ℤ
  deriving DecidableEq

/-- `BridgeQuote::breakdown`. -/
def BridgeQuote.breakdown (q : BridgeQuote) : FeeBreakdown :=
  ⟨q.grossOut, q.feeBps, q.feeOut, q.netOut⟩

/-- `i64::saturating_add`. -/
def saturatingAddI64 (a b : ℤ) : ℤ := max (-2 ^ 63) (min (a + b) (2 ^ 63 - 1))

/-- `compute_bridge_quote`. -/
def computeBridgeQuote (grossIn : U64) (prices : RailPrices) (feeBps : ℕ)
    (now quoteLifetimeSecs : ℤ) (destinationScale : ℕ) : Except ConversionError BridgeQuote := do
  let breakdown ← quotedBreakdown grossIn prices.sourcePrice prices.destinationPrice feeBps
    destinationScale
  return {
    sourcePrice := prices.sourcePrice
    destinationPrice := prices.destinationPrice
    grossIn := grossIn
    grossOut := breakdown.grossOut
    feeBps := feeBps
    feeOut := breakdown.feeOut
    netOut := breakdown.netOut
    dustOut := breakdown.dustOut
    quotedAt := now
    quoteExpiresAt := saturatingAddI64 now quoteLifetimeSecs
    sourceFeedAt := prices.sourceFeedAt
    destinationFeedAt := prices.destinationFeedAt }

/-- `verify_quoted_breakdown`. -/
def verifyQuotedBreakdown (grossIn sourcePrice destinationPrice : U64) (feeBps : ℕ)
    (storedGrossOut storedFeeOut storedNetOut : U64) (destinationScale : ℕ) :
    Except ConversionError FeeBreakdown := do
  let qb ← quotedBreakdown grossIn sourcePrice destinationPrice feeBps destinationScale
  let fb := qb.asFeeBreakdown
  require (fb.gross = storedGrossOut ∧ fb.fee = storedFeeOut ∧ fb.net = storedNetOut)
    (.quoteMismatch grossIn sourcePrice destinationPrice storedGrossOut fb.gross storedFeeOut fb.fee
      storedNetOut fb.net)
  return fb

/-- `PersistedQuote`. -/
structure PersistedQuote where
  sourcePrice : U64
  destinationPrice : U64
  grossOut : U64
  quotedAt : ℤ
  quoteExpiresAt : ℤ
  sourceFeedAt : ℤ
  destinationFeedAt : ℤ
  lockedAt : Option ℤ
  deriving DecidableEq

/-- `verify_request_amounts`. -/
def verifyRequestAmounts (quote : Option PersistedQuote) (gross : U64) (feeBps : ℕ) (fee net : U64)
    (destinationScale : ℕ) : Except ConversionError FeeBreakdown :=
  match quote with
  | none => verifyFeeBreakdown gross feeBps fee net
  | some q => do
    require q.lockedAt.isSome (.quoteNotLocked q.quotedAt)
    verifyQuotedBreakdown gross q.sourcePrice q.destinationPrice feeBps q.grossOut fee net
      destinationScale

/-! ## The row -/

/-- The amounts of a `BridgeRequest`, as they are read. -/
structure BridgeRequest where
  direction : Direction
  gross : U64
  feeBps : ℕ
  feeAmount : U64
  netAmount : U64
  netDestination : U64
  quote : Option PersistedQuote
  deriving DecidableEq

/-- `BridgeRequest::destination_scale`. -/
def BridgeRequest.destinationScale (r : BridgeRequest) : ℕ :=
  if ¬ r.direction.destinationIsSolana then 1
  else if 0 < r.netDestination.val ∧ r.netAmount.val % r.netDestination.val = 0 ∧
      0 < r.netAmount.val / r.netDestination.val then
    r.netAmount / r.netDestination
  else 1

/-- `BridgeRequest::verify_breakdown`. -/
def BridgeRequest.verifyBreakdown (r : BridgeRequest) : Except ConversionError FeeBreakdown :=
  verifyRequestAmounts r.quote r.gross r.feeBps r.feeAmount r.netAmount r.destinationScale

/-- `Ledger::destination_scale_of`, of the columns. -/
def destinationScaleOf (d : Direction) (net netDestination : ℤ) : ℤ :=
  if ¬ d.destinationIsSolana ∨ netDestination ≤ 0 ∨ net ≤ 0 then 1
  else if net % netDestination = 0 then net / netDestination
  else 1

/-- The observation of a deposit reads the scale off its row in the same way. -/
theorem Request.destinationScale_eq (r : Request) :
    r.destinationScale = destinationScaleOf r.direction r.netAmount r.netDestination := rfl

/-- The amounts of a row as columns. -/
structure AmountColumns where
  direction : Direction
  gross : ℤ
  feeBps : ℤ
  feeAmount : ℤ
  netAmount : ℤ
  netDestination : ℤ
  sourcePrice : ℤ
  destinationPrice : ℤ
  grossOut : ℤ
  quotedAt : ℤ
  quoteExpiresAt : ℤ
  sourceFeedAt : ℤ
  destinationFeedAt : ℤ
  lockedAt : Option ℤ
  deriving DecidableEq

/-- The constraints of the columns. -/
def AmountColumns.Valid (c : AmountColumns) : Prop :=
  0 < c.gross ∧ 0 < c.sourcePrice ∧ 0 < c.destinationPrice ∧ 0 ≤ c.grossOut

instance (c : AmountColumns) : Decidable c.Valid := inferInstanceAs (Decidable (_ ∧ _ ∧ _ ∧ _))

/-- The columns of a quoted row. -/
def BridgeQuote.columns (q : BridgeQuote) (d : Direction) (netDestination : U64)
    (lockedAt : Option ℤ) : AmountColumns where
  direction := d
  gross := asI64 q.grossIn.val
  feeBps := asI64 q.feeBps
  feeAmount := asI64 q.feeOut.val
  netAmount := asI64 q.netOut.val
  netDestination := asI64 netDestination.val
  sourcePrice := asI64 q.sourcePrice.val
  destinationPrice := asI64 q.destinationPrice.val
  grossOut := asI64 q.grossOut.val
  quotedAt := q.quotedAt
  quoteExpiresAt := q.quoteExpiresAt
  sourceFeedAt := q.sourceFeedAt
  destinationFeedAt := q.destinationFeedAt
  lockedAt := lockedAt

/-- A column as it is read, `as u64`. -/
def readU64 (x : ℤ) : U64 := ⟨asU64 x, by unfold asU64; omega⟩

/-- `row_to_request`, of a quoted row. -/
def AmountColumns.request (c : AmountColumns) : BridgeRequest where
  direction := c.direction
  gross := readU64 c.gross
  feeBps := readU64 c.feeBps
  feeAmount := readU64 c.feeAmount
  netAmount := readU64 c.netAmount
  netDestination := readU64 c.netDestination
  quote := some {
    sourcePrice := readU64 c.sourcePrice
    destinationPrice := readU64 c.destinationPrice
    grossOut := readU64 c.grossOut
    quotedAt := c.quotedAt
    quoteExpiresAt := c.quoteExpiresAt
    sourceFeedAt := c.sourceFeedAt
    destinationFeedAt := c.destinationFeedAt
    lockedAt := c.lockedAt }

/-! ## What a quote is -/

theorem narrow_eq_ok {n : ℕ} {e : ConversionError} {u : U64} : narrow n e = .ok u ↔ n = u.val := by
  unfold narrow
  constructor
  · intro h
    split_ifs at h with hn
    exact congrArg Fin.val (Except.ok.inj h)
  · rintro rfl
    rw [dif_pos u.isLt]

theorem narrow_of_lt {n : ℕ} {e : ConversionError} (h : n < 2 ^ 64) : narrow n e = .ok ⟨n, h⟩ :=
  dif_pos h

theorem narrow_of_le {n : ℕ} {e : ConversionError} (h : 2 ^ 64 ≤ n) : narrow n e = .error e :=
  dif_neg (Nat.not_lt.mpr h)

/-- What the rate and the fee rule leave of a deposit, before it is floored. -/
def pricedNet (grossIn sourcePrice destinationPrice : U64) (feeBps : ℕ) : ℕ :=
  let grossOut := grossIn.val * sourcePrice.val / destinationPrice.val
  grossOut - grossOut * feeBps / bpsDenominator

theorem computeFeeAtBps_eq_ok {gross : U64} {feeBps : ℕ} {fb : FeeBreakdown}
    (h : computeFeeAtBps gross feeBps = .ok fb) :
    feeBps ≤ bpsDenominator ∧ fb.gross = gross ∧ fb.feeBps = feeBps ∧
      fb.fee.val = gross.val * feeBps / bpsDenominator ∧
      fb.net.val = gross.val - gross.val * feeBps / bpsDenominator := by
  simp only [computeFeeAtBps, bind_eq_ok, require_eq_ok, exists_unit, narrow_eq_ok, pure_eq_ok] at h
  obtain ⟨hbps, scaled, hscaled, fee, hfee, -, rfl⟩ := h
  have hval : fee.val = gross.val * feeBps / bpsDenominator := by rw [← hfee, ← hscaled]
  exact ⟨hbps, rfl, rfl, hval, congrArg (gross.val - ·) hval⟩

/-- A fee is at most the gross it is taken off. -/
theorem fee_le {feeBps : ℕ} (hbps : feeBps ≤ bpsDenominator) (gross : ℕ) :
    gross * feeBps / bpsDenominator ≤ gross :=
  Nat.div_le_of_le_mul ((Nat.mul_comm _ _).trans_le (Nat.mul_le_mul_right _ hbps))

/-- The fee rule fails only where its product does not fit in 64 bits. -/
theorem computeFeeAtBps_of_lt {gross : U64} {feeBps : ℕ} (hbps : feeBps ≤ bpsDenominator)
    (h : gross.val * feeBps < 2 ^ 64) : ∃ fb, computeFeeAtBps gross feeBps = .ok fb := by
  have hfee := fee_le hbps gross.val
  have hle : gross.val * feeBps / bpsDenominator < 2 ^ 64 := hfee.trans_lt gross.isLt
  simp only [computeFeeAtBps, bind_eq_ok, require_eq_ok, exists_unit, narrow_eq_ok, pure_eq_ok]
  exact ⟨_, hbps, ⟨_, h⟩, rfl, ⟨_, hle⟩, rfl, Fin.le_def.mpr hfee, rfl⟩

theorem computeFeeAtBps_of_le {gross : U64} {feeBps : ℕ} (hbps : feeBps ≤ bpsDenominator)
    (h : 2 ^ 64 ≤ gross.val * feeBps) : computeFeeAtBps gross feeBps = .error (.overflow gross) := by
  simp only [computeFeeAtBps, bind_eq_error, require_eq_ok, require_eq_error, exists_unit]
  exact .inr ⟨hbps, .inl (narrow_of_le h)⟩

/-- The figures of a breakdown. -/
theorem quotedBreakdown_eq_ok {grossIn sourcePrice destinationPrice : U64} {feeBps scale : ℕ}
    {q : QuotedBreakdown}
    (h : quotedBreakdown grossIn sourcePrice destinationPrice feeBps scale = .ok q) :
    scale ≠ 0 ∧ feeBps ≤ bpsDenominator ∧ q.feeBps = feeBps ∧
      q.grossOut.val = grossIn.val * sourcePrice.val / destinationPrice.val ∧
      q.grossOut.val = q.feeOut + pricedNet grossIn sourcePrice destinationPrice feeBps ∧
      q.netOut.val = pricedNet grossIn sourcePrice destinationPrice feeBps -
        pricedNet grossIn sourcePrice destinationPrice feeBps % scale ∧
      q.dustOut.val = pricedNet grossIn sourcePrice destinationPrice feeBps % scale := by
  simp only [quotedBreakdown, grossOutAtRate, bind_eq_ok, require_eq_ok, exists_unit, narrow_eq_ok,
    pure_eq_ok] at h
  obtain ⟨hscale, grossOut, ⟨-, hgross⟩, fb, hfb, rfl⟩ := h
  obtain ⟨hbps, rfl, hfeeBps, hfee, hnet⟩ := computeFeeAtBps_eq_ok hfb
  have hpriced : fb.net.val = pricedNet grossIn sourcePrice destinationPrice feeBps := by
    rw [hnet, pricedNet, hgross]
  have hle := fee_le hbps fb.gross.val
  refine ⟨hscale, hbps, hfeeBps, hgross.symm, ?_, ?_, ?_⟩
  · change fb.gross.val = fb.fee.val + _
    rw [← hpriced, hnet, hfee]
    omega
  · exact congrArg (fun n => n - n % scale) hpriced
  · exact congrArg (· % scale) hpriced

theorem computeBridgeQuote_eq_ok {grossIn : U64} {prices : RailPrices} {feeBps scale : ℕ}
    {now lifetime : ℤ} {q : BridgeQuote}
    (h : computeBridgeQuote grossIn prices feeBps now lifetime scale = .ok q) :
    (q.grossIn = grossIn ∧ q.sourcePrice = prices.sourcePrice ∧
      q.destinationPrice = prices.destinationPrice ∧ q.feeBps = feeBps) ∧
      quotedBreakdown grossIn prices.sourcePrice prices.destinationPrice feeBps scale =
        .ok ⟨q.grossOut, q.feeBps, q.feeOut, q.netOut, q.dustOut⟩ := by
  simp only [computeBridgeQuote, bind_eq_ok, pure_eq_ok] at h
  obtain ⟨b, hb, rfl⟩ := h
  have hfeeBps := (quotedBreakdown_eq_ok hb).2.2.1
  refine ⟨⟨rfl, rfl, rfl, rfl⟩, ?_⟩
  rw [hb, ← hfeeBps]

/-- What a fee leaves grows with the gross: the fee grows by no more than what it is
taken off. -/
theorem net_mono {a b feeBps : ℕ} (h : a ≤ b) (hbps : feeBps ≤ bpsDenominator) :
    a - a * feeBps / bpsDenominator ≤ b - b * feeBps / bpsDenominator := by
  obtain ⟨k, rfl⟩ := Nat.exists_eq_add_of_le h
  have hfee : (a + k) * feeBps / bpsDenominator ≤ a * feeBps / bpsDenominator + k := by
    rw [← Nat.add_mul_div_right _ _ (by decide : 0 < bpsDenominator), Nat.add_mul]
    exact Nat.div_le_div_right (Nat.add_le_add_left (Nat.mul_le_mul_left k hbps) _)
  have hle := fee_le hbps a
  omega

theorem pricedNet_mono {a b sourcePrice destinationPrice : U64} {feeBps : ℕ} (h : a.val ≤ b.val)
    (hbps : feeBps ≤ bpsDenominator) :
    pricedNet a sourcePrice destinationPrice feeBps ≤ pricedNet b sourcePrice destinationPrice feeBps :=
  net_mono (Nat.div_le_div_right (Nat.mul_le_mul_right sourcePrice.val h)) hbps

theorem sub_mod_mono {m n : ℕ} (h : m ≤ n) (scale : ℕ) : m - m % scale ≤ n - n % scale := by
  have hm := Nat.div_add_mod m scale
  have hn := Nat.div_add_mod n scale
  have hdiv := Nat.mul_le_mul_left scale (Nat.div_le_div_right (c := scale) h)
  omega

/-! ## The row of a quote -/

theorem asU64_asI64 {n : ℕ} (h : n < 2 ^ 64) : asU64 (asI64 n) = n := by
  have hmod : Int.bmod n (2 ^ 64) % ((2 ^ 64 : ℕ) : ℤ) = n % ((2 ^ 64 : ℕ) : ℤ) := Int.bmod_emod
  unfold asU64 asI64
  omega

/-- The lower half of `u64` is what is not negative as a column. -/
theorem asI64_nonneg_iff {n : ℕ} (h : n < 2 ^ 64) : 0 ≤ asI64 n ↔ n < 2 ^ 63 := by
  unfold asI64
  rw [Int.bmod_def]
  split_ifs <;> omega

theorem asI64_natCast {n : ℕ} (h : n < 2 ^ 63) : asI64 n = (n : ℤ) :=
  asI64_of_lt (by omega) (by omega)

theorem readU64_asI64 (u : U64) : readU64 (asI64 u.val) = u := by
  obtain ⟨n, hn⟩ := u
  have hval : asU64 (asI64 n) = n := asU64_asI64 hn
  simp only [readU64, hval]

/-- The destination figure of a net in units of the destination, where a unit is
`scale` canonical units, or where it is finer. -/
def ExactDestination (d : Direction) (scale : ℕ) (net netDestination : U64) : Prop :=
  if d.destinationIsSolana then
    netDestination.val * scale = net.val ∨ scale = 1 ∧ net.val ≤ netDestination.val
  else scale = 1

instance (d : Direction) (scale : ℕ) (net netDestination : U64) :
    Decidable (ExactDestination d scale net netDestination) :=
  inferInstanceAs (Decidable (ite _ _ _))

/-- The ratio of the columns of a net and of its exact destination figure. -/
theorem destinationScaleOf_exact {d : Direction} {net netDestination scale : ℕ}
    (hd : d.destinationIsSolana) (hnet : 0 < net) (hnet63 : net < 2 ^ 63)
    (hdest64 : netDestination < 2 ^ 64)
    (h : netDestination * scale = net ∨ scale = 1 ∧ net ≤ netDestination) :
    destinationScaleOf d (asI64 net) (asI64 netDestination) = scale := by
  unfold destinationScaleOf
  rw [asI64_natCast hnet63]
  rcases h with hexact | ⟨rfl, hfine⟩
  · have hpos : 0 < netDestination := Nat.pos_of_mul_pos_right (hexact ▸ hnet)
    have hscale : 0 < scale := Nat.pos_of_mul_pos_left (hexact ▸ hnet)
    have hle : netDestination ≤ net := hexact ▸ Nat.le_mul_of_pos_right _ hscale
    have hsmall : ¬ (¬ d.destinationIsSolana ∨ (netDestination : ℤ) ≤ 0 ∨ (net : ℤ) ≤ 0) := by
      rintro (h | h)
      · exact h hd
      · omega
    rw [asI64_natCast (hle.trans_lt hnet63), if_neg hsmall, ← hexact]
    push_cast
    rw [Int.mul_emod_right, if_pos rfl]
    exact Int.mul_ediv_cancel_left _ (by omega)
  · by_cases hsmall : netDestination < 2 ^ 63
    · have hpos : ¬ (¬ d.destinationIsSolana ∨ (netDestination : ℤ) ≤ 0 ∨ (net : ℤ) ≤ 0) := by
        rintro (h | h)
        · exact h hd
        · omega
      rw [asI64_natCast hsmall, if_neg hpos]
      split_ifs with hmod
      · obtain rfl : netDestination = net := by
          by_contra hne
          rw [Int.emod_eq_of_lt (by omega) (by omega)] at hmod
          omega
        exact Int.ediv_self (by omega)
      · rfl
    · -- a figure that does not fit a column reads as negative
      have hneg := mt (asI64_nonneg_iff hdest64).mp hsmall
      rw [if_pos (.inr (.inl (by omega)))]
      rfl

/-- The conversion to the decimals of the mint is exact in this sense. -/
theorem exactDestination_of_convert {d : Direction} {decimals : ℕ} {net netDestination : U64}
    (h : goldcoinToSolanaAtomic net decimals = .ok netDestination) (hd : d.destinationIsSolana) :
    ExactDestination d (destinationScaleForDecimals decimals) net netDestination := by
  unfold ExactDestination destinationScaleForDecimals
  rw [if_pos hd]
  unfold goldcoinToSolanaAtomic convertAtomicAmount at h
  split_ifs at h with heq hlt
  · rw [if_pos heq.le]
    exact .inr ⟨rfl, (congrArg Fin.val (Except.ok.inj h)).le⟩
  · rw [if_pos hlt.le]
    simp only [bind_eq_ok, narrow_eq_ok] at h
    obtain ⟨scale, hscale, hnet⟩ := h
    refine .inr ⟨rfl, ?_⟩
    rw [← hnet, ← hscale]
    exact Nat.le_mul_of_pos_right _ (Nat.pow_pos (by decide))
  · rw [if_neg (by omega)]
    simp only [bind_eq_ok, narrow_eq_ok, require_eq_ok, exists_unit, pure_eq_ok] at h
    obtain ⟨scale, hscale, hmod, rfl⟩ := h
    refine .inl ?_
    rw [hscale]
    exact Nat.div_mul_cancel (Nat.dvd_of_mod_eq_zero hmod)

namespace BridgeQuote

variable {q : BridgeQuote} {d : Direction} {netDestination : U64} {scale : ℕ} {lockedAt : Option ℤ}

/-- A stored quote is read back as it was struck. -/
theorem request_columns (hbps : q.feeBps ≤ bpsDenominator) :
    (q.columns d netDestination lockedAt).request =
      { direction := d
        gross := q.grossIn
        feeBps := q.feeBps
        feeAmount := q.feeOut
        netAmount := q.netOut
        netDestination := netDestination
        quote := some ⟨q.sourcePrice, q.destinationPrice, q.grossOut, q.quotedAt, q.quoteExpiresAt,
          q.sourceFeedAt, q.destinationFeedAt, lockedAt⟩ } := by
  have hfeeBps : asU64 (asI64 q.feeBps) = q.feeBps := asU64_asI64 (hbps.trans_lt (by decide))
  simp only [AmountColumns.request, columns, readU64_asI64]
  simp only [readU64, hfeeBps]

/-- The row as it is read gives the scale of its quote away. -/
theorem destinationScale_request (hbps : q.feeBps ≤ bpsDenominator) (hnet : 0 < q.netOut.val)
    (hdest : ExactDestination d scale q.netOut netDestination) :
    (q.columns d netDestination lockedAt).request.destinationScale = scale := by
  rw [request_columns hbps]
  unfold BridgeRequest.destinationScale
  unfold ExactDestination at hdest
  by_cases hd : d.destinationIsSolana
  · rw [if_pos hd] at hdest
    rw [if_neg (not_not.mpr hd)]
    dsimp only
    rcases hdest with hexact | ⟨rfl, hfine⟩
    · have hpos : 0 < netDestination.val := Nat.pos_of_mul_pos_right (hexact ▸ hnet)
      have hdiv : q.netOut.val / netDestination.val = scale := by
        rw [← hexact]
        exact Nat.mul_div_cancel_left scale hpos
      have hmod : q.netOut.val % netDestination.val = 0 := by
        rw [← hexact]
        exact Nat.mul_mod_right _ _
      rw [if_pos ⟨hpos, hmod, hdiv ▸ Nat.pos_of_mul_pos_left (hexact ▸ hnet)⟩, hdiv]
    · -- a ratio of whole units is one to one
      split_ifs with hratio
      · refine le_antisymm (Nat.div_le_of_le_mul ?_) hratio.2.2
        rw [Nat.mul_one]
        exact hfine
      · rfl
  · rw [if_neg hd] at hdest
    rw [if_pos hd, hdest]

/-- So do its columns. The constraint on the gross keeps the net in their range. -/
theorem destinationScaleOf_columns (hnet : 0 < q.netOut.val) (hle : q.netOut.val ≤ q.grossOut.val)
    (hdest : ExactDestination d scale q.netOut netDestination)
    (hvalid : (q.columns d netDestination lockedAt).Valid) :
    destinationScaleOf d (q.columns d netDestination lockedAt).netAmount
      (q.columns d netDestination lockedAt).netDestination = scale := by
  obtain ⟨-, -, -, hgross⟩ := hvalid
  simp only [columns] at hgross ⊢
  have hnet63 : q.netOut.val < 2 ^ 63 :=
    hle.trans_lt ((asI64_nonneg_iff q.grossOut.isLt).mp hgross)
  unfold ExactDestination at hdest
  by_cases hd : d.destinationIsSolana
  · rw [if_pos hd] at hdest
    have hdest64 : netDestination.val < 2 ^ 64 := netDestination.isLt
    exact destinationScaleOf_exact hd hnet hnet63 hdest64 hdest
  · rw [if_neg hd] at hdest
    unfold destinationScaleOf
    rw [if_pos (.inl hd), hdest]
    rfl

/-- What is read back verifies, at the scale it was struck at. -/
theorem verifyBreakdown_request {grossIn : U64} {prices : RailPrices} {feeBps : ℕ}
    {now lifetime : ℤ} (hq : computeBridgeQuote grossIn prices feeBps now lifetime scale = .ok q)
    (hbps : q.feeBps ≤ bpsDenominator) (hlocked : lockedAt.isSome)
    (hscale : (q.columns d netDestination lockedAt).request.destinationScale = scale) :
    (q.columns d netDestination lockedAt).request.verifyBreakdown = .ok q.breakdown := by
  obtain ⟨⟨hgross, hsource, hdestination, hfeeBps⟩, hb⟩ := computeBridgeQuote_eq_ok hq
  unfold BridgeRequest.verifyBreakdown
  rw [hscale, request_columns hbps]
  simp only [verifyRequestAmounts, verifyQuotedBreakdown, bind_eq_ok, require_eq_ok, exists_unit,
    pure_eq_ok]
  refine ⟨hlocked, ⟨q.grossOut, q.feeBps, q.feeOut, q.netOut, q.dustOut⟩, ?_, ⟨rfl, rfl, rfl⟩, rfl⟩
  rw [hgross, hsource, hdestination, hfeeBps, hb, hfeeBps]

end BridgeQuote

/-- A stored quote is verifiable from its row alone: the figures add up to the
gross, the scale is read off the row as it was, by the request and by the ledger,
and the verification returns what was struck. More of a deposit yields no less. -/
theorem quote_verifiable (d : Direction) (grossIn netDestination : U64) (prices : RailPrices)
    (feeBps scale : ℕ) (now lifetime lockedAt : ℤ) (q : BridgeQuote)
    (hq : computeBridgeQuote grossIn prices feeBps now lifetime scale = .ok q)
    (hnet : 0 < q.netOut.val) (hdest : ExactDestination d scale q.netOut netDestination)
    (hvalid : (q.columns d netDestination (some lockedAt)).Valid) :
    (q.grossOut.val = q.feeOut.val + q.netOut.val + q.dustOut.val ∧ q.dustOut.val < scale) ∧
    (q.columns d netDestination (some lockedAt)).request.destinationScale = scale ∧
    destinationScaleOf d (q.columns d netDestination (some lockedAt)).netAmount
      (q.columns d netDestination (some lockedAt)).netDestination = scale ∧
    (q.columns d netDestination (some lockedAt)).request.verifyBreakdown = .ok q.breakdown ∧
    ∀ (grossIn' : U64) (now' lifetime' : ℤ) (q' : BridgeQuote), grossIn.val ≤ grossIn'.val →
      computeBridgeQuote grossIn' prices feeBps now' lifetime' scale = .ok q' →
        q.netOut.val ≤ q'.netOut.val := by
  obtain ⟨⟨-, -, -, hfeeBps⟩, hb⟩ := computeBridgeQuote_eq_ok hq
  obtain ⟨hscale, hbps, -, -, hsum, hnetOut, hdust⟩ := quotedBreakdown_eq_ok hb
  dsimp only at hsum hnetOut hdust
  have hmod := Nat.mod_le (pricedNet grossIn prices.sourcePrice prices.destinationPrice feeBps) scale
  have hle : q.netOut.val ≤ q.grossOut.val := by
    rw [hsum, hnetOut]
    exact (Nat.sub_le _ _).trans (Nat.le_add_left _ _)
  have hread : (q.columns d netDestination (some lockedAt)).request.destinationScale = scale :=
    BridgeQuote.destinationScale_request (hfeeBps ▸ hbps) hnet hdest
  refine ⟨⟨?_, ?_⟩, hread, BridgeQuote.destinationScaleOf_columns hnet hle hdest hvalid,
    BridgeQuote.verifyBreakdown_request hq (hfeeBps ▸ hbps) rfl hread, ?_⟩
  · rw [hsum, hnetOut, hdust, Nat.add_assoc, Nat.sub_add_cancel hmod]
  · rw [hdust]
    exact Nat.mod_lt _ (Nat.pos_of_ne_zero hscale)
  · intro grossIn' now' lifetime' q' hgross hq'
    have hnetOut' := (quotedBreakdown_eq_ok (computeBridgeQuote_eq_ok hq').2).2.2.2.2.2.1
    dsimp only at hnetOut'
    rw [hnetOut, hnetOut']
    exact sub_mod_mono (pricedNet_mono hgross hbps) scale

/-- A deposit of 12345 at a rate of one and a fee of one percent. -/
def sampleQuote : BridgeQuote where
  sourcePrice := 1000000000000
  destinationPrice := 1000000000000
  grossIn := 12345
  grossOut := 12345
  feeBps := 100
  feeOut := 123
  netOut := 12200
  dustOut := 22
  quotedAt := 50
  quoteExpiresAt := 110
  sourceFeedAt := 40
  destinationFeedAt := 45

theorem quote_verifiable_sample :
    (sampleQuote.columns .glcToSol 122 (some 60)).request.verifyBreakdown = .ok sampleQuote.breakdown :=
  (quote_verifiable .glcToSol 12345 122 ⟨1000000000000, 1000000000000, 40, 45⟩ 100 100 50 60 60
    sampleQuote (by decide) (by decide) (by decide) (by decide)).2.2.2.1

/-! ## Altered rows -/

namespace BridgeRequest

/-- What a row pays on Solana: the verified net, in the decimals of the mint. -/
def pays (r : BridgeRequest) (decimals : ℕ) : Except ConversionError U64 := do
  let fb ← r.verifyBreakdown
  goldcoinToSolanaAtomic fb.net decimals

/-- What the rate and the fee rule leave of a row, before it is floored. -/
def pricedNet (r : BridgeRequest) : ℕ :=
  match r.quote with
  | none => r.gross.val - r.gross.val * r.feeBps / bpsDenominator
  | some q => Service.pricedNet r.gross q.sourcePrice q.destinationPrice r.feeBps

/-- The quoted rows of one deposit, rate, fee rate and lock. -/
def SamePricing (r₁ r₂ : BridgeRequest) : Prop :=
  (r₁.gross = r₂.gross ∧ r₁.feeBps = r₂.feeBps) ∧
    ∃ q₁ ∈ r₁.quote, ∃ q₂ ∈ r₂.quote, q₁.sourcePrice = q₂.sourcePrice ∧
      q₁.destinationPrice = q₂.destinationPrice ∧ q₁.lockedAt = q₂.lockedAt

instance (r₁ r₂ : BridgeRequest) : Decidable (SamePricing r₁ r₂) :=
  match h₁ : r₁.quote, h₂ : r₂.quote with
  | some q₁, some q₂ =>
    decidable_of_iff ((r₁.gross = r₂.gross ∧ r₁.feeBps = r₂.feeBps) ∧ q₁.sourcePrice = q₂.sourcePrice ∧
      q₁.destinationPrice = q₂.destinationPrice ∧ q₁.lockedAt = q₂.lockedAt)
      (by simp [SamePricing, h₁, h₂])
  | none, _ => isFalse (by simp [SamePricing, h₁])
  | some _, none => isFalse (by simp [SamePricing, h₂])

variable {r r₁ r₂ : BridgeRequest} {decimals : ℕ} {paid : U64}

theorem SamePricing.pricedNet_eq (h : SamePricing r₁ r₂) : r₁.pricedNet = r₂.pricedNet := by
  obtain ⟨⟨hgross, hfeeBps⟩, q₁, hq₁, q₂, hq₂, hsource, hdestination, -⟩ := h
  unfold pricedNet
  rw [hq₁, hq₂]
  dsimp only
  rw [hgross, hfeeBps, hsource, hdestination]

/-- What an accepted row pays is its priced net, floored at the scale of the row,
and its stored net says so. -/
theorem net_of_verifyBreakdown {q : PersistedQuote} {fb : FeeBreakdown} (hq : r.quote = some q)
    (h : r.verifyBreakdown = .ok fb) :
    r.destinationScale ≠ 0 ∧ fb.net.val = r.pricedNet - r.pricedNet % r.destinationScale ∧
      fb.net = r.netAmount := by
  unfold verifyBreakdown at h
  rw [hq] at h
  simp only [verifyRequestAmounts, verifyQuotedBreakdown, bind_eq_ok, require_eq_ok, exists_unit,
    pure_eq_ok] at h
  obtain ⟨-, qb, hqb, ⟨-, -, hstored⟩, rfl⟩ := h
  obtain ⟨hscale, -, -, -, -, hnet, -⟩ := quotedBreakdown_eq_ok hqb
  refine ⟨hscale, hnet.trans ?_, hstored⟩
  unfold pricedNet
  rw [hq]

theorem convert_eq_ok {net paid : U64} (h : goldcoinToSolanaAtomic net decimals = .ok paid) :
    paid.val * destinationScaleForDecimals decimals = net.val * 10 ^ (decimals - goldcoinDecimals) := by
  unfold destinationScaleForDecimals
  unfold goldcoinToSolanaAtomic convertAtomicAmount at h
  split_ifs at h with heq hlt
  · rw [if_pos heq.le, ← heq, Nat.sub_self, Except.ok.inj h, Nat.pow_zero]
  · rw [if_pos hlt.le]
    simp only [bind_eq_ok, narrow_eq_ok] at h
    obtain ⟨scale, hscale, hnet⟩ := h
    rw [← hnet, ← hscale, Nat.mul_one]
  · have hle : ¬ goldcoinDecimals ≤ decimals := fun hle => hlt (lt_of_le_of_ne hle heq)
    have hsub : decimals - goldcoinDecimals = 0 := by omega
    rw [if_neg hle, hsub, Nat.pow_zero, Nat.mul_one]
    simp only [bind_eq_ok, narrow_eq_ok, require_eq_ok, exists_unit, pure_eq_ok] at h
    obtain ⟨scale, hscale, hmod, rfl⟩ := h
    rw [hscale]
    exact Nat.div_mul_cancel (Nat.dvd_of_mod_eq_zero hmod)

theorem destinationScaleForDecimals_pos : 0 < destinationScaleForDecimals decimals := by
  unfold destinationScaleForDecimals
  split_ifs
  · exact Nat.one_pos
  · exact Nat.pow_pos (by decide)

/-- What is paid, against what the scale of the row leaves. -/
theorem pays_eq_ok (hquote : r.quote.isSome) (h : r.pays decimals = .ok paid) :
    r.destinationScale ≠ 0 ∧ paid.val * destinationScaleForDecimals decimals =
      (r.pricedNet - r.pricedNet % r.destinationScale) * 10 ^ (decimals - goldcoinDecimals) := by
  obtain ⟨q, hq⟩ := Option.isSome_iff_exists.mp hquote
  simp only [pays, bind_eq_ok] at h
  obtain ⟨fb, hfb, hpaid⟩ := h
  obtain ⟨hscale, hnet, -⟩ := net_of_verifyBreakdown hq hfb
  exact ⟨hscale, hnet ▸ convert_eq_ok hpaid⟩

/-- A scale that is no coarser than the unit of the mint leaves the same dust as
that unit. -/
theorem dust_eq (hquote : r.quote.isSome) (h : r.pays decimals = .ok paid)
    (hle : r.destinationScale ≤ destinationScaleForDecimals decimals) :
    r.pricedNet % r.destinationScale = r.pricedNet % destinationScaleForDecimals decimals := by
  obtain ⟨hscale, hpaid⟩ := pays_eq_ok hquote h
  have hdust := Nat.mod_lt r.pricedNet (Nat.pos_of_ne_zero hscale)
  have hmod := Nat.mod_le r.pricedNet r.destinationScale
  by_cases hdecimals : goldcoinDecimals ≤ decimals
  · have hone : destinationScaleForDecimals decimals = 1 := if_pos hdecimals
    rw [hone] at hle ⊢
    rw [Nat.mod_one]
    omega
  · -- the net is a multiple of the unit, and the dust is less than one
    have hsub : decimals - goldcoinDecimals = 0 := by omega
    rw [hsub, Nat.pow_zero, Nat.mul_one] at hpaid
    have hsum : r.pricedNet = r.pricedNet % r.destinationScale +
        destinationScaleForDecimals decimals * paid.val := by
      rw [Nat.mul_comm, hpaid]
      omega
    conv_rhs => rw [hsum]
    rw [Nat.add_mul_mod_self_left, Nat.mod_eq_of_lt (hdust.trans_le hle)]

/-- Two rows of one pricing whose scales are no coarser than the unit of the mint,
as those of a quote are, pay the same. -/
theorem pays_eq_of_scale_le (hsame : SamePricing r₁ r₂) {paid₁ paid₂ : U64}
    (h₁ : r₁.pays decimals = .ok paid₁) (h₂ : r₂.pays decimals = .ok paid₂)
    (hle₁ : r₁.destinationScale ≤ destinationScaleForDecimals decimals)
    (hle₂ : r₂.destinationScale ≤ destinationScaleForDecimals decimals) : paid₁ = paid₂ := by
  obtain ⟨-, q₁, hq₁, q₂, hq₂, -⟩ := id hsame
  have hsome₁ : r₁.quote.isSome := by rw [hq₁]; rfl
  have hsome₂ : r₂.quote.isSome := by rw [hq₂]; rfl
  obtain ⟨-, hpaid₁⟩ := pays_eq_ok hsome₁ h₁
  obtain ⟨-, hpaid₂⟩ := pays_eq_ok hsome₂ h₂
  rw [dust_eq hsome₁ h₁ hle₁, hsame.pricedNet_eq] at hpaid₁
  rw [dust_eq hsome₂ h₂ hle₂] at hpaid₂
  exact Fin.eq_of_val_eq (Nat.eq_of_mul_eq_mul_right destinationScaleForDecimals_pos
    (hpaid₁.trans hpaid₂.symm))

/-! ### What the rows of one pricing may pay -/

/-- A conversion pays for whole units of the mint. -/
theorem convert_units {net : U64} (h : goldcoinToSolanaAtomic net decimals = .ok paid) :
    ∃ k, net.val = k * destinationScaleForDecimals decimals ∧
      paid.val = k * 10 ^ (decimals - goldcoinDecimals) := by
  have hpaid := convert_eq_ok h
  by_cases hdecimals : goldcoinDecimals ≤ decimals
  · have hone : destinationScaleForDecimals decimals = 1 := if_pos hdecimals
    rw [hone, Nat.mul_one] at hpaid
    exact ⟨net.val, by rw [hone, Nat.mul_one], hpaid⟩
  · have hsub : decimals - goldcoinDecimals = 0 := by omega
    rw [hsub, Nat.pow_zero, Nat.mul_one] at hpaid
    rw [hsub, Nat.pow_zero]
    exact ⟨paid.val, hpaid.symm, (Nat.mul_one _).symm⟩

/-- It pays for every number of them that fits. -/
theorem convert_of_units {net : U64} {k : ℕ} (hk : 0 < k)
    (hnet : net.val = k * destinationScaleForDecimals decimals)
    (hfits : k * 10 ^ (decimals - goldcoinDecimals) < 2 ^ 64) :
    goldcoinToSolanaAtomic net decimals = .ok ⟨_, hfits⟩ := by
  unfold destinationScaleForDecimals at hnet
  unfold goldcoinToSolanaAtomic convertAtomicAmount
  split_ifs with heq hlt
  · rw [if_pos heq.le, Nat.mul_one] at hnet
    have hsub : decimals - goldcoinDecimals = 0 := by omega
    refine congrArg Except.ok (Fin.ext ?_)
    simp only [hsub, Nat.pow_zero, Nat.mul_one, hnet]
  · rw [if_pos hlt.le, Nat.mul_one] at hnet
    simp only [bind_eq_ok, narrow_eq_ok]
    exact ⟨⟨_, (Nat.le_mul_of_pos_left _ hk).trans_lt hfits⟩, rfl, by rw [hnet]⟩
  · have hle : ¬ goldcoinDecimals ≤ decimals := fun hle => hlt (lt_of_le_of_ne hle heq)
    have hsub : decimals - goldcoinDecimals = 0 := by omega
    have hscale : 10 ^ (goldcoinDecimals - decimals) < 2 ^ 64 :=
      (Nat.pow_le_pow_right (by decide) (Nat.sub_le goldcoinDecimals decimals)).trans_lt (by decide)
    rw [if_neg hle] at hnet
    simp only [bind_eq_ok, narrow_eq_ok, require_eq_ok, exists_unit, pure_eq_ok]
    refine ⟨⟨_, hscale⟩, rfl, ?_, Fin.ext ?_⟩
    · rw [hnet, Nat.mul_mod_left]
    · simp only [hnet, hsub, Nat.pow_zero, Nat.mul_one]
      exact Nat.mul_div_cancel k (Nat.pow_pos (by decide))

/-- Flooring to a multiple of no more than the number itself keeps more than half
of it. -/
theorem lt_two_mul_sub_mod {n s : ℕ} (hs : 0 < s) (hle : s ≤ n) : n < 2 * (n - n % s) := by
  have hdiv := Nat.div_add_mod n s
  have hmod := Nat.mod_lt n hs
  have hone : s ≤ s * (n / s) := Nat.le_mul_of_pos_right s (Nat.div_pos hle hs)
  omega

/-- The scale read off a row is one, or at most its net. -/
theorem destinationScale_le (r : BridgeRequest) :
    r.destinationScale = 1 ∨ r.destinationScale ≤ r.netAmount.val := by
  unfold destinationScale
  split_ifs
  · exact .inr (Nat.div_le_self _ _)
  · exact .inl rfl
  · exact .inl rfl

/-- Whatever the columns of an accepted row say, it pays for more than half of the
whole units of its priced net, and for no more than all of them. -/
theorem units_of_pays (hquote : r.quote.isSome) (h : r.pays decimals = .ok paid) :
    ∃ k, paid.val = k * 10 ^ (decimals - goldcoinDecimals) ∧
      k ≤ r.pricedNet / destinationScaleForDecimals decimals ∧
      (0 < r.pricedNet → r.pricedNet / destinationScaleForDecimals decimals < 2 * k) := by
  obtain ⟨q, hq⟩ := Option.isSome_iff_exists.mp hquote
  simp only [pays, bind_eq_ok] at h
  obtain ⟨fb, hfb, hpaid⟩ := h
  obtain ⟨hscale, hnet, hstored⟩ := net_of_verifyBreakdown hq hfb
  obtain ⟨k, hk, hpaid⟩ := convert_units hpaid
  rw [hk] at hnet
  refine ⟨k, hpaid, ?_, fun hpos => ?_⟩
  · rw [Nat.le_div_iff_mul_le destinationScaleForDecimals_pos, hnet]
    exact Nat.sub_le _ _
  · rw [Nat.div_lt_iff_lt_mul destinationScaleForDecimals_pos, Nat.mul_assoc, hnet]
    -- the scale is a ratio of the stored net, which is at most the priced net
    refine lt_two_mul_sub_mod (Nat.pos_of_ne_zero hscale) ?_
    rcases r.destinationScale_le with hone | hle
    · omega
    · rw [← hstored, hk, hnet] at hle
      exact hle.trans (Nat.sub_le _ _)

/-- The row with another net, at one unit of the destination. -/
def altered (r : BridgeRequest) (net : U64) : BridgeRequest :=
  { r with netAmount := net, netDestination := 1 }

theorem destinationScale_altered (hsolana : r.direction.destinationIsSolana) {net : U64}
    (hnet : 0 < net.val) : (r.altered net).destinationScale = net.val := by
  have hone : (1 : U64).val = 1 := rfl
  simp only [destinationScale, altered, hsolana, hone, Nat.mod_one, Nat.div_one, hnet,
    Nat.one_pos, not_true_eq_false, if_false, and_self, if_true]

/-- Every such number of units is paid by some row of the pricing. -/
theorem exists_pays (hsolana : r.direction.destinationIsSolana) (hquote : r.quote.isSome)
    (h : r.pays decimals = .ok paid) {k : ℕ}
    (hle : k ≤ r.pricedNet / destinationScaleForDecimals decimals)
    (hhalf : r.pricedNet / destinationScaleForDecimals decimals < 2 * k)
    (hfits : k * 10 ^ (decimals - goldcoinDecimals) < 2 ^ 64) :
    ∃ net, SamePricing r (r.altered net) ∧ (r.altered net).pays decimals = .ok ⟨_, hfits⟩ := by
  obtain ⟨q, hq⟩ := Option.isSome_iff_exists.mp hquote
  rw [Nat.le_div_iff_mul_le destinationScaleForDecimals_pos] at hle
  rw [Nat.div_lt_iff_lt_mul destinationScaleForDecimals_pos, Nat.mul_assoc] at hhalf
  simp only [pays, verifyBreakdown, hq, verifyRequestAmounts, verifyQuotedBreakdown,
    quotedBreakdown, bind_eq_ok, require_eq_ok, exists_unit, pure_eq_ok] at h
  obtain ⟨_, ⟨hlocked, _, ⟨-, grossOut, hgross, fb, hfb, rfl⟩, ⟨hstoredGross, hstoredFee, -⟩, -⟩, -⟩ := h
  have hpriced : fb.net.val = r.pricedNet := by
    obtain ⟨-, hfbgross, -, -, hnet⟩ := computeFeeAtBps_eq_ok hfb
    simp only [grossOutAtRate, bind_eq_ok, require_eq_ok, exists_unit, narrow_eq_ok] at hgross
    rw [hnet, pricedNet, hq]
    simp only [Service.pricedNet, hgross.2]
  have hk : 0 < k := Nat.pos_of_ne_zero fun h0 => by simp [h0] at hhalf
  have hpos : 0 < k * destinationScaleForDecimals decimals :=
    Nat.mul_pos hk destinationScaleForDecimals_pos
  have hnet64 : k * destinationScaleForDecimals decimals < 2 ^ 64 :=
    hle.trans_lt (hpriced ▸ fb.net.isLt)
  refine ⟨⟨_, hnet64⟩, ⟨⟨rfl, rfl⟩, q, hq, q, hq, rfl, rfl, rfl⟩, ?_⟩
  -- at a scale above half of it, the priced net is floored to the scale itself
  have hmod : fb.net.val % (k * destinationScaleForDecimals decimals) =
      fb.net.val - k * destinationScaleForDecimals decimals := by
    rw [hpriced, Nat.mod_eq_sub_mod hle, Nat.mod_eq_of_lt (by omega)]
  have hscale : (r.altered ⟨_, hnet64⟩).destinationScale =
      k * destinationScaleForDecimals decimals := destinationScale_altered hsolana hpos
  simp only [pays, verifyBreakdown, hscale]
  simp only [altered, hq, verifyRequestAmounts, verifyQuotedBreakdown, quotedBreakdown, bind_eq_ok,
    require_eq_ok, exists_unit, pure_eq_ok]
  refine ⟨_, ⟨hlocked, _, ⟨hpos.ne', grossOut, hgross, fb, hfb, rfl⟩,
    ⟨hstoredGross, hstoredFee, Fin.ext ?_⟩, rfl⟩, convert_of_units hk ?_ hfits⟩ <;>
  · simp only [QuotedBreakdown.asFeeBreakdown, hmod]
    omega

/-- Where three units of the mint and the second number of units above the half fit,
two rows of the pricing pay differently: those of the two smallest such numbers. -/
theorem exists_pays_ne (hsolana : r.direction.destinationIsSolana) (hquote : r.quote.isSome)
    (h : r.pays decimals = .ok paid)
    (hthree : 3 ≤ r.pricedNet / destinationScaleForDecimals decimals)
    (hfits : (r.pricedNet / destinationScaleForDecimals decimals / 2 + 2) *
      10 ^ (decimals - goldcoinDecimals) < 2 ^ 64) :
    ∃ net₁ net₂ paid₁ paid₂, SamePricing r (r.altered net₁) ∧ SamePricing r (r.altered net₂) ∧
      (r.altered net₁).pays decimals = .ok paid₁ ∧ (r.altered net₂).pays decimals = .ok paid₂ ∧
        paid₁ ≠ paid₂ := by
  have hpow : 0 < 10 ^ (decimals - goldcoinDecimals) := Nat.pow_pos (by decide)
  obtain ⟨net₂, hsame₂, hpays₂⟩ := exists_pays hsolana hquote h (by omega) (by omega) hfits
  obtain ⟨net₁, hsame₁, hpays₁⟩ := exists_pays (k := r.pricedNet /
    destinationScaleForDecimals decimals / 2 + 1) hsolana hquote h (by omega) (by omega)
    ((Nat.mul_le_mul_right _ (Nat.le_succ _)).trans_lt hfits)
  refine ⟨net₁, net₂, _, _, hsame₁, hsame₂, hpays₁, hpays₂, fun heq => ?_⟩
  have hunits := Nat.eq_of_mul_eq_mul_right hpow (congrArg Fin.val heq)
  omega

/-- Where there are no two such numbers of units, two rows of a pricing pay alike. -/
theorem pays_eq_of_few {r' : BridgeRequest} {paid' : U64} (hquote : r.quote.isSome)
    (hsame : SamePricing r r') (h : r.pays decimals = .ok paid)
    (h' : r'.pays decimals = .ok paid')
    (hfew : r.pricedNet / destinationScaleForDecimals decimals < 3 ∨
      2 ^ 64 ≤ (r.pricedNet / destinationScaleForDecimals decimals / 2 + 2) *
        10 ^ (decimals - goldcoinDecimals)) :
    paid' = paid := by
  obtain ⟨-, q, hq, q', hq', -⟩ := id hsame
  obtain ⟨k, hk, hle, hhalf⟩ := units_of_pays hquote h
  obtain ⟨k', hk', hle', hhalf'⟩ := units_of_pays (by rw [hq']; rfl) h'
  rw [← hsame.pricedNet_eq] at hle' hhalf'
  refine Fin.ext ?_
  rw [hk, hk']
  congr 1
  by_contra hne
  rcases Nat.eq_zero_or_pos r.pricedNet with hzero | hpos
  · rw [hzero, Nat.zero_div] at hle hle'
    omega
  · have hhalf := hhalf hpos
    have hhalf' := hhalf' hpos
    rcases hfew with hthree | hfits
    · omega
    · -- the larger of two numbers above the half reaches the second one
      rcases Nat.lt_or_gt_of_ne hne with hlt | hlt
      · exact absurd (hfits.trans ((Nat.mul_le_mul_right _ (by omega)).trans_eq hk.symm))
          (Nat.not_le.mpr paid.isLt)
      · exact absurd (hfits.trans ((Nat.mul_le_mul_right _ (by omega)).trans_eq hk'.symm))
          (Nat.not_le.mpr paid'.isLt)

/-- All rows of a pricing that verify and convert pay what one of them pays if and
only if the priced net is less than three units of the mint, or its mint is so
fine that a second number of units above the half of it no longer fits. Rows
whose scale is no coarser than that unit, as a quote strikes them, always do. -/
theorem pays_alike_iff (r : BridgeRequest) (decimals : ℕ) (paid : U64)
    (hsolana : r.direction.destinationIsSolana) (hquote : r.quote.isSome)
    (h : r.pays decimals = .ok paid) :
    ((∀ r' paid', r'.direction.destinationIsSolana → SamePricing r r' →
        r'.pays decimals = .ok paid' → paid' = paid) ↔
      r.pricedNet < 3 * destinationScaleForDecimals decimals ∨
        2 ^ 64 ≤ (r.pricedNet / destinationScaleForDecimals decimals / 2 + 2) *
          10 ^ (decimals - goldcoinDecimals)) ∧
    ∀ r' paid', SamePricing r r' → r'.pays decimals = .ok paid' →
      r.destinationScale ≤ destinationScaleForDecimals decimals →
      r'.destinationScale ≤ destinationScaleForDecimals decimals → paid' = paid := by
  refine ⟨⟨fun halike => ?_, fun hfew r' paid' _ hsame h' => ?_⟩,
    fun r' paid' hsame h' hle hle' => (pays_eq_of_scale_le hsame h h' hle hle').symm⟩
  · by_contra hmany
    rw [not_or, Nat.not_lt, Nat.not_le, ← Nat.le_div_iff_mul_le destinationScaleForDecimals_pos]
      at hmany
    obtain ⟨net₁, net₂, paid₁, paid₂, hsame₁, hsame₂, hpays₁, hpays₂, hne⟩ :=
      exists_pays_ne hsolana hquote h hmany.1 hmany.2
    exact hne ((halike (r.altered net₁) _ hsolana hsame₁ hpays₁).trans
      (halike (r.altered net₂) _ hsolana hsame₂ hpays₂).symm)
  · rw [← Nat.div_lt_iff_lt_mul destinationScaleForDecimals_pos] at hfew
    exact pays_eq_of_few hquote hsame h h' hfew

/-- The row of a deposit of 12345 at a rate of one without a fee. -/
def sampleRow (net netDestination : U64) : BridgeRequest where
  direction := .glcToSol
  gross := 12345
  feeBps := 0
  feeAmount := 0
  netAmount := net
  netDestination := netDestination
  quote := some ⟨1000000000000, 1000000000000, 12345, 50, 110, 40, 45, some 60⟩

/-- The row of a deposit of 299, which is worth two units of a mint with six
decimals. -/
def smallRow : BridgeRequest where
  direction := .glcToSol
  gross := 299
  feeBps := 0
  feeAmount := 0
  netAmount := 200
  netDestination := 2
  quote := some ⟨1000000000000, 1000000000000, 299, 50, 110, 40, 45, some 60⟩

/-- Whatever its stored net, the small deposit pays two units if anything. -/
theorem pays_alike_iff_sample :
    (∀ r' paid', r'.direction.destinationIsSolana → SamePricing smallRow r' →
      r'.pays 6 = .ok paid' → paid' = 2) ∧ smallRow.pays 6 = .ok 2 :=
  ⟨(pays_alike_iff smallRow 6 2 (by decide) (by decide) (by decide)).1.mpr (.inl (by decide)),
    by decide⟩

/-- With a net of 12200 and a destination figure of 61 the row verifies at a scale
of 200, and pays one unit less than the row as it was stored. -/
theorem altered_row_settles :
    SamePricing (sampleRow 12300 123) (sampleRow 12200 61) ∧
      (sampleRow 12300 123).pays 6 = .ok 123 ∧ (sampleRow 12200 61).pays 6 = .ok 122 := by
  decide

end BridgeRequest

end Service
