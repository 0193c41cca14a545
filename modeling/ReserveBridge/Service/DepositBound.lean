-- SUMMARY: The advertised maximum deposit: the search over the quote, and when its result is the exact boundary of what is deliverable within the destination's limit.
import ReserveBridge.Lib.Bisection
import ReserveBridge.Service.BridgeRate
import Mathlib.Data.Nat.ModEq

/-!
# The maximum of a deposit

`buffered_destination_limit` and `max_source_for_destination_limit` of
`service/src/bridge_rate.rs`. An amount fits when its quote succeeds and its net
does not exceed the limit. A net of zero fits, too.
-/

namespace Service
open Guard

theorem maxU64_lt : 2 ^ 64 - 1 < 2 ^ 64 := by decide

/-- `u64::MAX`. -/
def maxU64 : U64 := ⟨2 ^ 64 - 1, maxU64_lt⟩

def bufferedDestinationLimit (limit : U64) (bufferBps : ℕ) : U64 :=
  ⟨limit.val * (bpsDenominator - bufferBps) / bpsDenominator, by
    refine lt_of_le_of_lt ?_ limit.isLt
    apply Nat.div_le_of_le_mul
    rw [Nat.mul_comm bpsDenominator]
    exact Nat.mul_le_mul_left _ (Nat.sub_le _ _)⟩

/-- The closure `fits`. -/
def fitsDestination (prices : RailPrices) (feeBps scale : ℕ) (buffered grossIn : U64) : Bool :=
  match quotedBreakdown grossIn prices.sourcePrice prices.destinationPrice feeBps scale with
  | .ok q => q.netOut.val ≤ buffered.val
  | .error _ => false

/-- An amount of the search, which stays below `u64::MAX`. -/
def sourceAmount (n : ℕ) : U64 := ⟨n % 2 ^ 64, Nat.mod_lt _ (by decide)⟩

def fitsAt (prices : RailPrices) (feeBps scale : ℕ) (buffered : U64) (n : ℕ) : Bool :=
  fitsDestination prices feeBps scale buffered (sourceAmount n)

/-- The loop of the search. An interval of `u64` is used up after 64 halvings. -/
def searchSource (prices : RailPrices) (feeBps scale : ℕ) (buffered : U64) : U64 :=
  sourceAmount (Bisection.search (fitsAt prices feeBps scale buffered) 64 0 maxU64.val)

def maxSourceForDestinationLimit (limit : U64) (prices : RailPrices) (feeBps scale bufferBps : ℕ) :
    Except ConversionError U64 := do
  require (scale ≠ 0) .invalidDestinationScale
  require (feeBps ≤ bpsDenominator) (.feeBpsOutOfRange feeBps bpsDenominator)
  require (prices.sourcePrice ≠ 0 ∧ prices.destinationPrice ≠ 0)
    (.invalidBridgePrice prices.sourcePrice prices.destinationPrice)
  let buffered := bufferedDestinationLimit limit bufferBps
  if buffered.val < scale ∨ feeBps = bpsDenominator then return sourceAmount 0
  else if fitsDestination prices feeBps scale buffered maxU64 then return maxU64
  else return searchSource prices feeBps scale buffered

/-! ## The quote of an amount -/

/-- What the rate yields for an amount. -/
def rated (sourcePrice destinationPrice : U64) (grossIn : ℕ) : ℕ :=
  grossIn * sourcePrice.val / destinationPrice.val

/-- The products of the quote fit in 64 bits. -/
def Computes (sourcePrice destinationPrice : U64) (feeBps : ℕ) (grossIn : U64) : Prop :=
  rated sourcePrice destinationPrice grossIn.val < 2 ^ 64 ∧
    rated sourcePrice destinationPrice grossIn.val * feeBps < 2 ^ 64

/-- A net floored to whole units of the destination. -/
def wholeUnits (scale net : ℕ) : ℕ := net - net % scale

theorem scale_le_wholeUnits_iff {scale net : ℕ} : scale ≤ wholeUnits scale net ↔ scale ≤ net := by
  constructor
  · intro h
    exact h.trans (Nat.sub_le _ _)
  · intro h
    by_cases hscale : scale = 0
    · omega
    · have hsplit := Nat.div_add_mod net scale
      have hone : 1 ≤ net / scale := (Nat.one_le_div_iff (by omega)).mpr h
      have hmul := Nat.mul_le_mul_left scale hone
      unfold wholeUnits
      omega

/-- A net of less than two units is at most one. -/
theorem wholeUnits_le {scale net : ℕ} (h : net < 2 * scale) : wholeUnits scale net ≤ scale := by
  have hsplit := Nat.div_add_mod net scale
  have hdiv : net / scale ≤ 1 := Nat.le_of_lt_succ (Nat.div_lt_of_lt_mul (by omega))
  have hmul := Nat.mul_le_mul_left scale hdiv
  unfold wholeUnits
  omega

section Quote

variable {sourcePrice destinationPrice grossIn grossIn' : U64} {feeBps scale : ℕ}

theorem pricedNet_eq : pricedNet grossIn sourcePrice destinationPrice feeBps =
    rated sourcePrice destinationPrice grossIn.val -
      rated sourcePrice destinationPrice grossIn.val * feeBps / bpsDenominator := rfl

/-- The quote of an amount: its net, or an overflow. -/
theorem quotedBreakdown_cases (hscale : scale ≠ 0) (hbps : feeBps ≤ bpsDenominator)
    (hprices : sourcePrice ≠ 0 ∧ destinationPrice ≠ 0) (grossIn : U64) :
    (Computes sourcePrice destinationPrice feeBps grossIn ∧
      ∃ q, quotedBreakdown grossIn sourcePrice destinationPrice feeBps scale = .ok q ∧
        q.netOut.val = wholeUnits scale (pricedNet grossIn sourcePrice destinationPrice feeBps)) ∨
    (¬ Computes sourcePrice destinationPrice feeBps grossIn ∧
      ∃ amount, quotedBreakdown grossIn sourcePrice destinationPrice feeBps scale =
        .error (.overflow amount)) := by
  have hrate : grossOutAtRate grossIn sourcePrice destinationPrice =
      narrow (rated sourcePrice destinationPrice grossIn.val) (.overflow grossIn) := by
    rw [grossOutAtRate, require, if_pos hprices]
    rfl
  have hquote : quotedBreakdown grossIn sourcePrice destinationPrice feeBps scale =
      (do
        let grossOut ← narrow (rated sourcePrice destinationPrice grossIn.val) (.overflow grossIn)
        let fb ← computeFeeAtBps grossOut feeBps
        return {
          grossOut := fb.gross
          feeBps := fb.feeBps
          feeOut := fb.fee
          netOut := ⟨fb.net - fb.net % scale, (Nat.sub_le _ _).trans_lt fb.net.isLt⟩
          dustOut := ⟨fb.net % scale, (Nat.mod_le _ _).trans_lt fb.net.isLt⟩ }) := by
    rw [quotedBreakdown, require, if_pos hscale, hrate]
    rfl
  by_cases hout : rated sourcePrice destinationPrice grossIn.val < 2 ^ 64
  · by_cases hfee : rated sourcePrice destinationPrice grossIn.val * feeBps < 2 ^ 64
    · left
      obtain ⟨fb, hfb⟩ : ∃ fb, computeFeeAtBps ⟨_, hout⟩ feeBps = .ok fb :=
        computeFeeAtBps_of_lt hbps hfee
      have hok : quotedBreakdown grossIn sourcePrice destinationPrice feeBps scale = .ok
          ⟨fb.gross, fb.feeBps, fb.fee, ⟨fb.net - fb.net % scale, (Nat.sub_le _ _).trans_lt fb.net.isLt⟩,
            ⟨fb.net % scale, (Nat.mod_le _ _).trans_lt fb.net.isLt⟩⟩ := by
        rw [hquote, narrow_of_lt hout]
        exact bind_eq_ok.mpr ⟨_, rfl, bind_eq_ok.mpr ⟨fb, hfb, rfl⟩⟩
      exact ⟨⟨hout, hfee⟩, _, hok, (quotedBreakdown_eq_ok hok).2.2.2.2.2.1⟩
    · right
      refine ⟨fun h => hfee h.2, ⟨_, hout⟩, ?_⟩
      rw [hquote, narrow_of_lt hout]
      exact bind_eq_error.mpr (.inr ⟨_, rfl, bind_eq_error.mpr
        (.inl (computeFeeAtBps_of_le hbps (Nat.not_lt.mp hfee)))⟩)
  · right
    refine ⟨fun h => hout h.1, grossIn, ?_⟩
    rw [hquote, narrow_of_le (Nat.not_lt.mp hout)]
    exact bind_eq_error.mpr (.inl rfl)

theorem rated_mono {m n : ℕ} (h : m ≤ n) :
    rated sourcePrice destinationPrice m ≤ rated sourcePrice destinationPrice n :=
  Nat.div_le_div_right (Nat.mul_le_mul_right _ h)

theorem Computes.mono (h : grossIn.val ≤ grossIn'.val)
    (hcomputes : Computes sourcePrice destinationPrice feeBps grossIn') :
    Computes sourcePrice destinationPrice feeBps grossIn :=
  ⟨(rated_mono h).trans_lt hcomputes.1,
    (Nat.mul_le_mul_right _ (rated_mono h)).trans_lt hcomputes.2⟩

/-- From one positive amount to the next, what the rate yields at most doubles, but
for a unit. -/
theorem rated_succ_le {n : ℕ} (hn : 1 ≤ n) :
    rated sourcePrice destinationPrice (n + 1) ≤ 2 * rated sourcePrice destinationPrice n + 1 := by
  have hone : rated sourcePrice destinationPrice 1 ≤ rated sourcePrice destinationPrice n :=
    rated_mono hn
  have hadd : rated sourcePrice destinationPrice (n + 1) ≤
      rated sourcePrice destinationPrice n + rated sourcePrice destinationPrice 1 + 1 := by
    unfold rated
    rw [Nat.add_mul]
    exact Nat.add_div_le_div_add_div_add_one _ _ _
  omega

/-- So does the net. -/
theorem pricedNet_succ_le (hbps : feeBps ≤ bpsDenominator) (hpos : 1 ≤ grossIn.val)
    (hnext : grossIn'.val = grossIn.val + 1) :
    pricedNet grossIn' sourcePrice destinationPrice feeBps ≤
      2 * pricedNet grossIn sourcePrice destinationPrice feeBps + 1 := by
  have hrated : rated sourcePrice destinationPrice grossIn'.val ≤
      2 * rated sourcePrice destinationPrice grossIn.val + 1 := hnext ▸ rated_succ_le hpos
  have hmono := net_mono hrated hbps
  have hfee : 2 * (rated sourcePrice destinationPrice grossIn.val * feeBps / bpsDenominator) ≤
      (2 * rated sourcePrice destinationPrice grossIn.val + 1) * feeBps / bpsDenominator := by
    refine (Nat.mul_div_le_mul_div_assoc _ _ _).trans (Nat.div_le_div_right ?_)
    rw [← Nat.mul_assoc]
    exact Nat.mul_le_mul_right _ (Nat.le_succ _)
  have hle := fee_le hbps (rated sourcePrice destinationPrice grossIn.val)
  rw [pricedNet_eq, pricedNet_eq]
  omega

/-- A small net is that of a small amount. -/
theorem rated_lt (hbps : feeBps < bpsDenominator)
    (hnet : pricedNet grossIn sourcePrice destinationPrice feeBps < 10 ^ 8) :
    rated sourcePrice destinationPrice grossIn.val < 10 ^ 12 := by
  rw [pricedNet_eq] at hnet
  generalize rated sourcePrice destinationPrice grossIn.val = a at hnet ⊢
  have hfee : a * feeBps / bpsDenominator * bpsDenominator ≤ a * feeBps := Nat.div_mul_le_self _ _
  have hbelow : a * feeBps ≤ a * 9999 := Nat.mul_le_mul_left _ (Nat.le_of_lt_succ hbps)
  unfold bpsDenominator at hnet hfee
  omega

/-- The products of a small amount and of the next one fit. -/
theorem computes_of_rated_lt (hbps : feeBps ≤ bpsDenominator)
    (h : rated sourcePrice destinationPrice grossIn.val < 2 * 10 ^ 12) :
    Computes sourcePrice destinationPrice feeBps grossIn := by
  have hproduct : rated sourcePrice destinationPrice grossIn.val * feeBps ≤ 2 * 10 ^ 12 * 10000 :=
    Nat.mul_le_mul h.le hbps
  exact ⟨by omega, by omega⟩

end Quote

/-! ## The boundary -/

section Boundary

variable (prices : RailPrices) (feeBps scale : ℕ) (buffered : U64)

/-- The quote of an amount at the prices. -/
abbrev quoteOf (grossIn : U64) : Except ConversionError QuotedBreakdown :=
  quotedBreakdown grossIn prices.sourcePrice prices.destinationPrice feeBps scale

/-- The maximum is zero exactly where nothing can be delivered. Otherwise all
amounts up to it are quoted a net within the limit, its own net is at least one
unit of the destination, and every amount above it is quoted more or refused. -/
structure ExactMaximum (maximum : U64) : Prop where
  zero_iff : maximum.val = 0 ↔ ¬ ∃ grossIn q, quoteOf prices feeBps scale grossIn = .ok q ∧
    scale ≤ q.netOut.val ∧ q.netOut.val ≤ buffered.val
  within : maximum.val ≠ 0 → ∀ grossIn : U64, grossIn.val ≤ maximum.val →
    ∃ q, quoteOf prices feeBps scale grossIn = .ok q ∧ q.netOut.val ≤ buffered.val
  deliverable : maximum.val ≠ 0 →
    ∃ q, quoteOf prices feeBps scale maximum = .ok q ∧ scale ≤ q.netOut.val
  above : maximum.val ≠ 0 → ∀ grossIn : U64, maximum.val < grossIn.val →
    (∃ q, quoteOf prices feeBps scale grossIn = .ok q ∧ buffered.val < q.netOut.val) ∨
      ∃ amount, quoteOf prices feeBps scale grossIn = .error (.overflow amount)

variable {prices feeBps scale buffered} {grossIn grossIn' : U64}

/-- What the search needs of its arguments. -/
structure Searchable (prices : RailPrices) (feeBps scale : ℕ) : Prop where
  scale : scale ≠ 0
  bps : feeBps ≤ bpsDenominator
  prices : prices.sourcePrice ≠ 0 ∧ prices.destinationPrice ≠ 0

theorem fitsDestination_iff (h : Searchable prices feeBps scale) :
    fitsDestination prices feeBps scale buffered grossIn = true ↔
      Computes prices.sourcePrice prices.destinationPrice feeBps grossIn ∧
        wholeUnits scale (pricedNet grossIn prices.sourcePrice prices.destinationPrice feeBps) ≤
          buffered.val := by
  unfold fitsDestination
  obtain ⟨hcomputes, q, hq, hnet⟩ | ⟨hnot, amount, hq⟩ :=
    quotedBreakdown_cases h.scale h.bps h.prices grossIn
  · rw [hq]
    dsimp only
    rw [decide_eq_true_eq, hnet]
    exact (and_iff_right hcomputes).symm
  · rw [hq]
    simp [hnot]

theorem fitsDestination_eq_true (h : Searchable prices feeBps scale) :
    fitsDestination prices feeBps scale buffered grossIn = true ↔
      ∃ q, quoteOf prices feeBps scale grossIn = .ok q ∧ q.netOut.val ≤ buffered.val := by
  unfold fitsDestination
  obtain ⟨-, q, hq, -⟩ | ⟨-, amount, hq⟩ := quotedBreakdown_cases h.scale h.bps h.prices grossIn
  · simp [quoteOf, hq]
  · simp [quoteOf, hq]

theorem fitsDestination_eq_false (h : Searchable prices feeBps scale) :
    fitsDestination prices feeBps scale buffered grossIn = false ↔
      (∃ q, quoteOf prices feeBps scale grossIn = .ok q ∧ buffered.val < q.netOut.val) ∨
        ∃ amount, quoteOf prices feeBps scale grossIn = .error (.overflow amount) := by
  unfold fitsDestination
  obtain ⟨-, q, hq, -⟩ | ⟨-, amount, hq⟩ := quotedBreakdown_cases h.scale h.bps h.prices grossIn
  · simp [quoteOf, hq]
  · simp [quoteOf, hq]

/-- What fits, fits for every smaller amount. -/
theorem fitsDestination_mono (h : Searchable prices feeBps scale) (hle : grossIn.val ≤ grossIn'.val)
    (hfits : fitsDestination prices feeBps scale buffered grossIn' = true) :
    fitsDestination prices feeBps scale buffered grossIn = true := by
  rw [fitsDestination_iff h] at hfits ⊢
  exact ⟨hfits.1.mono hle, (sub_mod_mono (pricedNet_mono hle h.bps) scale).trans hfits.2⟩

/-- A deliverable amount is one that fits and is quoted at least one unit. -/
theorem deliverable_iff (h : Searchable prices feeBps scale) :
    (∃ q, quoteOf prices feeBps scale grossIn = .ok q ∧ scale ≤ q.netOut.val) ↔
      Computes prices.sourcePrice prices.destinationPrice feeBps grossIn ∧
        scale ≤ pricedNet grossIn prices.sourcePrice prices.destinationPrice feeBps := by
  obtain ⟨hcomputes, q, hq, hnet⟩ | ⟨hnot, amount, hq⟩ :=
    quotedBreakdown_cases h.scale h.bps h.prices grossIn
  · simp [quoteOf, hq, hnet, scale_le_wholeUnits_iff, hcomputes]
  · simp [quoteOf, hq, hnot]

theorem val_sourceAmount {n : ℕ} (h : n ≤ maxU64.val) : (sourceAmount n).val = n :=
  Nat.mod_eq_of_lt (lt_of_le_of_lt h maxU64.isLt)

theorem sourceAmount_val (u : U64) : sourceAmount u.val = u := Fin.ext (Nat.mod_eq_of_lt u.isLt)

theorem le_maxU64 (u : U64) : u.val ≤ maxU64.val := Nat.le_of_lt_succ u.isLt

/-- Nothing is deliverable of an amount of zero. -/
theorem pricedNet_zero {sourcePrice destinationPrice : U64} :
    pricedNet (sourceAmount 0) sourcePrice destinationPrice feeBps = 0 := by
  simp [pricedNet, sourceAmount]

/-- Where not everything fits, the amounts that fit are those up to the result of
the search. -/
theorem fits_iff_le_search (h : Searchable prices feeBps scale)
    (hmax : fitsDestination prices feeBps scale buffered maxU64 = false) :
    fitsDestination prices feeBps scale buffered grossIn = true ↔
      grossIn.val ≤ (searchSource prices feeBps scale buffered).val := by
  have hzero : fitsAt prices feeBps scale buffered 0 = true := by
    rw [fitsAt, fitsDestination_iff h, pricedNet_zero]
    refine ⟨computes_of_rated_lt h.bps ?_, ?_⟩
    · simp [rated, sourceAmount]
    · simp [wholeUnits]
  have hhi : fitsAt prices feeBps scale buffered maxU64.val = false := by
    rwa [fitsAt, sourceAmount_val]
  have hwidth : maxU64.val - 0 ≤ 2 ^ 64 := Nat.le_of_lt maxU64.isLt
  have hdown (m n : ℕ) (hle : m ≤ n) (hn : n ≤ maxU64.val)
      (hfits : fitsAt prices feeBps scale buffered n = true) :
      fitsAt prices feeBps scale buffered m = true := by
    refine fitsDestination_mono h ?_ hfits
    rw [val_sourceAmount hn, val_sourceAmount (hle.trans hn)]
    exact hle
  have hpos : 0 < maxU64.val := by decide
  obtain ⟨-, -, -, hless⟩ := Bisection.search_boundary hzero hhi hpos hwidth
  have hsearch := Bisection.fits_iff_le_search hdown hzero hhi hpos hwidth (le_maxU64 grossIn)
  rw [fitsAt, sourceAmount_val] at hsearch
  rw [hsearch, searchSource, val_sourceAmount hless.le]

/-- A search that ends on a positive amount ends on a deliverable one: the net of
the next amount would be at most one unit, and fit. -/
theorem deliverable_of_search (h : Searchable prices feeBps scale) (hbps : feeBps < bpsDenominator)
    (hscale : scale ≤ 10 ^ 8) (hunit : scale ≤ buffered.val)
    (hmax : fitsDestination prices feeBps scale buffered maxU64 = false)
    (hpos : 1 ≤ (searchSource prices feeBps scale buffered).val) :
    scale ≤ pricedNet (searchSource prices feeBps scale buffered) prices.sourcePrice
      prices.destinationPrice feeBps := by
  by_contra hbelow
  generalize hlast : searchSource prices feeBps scale buffered = last at hpos hbelow
  have hne : last.val ≠ maxU64.val := by
    intro heq
    have hfits : fitsDestination prices feeBps scale buffered maxU64 = true :=
      (fits_iff_le_search h hmax).mpr (by rw [hlast, heq])
    rw [hfits] at hmax
    cases hmax
  have hbound := le_maxU64 last
  have hnext : (sourceAmount (last.val + 1)).val = last.val + 1 := val_sourceAmount (by omega)
  have hnet : pricedNet (sourceAmount (last.val + 1)) prices.sourcePrice prices.destinationPrice
      feeBps ≤ 2 * pricedNet last prices.sourcePrice prices.destinationPrice feeBps + 1 :=
    pricedNet_succ_le h.bps hpos hnext
  have hsmall : rated prices.sourcePrice prices.destinationPrice last.val < 10 ^ 12 :=
    rated_lt hbps (by omega)
  have hrated : rated prices.sourcePrice prices.destinationPrice (last.val + 1) ≤
      2 * rated prices.sourcePrice prices.destinationPrice last.val + 1 := rated_succ_le hpos
  rw [← hnext] at hrated
  have hfits : fitsDestination prices feeBps scale buffered (sourceAmount (last.val + 1)) = true := by
    rw [fitsDestination_iff h]
    exact ⟨computes_of_rated_lt h.bps (by omega), (wholeUnits_le (by omega)).trans hunit⟩
  have hle := (fits_iff_le_search h hmax).mp hfits
  rw [hlast, hnext] at hle
  omega

/-- Where not everything fits, an amount of `u64::MAX` is priced at one unit at
least. -/
theorem unit_le_of_not_fits (h : Searchable prices feeBps scale) (hbps : feeBps < bpsDenominator)
    (hscale : scale ≤ 10 ^ 8) (hunit : scale ≤ buffered.val)
    (hmax : fitsDestination prices feeBps scale buffered maxU64 = false) :
    scale ≤ pricedNet maxU64 prices.sourcePrice prices.destinationPrice feeBps := by
  by_contra hbelow
  have hsmall : rated prices.sourcePrice prices.destinationPrice maxU64.val < 10 ^ 12 :=
    rated_lt hbps (by omega)
  have hfits : fitsDestination prices feeBps scale buffered maxU64 = true := by
    rw [fitsDestination_iff h]
    exact ⟨computes_of_rated_lt h.bps (by omega), (wholeUnits_le (by omega)).trans hunit⟩
  rw [hfits] at hmax
  cases hmax

/-- A limit below one unit, or a fee of everything, leaves nothing to deliver. -/
theorem exactMaximum_zero (h : Searchable prices feeBps scale)
    (hnone : buffered.val < scale ∨ feeBps = bpsDenominator) :
    ExactMaximum prices feeBps scale buffered (sourceAmount 0) := by
  have hzero : (sourceAmount 0).val = 0 := rfl
  refine ⟨iff_of_true hzero ?_, fun hne => absurd hzero hne, fun hne => absurd hzero hne,
    fun hne => absurd hzero hne⟩
  rintro ⟨grossIn, q, hq, hunit, hwithin⟩
  rcases hnone with hlimit | hfee
  · omega
  · obtain ⟨-, hpriced⟩ := (deliverable_iff h).mp ⟨q, hq, hunit⟩
    have hscale := Nat.pos_of_ne_zero h.scale
    rw [pricedNet_eq, hfee, Nat.mul_div_cancel _ (by decide : 0 < bpsDenominator), Nat.sub_self]
      at hpriced
    omega

/-- Where everything fits, the maximum is exact if `u64::MAX` can be delivered. -/
theorem exactMaximum_maxU64 (h : Searchable prices feeBps scale)
    (hfits : fitsDestination prices feeBps scale buffered maxU64 = true) :
    ExactMaximum prices feeBps scale buffered maxU64 ↔
      scale ≤ pricedNet maxU64 prices.sourcePrice prices.destinationPrice feeBps := by
  have hne : maxU64.val ≠ 0 := by decide
  constructor
  · intro hexact
    exact ((deliverable_iff h).mp (hexact.deliverable hne)).2
  · intro hunit
    have hdeliverable := (deliverable_iff h).mpr ⟨((fitsDestination_iff h).mp hfits).1, hunit⟩
    obtain ⟨q, hq, hscale⟩ := hdeliverable
    obtain ⟨q', hq', hwithin⟩ := (fitsDestination_eq_true h).mp hfits
    obtain rfl := Except.ok.inj (hq.symm.trans hq')
    refine ⟨iff_of_false hne (not_not.mpr ⟨maxU64, q, hq, hscale, hwithin⟩), fun _ grossIn hle => ?_,
      fun _ => ⟨q, hq, hscale⟩, fun _ grossIn hlt => ?_⟩
    · exact (fitsDestination_eq_true h).mp (fitsDestination_mono h hle hfits)
    · exact absurd (le_maxU64 grossIn) (Nat.not_le.mpr hlt)

/-- The result of the search is exact. -/
theorem exactMaximum_search (h : Searchable prices feeBps scale) (hbps : feeBps < bpsDenominator)
    (hscale : scale ≤ 10 ^ 8) (hunit : scale ≤ buffered.val)
    (hmax : fitsDestination prices feeBps scale buffered maxU64 = false) :
    ExactMaximum prices feeBps scale buffered (searchSource prices feeBps scale buffered) := by
  have hfits {grossIn : U64} : fitsDestination prices feeBps scale buffered grossIn = true ↔
      grossIn.val ≤ (searchSource prices feeBps scale buffered).val := fits_iff_le_search h hmax
  have hlast := hfits.mpr (le_refl (searchSource prices feeBps scale buffered).val)
  have hdeliver (hne : (searchSource prices feeBps scale buffered).val ≠ 0) :
      ∃ q, quoteOf prices feeBps scale (searchSource prices feeBps scale buffered) = .ok q ∧
        scale ≤ q.netOut.val :=
    (deliverable_iff h).mpr ⟨((fitsDestination_iff h).mp hlast).1,
      deliverable_of_search h hbps hscale hunit hmax (Nat.one_le_iff_ne_zero.mpr hne)⟩
  refine ⟨⟨?_, ?_⟩, fun _ grossIn hle => (fitsDestination_eq_true h).mp (hfits.mpr hle), hdeliver,
    fun _ grossIn hlt => ?_⟩
  · rintro hzero ⟨grossIn, q, hq, hdeliverable, hwithin⟩
    have hle := hfits.mp ((fitsDestination_eq_true h).mpr ⟨q, hq, hwithin⟩)
    have hgross : grossIn = sourceAmount 0 := Fin.ext (by rw [val_sourceAmount] <;> omega)
    obtain ⟨-, hpriced⟩ := (deliverable_iff h).mp ⟨q, hq, hdeliverable⟩
    rw [hgross, pricedNet_zero] at hpriced
    exact h.scale (Nat.le_zero.mp hpriced)
  · intro hnone
    by_contra hne
    obtain ⟨q, hq, hdeliverable⟩ := hdeliver hne
    obtain ⟨q', hq', hwithin⟩ := (fitsDestination_eq_true h).mp hlast
    obtain rfl := Except.ok.inj (hq.symm.trans hq')
    exact hnone ⟨_, q, hq, hdeliverable, hwithin⟩
  · rw [← fitsDestination_eq_false h]
    exact Bool.eq_false_iff.mpr fun htrue => absurd (hfits.mp htrue) (Nat.not_le.mpr hlt)

/-- What is returned, and when. -/
theorem maxSourceForDestinationLimit_eq_ok {limit maximum : U64} {bufferBps : ℕ}
    (h : maxSourceForDestinationLimit limit prices feeBps scale bufferBps = .ok maximum) :
    Searchable prices feeBps scale ∧
      (((bufferedDestinationLimit limit bufferBps).val < scale ∨ feeBps = bpsDenominator) ∧
        maximum = sourceAmount 0 ∨
      (scale ≤ (bufferedDestinationLimit limit bufferBps).val ∧ feeBps < bpsDenominator) ∧
        (fitsDestination prices feeBps scale (bufferedDestinationLimit limit bufferBps) maxU64 = true ∧
          maximum = maxU64 ∨
        fitsDestination prices feeBps scale (bufferedDestinationLimit limit bufferBps) maxU64 = false ∧
          maximum = searchSource prices feeBps scale (bufferedDestinationLimit limit bufferBps))) := by
  simp only [maxSourceForDestinationLimit, bind_eq_ok, require_eq_ok, exists_unit] at h
  obtain ⟨hscale, hbps, hprices, h⟩ := h
  refine ⟨⟨hscale, hbps, hprices⟩, ?_⟩
  split_ifs at h with hnone hfits
  · exact .inl ⟨hnone, (pure_eq_ok.mp h).symm⟩
  · exact .inr ⟨by omega, .inl ⟨hfits, (pure_eq_ok.mp h).symm⟩⟩
  · exact .inr ⟨by omega, .inr ⟨Bool.eq_false_iff.mpr hfits, (pure_eq_ok.mp h).symm⟩⟩

end Boundary

/-- The maximum is the exact boundary if and only if the limit is below one unit of
the destination, the fee takes everything, or the rate and the fee leave at least
one unit of `u64::MAX`. -/
theorem max_source_exact_iff (limit : U64) (prices : RailPrices) (feeBps bufferBps k : ℕ) (hk : k ≤ 8)
    (maximum : U64)
    (h : maxSourceForDestinationLimit limit prices feeBps (10 ^ k) bufferBps = .ok maximum) :
    ExactMaximum prices feeBps (10 ^ k) (bufferedDestinationLimit limit bufferBps) maximum ↔
      (bufferedDestinationLimit limit bufferBps).val < 10 ^ k ∨ feeBps = bpsDenominator ∨
        10 ^ k ≤ pricedNet maxU64 prices.sourcePrice prices.destinationPrice feeBps := by
  have hunits : 10 ^ k ≤ 10 ^ 8 := Nat.pow_le_pow_right (by decide) hk
  obtain ⟨hsearchable, hcases⟩ := maxSourceForDestinationLimit_eq_ok h
  obtain ⟨hnone, rfl⟩ | ⟨⟨hunit, hbps⟩, ⟨hfits, rfl⟩ | ⟨hmax, rfl⟩⟩ := hcases
  · refine iff_of_true (exactMaximum_zero hsearchable hnone) ?_
    rcases hnone with hlimit | hfee
    · exact .inl hlimit
    · exact .inr (.inl hfee)
  · rw [exactMaximum_maxU64 hsearchable hfits]
    constructor
    · intro hpriced
      exact .inr (.inr hpriced)
    · rintro (hlimit | hfee | hpriced)
      · omega
      · omega
      · exact hpriced
  · exact iff_of_true (exactMaximum_search hsearchable hbps hunits hunit hmax)
      (.inr (.inr (unit_le_of_not_fits hsearchable hbps hunits hunit hmax)))

/-- A source of a third of the destination's price. -/
def samplePrices : RailPrices := ⟨sourceAmount 1000, sourceAmount 3000, 0, 0⟩

theorem max_source_exact_iff_sample :
    ExactMaximum samplePrices 300 (10 ^ 2) (bufferedDestinationLimit (sourceAmount 10000) 2500)
      (sourceAmount 23504) := by
  have hmax : maxSourceForDestinationLimit (sourceAmount 10000) samplePrices 300 (10 ^ 2) 2500 =
      .ok (sourceAmount 23504) := by decide +kernel
  exact (max_source_exact_iff (sourceAmount 10000) samplePrices 300 2500 2 (by decide) _ hmax).mpr
    (.inr (.inr (by decide +kernel)))

/-- A source so cheap that `u64::MAX` of it is worth 18 canonical units. -/
def worthlessPrices : RailPrices := ⟨sourceAmount 1, sourceAmount (10 ^ 18), 0, 0⟩

/-- There the maximum is `u64::MAX`, and its net is zero. -/
theorem worthless_maximum :
    maxSourceForDestinationLimit (sourceAmount 10000) worthlessPrices 300 (10 ^ 2) 0 = .ok maxU64 ∧
      (∃ q, quotedBreakdown maxU64 worthlessPrices.sourcePrice worthlessPrices.destinationPrice 300
        (10 ^ 2) = .ok q ∧ q.netOut.val = 0) ∧
      ¬ ExactMaximum worthlessPrices 300 (10 ^ 2) (bufferedDestinationLimit (sourceAmount 10000) 0)
        maxU64 := by
  have hmax : maxSourceForDestinationLimit (sourceAmount 10000) worthlessPrices 300 (10 ^ 2) 0 =
      .ok maxU64 := by decide +kernel
  have hsearchable : Searchable worthlessPrices 300 (10 ^ 2) := ⟨by decide, by decide, by decide⟩
  have hunit : ¬ 10 ^ 2 ≤
      pricedNet maxU64 worthlessPrices.sourcePrice worthlessPrices.destinationPrice 300 := by
    decide +kernel
  have hfits : fitsDestination worthlessPrices 300 (10 ^ 2)
      (bufferedDestinationLimit (sourceAmount 10000) 0) maxU64 = true := by decide +kernel
  obtain ⟨-, q, hq, hnet⟩ | ⟨hnot, -⟩ :=
    quotedBreakdown_cases hsearchable.scale hsearchable.bps hsearchable.prices maxU64
  · refine ⟨hmax, ⟨q, hq, ?_⟩, fun hexact => hunit ((exactMaximum_maxU64 hsearchable hfits).mp hexact)⟩
    rw [hnet]
    decide +kernel
  · exact absurd ((fitsDestination_iff hsearchable).mp hfits).1 hnot

end Service
