-- SUMMARY: The smoothed price of a rail: samples and their retention, the time-weighted average with its refusals, and its equality with the average over all accepted samples.
import ReserveBridge.Lib.StepFunction
import ReserveBridge.Service.BridgeRate

/-!
# The smoothed price

`service/src/bridge_rate/smoothing.rs` and `service/src/bridge_rate/live.rs`. A
rail keeps the samples an evaluation can still reach. What an evaluation answers
is what it would answer over every sample that was ever accepted.

The source counts time in `i64` seconds. Here times are integers: a feed stamps a
sample with its own clock, or with at most the positive milliseconds of a document
divided by 1000, so the times stay within `0..=i64::MAX / 1000`. A window is at
most one day, and no difference an evaluation takes leaves `i64`.
-/

namespace Service
open Guard

/-! ## Samples -/

/-- `Sample`. -/
structure Sample where
  feedAt : ℤ
  observedAt : ℤ
  price : U64
  deriving DecidableEq

/-- `Coverage`. -/
inductive Coverage
  | ok (price : U64)
  | empty
  | stale (newestFeedAt age : ℤ)
  | warmingUp (coveredFrom : Option ℤ)
  deriving DecidableEq

/-- `PriceHistory`, newest first. -/
abbrev PriceHistory := List Sample

/-- `MAX_SAMPLES`. -/
def maxSamples : ℕ := 4096

namespace PriceHistory

/-- `push`. A sample that is not newer than the newest is dropped. -/
def push (l : PriceHistory) (s : Sample) : PriceHistory :=
  if l.head?.any fun newest => s.feedAt ≤ newest.feedAt then l
  else s :: (if maxSamples ≤ l.length then l.dropLast else l)

/-- `prune`: the samples after the horizon, and the one in force at it. -/
def prune (horizon : ℤ) : PriceHistory → PriceHistory
  | [] => []
  | s :: older => if s.feedAt ≤ horizon then [s] else s :: prune horizon older

/-- `gap_free_from`. -/
def gapFreeFrom (l : PriceHistory) (maxGap : ℤ) : Option ℤ :=
  match l with
  | [] => none
  | newest :: older => some (StepFunction.reach Sample.feedAt maxGap newest.feedAt older)

/-- The integral of `twap`. The newest sample has no end. -/
def weighted (l : PriceHistory) (start stop : ℤ) : ℕ :=
  StepFunction.area Sample.feedAt (fun s => s.price.val) start stop stop l

/-- `twap` over `[stop - window, stop)`. -/
def twap (l : PriceHistory) (stop window now staleness : ℤ) : Coverage :=
  match l.head? with
  | none => .empty
  | some newest =>
    if staleness < now - newest.feedAt then .stale newest.feedAt (now - newest.feedAt)
    else
      let coveredFrom := l.gapFreeFrom staleness
      if coveredFrom.all fun from_ => stop - window < from_ then .warmingUp coveredFrom
      else
        let mean := l.weighted (stop - window) stop / window.toNat
        .ok (if h : mean < 2 ^ 64 then ⟨mean, h⟩ else ⟨2 ^ 64 - 1, by decide⟩)

end PriceHistory

/-! ## The live book -/

/-- `LiveRateConfig`, as the configuration admits it. -/
structure LiveRateConfig where
  window : ℤ
  staleness : ℤ
  window_pos : 0 < window
  staleness_pos : 0 < staleness

/-- `live::RateRefusal`, with what it tells an operator. -/
inductive RailRefusal
  | feedUnavailable (chain : Chain) (lastError : Option (ℤ × String))
  | feedStale (chain : Chain) (age staleness : ℤ)
  | warmingUp (chain : Chain) (coveredFrom : Option ℤ) (neededFrom : ℤ)
  deriving DecidableEq

/-- `RailState`. -/
structure RailState where
  history : PriceHistory
  lastError : Option (ℤ × String)

/-- The rails of `LiveBook`. -/
abbrev LiveBook := Chain → RailState

/-- What a feed reports. -/
inductive FeedReport
  | sample (s : Sample)
  | failure (at' : ℤ) (detail : String)

namespace LiveBook

def new : LiveBook := fun _ => ⟨[], none⟩

/-- `retention_horizon`. -/
def retentionHorizon (c : LiveRateConfig) (now : ℤ) : ℤ := now - 2 * c.window - c.staleness

/-- `record_sample` and `record_failure`, on the rail of a chain. -/
def recordOn (c : LiveRateConfig) (rail : RailState) : FeedReport → RailState
  | .sample s =>
    { rail with history := (rail.history.push s).prune (retentionHorizon c s.observedAt) }
  | .failure at' detail => { rail with lastError := some (at', detail) }

def record (c : LiveRateConfig) (book : LiveBook) (chain : Chain) (report : FeedReport) : LiveBook :=
  fun k => if k = chain then recordOn c (book k) report else book k

/-- The book after reports of all feeds. -/
def after (c : LiveRateConfig) (reports : List (Chain × FeedReport)) : LiveBook :=
  reports.foldl (fun book e => book.record c e.1 e.2) new

/-- `rail_prices`: the price over the current window, and over the one before. -/
def railPrices (c : LiveRateConfig) (rail : RailState) (chain : Chain) (now : ℤ) :
    Except RailRefusal (U64 × U64) :=
  let current := rail.history.twap now c.window now c.staleness
  let reference := rail.history.twap (now - c.window) c.window now c.staleness
  match current, reference with
  | .ok current, .ok reference => .ok (current, reference)
  | .empty, _ | _, .empty => .error (.feedUnavailable chain rail.lastError)
  | .stale _ age, _ | _, .stale _ age => .error (.feedStale chain age c.staleness)
  | .warmingUp coveredFrom, _ | _, .warmingUp coveredFrom =>
    .error (.warmingUp chain coveredFrom (now - 2 * c.window))

end LiveBook

/-! ## What is retained -/

/-- A history that is never pruned: every sample newer than those before it. -/
def PriceHistory.accept (l : PriceHistory) : FeedReport → PriceHistory
  | .sample s => if l.head?.any fun newest => s.feedAt ≤ newest.feedAt then l else s :: l
  | .failure _ _ => l

/-- The samples of a chain that were ever accepted, newest first. -/
def accepted (reports : List (Chain × FeedReport)) (chain : Chain) : PriceHistory :=
  reports.foldl (fun l e => if e.1 = chain then l.accept e.2 else l) []

/-- What is kept is the newer part of what was accepted, and the rest lies before
a horizon. -/
structure Retained (horizons : List ℤ) (kept all : PriceHistory) : Prop where
  ordered : StepFunction.Ordered Sample.feedAt all
  nonempty : all ≠ [] → kept ≠ []
  dropped : ∃ old, all = kept ++ old ∧ ∀ s ∈ old, ∃ h ∈ horizons, s.feedAt ≤ h

namespace PriceHistory

variable {kept all : PriceHistory} {horizons : List ℤ} {s : Sample} {h : ℤ}

theorem prune_eq_append (hl : StepFunction.Ordered Sample.feedAt kept) :
    ∃ old, kept = kept.prune h ++ old ∧ ∀ s ∈ old, s.feedAt ≤ h := by
  induction kept with
  | nil => exact ⟨[], rfl, by simp⟩
  | cons s older ih =>
    unfold prune
    split_ifs with hs
    · exact ⟨older, rfl, fun o ho => (hl.head o ho).le.trans hs⟩
    · obtain ⟨old, heq, hold⟩ := ih hl.tail
      exact ⟨old, congrArg (s :: ·) heq, hold⟩

theorem prune_ne_nil (hkept : kept ≠ []) : kept.prune h ≠ [] := by
  cases kept with
  | nil => exact absurd rfl hkept
  | cons s older =>
    unfold prune
    split_ifs <;> simp

end PriceHistory

namespace Retained

variable {kept all : PriceHistory} {horizons : List ℤ} {s : Sample} {h : ℤ}

theorem mono {horizons' : List ℤ} (hr : Retained horizons kept all) (hsub : horizons ⊆ horizons') :
    Retained horizons' kept all := by
  obtain ⟨old, heq, hold⟩ := hr.dropped
  refine ⟨hr.ordered, hr.nonempty, old, heq, fun s hs => ?_⟩
  obtain ⟨h, hmem, hle⟩ := hold s hs
  exact ⟨h, hsub hmem, hle⟩

theorem head?_eq (hr : Retained horizons kept all) : all.head? = kept.head? := by
  obtain ⟨old, heq, -⟩ := hr.dropped
  cases kept with
  | nil =>
    have hnil : all = [] := by
      by_contra hne
      exact hr.nonempty hne rfl
    rw [hnil]
  | cons s kept =>
    rw [heq]
    rfl

theorem prune (hr : Retained horizons kept all) (hh : h ∈ horizons) :
    Retained horizons (kept.prune h) all := by
  obtain ⟨old, heq, hold⟩ := hr.dropped
  have hkept : StepFunction.Ordered Sample.feedAt kept :=
    hr.ordered.sublist (heq ▸ List.sublist_append_left kept old)
  obtain ⟨pruned, hpruned, hle⟩ := PriceHistory.prune_eq_append (h := h) hkept
  refine ⟨hr.ordered, fun hne => PriceHistory.prune_ne_nil (hr.nonempty hne), pruned ++ old, ?_, ?_⟩
  · rw [heq, ← List.append_assoc, ← hpruned]
  · intro s hs
    rcases List.mem_append.mp hs with hs | hs
    · exact ⟨h, hh, hle s hs⟩
    · exact hold s hs

theorem ordered_cons (hall : StepFunction.Ordered Sample.feedAt all)
    (hnewer : ∀ newest ∈ all.head?, newest.feedAt < s.feedAt) :
    StepFunction.Ordered Sample.feedAt (s :: all) := by
  refine List.pairwise_cons.mpr ⟨fun o ho => ?_, hall⟩
  cases all with
  | nil => cases ho
  | cons newest older =>
    have hs := hnewer newest rfl
    rcases List.mem_cons.mp ho with rfl | ho
    · exact hs
    · exact (hall.head o ho).trans hs

/-- The oldest sample of a full history is before the horizon, when no more than
the cap are after it. -/
theorem last_le (hkept : StepFunction.Ordered Sample.feedAt (s :: kept)) {last : Sample}
    {front : PriceHistory} (heq : kept = front ++ [last]) (hcap : maxSamples ≤ kept.length)
    (hmax : (s :: kept).countP (fun x => h < x.feedAt) ≤ maxSamples) : last.feedAt ≤ h := by
  by_contra hlast
  have hafter : ∀ x ∈ s :: kept, h < x.feedAt := by
    intro x hx
    rw [heq, ← List.cons_append] at hx hkept
    rcases List.mem_append.mp hx with hx | hx
    · have hlt := (List.pairwise_append.mp hkept).2.2 x hx last (List.mem_singleton_self last)
      omega
    · rw [List.mem_singleton.mp hx]
      omega
  rw [List.countP_eq_length.mpr fun x hx => decide_eq_true (hafter x hx), List.length_cons] at hmax
  omega

/-- A push keeps what was kept, but for an oldest sample in excess. -/
theorem push (hr : Retained horizons kept all) (hh : h ∈ horizons)
    (hmax : (all.accept (.sample s)).countP (fun x => h < x.feedAt) ≤ maxSamples) :
    Retained horizons (kept.push s) (all.accept (.sample s)) := by
  have haccept : all.accept (.sample s) =
      if kept.head?.any fun newest => s.feedAt ≤ newest.feedAt then all else s :: all := by
    rw [← hr.head?_eq]
    rfl
  rw [haccept] at hmax ⊢
  unfold PriceHistory.push
  by_cases hdrop : kept.head?.any fun newest => s.feedAt ≤ newest.feedAt
  · rw [if_pos hdrop, if_pos hdrop]
    exact hr
  rw [if_neg hdrop] at hmax ⊢
  rw [if_neg hdrop]
  have hordered : StepFunction.Ordered Sample.feedAt (s :: all) := by
    refine ordered_cons hr.ordered fun newest hnewest => ?_
    rw [hr.head?_eq] at hnewest
    rw [hnewest] at hdrop
    simpa using hdrop
  obtain ⟨old, heq, hold⟩ := hr.dropped
  split_ifs with hcap
  · have hne : kept ≠ [] := by
      rintro rfl
      exact absurd hcap (by decide)
    have hlast := (List.dropLast_append_getLast hne).symm
    refine ⟨hordered, fun _ => List.cons_ne_nil _ _, kept.getLast hne :: old, ?_, ?_⟩
    · rw [heq]
      conv_lhs => rw [hlast]
      simp
    · intro x hx
      rcases List.mem_cons.mp hx with rfl | hx
      · have hsub : (s :: kept).Sublist (s :: all) :=
          heq ▸ (List.sublist_append_left kept old).cons_cons s
        have hle : (s :: kept).countP (fun x => h < x.feedAt) ≤ maxSamples :=
          le_trans hsub.countP_le hmax
        exact ⟨h, hh, last_le (hordered.sublist hsub) hlast hcap hle⟩
      · exact hold x hx
  · refine ⟨hordered, fun _ => List.cons_ne_nil _ _, old, ?_, hold⟩
    rw [heq]
    rfl

end Retained

/-- The cap was never in the way: at each sample that was reported, no more than
`MAX_SAMPLES` accepted ones are after the retention horizon. -/
def WithinCap (c : LiveRateConfig) (reports : List (Chain × FeedReport)) : Prop :=
  ∀ chain pre s post, reports = pre ++ (chain, .sample s) :: post →
    (accepted (pre ++ [(chain, .sample s)]) chain).countP
      (fun x => LiveBook.retentionHorizon c s.observedAt < x.feedAt) ≤ maxSamples

/-- The horizons of the samples that were reported for a chain. -/
def horizons (c : LiveRateConfig) (reports : List (Chain × FeedReport)) (chain : Chain) : List ℤ :=
  reports.filterMap fun e => match e with
    | (k, .sample s) => if k = chain then some (LiveBook.retentionHorizon c s.observedAt) else none
    | (_, .failure _ _) => none

theorem accepted_append_singleton (reports : List (Chain × FeedReport)) (e : Chain × FeedReport)
    (chain : Chain) : accepted (reports ++ [e]) chain =
      if e.1 = chain then (accepted reports chain).accept e.2 else accepted reports chain := by
  simp [accepted]

theorem LiveBook.after_append_singleton (c : LiveRateConfig) (reports : List (Chain × FeedReport))
    (e : Chain × FeedReport) : LiveBook.after c (reports ++ [e]) =
      (LiveBook.after c reports).record c e.1 e.2 := by
  simp [LiveBook.after]

theorem WithinCap.of_append {c : LiveRateConfig} {reports : List (Chain × FeedReport)}
    {e : Chain × FeedReport} (h : WithinCap c (reports ++ [e])) : WithinCap c reports := by
  intro chain pre s post heq
  exact h chain pre s (post ++ [e]) (by rw [heq]; simp)

/-- What the live book keeps of a chain is the newer part of what was accepted. -/
theorem retained_after (c : LiveRateConfig) (reports : List (Chain × FeedReport))
    (hcap : WithinCap c reports) (chain : Chain) :
    Retained (horizons c reports chain) (LiveBook.after c reports chain).history
      (accepted reports chain) := by
  induction reports using List.reverseRecOn with
  | nil => exact ⟨List.Pairwise.nil, fun h => absurd rfl h, [], rfl, by simp⟩
  | append_singleton reports e ih =>
    have hsub : horizons c reports chain ⊆ horizons c (reports ++ [e]) chain := by
      simp [horizons]
    have hprev := (ih hcap.of_append).mono hsub
    rw [LiveBook.after_append_singleton, accepted_append_singleton]
    obtain ⟨k, report⟩ := e
    unfold LiveBook.record
    by_cases hk : k = chain
    · subst hk
      simp only [if_true]
      cases report with
      | failure at' detail => exact hprev
      | sample s =>
        have hh : LiveBook.retentionHorizon c s.observedAt ∈
            horizons c (reports ++ [(k, .sample s)]) k := by
          simp [horizons]
        have hmax := hcap k reports s [] rfl
        rw [accepted_append_singleton, if_pos rfl] at hmax
        exact (hprev.push hh hmax).prune hh
    · rw [if_neg hk, if_neg (Ne.symm hk)]
      exact hprev

/-! ## What the price is -/

/-- The price in force at a time. -/
def inForce (all : PriceHistory) : ℤ → ℕ :=
  StepFunction.valueAt Sample.feedAt (fun s => s.price.val) all

/-- Nothing is said of the price from `start` on: no sample is as old, the newest
is too old, or two samples are too far apart. -/
def Refused (all : PriceHistory) (start now staleness : ℤ) : Prop :=
  (∀ s ∈ all, start < s.feedAt) ∨ (∃ newest ∈ all.head?, staleness < now - newest.feedAt) ∨
    ¬ StepFunction.Gapless Sample.feedAt staleness start all

/-- The smoothed price over `[start, start + window)`. -/
structure Smoothed (all : PriceHistory) (start window now staleness : ℤ) (price : U64) : Prop where
  answered : ¬ Refused all start now staleness
  mean : price.val = (∑ t ∈ Finset.Ico start (start + window), inForce all t) / window.toNat

theorem Smoothed.bounds {all : PriceHistory} {start window now staleness : ℤ} {price : U64}
    (h : Smoothed all start window now staleness price) (hw : 0 < window) {lo hi : ℕ}
    (hbounds : ∀ t, start ≤ t → t < start + window → lo ≤ inForce all t ∧ inForce all t ≤ hi) :
    lo ≤ price.val ∧ price.val ≤ hi := by
  have hspan : (start + window - start).toNat = window.toNat := by omega
  have hmean := StepFunction.mean_bounds (by omega) hbounds
  rw [hspan] at hmean
  rw [h.mean]
  exact hmean

namespace PriceHistory

variable {l kept old : PriceHistory} {stop window now staleness : ℤ} {price : U64}

theorem ordered_le_head {newest : Sample} (hl : StepFunction.Ordered Sample.feedAt (newest :: l)) :
    ∀ s ∈ newest :: l, s.feedAt ≤ newest.feedAt := by
  intro s hs
  rcases List.mem_cons.mp hs with rfl | hs
  · exact le_rfl
  · exact (hl.head s hs).le

theorem weighted_eq_sum (hl : StepFunction.Ordered Sample.feedAt l) (start : ℤ) :
    l.weighted start stop = ∑ t ∈ Finset.Ico start stop, inForce l t := by
  cases l with
  | nil => simp [weighted, inForce, StepFunction.area, StepFunction.valueAt]
  | cons newest older =>
    -- the newest sample has no end
    have hend : PriceHistory.weighted (newest :: older) start stop =
        StepFunction.area Sample.feedAt (fun s => s.price.val) start stop
          (max stop newest.feedAt) (newest :: older) := by
      simp only [weighted, StepFunction.area]
      rw [min_self, min_eq_right (le_max_left _ _)]
    have hnext : ∀ s ∈ newest :: older, s.feedAt ≤ max stop newest.feedAt :=
      fun s hs => (ordered_le_head hl s hs).trans (le_max_right _ _)
    rw [hend, StepFunction.area_eq_sum hl hnext, min_eq_right (le_max_left _ _)]
    rfl

theorem mean_lt (l : PriceHistory) (start : ℤ) (hw : 0 < window) :
    (∑ t ∈ Finset.Ico start (start + window), inForce l t) / window.toNat < 2 ^ 64 := by
  have hprices : ∀ t, inForce l t ≤ 2 ^ 64 - 1 := by
    refine StepFunction.valueAt_le fun s _ => ?_
    have := s.price.isLt
    omega
  have hspan : (start + window - start).toNat = window.toNat := by omega
  have hle : (∑ t ∈ Finset.Ico start (start + window), inForce l t) / window.toNat ≤ 2 ^ 64 - 1 := by
    rw [← hspan]
    exact (StepFunction.mean_bounds (by omega) fun t _ _ => ⟨Nat.zero_le _, hprices t⟩).2
  exact Nat.lt_of_le_of_lt hle (by omega)

/-- `twap` answers the smoothed price of its window, or refuses. -/
theorem twap_eq_ok_iff (hl : StepFunction.Ordered Sample.feedAt l) (hw : 0 < window) :
    l.twap stop window now staleness = .ok price ↔
      Smoothed l (stop - window) window now staleness price := by
  have hstop : stop - window + window = stop := by omega
  cases l with
  | nil =>
    have hrefused : ¬ Smoothed [] (stop - window) window now staleness price :=
      fun h => h.answered (.inl (by simp))
    simp [twap, hrefused]
  | cons newest older =>
    have hmean : PriceHistory.weighted (newest :: older) (stop - window) stop =
        ∑ t ∈ Finset.Ico (stop - window) stop, inForce (newest :: older) t :=
      weighted_eq_sum hl (stop - window)
    have hlt := mean_lt (newest :: older) (stop - window) hw
    rw [hstop, ← hmean] at hlt
    have hreach : StepFunction.reach Sample.feedAt staleness newest.feedAt older ≤ stop - window ↔
        (∃ o ∈ newest :: older, o.feedAt ≤ stop - window) ∧
          StepFunction.Gapless Sample.feedAt staleness (stop - window) (newest :: older) :=
      StepFunction.reach_le_iff hl
    simp only [twap, List.head?_cons, gapFreeFrom, Option.all_some, decide_eq_true_eq]
    split_ifs with hstale hwarm
    · have hrefused : ¬ Smoothed (newest :: older) (stop - window) window now staleness price :=
        fun h => h.answered (.inr (.inl ⟨newest, rfl, hstale⟩))
      simp [hrefused]
    · have hrefused : ¬ Smoothed (newest :: older) (stop - window) window now staleness price := by
        intro h
        have hnot := h.answered
        simp only [Refused, not_or, not_forall, not_lt, not_not] at hnot
        obtain ⟨⟨o, ho, hle⟩, -, hgapless⟩ := hnot
        have := hreach.mpr ⟨⟨o, ho, hle⟩, hgapless⟩
        omega
      simp [hrefused]
    · have hanswered : ¬ Refused (newest :: older) (stop - window) now staleness := by
        obtain ⟨⟨o, ho, hle⟩, hgapless⟩ := hreach.mp (by omega)
        rintro (hnone | ⟨_, hnewest, hold⟩ | hgap)
        · have := hnone o ho
          omega
        · obtain rfl : newest = _ := by simpa using hnewest
          omega
        · exact hgap hgapless
      constructor
      · intro h
        injection h with hprice
        exact ⟨hanswered, by rw [← hprice, hstop, ← hmean]⟩
      · intro h
        have hprice := h.mean
        rw [hstop, ← hmean] at hprice
        congr 1
        exact Fin.ext hprice.symm

/-- Samples that lie before a window by the gap that is allowed do not change
what is answered over it. -/
theorem twap_append (hl : StepFunction.Ordered Sample.feedAt (kept ++ old))
    (hkept : kept ++ old ≠ [] → kept ≠ []) (hgap : 0 ≤ staleness) {a : ℤ} (ha : a ≤ stop - window)
    (hold : ∀ s ∈ old, s.feedAt ≤ a - staleness) :
    twap (kept ++ old) stop window now staleness = twap kept stop window now staleness := by
  cases kept with
  | nil =>
    have hnil : old = [] := by
      by_contra hne
      exact hkept (by simpa using hne) rfl
    rw [hnil]
    rfl
  | cons newest kept =>
    have hreach := StepFunction.reach_append hl.tail (fun s hs => (hl.head s hs).le) hold hgap
    have hordered : StepFunction.Ordered Sample.feedAt (newest :: kept) :=
      hl.sublist (List.sublist_append_left (newest :: kept) old)
    simp only [twap, List.cons_append, List.head?_cons, gapFreeFrom, Option.all_some,
      decide_eq_true_eq]
    by_cases hwarm : stop - window < StepFunction.reach Sample.feedAt staleness newest.feedAt kept
    · -- a window that is not reached is not reached by the same time
      have heq := hreach.resolve_right (by omega)
      rw [heq, if_pos hwarm, if_pos hwarm]
    · have hall : ¬ stop - window <
          StepFunction.reach Sample.feedAt staleness newest.feedAt (kept ++ old) := by omega
      have hkeeps := ((StepFunction.reach_le_iff hordered).mp (not_lt.mp hwarm)).1
      have hweighted : PriceHistory.weighted (newest :: (kept ++ old)) (stop - window) stop =
          PriceHistory.weighted (newest :: kept) (stop - window) stop :=
        StepFunction.area_append hl hkeeps
      rw [if_neg hwarm, if_neg hall]
      simp only [hweighted]

end PriceHistory

theorem mem_horizons {c : LiveRateConfig} {reports : List (Chain × FeedReport)} {chain : Chain}
    {h : ℤ} (hh : h ∈ horizons c reports chain) :
    ∃ s, (chain, FeedReport.sample s) ∈ reports ∧ h = LiveBook.retentionHorizon c s.observedAt := by
  obtain ⟨⟨k, report⟩, he, hsome⟩ := List.mem_filterMap.mp hh
  cases report with
  | failure at' detail => cases hsome
  | sample s =>
    by_cases hk : k = chain
    · subst hk
      exact ⟨s, he, by simpa using hsome.symm⟩
    · simp [hk] at hsome

/-- `rail_prices` over what is kept answers as it does over all that was
accepted. -/
theorem railPrices_retained {c : LiveRateConfig} {reports : List (Chain × FeedReport)}
    {kept all : PriceHistory} {chain : Chain} {now : ℤ} {lastError : Option (ℤ × String)}
    (hr : Retained (horizons c reports chain) kept all)
    (hnow : ∀ s, (chain, FeedReport.sample s) ∈ reports → s.observedAt ≤ now) :
    LiveBook.railPrices c ⟨kept, lastError⟩ chain now =
      LiveBook.railPrices c ⟨all, lastError⟩ chain now := by
  obtain ⟨old, rfl, hold⟩ := hr.dropped
  have hw := c.window_pos
  have hs := c.staleness_pos
  have hbefore : ∀ s ∈ old, s.feedAt ≤ now - 2 * c.window - c.staleness := by
    intro s hmem
    obtain ⟨h, hh, hle⟩ := hold s hmem
    obtain ⟨s', hs', rfl⟩ := mem_horizons hh
    have := hnow s' hs'
    unfold LiveBook.retentionHorizon at hle
    omega
  have hsame : ∀ stop, now - 2 * c.window ≤ stop - c.window →
      (kept ++ old : PriceHistory).twap stop c.window now c.staleness =
        kept.twap stop c.window now c.staleness :=
    fun _ hstop => PriceHistory.twap_append hr.ordered hr.nonempty hs.le hstop hbefore
  have hcurrent := hsame now (by omega)
  have hreference := hsame (now - c.window) (by omega)
  simp only [LiveBook.railPrices, hcurrent, hreference]

/-- `rail_prices` answers the two smoothed prices. -/
theorem railPrices_eq_ok_iff {c : LiveRateConfig} {all : PriceHistory} {chain : Chain} {now : ℤ}
    {lastError : Option (ℤ × String)} (hall : StepFunction.Ordered Sample.feedAt all)
    {current reference : U64} :
    LiveBook.railPrices c ⟨all, lastError⟩ chain now = .ok (current, reference) ↔
      Smoothed all (now - c.window) c.window now c.staleness current ∧
        Smoothed all (now - 2 * c.window) c.window now c.staleness reference := by
  have hstart : now - c.window - c.window = now - 2 * c.window := by omega
  rw [← hstart, ← PriceHistory.twap_eq_ok_iff hall c.window_pos,
    ← PriceHistory.twap_eq_ok_iff hall c.window_pos]
  cases hcurrent : all.twap now c.window now c.staleness <;>
    cases hreference : all.twap (now - c.window) c.window now c.staleness <;>
    simp [LiveBook.railPrices, hcurrent, hreference]

/-- A window that begins later is not refused where an earlier one is not. -/
theorem Refused.mono {all : PriceHistory} {start later now staleness : ℤ}
    (h : Refused all later now staleness) (hle : start ≤ later) :
    Refused all start now staleness := by
  rcases h with hnone | hold | hgap
  · exact .inl fun s hs => hle.trans_lt (hnone s hs)
  · exact .inr (.inl hold)
  · refine .inr (.inr fun hgapless => hgap ?_)
    intro pre s older post heq hlater
    exact hgapless pre s older post heq (hle.trans_lt hlater)

/-- `rail_prices` refuses if and only if the earlier of the two windows is. -/
theorem railPrices_eq_error_iff {c : LiveRateConfig} {all : PriceHistory} {chain : Chain} {now : ℤ}
    {lastError : Option (ℤ × String)} (hall : StepFunction.Ordered Sample.feedAt all) :
    (∃ refusal, LiveBook.railPrices c ⟨all, lastError⟩ chain now = .error refusal) ↔
      Refused all (now - 2 * c.window) now c.staleness := by
  have hw := c.window_pos
  have hearlier : now - 2 * c.window ≤ now - c.window := by omega
  constructor
  · rintro ⟨refusal, hrefusal⟩
    by_contra hnot
    have hlt := PriceHistory.mean_lt all (now - c.window) hw
    have hlt' := PriceHistory.mean_lt all (now - 2 * c.window) hw
    have hcurrent : Smoothed all (now - c.window) c.window now c.staleness ⟨_, hlt⟩ :=
      ⟨fun h => hnot (h.mono hearlier), rfl⟩
    have hreference : Smoothed all (now - 2 * c.window) c.window now c.staleness ⟨_, hlt'⟩ :=
      ⟨hnot, rfl⟩
    have hok : LiveBook.railPrices c ⟨all, lastError⟩ chain now = .ok (⟨_, hlt⟩, ⟨_, hlt'⟩) :=
      (railPrices_eq_ok_iff hall).mpr ⟨hcurrent, hreference⟩
    rw [hok] at hrefusal
    cases hrefusal
  · intro hrefused
    cases hprices : LiveBook.railPrices c ⟨all, lastError⟩ chain now with
    | error refusal => exact ⟨refusal, rfl⟩
    | ok prices =>
      obtain ⟨current, reference⟩ := prices
      have hreference := ((railPrices_eq_ok_iff hall).mp hprices).2
      exact absurd hrefused hreference.answered

theorem length_accepted_le (reports : List (Chain × FeedReport)) (chain : Chain) :
    (accepted reports chain).length ≤ reports.length := by
  induction reports using List.reverseRecOn with
  | nil => exact le_rfl
  | append_singleton reports e ih =>
    rw [accepted_append_singleton, List.length_append, List.length_singleton]
    split_ifs
    · cases e.2 with
      | failure at' detail => exact ih.trans (Nat.le_succ _)
      | sample s =>
        simp only [PriceHistory.accept]
        split_ifs
        · exact ih.trans (Nat.le_succ _)
        · exact Nat.succ_le_succ ih
    · exact ih.trans (Nat.le_succ _)

theorem withinCap_of_length {c : LiveRateConfig} {reports : List (Chain × FeedReport)}
    (h : reports.length ≤ maxSamples) : WithinCap c reports := by
  intro chain pre s post heq
  have hlen := length_accepted_le (pre ++ [(chain, FeedReport.sample s)]) chain
  have hcount := List.countP_le_length (p := fun x : Sample =>
    decide (LiveBook.retentionHorizon c s.observedAt < x.feedAt))
    (l := accepted (pre ++ [(chain, FeedReport.sample s)]) chain)
  rw [heq] at h
  simp only [List.length_append, List.length_cons, List.length_nil] at h hlen
  omega

/-- What `rail_prices` answers is what it would answer with nothing pruned. It
refuses if and only if the earlier window is refused, and otherwise answers the
price of each window, between the bounds of the prices in force there. -/
theorem smoothed_price (c : LiveRateConfig) (reports : List (Chain × FeedReport))
    (hcap : WithinCap c reports) (chain : Chain) (now : ℤ)
    (hnow : ∀ s, (chain, FeedReport.sample s) ∈ reports → s.observedAt ≤ now) :
    let kept := LiveBook.after c reports chain
    let all := accepted reports chain
    LiveBook.railPrices c kept chain now = LiveBook.railPrices c ⟨all, kept.lastError⟩ chain now ∧
      ((∃ refusal, LiveBook.railPrices c kept chain now = .error refusal) ↔
        Refused all (now - 2 * c.window) now c.staleness) ∧
      ∀ current reference, LiveBook.railPrices c kept chain now = .ok (current, reference) →
        Smoothed all (now - c.window) c.window now c.staleness current ∧
        Smoothed all (now - 2 * c.window) c.window now c.staleness reference ∧
        (∀ lo hi, (∀ t, now - c.window ≤ t → t < now → lo ≤ inForce all t ∧ inForce all t ≤ hi) →
          lo ≤ current.val ∧ current.val ≤ hi) ∧
        ∀ lo hi, (∀ t, now - 2 * c.window ≤ t → t < now - c.window →
          lo ≤ inForce all t ∧ inForce all t ≤ hi) → lo ≤ reference.val ∧ reference.val ≤ hi := by
  intro kept all
  have hr : Retained (horizons c reports chain) kept.history all := retained_after c reports hcap chain
  have hsame : LiveBook.railPrices c kept chain now =
      LiveBook.railPrices c ⟨all, kept.lastError⟩ chain now := railPrices_retained hr hnow
  rw [hsame]
  refine ⟨rfl, railPrices_eq_error_iff hr.ordered, fun current reference hok => ?_⟩
  obtain ⟨hcurrent, hreference⟩ := (railPrices_eq_ok_iff hr.ordered).mp hok
  refine ⟨hcurrent, hreference, fun lo hi hbounds => ?_, fun lo hi hbounds => ?_⟩
  · exact hcurrent.bounds c.window_pos fun t hle hlt => hbounds t hle (by omega)
  · exact hreference.bounds c.window_pos fun t hle hlt => hbounds t hle (by omega)

/-- Two samples of a feed, the older of which is as old as both windows, and a
late one that is dropped. -/
def sampleReports (early recent late : U64) : List (Chain × FeedReport) :=
  [(.solana, .sample ⟨0, 10, early⟩), (.robinhood, .failure 15 "timeout"),
    (.solana, .sample ⟨100, 105, recent⟩), (.solana, .sample ⟨90, 110, late⟩)]

def sampleRateConfig : LiveRateConfig := ⟨60, 100, by decide, by decide⟩

theorem smoothed_price_sample :
    LiveBook.railPrices sampleRateConfig (LiveBook.after sampleRateConfig
        (sampleReports 5 8 9) .solana) .solana 120 = .ok (6, 5) ∧
      Smoothed (accepted (sampleReports 5 8 9) .solana) 60 60 120 100 6 := by
  have hok : LiveBook.railPrices sampleRateConfig
      (LiveBook.after sampleRateConfig (sampleReports 5 8 9) .solana) .solana 120 = .ok (6, 5) := by
    decide +kernel
  have hnow : ∀ s, (Chain.solana, FeedReport.sample s) ∈ sampleReports 5 8 9 → s.observedAt ≤ 120 := by
    intro s hs
    simp [sampleReports] at hs
    rcases hs with rfl | rfl | rfl <;> decide
  exact ⟨hok, ((smoothed_price sampleRateConfig (sampleReports 5 8 9) (withinCap_of_length (by decide))
    .solana 120 hnow).2.2 6 5 hok).1⟩

/-- One fresh sample is neither none, nor too old, nor apart from another, and is
refused. -/
theorem warming_up_alone :
    ¬ ∀ (c : LiveRateConfig) (reports : List (Chain × FeedReport)) (chain : Chain) (now : ℤ),
      WithinCap c reports → (∀ s, (chain, FeedReport.sample s) ∈ reports → s.observedAt ≤ now) →
      (∃ refusal, LiveBook.railPrices c (LiveBook.after c reports chain) chain now =
        .error refusal) →
      accepted reports chain = [] ∨
        (∃ newest ∈ (accepted reports chain).head?, c.staleness < now - newest.feedAt) ∨
        ¬ StepFunction.Gapless Sample.feedAt c.staleness (now - 2 * c.window)
          (accepted reports chain) := by
  intro h
  have hnow : ∀ s, (Chain.solana, FeedReport.sample s) ∈
      [(Chain.solana, FeedReport.sample ⟨0, 10, 5⟩)] → s.observedAt ≤ 10 := by
    intro s hs
    obtain rfl : s = ⟨0, 10, 5⟩ := by simpa using hs
    decide
  have hrefused : LiveBook.railPrices sampleRateConfig
      (LiveBook.after sampleRateConfig [(.solana, .sample ⟨0, 10, 5⟩)] .solana) .solana 10 =
        .error (.warmingUp .solana (some 0) (-110)) := by
    decide +kernel
  rcases h sampleRateConfig [(.solana, .sample ⟨0, 10, 5⟩)] .solana 10
    (withinCap_of_length (by decide)) hnow ⟨_, hrefused⟩ with hnone | hold | hgap
  · exact absurd hnone (by decide)
  · exact absurd hold (by decide)
  · exact hgap (StepFunction.gapless_singleton _)

end Service
