-- SUMMARY: Fixed-bucket rate limiting: a bucket reopens once it is `W` old, and any closed span of length `W` sees at most two buckets.
import ReserveBridge.Lib.Run
import Mathlib.Algebra.Ring.Nat
import Mathlib.Algebra.BigOperators.Group.List.Basic
import Mathlib.Algebra.Order.Group.Int
import Mathlib.Data.Finset.Max
import Mathlib.Data.Finset.Dedup

/-!
# Fixed-bucket rate limiting

A bucket has the time it was opened at and the amount it has admitted. An event
that comes `W` or more after the opening opens a new bucket. Otherwise it is
counted in the current one. It is admitted when the bucket stays within `L`.

Two facts bound what is admitted. Within a bucket the total is at most `L`. And
the buckets of a run open at least `W` apart, so that three of them never meet
one closed span of length `W`.
-/

namespace Bucket

structure State where
  start : ℤ
  total : ℕ

structure Event where
  time : ℤ
  amount : ℕ

/-- The bucket an event at time `t` falls in. -/
def roll (W : ℤ) (s : State) (t : ℤ) : State := if W ≤ t - s.start then ⟨t, 0⟩ else s

/-- Take an event into its bucket, if the bucket stays within `L`. -/
def take (W : ℤ) (L : ℕ) (s : State) (e : Event) : Option State :=
  let b := roll W s e.time
  if b.total + e.amount ≤ L then some ⟨b.start, b.total + e.amount⟩ else none

/-- The opening time of the bucket of an admitted event. -/
def opened (W : ℤ) (x : State × Event) : ℤ := (roll W x.1 x.2.time).start

/-- The amount of the entries that satisfy `p`. -/
def volume (p : State × Event → Prop) [DecidablePred p] (l : List (State × Event)) : ℕ :=
  ((l.filter p).map fun x => x.2.amount).sum

variable {W : ℤ} {L : ℕ} {s s' : State} {e : Event} {es : List Event}

theorem volume_cons {p : State × Event → Prop} [DecidablePred p] {x : State × Event}
    {l : List (State × Event)} :
    volume p (x :: l) = (if p x then x.2.amount else 0) + volume p l := by
  by_cases hx : p x <;> simp [volume, hx]

theorem volume_eq_zero {p : State × Event → Prop} [DecidablePred p] {l : List (State × Event)}
    (h : ∀ x ∈ l, ¬ p x) : volume p l = 0 := by
  rw [volume, List.filter_eq_nil_iff.mpr (by simpa using h)]
  rfl

theorem volume_le_add {p q r : State × Event → Prop} [DecidablePred p] [DecidablePred q]
    [DecidablePred r] {l : List (State × Event)} (h : ∀ x ∈ l, p x → q x ∨ r x) :
    volume p l ≤ volume q l + volume r l := by
  induction l with
  | nil => simp [volume]
  | cons x l ih =>
    have hx := h x List.mem_cons_self
    have hl := ih fun y hy => h y (List.mem_cons_of_mem _ hy)
    simp only [volume_cons]
    by_cases hp : p x
    · rcases hx hp with hq | hr
      · simp only [hp, hq, if_true]
        omega
      · simp only [hp, hr, if_true]
        omega
    · simp only [hp, if_false]
      omega

/-- An admitted event and the state it leads to. -/
theorem take_eq_some (h : take W L s e = some s') :
    s'.start = opened W (s, e) ∧ s'.total = (roll W s e.time).total + e.amount ∧ s'.total ≤ L := by
  simp only [take] at h
  split_ifs at h with hle
  obtain rfl := Option.some.inj h
  exact ⟨rfl, rfl, hle⟩

theorem roll_of_le {t : ℤ} (h : W ≤ t - s.start) : roll W s t = ⟨t, 0⟩ := if_pos h

theorem roll_of_lt {t : ℤ} (h : ¬ W ≤ t - s.start) : roll W s t = s := if_neg h

theorem take_of_roll {b : State} (hroll : roll W s e.time = b) (hle : b.total + e.amount ≤ L) :
    take W L s e = some ⟨b.start, b.total + e.amount⟩ := by
  simp only [take, hroll, if_pos hle]

/-- The bucket of an event is the current one or opens at least `W` after it. -/
theorem opened_cases (s : State) (e : Event) :
    (opened W (s, e) = s.start ∧ roll W s e.time = s ∧ e.time < s.start + W) ∨
    (opened W (s, e) = e.time ∧ roll W s e.time = ⟨e.time, 0⟩ ∧ s.start + W ≤ e.time) := by
  by_cases h : W ≤ e.time - s.start
  · exact .inr ⟨by rw [opened, roll_of_le h], roll_of_le h, by omega⟩
  · exact .inl ⟨by rw [opened, roll_of_lt h], roll_of_lt h, by omega⟩

/-! ## Buckets of a run -/

/-- Every entry of a run falls in the bucket the run started with or in one
opened at least `W` later. -/
theorem opened_ge (hW : 0 < W) {x : State × Event}
    (hx : x ∈ Run.history (take W L) s es) :
    opened W x = s.start ∨ s.start + W ≤ opened W x := by
  induction es generalizing s with
  | nil => simp at hx
  | cons e es ih =>
    cases hs : take W L s e with
    | none => exact ih (by rwa [Run.history_cons_of_none hs] at hx)
    | some s' =>
      rw [Run.history_cons_of_some hs, List.mem_cons] at hx
      have hstart := (take_eq_some hs).1
      have hcases := opened_cases (W := W) s e
      rcases hx with rfl | hx
      · omega
      · have htail := ih hx
        omega

/-- The entries of the current bucket fill it up to `L` at most. -/
theorem total_add_volume_le (hW : 0 < W) (s : State) (es : List Event) :
    s.total + volume (fun x => opened W x = s.start) (Run.history (take W L) s es) ≤
      max L s.total := by
  induction es generalizing s with
  | nil => simp [volume]
  | cons e es ih =>
    cases hs : take W L s e with
    | none => simpa only [Run.history_cons_of_none hs] using ih s
    | some s' =>
      obtain ⟨hstart, htotal, hle⟩ := take_eq_some hs
      rw [Run.history_cons_of_some hs, volume_cons]
      rcases opened_cases (W := W) s e with ⟨hopen, hroll, -⟩ | ⟨hopen, -, hlate⟩
      · have htail := ih s'
        rw [hstart, hopen] at htail
        rw [hroll] at htotal
        simp only [hopen, if_true]
        omega
      · -- the bucket was closed: nothing later falls in it
        have hzero : volume (fun x => opened W x = s.start) (Run.history (take W L) s' es) = 0 :=
          volume_eq_zero fun x hx => by
            have := opened_ge hW hx
            omega
        rw [hzero, if_neg (by omega)]
        omega

/-- No bucket of a run admits more than `L`. -/
theorem volume_opened_le (hW : 0 < W) (s : State) (es : List Event) (b : ℤ) :
    volume (fun x => opened W x = b) (Run.history (take W L) s es) ≤ L := by
  by_cases hb : b = s.start
  · subst hb
    have h := total_add_volume_le (L := L) hW s es
    omega
  · induction es generalizing s with
    | nil => simp [volume]
    | cons e es ih =>
      cases hs : take W L s e with
      | none => simpa only [Run.history_cons_of_none hs] using ih s hb
      | some s' =>
        obtain ⟨hstart, htotal, hle⟩ := take_eq_some hs
        rw [Run.history_cons_of_some hs, volume_cons]
        by_cases hopen : opened W (s, e) = b
        · -- the event opened this bucket
          have hroll : roll W s e.time = ⟨e.time, 0⟩ := by
            rcases opened_cases (W := W) s e with h | h
            · exact absurd (hopen.symm.trans h.1) hb
            · exact h.2.1
          have hfill := total_add_volume_le (L := L) hW s' es
          rw [hstart, hopen] at hfill
          simp only [hroll, Nat.zero_add] at htotal
          simp only [hopen, if_true]
          omega
        · rw [if_neg hopen, Nat.zero_add]
          exact ih s' (by rw [hstart]; exact fun h => hopen h.symm)

/-! ## Spans of length `W` -/

theorem time_lt_opened_add (hW : 0 < W) (x : State × Event) : x.2.time < opened W x + W := by
  obtain ⟨s, e⟩ := x
  have hcases := opened_cases (W := W) s e
  dsimp only
  omega

/-- With non-decreasing times, a bucket opened during the run precedes its
entries. -/
theorem opened_le_time (hes : (es.map Event.time).Pairwise (· ≤ ·)) {x : State × Event}
    (hx : x ∈ Run.history (take W L) s es) :
    opened W x = s.start ∨ opened W x ≤ x.2.time := by
  induction es generalizing s with
  | nil => simp at hx
  | cons e es ih =>
    rw [List.map_cons, List.pairwise_cons] at hes
    cases hs : take W L s e with
    | none => exact ih hes.2 (by rwa [Run.history_cons_of_none hs] at hx)
    | some s' =>
      rw [Run.history_cons_of_some hs, List.mem_cons] at hx
      have hstart := (take_eq_some hs).1
      have hcases := opened_cases (W := W) s e
      rcases hx with rfl | hx
      · dsimp only
        omega
      · have hle : e.time ≤ x.2.time := by
          obtain ⟨pre, post, _, hsplit, -, -⟩ := Run.mem_history hx
          exact hes.1 _ (List.mem_map_of_mem (by rw [hsplit]; simp))
        have htail := ih hes.2 hx
        omega

/-- Two different buckets of a run open at least `W` apart. -/
theorem opened_gap (hW : 0 < W) {x y : State × Event}
    (hx : x ∈ Run.history (take W L) s es) (hy : y ∈ Run.history (take W L) s es)
    (hlt : opened W x < opened W y) : opened W x + W ≤ opened W y := by
  induction es generalizing s with
  | nil => simp at hx
  | cons e es ih =>
    cases hs : take W L s e with
    | none =>
      rw [Run.history_cons_of_none hs] at hx hy
      exact ih hx hy
    | some s' =>
      rw [Run.history_cons_of_some hs, List.mem_cons] at hx hy
      have hstart := (take_eq_some hs).1
      rcases hx with rfl | hx <;> rcases hy with rfl | hy
      · omega
      · have := opened_ge hW hy
        omega
      · have := opened_ge hW hx
        omega
      · exact ih hx hy

/-- Entries of three different buckets do not fit in a span of length `W`. -/
theorem three_buckets (hW : 0 < W) (hes : (es.map Event.time).Pairwise (· ≤ ·))
    {x y z : State × Event} (hx : x ∈ Run.history (take W L) s es)
    (hy : y ∈ Run.history (take W L) s es) (hz : z ∈ Run.history (take W L) s es)
    (hxy : opened W x < opened W y) (hyz : opened W y < opened W z) :
    x.2.time + W < z.2.time := by
  have hfirst := time_lt_opened_add hW x
  have hgap₁ := opened_gap hW hx hy hxy
  have hgap₂ := opened_gap hW hy hz hyz
  have hstart := opened_ge hW hx
  have hlast := opened_le_time hes hz
  omega

/-- The entries of a closed span of length `W` fall in at most two buckets. -/
theorem two_buckets (hW : 0 < W) (hes : (es.map Event.time).Pairwise (· ≤ ·)) (a : ℤ) :
    ∃ lo hi, ∀ x ∈ Run.history (take W L) s es, a ≤ x.2.time ∧ x.2.time ≤ a + W →
      opened W x = lo ∨ opened W x = hi := by
  let inside := (Run.history (take W L) s es).filter fun x => a ≤ x.2.time ∧ x.2.time ≤ a + W
  let buckets := (inside.map (opened W)).toFinset
  have hmem : ∀ {b}, b ∈ buckets ↔ ∃ x ∈ Run.history (take W L) s es,
      (a ≤ x.2.time ∧ x.2.time ≤ a + W) ∧ opened W x = b := by
    simp [buckets, inside, and_assoc]
  by_cases hne : buckets.Nonempty
  · refine ⟨buckets.min' hne, buckets.max' hne, fun x hx hin => ?_⟩
    obtain ⟨u, hu, hu_in, hlo⟩ := hmem.mp (buckets.min'_mem hne)
    obtain ⟨v, hv, hv_in, hhi⟩ := hmem.mp (buckets.max'_mem hne)
    have hle := buckets.min'_le _ (hmem.mpr ⟨x, hx, hin, rfl⟩)
    have hge := buckets.le_max' _ (hmem.mpr ⟨x, hx, hin, rfl⟩)
    -- a third bucket strictly between the two would stretch the span beyond `W`
    by_contra hneither
    rw [not_or] at hneither
    have hfar := three_buckets hW hes hu hx hv (by omega) (by omega)
    omega
  · refine ⟨0, 0, fun x hx hin => ?_⟩
    exact absurd ⟨_, hmem.mpr ⟨x, hx, hin, rfl⟩⟩ hne

/-- What is admitted within a closed span of length `W` is at most `2 * L`. -/
theorem volume_span_le (hW : 0 < W) (hes : (es.map Event.time).Pairwise (· ≤ ·)) (a : ℤ) :
    volume (fun x => a ≤ x.2.time ∧ x.2.time ≤ a + W) (Run.history (take W L) s es) ≤ 2 * L := by
  obtain ⟨lo, hi, hin⟩ := two_buckets (L := L) (s := s) hW hes a
  have hsplit := volume_le_add hin
  have hlo := volume_opened_le (L := L) hW s es lo
  have hhi := volume_opened_le (L := L) hW s es hi
  omega

/-! ## Implementations -/

section Implementation

variable {σ α : Type} {step : σ → α → Option σ} {abs : σ → State} {ev : α → Event}

/-- The total of the accepted operations that satisfy `p`. -/
def accepted (step : σ → α → Option σ) (amount : α → ℕ) (s : σ) (as : List α)
    (p : σ × α → Prop) [DecidablePred p] : ℕ :=
  (((Run.history step s as).filter p).map fun x => amount x.2).sum

theorem volume_map (p : State × Event → Prop) [DecidablePred p] (l : List (σ × α)) :
    volume p (l.map fun x => (abs x.1, ev x.2)) =
      ((l.filter fun x => p (abs x.1, ev x.2)).map fun x => (ev x.2).amount).sum := by
  simp [volume, List.filter_map, Function.comp_def]

/-- A limiter whose accepted calls the buckets take obeys both bounds: `2 * L`
over any closed span of length `W`, and `L` among the calls that leave the same
bucket open. -/
theorem accepted_le (step : σ → α → Option σ) (abs : σ → State) (ev : α → Event) (hW : 0 < W)
    (href : ∀ s a s', step s a = some s' → take W L (abs s) (ev a) = some (abs s'))
    {as : List α} (has : (as.map fun a => (ev a).time).Pairwise (· ≤ ·)) (s : σ) :
    (∀ t : ℤ, accepted step (fun a => (ev a).amount) s as
      (fun x => t ≤ (ev x.2).time ∧ (ev x.2).time ≤ t + W) ≤ 2 * L) ∧
    (∀ b : ℤ, accepted step (fun a => (ev a).amount) s as
      (fun x => (step x.1 x.2).map (fun s' => (abs s').start) = some b) ≤ L) := by
  have hmap : Run.history (take W L) (abs s) ((Run.history step s as).map fun x => ev x.2) =
      (Run.history step s as).map fun x => (abs x.1, ev x.2) := Run.history_refines href
  refine ⟨fun t => ?_, fun b => ?_⟩
  · have hsorted : (((Run.history step s as).map fun x => ev x.2).map Event.time).Pairwise
        (· ≤ ·) := by
      have hsub : ((Run.history step s as).map Prod.snd).Sublist as := Run.history_sublist
      replace hsub := hsub.map fun a => (ev a).time
      simpa [List.map_map, Function.comp_def] using has.sublist hsub
    have hspan := volume_span_le (L := L) (s := abs s) hW hsorted t
    rwa [hmap, volume_map] at hspan
  · have hbucket := volume_opened_le (L := L) hW (abs s)
      ((Run.history step s as).map fun x => ev x.2) b
    rw [hmap, volume_map] at hbucket
    have hsame : (Run.history step s as).filter
          (fun x => (step x.1 x.2).map (fun s' => (abs s').start) = some b) =
        (Run.history step s as).filter (fun x => opened W (abs x.1, ev x.2) = b) :=
      List.filter_congr fun x hx => by
        obtain ⟨_, _, s', -, -, hs⟩ := Run.mem_history hx
        simp [hs, (take_eq_some (href _ _ _ hs)).1]
    rwa [accepted, hsame]

end Implementation

end Bucket
