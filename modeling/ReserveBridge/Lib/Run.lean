-- SUMMARY: Runs of a system whose steps may be refused: final state, accepted history, and the induction rules for invariants, one-way relations, balanced measures, single use, slots and counters.
import Mathlib.Algebra.Ring.Nat
import Mathlib.Data.List.Nodup
import Mathlib.Data.List.Range

/-!
# Runs with refused steps

A system is a partial step function `step : σ → α → Option σ`: an operation
that is refused leaves the state alone. A run applies a list of operations one
after another. Its history keeps the operations that were accepted, each with
the state it was accepted in, which is what "succeeds at most once" and "occurs
only after" are statements about.
-/

namespace Run

variable {σ α κ : Type} (step : σ → α → Option σ)

/-- One operation of a run: a refused operation changes nothing. -/
def advance (s : σ) (a : α) : σ := (step s a).getD s

/-- The state after all operations of `as`, in order. -/
def final (s : σ) (as : List α) : σ := as.foldl (advance step) s

/-- The accepted operations of a run, each with the state it was accepted in. -/
def history : σ → List α → List (σ × α)
  | _, [] => []
  | s, a :: as =>
    match step s a with
    | some s' => (s, a) :: history s' as
    | none => history s as

variable {s s' : σ} {a : α} {as bs : List α}

section Basic

variable {step}

@[simp] theorem final_nil : final step s [] = s := rfl

@[simp] theorem final_cons : final step s (a :: as) = final step (advance step s a) as := rfl

theorem final_append : final step s (as ++ bs) = final step (final step s as) bs := by
  simp [final, List.foldl_append]

theorem advance_of_some (h : step s a = some s') : advance step s a = s' := by
  simp [advance, h]

theorem advance_of_none (h : step s a = none) : advance step s a = s := by
  simp [advance, h]

@[simp] theorem history_nil : history step s [] = [] := rfl

theorem history_cons_of_some (h : step s a = some s') :
    history step s (a :: as) = (s, a) :: history step s' as := by
  simp [history, h]

theorem history_cons_of_none (h : step s a = none) :
    history step s (a :: as) = history step s as := by
  simp [history, h]

theorem history_append :
    history step s (as ++ bs) = history step s as ++ history step (final step s as) bs := by
  induction as generalizing s with
  | nil => rfl
  | cons a as ih =>
    cases h : step s a with
    | none => simp [history, h, ih, advance]
    | some s' => simp [history, h, ih, advance]

/-! ## Invariants -/

/-- What every accepted operation keeps, every run keeps. -/
theorem invariant {Inv : σ → Prop} (hstep : ∀ s a s', Inv s → step s a = some s' → Inv s')
    (h : Inv s) (as : List α) : Inv (final step s as) := by
  induction as generalizing s with
  | nil => exact h
  | cons a as ih =>
    cases hs : step s a with
    | none => simpa [advance, hs] using ih h
    | some s' => simpa [advance, hs] using ih (hstep s a s' h hs)

/-- What every operation of a kind keeps, a run of accepted operations of that
kind keeps. -/
theorem invariant_of_history {Inv : σ → Prop} {ok : σ → α → Prop}
    (hstep : ∀ s a s', Inv s → ok s a → step s a = some s' → Inv s')
    (h : Inv s) (as : List α) (hok : ∀ e ∈ history step s as, ok e.1 e.2) :
    Inv (final step s as) := by
  induction as generalizing s with
  | nil => exact h
  | cons a as ih =>
    cases hs : step s a with
    | none =>
      rw [history_cons_of_none hs] at hok
      simpa [advance, hs] using ih h hok
    | some s' =>
      rw [history_cons_of_some hs] at hok
      have hrest := ih (hstep s a s' h (hok _ List.mem_cons_self) hs) fun e he =>
        hok e (List.mem_cons_of_mem _ he)
      simpa [advance, hs] using hrest

/-- Where every accepted operation is of the kind that keeps the invariant, each
was accepted in a state that satisfies it. -/
theorem invariant_at_history {Inv : σ → Prop} {ok : σ → α → Prop}
    (hstep : ∀ s a s', Inv s → ok s a → step s a = some s' → Inv s')
    (h : Inv s) (as : List α) (hok : ∀ e ∈ history step s as, ok e.1 e.2) :
    ∀ e ∈ history step s as, Inv e.1 ∧ ∃ s', step e.1 e.2 = some s' := by
  induction as generalizing s with
  | nil => simp
  | cons a as ih =>
    cases hs : step s a with
    | none =>
      rw [history_cons_of_none hs] at hok ⊢
      exact ih h hok
    | some s' =>
      rw [history_cons_of_some hs] at hok ⊢
      rw [List.forall_mem_cons] at hok ⊢
      exact ⟨⟨h, s', hs⟩, ih (hstep s a s' h hok.1 hs) hok.2⟩

/-- A reflexive and transitive relation that every accepted operation respects
relates the two ends of every run. The invariant is available at each step. -/
theorem relates (Inv : σ → Prop) (R : σ → σ → Prop)
    (hrefl : ∀ s, R s s) (htrans : ∀ {s₁ s₂ s₃}, R s₁ s₂ → R s₂ s₃ → R s₁ s₃)
    (hinv : ∀ s a s', Inv s → step s a = some s' → Inv s')
    (hstep : ∀ s a s', Inv s → step s a = some s' → R s s')
    (h : Inv s) (as : List α) : R s (final step s as) := by
  induction as generalizing s with
  | nil => exact hrefl s
  | cons a as ih =>
    cases hs : step s a with
    | none => simpa [advance, hs] using ih h
    | some s' =>
      have hrest := ih (hinv s a s' h hs)
      simpa [advance, hs] using htrans (hstep s a s' h hs) hrest

/-- An entry of the history is an accepted operation somewhere in the run. -/
theorem mem_history {t : σ} {b : α} (h : (t, b) ∈ history step s as) :
    ∃ pre post t', as = pre ++ b :: post ∧ t = final step s pre ∧ step t b = some t' := by
  induction as generalizing s with
  | nil => simp at h
  | cons a as ih =>
    cases hs : step s a with
    | none =>
      rw [history_cons_of_none hs] at h
      obtain ⟨pre, post, t', rfl, ht, hb⟩ := ih h
      exact ⟨a :: pre, post, t', rfl, by simpa [advance, hs] using ht, hb⟩
    | some s' =>
      rw [history_cons_of_some hs, List.mem_cons] at h
      rcases h with h | h
      · obtain ⟨rfl, rfl⟩ := Prod.mk.inj h
        exact ⟨[], as, s', rfl, rfl, hs⟩
      · obtain ⟨pre, post, t', rfl, ht, hb⟩ := ih h
        exact ⟨a :: pre, post, t', rfl, by simpa [advance, hs] using ht, hb⟩

/-- Every state an operation was accepted in satisfies the invariant. -/
theorem invariant_history {Inv : σ → Prop}
    (hstep : ∀ s a s', Inv s → step s a = some s' → Inv s') (h : Inv s)
    {t : σ} {b : α} (hmem : (t, b) ∈ history step s as) : Inv t := by
  obtain ⟨pre, _, _, _, rfl, _⟩ := mem_history hmem
  exact invariant hstep h pre

/-- A property that an operation keeps, and its absence too, unless the operation is
not of a kind: a run ends in it exactly when every accepted operation was of that kind. -/
theorem final_iff_history {Inv P : σ → Prop} {ok : σ → α → Prop}
    (hinv : ∀ s a s', Inv s → step s a = some s' → Inv s')
    (hstep : ∀ s a s', Inv s → step s a = some s' → (P s' ↔ P s ∧ ok s a)) (h : Inv s) (h₀ : P s)
    (as : List α) : P (final step s as) ↔ ∀ e ∈ history step s as, ok e.1 e.2 := by
  induction as using List.reverseRecOn with
  | nil => exact iff_of_true h₀ fun _ he => (by cases he)
  | append_singleton as a ih =>
    rw [history_append, final_append]
    cases hs : step (final step s as) a with
    | none =>
      rw [history_cons_of_none hs, final_cons, advance_of_none hs, history_nil, List.append_nil,
        final_nil]
      exact ih
    | some s' =>
      rw [history_cons_of_some hs, final_cons, advance_of_some hs, history_nil, final_nil,
        hstep _ _ _ (invariant hinv h as) hs, ih, List.forall_mem_append, List.forall_mem_singleton]

/-- A property that is false at the start of a run and true at its end was last
made true by some accepted operation, and held ever since. -/
theorem last_rise {P : σ → Prop} (h₀ : ¬ P s) (h : P (final step s as)) :
    ∃ pre a mid s', as = pre ++ a :: mid ∧ step (final step s pre) a = some s' ∧
      ¬ P (final step s pre) ∧ ∀ m, m <+: mid → P (final step s' m) := by
  induction as using List.reverseRecOn with
  | nil => exact absurd h h₀
  | append_singleton as a ih =>
    by_cases hP : P (final step s as)
    · obtain ⟨pre, b, mid, s', rfl, hb, hpre, hmid⟩ := ih hP
      refine ⟨pre, b, mid ++ [a], s', by simp, hb, hpre, fun m hm => ?_⟩
      rcases List.prefix_concat_iff.mp hm with rfl | hm
      · simpa [final_append, advance_of_some hb] using h
      · exact hmid m hm
    · -- the property rose with the last operation
      rw [final_append] at h
      cases hs : step (final step s as) a with
      | none => exact absurd (by simpa [advance, hs] using h) hP
      | some s' =>
        refine ⟨as, a, [], s', rfl, hs, hP, fun m hm => ?_⟩
        rw [List.prefix_nil.mp hm]
        simpa [advance, hs] using h

/-- Two measures that every accepted operation keeps level, up to what it adds
from outside, are level after a run up to the sum of what was added. -/
theorem balanced (Inv : σ → Prop) (lhs rhs : σ → ℕ) (added : σ × α → ℕ)
    (hinv : ∀ s a s', Inv s → step s a = some s' → Inv s')
    (hstep : ∀ s a s', Inv s → step s a = some s' →
      lhs s' + rhs s = lhs s + rhs s' + added (s, a))
    (h : Inv s) (as : List α) :
    lhs (final step s as) + rhs s =
      lhs s + rhs (final step s as) + ((history step s as).map added).sum := by
  induction as generalizing s with
  | nil => simp
  | cons a as ih =>
    cases hs : step s a with
    | none => simpa [advance, hs, history_cons_of_none hs] using ih h
    | some s' =>
      have hrest := ih (hinv s a s' h hs)
      have hfirst := hstep s a s' h hs
      simp only [final_cons, advance_of_some hs, history_cons_of_some hs, List.map_cons,
        List.sum_cons]
      omega

/-- A system whose accepted operations are accepted by another, on the images
of state and operation, has histories that are histories of the other. -/
theorem history_refines {τ β : Type} {step' : τ → β → Option τ} {abs : σ → τ} {ev : α → β}
    (h : ∀ s a s', step s a = some s' → step' (abs s) (ev a) = some (abs s')) :
    history step' (abs s) ((history step s as).map fun x => ev x.2) =
      (history step s as).map fun x => (abs x.1, ev x.2) := by
  induction as generalizing s with
  | nil => rfl
  | cons a as ih =>
    cases hs : step s a with
    | none => simpa only [history_cons_of_none hs] using ih
    | some s' =>
      rw [history_cons_of_some hs, List.map_cons, List.map_cons,
        history_cons_of_some (h s a s' hs), ih]

/-- The accepted operations are a sublist of all operations. -/
theorem history_sublist : ((history step s as).map Prod.snd).Sublist as := by
  induction as generalizing s with
  | nil => exact List.Sublist.slnil
  | cons a as ih =>
    cases hs : step s a with
    | none =>
      rw [history_cons_of_none hs]
      exact ih.cons a
    | some s' =>
      rw [history_cons_of_some hs, List.map_cons]
      exact ih.cons_cons a

end Basic

/-! ## Single use and counters -/

/-- A key that is unused before an accepted operation carrying it, used after
it, and never forgotten, is carried by at most one accepted operation. -/
theorem single_use (Inv : σ → Prop) (key : α → Option κ) (used : σ → κ → Prop)
    (hinv : ∀ s a s', Inv s → step s a = some s' → Inv s')
    (hfresh : ∀ s a s' k, Inv s → step s a = some s' → key a = some k → ¬ used s k ∧ used s' k)
    (hkeep : ∀ s a s' k, Inv s → step s a = some s' → used s k → used s' k)
    (h : Inv s) (as : List α) :
    ((history step s as).filterMap (fun e => key e.2)).Nodup ∧
      ∀ k ∈ (history step s as).filterMap (fun e => key e.2), ¬ used s k := by
  induction as generalizing s with
  | nil => simp
  | cons a as ih =>
    cases hs : step s a with
    | none => simpa [history, hs] using ih h
    | some s' =>
      obtain ⟨hnodup, hunused⟩ := ih (hinv s a s' h hs)
      -- a key of the rest was unused after this step, so it was unused before it
      have hold : ∀ k ∈ (history step s' as).filterMap (fun e => key e.2), ¬ used s k :=
        fun k hk hu => hunused k hk (hkeep s a s' k h hs hu)
      rw [history_cons_of_some hs]
      cases hk : key a with
      | none =>
        rw [List.filterMap_cons_none (by simpa using hk)]
        exact ⟨hnodup, hold⟩
      | some k =>
        obtain ⟨hnew, hmark⟩ := hfresh s a s' k h hs hk
        have hout : k ∉ (history step s' as).filterMap (fun e => key e.2) :=
          fun hmem => hunused k hmem hmark
        rw [List.filterMap_cons_some (by simpa using hk)]
        refine ⟨List.nodup_cons.mpr ⟨hout, hnodup⟩, fun k' hk' => ?_⟩
        rcases List.mem_cons.mp hk' with rfl | hk'
        · exact hnew
        · exact hold k' hk'

/-- A key that no accepted operation carries after another has carried it is
carried by one at most. The key may depend on the state it was accepted in. -/
theorem nodup_history {key : σ × α → Option κ}
    (h : ∀ pre a post s' k, as = pre ++ a :: post → step (final step s pre) a = some s' →
      key (final step s pre, a) = some k → k ∉ (history step s pre).filterMap key) :
    ((history step s as).filterMap key).Nodup := by
  induction as using List.reverseRecOn with
  | nil => simp
  | append_singleton as a ih =>
    have hnodup := ih fun pre b post s' k hsplit =>
      h pre b (post ++ [a]) s' k (by simp [hsplit])
    rw [history_append]
    cases hs : step (final step s as) a with
    | none => rwa [history_cons_of_none hs, history_nil, List.append_nil]
    | some s' =>
      rw [history_cons_of_some hs, history_nil, List.filterMap_append]
      cases hk : key (final step s as, a) with
      | none => rwa [List.filterMap_cons_none hk, List.filterMap_nil, List.append_nil]
      | some k =>
        have hfirst := h as a [] s' k rfl hs hk
        rw [List.filterMap_cons_some hk, List.filterMap_nil, List.nodup_append]
        refine ⟨hnodup, List.nodup_singleton k, fun x hx y hy hxy => hfirst ?_⟩
        rwa [← List.mem_singleton.mp hy, ← hxy]

/-- Tags that must equal a counter, which each of them advances by one, are
used in order and without gaps. -/
theorem counter (Inv : σ → Prop) (tag : α → Option ℕ) (cnt : σ → ℕ)
    (hinv : ∀ s a s', Inv s → step s a = some s' → Inv s')
    (htag : ∀ s a s' n, Inv s → step s a = some s' → tag a = some n → n = cnt s ∧ cnt s' = n + 1)
    (hkeep : ∀ s a s', Inv s → step s a = some s' → tag a = none → cnt s' = cnt s)
    (h : Inv s) (as : List α) :
    ∃ k, (history step s as).filterMap (fun e => tag e.2) = List.range' (cnt s) k ∧
      cnt (final step s as) = cnt s + k := by
  induction as generalizing s with
  | nil => exact ⟨0, by simp⟩
  | cons a as ih =>
    cases hs : step s a with
    | none => simpa [history, advance, hs] using ih h
    | some s' =>
      obtain ⟨k, hlist, hcnt⟩ := ih (hinv s a s' h hs)
      rw [history_cons_of_some hs, final_cons, advance_of_some hs]
      cases ht : tag a with
      | none =>
        have hsame := hkeep s a s' h hs ht
        exact ⟨k, by simpa [ht, hsame] using hlist, by omega⟩
      | some n =>
        obtain ⟨rfl, hnext⟩ := htag s a s' n h hs ht
        refine ⟨k + 1, ?_, by omega⟩
        rw [List.filterMap_cons_some (by simpa using ht), hlist, hnext, List.range'_succ]

end Run
