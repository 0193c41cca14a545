-- SUMMARY: Computations on a state that may stop midway and keep what they wrote, loops of them, and what each step of such a loop keeps in its turn.
import Mathlib.Data.Nat.Notation

/-!
# Attempts

A computation on a state that may stop midway. What it wrote before it stopped
stays, so both of its ends carry a state.
-/

/-- A computation that gets to its end, or stops in a state. -/
inductive Attempt (σ : Type)
  | done (s : σ)
  | stopped (s : σ)

namespace Attempt

variable {σ α : Type}

/-- The state it got to, or stopped in. -/
def state : Attempt σ → σ
  | done s | stopped s => s

def isDone : Attempt σ → Bool
  | done _ => true
  | stopped _ => false

def andThen : Attempt σ → (σ → Attempt σ) → Attempt σ
  | done s, f => f s
  | stopped s, _ => stopped s

/-- One step for each item, until one stops. -/
def loop (step : σ → α → Attempt σ) : σ → List α → Attempt σ
  | s, [] => done s
  | s, a :: as => (step s a).andThen fun s => loop step s as

@[simp] theorem state_done {s : σ} : (done s).state = s := rfl
@[simp] theorem state_stopped {s : σ} : (stopped s).state = s := rfl
@[simp] theorem done_andThen {s : σ} {f : σ → Attempt σ} : (done s).andThen f = f s := rfl
@[simp] theorem stopped_andThen {s : σ} {f : σ → Attempt σ} : (stopped s).andThen f = stopped s := rfl

variable {Inv : σ → Prop} {x : Attempt σ} {f : σ → Attempt σ} {s s' : σ}

theorem eq_done_of_isDone (h : x.isDone = true) : x = done x.state := by
  cases x with
  | done s => rfl
  | stopped s => cases h

@[simp] theorem andThen_eq_done : x.andThen f = done s' ↔ ∃ s, x = done s ∧ f s = done s' := by
  cases x <;> simp

/-- What both parts keep, their sequence keeps. -/
theorem andThen_keeps (hx : Inv x.state) (hf : ∀ s, x = done s → Inv s → Inv (f s).state) :
    Inv (x.andThen f).state := by
  cases x with
  | done s => exact hf s rfl hx
  | stopped s => exact hx

/-! ## Loops -/

variable {step : σ → α → Attempt σ} {ok : σ → α → Prop} {as : List α} {a : α}

/-- A condition at the turn of each item, in the state the loop is in then. The
items behind a stop have no turn. -/
def Turns (ok : σ → α → Prop) (step : σ → α → Attempt σ) : σ → List α → Prop
  | _, [] => True
  | s, a :: as => ok s a ∧ match step s a with
    | done s => Turns ok step s as
    | stopped _ => True

instance Turns.decide (ok : σ → α → Prop) [∀ s a, Decidable (ok s a)] (step : σ → α → Attempt σ) :
    ∀ s as, Decidable (Turns ok step s as)
  | _, [] => inferInstanceAs (Decidable True)
  | s, a :: as => by
    unfold Turns
    have := fun s => Turns.decide ok step s as
    cases step s a with
    | done s => exact inferInstanceAs (Decidable (_ ∧ Turns ok step s as))
    | stopped s => exact inferInstanceAs (Decidable (_ ∧ True))

theorem Turns.head (h : Turns ok step s (a :: as)) : ok s a := h.1

theorem Turns.tail (h : Turns ok step s (a :: as)) (hstep : step s a = done s') :
    Turns ok step s' as := by
  have htail := h.2
  rw [hstep] at htail
  exact htail

/-- What every item keeps in its turn, the loop keeps. -/
theorem loop_keeps (hstep : ∀ s a, a ∈ as → Inv s → ok s a → Inv (step s a).state)
    (hturns : Turns ok step s as) (h : Inv s) : Inv (loop step s as).state := by
  induction as generalizing s with
  | nil => exact h
  | cons a as ih =>
    refine andThen_keeps (hstep s a List.mem_cons_self h hturns.head) fun s' hdone h' => ?_
    exact ih (fun s a ha => hstep s a (List.mem_cons_of_mem _ ha)) (hturns.tail hdone) h'

/-- A condition that holds at any time holds at each turn. -/
theorem turns_of_forall (h : ∀ s, ∀ a ∈ as, ok s a) : Turns ok step s as := by
  induction as generalizing s with
  | nil => trivial
  | cons a as ih =>
    refine ⟨h s a List.mem_cons_self, ?_⟩
    split
    · exact ih fun s a ha => h s a (List.mem_cons_of_mem _ ha)
    · trivial

/-- What every item keeps, the loop keeps. -/
theorem loop_invariant (hstep : ∀ s a, a ∈ as → Inv s → Inv (step s a).state) (h : Inv s) :
    Inv (loop step s as).state := by
  have hturns : Turns (fun _ _ => True) step s as := turns_of_forall fun _ _ _ => trivial
  exact loop_keeps (fun s a ha hs _ => hstep s a ha hs) hturns h

/-- What a step gets done for its item, and no later step undoes, is done for
every item at the end of the loop. The invariant is available at each step. -/
theorem loop_establishes (Q : α → σ → Prop)
    (hinv : ∀ s a, a ∈ as → Inv s → Inv (step s a).state)
    (hself : ∀ s a s', Inv s → step s a = done s' → Q a s')
    (hkeep : ∀ s a b s', Inv s → step s b = done s' → Q a s → Q a s') (h₀ : Inv s)
    (h : loop step s as = done s') : ∀ a ∈ as, Q a s' := by
  have hnext {s s₁ : σ} {a : α} (hs : Inv (step s a).state) (hstep : step s a = done s₁) :
      Inv s₁ := by
    rwa [hstep] at hs
  have hlater (a : α) (bs : List α) (hinv : ∀ s b, b ∈ bs → Inv s → Inv (step s b).state) (s : σ)
      (hs : Inv s) (ha : Q a s) (h : loop step s bs = done s') : Q a s' := by
    induction bs generalizing s with
    | nil =>
      obtain rfl : s = s' := by simpa [loop] using h
      exact ha
    | cons b bs ih =>
      obtain ⟨s₁, hstep, h⟩ := andThen_eq_done.mp h
      exact ih (fun s b hb => hinv s b (List.mem_cons_of_mem _ hb)) s₁
        (hnext (hinv s b List.mem_cons_self hs) hstep) (hkeep s a b s₁ hs hstep ha) h
  induction as generalizing s with
  | nil => simp
  | cons a as ih =>
    obtain ⟨s₁, hstep, h⟩ := andThen_eq_done.mp h
    have hs₁ := hnext (hinv s a List.mem_cons_self h₀) hstep
    have hrest (s : σ) (b : α) (hb : b ∈ as) := hinv s b (List.mem_cons_of_mem a hb)
    exact List.forall_mem_cons.mpr
      ⟨hlater a as hrest s₁ hs₁ (hself s a s₁ h₀ hstep) h, ih hrest hs₁ h⟩

end Attempt
