-- SUMMARY: Sweeps over a list of records that was read beforehand: a loop whose step for a record touches the record's own key only.
import Mathlib.Data.List.Nodup

/-!
# Sweeps

A work list is read, and then its records are processed one after another.
When a step touches nothing but its own record, each record is still what the
list says when its turn comes.
-/

namespace Sweep

variable {σ κ ν : Type} {read : σ → κ → Option ν} {f : σ → κ × ν → σ} {s : σ}
  {work : List (κ × ν)}

/-- A step leaves every other record alone. -/
def Local (read : σ → κ → Option ν) (f : σ → κ × ν → σ) : Prop :=
  ∀ s e k, k ≠ e.1 → read (f s e) k = read s k

/-- The records of the work list are current, and none is listed twice. -/
structure Current (read : σ → κ → Option ν) (s : σ) (work : List (κ × ν)) : Prop where
  nodup : (work.map Prod.fst).Nodup
  read : ∀ e ∈ work, read s e.1 = some e.2

/-- What is not on the work list is left alone. -/
theorem Local.read_foldl (hlocal : Local read f) {k : κ} (hk : k ∉ work.map Prod.fst) :
    read (work.foldl f s) k = read s k := by
  induction work generalizing s with
  | nil => rfl
  | cons e work ih =>
    rw [List.map_cons, List.mem_cons, not_or] at hk
    rw [List.foldl_cons, ih hk.2, hlocal s e k hk.1]

/-- The rest of the work list is current after a step. -/
theorem Current.tail {e : κ × ν} (h : Current read s (e :: work)) (hlocal : Local read f) :
    Current read (f s e) work := by
  have hnodup := List.nodup_cons.mp h.nodup
  refine ⟨hnodup.2, fun e' he' => ?_⟩
  have hne : e'.1 ≠ e.1 := fun hsame => hnodup.1 (hsame ▸ List.mem_map_of_mem he')
  rw [hlocal s e e'.1 hne]
  exact h.read e' (List.mem_cons_of_mem e he')

/-- A condition at each record's turn, in the state the sweep is in then. -/
def Turns (ok : σ → κ × ν → Prop) (f : σ → κ × ν → σ) : σ → List (κ × ν) → Prop
  | _, [] => True
  | s, e :: work => ok s e ∧ Turns ok f (f s e) work

instance Turns.decide (ok : σ → κ × ν → Prop) [∀ s e, Decidable (ok s e)] (f : σ → κ × ν → σ) :
    ∀ s work, Decidable (Turns ok f s work)
  | _, [] => inferInstanceAs (Decidable True)
  | s, e :: work =>
    have := Turns.decide ok f (f s e) work
    inferInstanceAs (Decidable (_ ∧ _))

/-- A condition that holds at any time holds at each turn. -/
theorem turns_of_forall {ok : σ → κ × ν → Prop} (h : ∀ s, ∀ e ∈ work, ok s e) :
    Turns ok f s work := by
  induction work generalizing s with
  | nil => trivial
  | cons e work ih =>
    exact ⟨h s e List.mem_cons_self, ih fun s e' he' => h s e' (List.mem_cons_of_mem e he')⟩

/-- Two conditions at each turn. -/
theorem Turns.and {p q : σ → κ × ν → Prop} (hp : Turns p f s work) (hq : Turns q f s work) :
    Turns (fun s e => p s e ∧ q s e) f s work := by
  induction work generalizing s with
  | nil => trivial
  | cons e work ih => exact ⟨⟨hp.1, hq.1⟩, ih hp.2 hq.2⟩

/-- What every step on a current record keeps in its turn, the sweep keeps. -/
theorem invariant_of_turns {Inv : σ → Prop} {ok : σ → κ × ν → Prop} (hlocal : Local read f)
    (hcurrent : Current read s work)
    (hstep : ∀ s e, e ∈ work → Inv s → ok s e → read s e.1 = some e.2 → Inv (f s e))
    (hturns : Turns ok f s work) (h : Inv s) : Inv (work.foldl f s) := by
  induction work generalizing s with
  | nil => exact h
  | cons e work ih =>
    rw [List.foldl_cons]
    refine ih (hcurrent.tail hlocal) (fun s e' he' => hstep s e' (List.mem_cons_of_mem e he'))
      hturns.2 ?_
    exact hstep s e List.mem_cons_self h hturns.1 (hcurrent.read e List.mem_cons_self)

/-- What every step on a current record keeps, the sweep keeps. -/
theorem invariant {Inv : σ → Prop} (hlocal : Local read f) (hcurrent : Current read s work)
    (hstep : ∀ s e, e ∈ work → Inv s → read s e.1 = some e.2 → Inv (f s e)) (h : Inv s) :
    Inv (work.foldl f s) := by
  have hturns : Turns (fun _ _ => True) f s work := turns_of_forall fun _ _ _ => trivial
  exact invariant_of_turns hlocal hcurrent (fun s e he hs _ hread => hstep s e he hs hread) hturns h

/-- What the step on a record of the work list establishes, and no step undoes,
holds at the end. -/
theorem established {P : σ → Prop} {e : κ × ν} (hlocal : Local read f)
    (hcurrent : Current read s work) (he : e ∈ work)
    (hstep : ∀ s, read s e.1 = some e.2 → P (f s e)) (hkept : ∀ s e, P s → P (f s e)) :
    P (work.foldl f s) := by
  have hkeeps (work' : List (κ × ν)) (s : σ) (h : P s) : P (work'.foldl f s) :=
    List.foldlRecOn work' f h fun s hs e _ => hkept s e hs
  induction work generalizing s with
  | nil => cases he
  | cons e' work ih =>
    rw [List.foldl_cons]
    rcases List.mem_cons.mp he with rfl | he
    · exact hkeeps work _ (hstep s (hcurrent.read e List.mem_cons_self))
    · exact ih (hcurrent.tail hlocal) he

/-- At the end a record of the work list is what the step on it made of it, in
some state where it was current. -/
theorem Local.exists_turn {e : κ × ν} (hlocal : Local read f) (hcurrent : Current read s work)
    (he : e ∈ work) :
    ∃ s', read s' e.1 = some e.2 ∧ read (work.foldl f s) e.1 = read (f s' e) e.1 := by
  induction work generalizing s with
  | nil => cases he
  | cons e' work ih =>
    rw [List.foldl_cons]
    rcases List.mem_cons.mp he with rfl | he
    · have hnodup := List.nodup_cons.mp hcurrent.nodup
      exact ⟨s, hcurrent.read e List.mem_cons_self, hlocal.read_foldl hnodup.1⟩
    · exact ih (hcurrent.tail hlocal) he

end Sweep
