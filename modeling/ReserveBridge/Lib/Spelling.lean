-- SUMMARY: Texts with a canonical spelling: a reader, the spelling it reads back, and when two texts, or two optional texts, spell one value.
import ReserveBridge.Lib.Guard

/-!
# Spellings

A reader of texts may take several spellings of one value, and the writer chooses
one of them. Two texts spell the same when both are read, as one value. The
canonical spelling of a value spells the same as every text read as that value.
-/

/-- A reader of texts that reads back what its writer writes. -/
structure Spelling (τ ε α : Type) where
  read : τ → Except ε α
  write : α → τ
  read_write : ∀ a, read (write a) = .ok a

namespace Spelling
open Guard

variable {τ ε α : Type} {S : Spelling τ ε α} {s t : τ} {a b : α}

/-- Both texts are read, as one value. -/
def Same (S : Spelling τ ε α) (s t : τ) : Prop := ∃ a, S.read s = .ok a ∧ S.read t = .ok a

/-- A text spells the same as the canonical spelling of a value exactly when it is read as it. -/
@[simp] theorem same_write : S.Same s (S.write a) ↔ S.read s = .ok a := by
  constructor
  · rintro ⟨b, hs, hb⟩
    obtain rfl : a = b := Except.ok.inj ((S.read_write a).symm.trans hb)
    exact hs
  · intro hs
    exact ⟨a, hs, S.read_write a⟩

/-! ## Optional texts -/

variable {o : Option τ} {v : Option α}

/-- Both are absent, or both are present and spell the same. -/
def SameOption (S : Spelling τ ε α) (o o' : Option τ) : Prop := Option.Rel S.Same o o'

/-- An absent text is no value, and a present one is read as the value. -/
def Reads (S : Spelling τ ε α) (o : Option τ) (v : Option α) : Prop :=
  Option.Rel (fun s a => S.read s = .ok a) o v

@[simp] theorem reads_none : S.Reads o none ↔ o = none := by
  cases o <;> simp [Reads]

@[simp] theorem reads_some : S.Reads o (some a) ↔ ∃ s, o = some s ∧ S.read s = .ok a := by
  cases o <;> simp [Reads]

/-- The same for the canonical spelling of an optional value. -/
theorem sameOption_map_write : S.SameOption o (v.map S.write) ↔ S.Reads o v := by
  cases o with
  | none => cases v <;> simp [SameOption]
  | some s => cases v <;> simp [SameOption]

theorem reads_map_write : S.Reads (v.map S.write) v := by
  cases v with
  | none => exact reads_none.mpr rfl
  | some a => exact reads_some.mpr ⟨S.write a, rfl, S.read_write a⟩

end Spelling
