-- SUMMARY: Encodings that tell where they end: fixed widths, sequences, and lists that follow their count.
import Mathlib.Data.List.Basic
import Mathlib.Data.Nat.Notation
import Mathlib.Logic.Function.Basic

/-!
# Delimited encodings

An encoding is delimited when the encoded value and what follows it can be told
apart, whatever follows. Delimited encodings are injective, and so are their
sequences.
-/

namespace Delimited

variable {α β γ δ : Type} {P : α → Prop} {Q : β → Prop} {enc : α → List γ} {enc' : β → List γ}

/-- On the values that satisfy `P`, an encoding and the rest determine the value
and the rest. -/
def On (P : α → Prop) (enc : α → List γ) : Prop :=
  ∀ a b r r', P a → P b → enc a ++ r = enc b ++ r' → a = b ∧ r = r'

theorem On.inj (h : On P enc) {a b : α} (ha : P a) (hb : P b) (heq : enc a = enc b) : a = b :=
  (h a b [] [] ha hb (by rw [heq])).1

theorem On.mono {P' : α → Prop} (h : On P enc) (himp : ∀ a, P' a → P a) : On P' enc :=
  fun a b r r' ha hb => h a b r r' (himp a ha) (himp b hb)

/-- An injective encoding of one width. -/
theorem of_length {n : ℕ} (hlen : ∀ a, P a → (enc a).length = n)
    (hinj : ∀ a b, P a → P b → enc a = enc b → a = b) : On P enc := by
  intro a b r r' ha hb heq
  have hsplit := List.append_inj heq ((hlen a ha).trans (hlen b hb).symm)
  exact ⟨hinj a b ha hb hsplit.1, hsplit.2⟩

/-- Two encodings one after the other. -/
theorem On.append (h : On P enc) (h' : On Q enc') :
    On (fun x : α × β => P x.1 ∧ Q x.2) fun x => enc x.1 ++ enc' x.2 := by
  rintro ⟨a, a'⟩ ⟨b, b'⟩ r r' ⟨ha, ha'⟩ ⟨hb, hb'⟩ heq
  rw [List.append_assoc, List.append_assoc] at heq
  obtain ⟨rfl, hrest⟩ := h a b _ _ ha hb heq
  obtain ⟨rfl, hrest'⟩ := h' a' b' r r' ha' hb' hrest
  exact ⟨rfl, hrest'⟩

/-- An encoding of what the value is made of. -/
theorem On.comp {f : δ → α} (h : On P enc) (hf : Function.Injective f) :
    On (fun d => P (f d)) fun d => enc (f d) := by
  intro a b r r' ha hb heq
  obtain ⟨hab, hrest⟩ := h (f a) (f b) r r' ha hb heq
  exact ⟨hf hab, hrest⟩

/-- Two lists of one length. -/
theorem On.flatMap (h : On P enc) {as bs : List α} {r r' : List γ} (ha : ∀ a ∈ as, P a)
    (hb : ∀ b ∈ bs, P b) (hlen : as.length = bs.length)
    (heq : as.flatMap enc ++ r = bs.flatMap enc ++ r') : as = bs ∧ r = r' := by
  induction as generalizing bs with
  | nil =>
    obtain rfl := List.length_eq_zero_iff.mp hlen.symm
    exact ⟨rfl, heq⟩
  | cons a as ih =>
    cases bs with
    | nil => cases hlen
    | cons b bs =>
      rw [List.forall_mem_cons] at ha hb
      rw [List.flatMap_cons, List.flatMap_cons, List.append_assoc, List.append_assoc] at heq
      obtain ⟨rfl, hrest⟩ := h a b _ _ ha.1 hb.1 heq
      obtain ⟨rfl, hr⟩ := ih ha.2 hb.2 (Nat.succ.inj hlen) hrest
      exact ⟨rfl, hr⟩

/-- A list that follows its count. -/
theorem On.counted {count : ℕ → List γ} {C : ℕ → Prop} (hcount : On C count) (h : On P enc) :
    On (fun as : List α => C as.length ∧ ∀ a ∈ as, P a)
      fun as => count as.length ++ as.flatMap enc := by
  rintro as bs r r' ⟨hca, ha⟩ ⟨hcb, hb⟩ heq
  rw [List.append_assoc, List.append_assoc] at heq
  obtain ⟨hlen, hrest⟩ := hcount _ _ _ _ hca hcb heq
  exact h.flatMap ha hb hlen hrest

/-- A single symbol. -/
theorem singleton : On (fun _ : γ => True) fun c => [c] :=
  of_length (fun _ _ => rfl) fun _ _ _ _ h => (List.cons.inj h).1

end Delimited
