-- SUMMARY: Numbers in positional notation with their leading zeros: a digit list is its leading zeros and its value, multiplication and addition in place, and the change of base, which is its own inverse.
import Mathlib.Data.Nat.Digits.Lemmas

/-!
# Positional notation

A string of digits, most significant first, is a number and a count of leading
zeros. Changing the base keeps the count and rewrites the number. The number is
held in digits that are least significant first, as in `Nat.digits`, and a digit
is added to it by one pass over these.
-/

namespace Radix

variable {a b : ℕ} {ds : List ℕ}

/-! ## Value and leading zeros -/

/-- The number that digits denote, most significant first. -/
def value (b : ℕ) (ds : List ℕ) : ℕ := Nat.ofDigits b ds.reverse

def leadingZeros (ds : List ℕ) : ℕ := (ds.takeWhile (· = 0)).length

@[simp] theorem value_nil : value b [] = 0 := rfl

theorem value_append_singleton (ds : List ℕ) (d : ℕ) : value b (ds ++ [d]) = value b ds * b + d := by
  rw [value, List.reverse_append, List.reverse_singleton, List.singleton_append, Nat.ofDigits_cons,
    value, Nat.mul_comm, Nat.add_comm]

theorem value_replicate_append (n : ℕ) (ds : List ℕ) :
    value b (List.replicate n 0 ++ ds) = value b ds := by
  rw [value, List.reverse_append, List.reverse_replicate, Nat.ofDigits_append_replicate_zero, value]

/-- The digits of a number have no leading zero. -/
theorem head_reverse_digits_ne_zero (n : ℕ) (h : (Nat.digits b n).reverse ≠ []) :
    (Nat.digits b n).reverse.head h ≠ 0 := by
  rw [List.head_reverse]
  apply Nat.getLast_digit_ne_zero
  intro hn
  rw [hn, Nat.digits_zero, List.reverse_nil] at h
  exact h rfl

/-- Digits are their leading zeros and the digits of their value. -/
theorem eq_replicate_append (hb : 1 < b) (hds : ∀ d ∈ ds, d < b) :
    ds = List.replicate (leadingZeros ds) 0 ++ (Nat.digits b (value b ds)).reverse := by
  induction ds with
  | nil => simp [leadingZeros]
  | cons d ds ih =>
    rw [List.forall_mem_cons] at hds
    by_cases hd : d = 0
    · subst hd
      have hzeros : leadingZeros (0 :: ds) = leadingZeros ds + 1 := by simp [leadingZeros]
      have hvalue : value b (0 :: ds) = value b ds := value_replicate_append 1 ds
      rw [hzeros, hvalue, List.replicate_succ, List.cons_append, ← ih hds.2]
    · have hzeros : leadingZeros (d :: ds) = 0 := by simp [leadingZeros, hd]
      have hdigits : Nat.digits b (value b (d :: ds)) = (d :: ds).reverse := by
        apply Nat.digits_ofDigits b hb
        · intro x hx
          rw [List.mem_reverse] at hx
          exact (List.forall_mem_cons (p := (· < b))).mpr hds x hx
        · intro h
          rw [List.getLast_reverse]
          exact hd
      rw [hzeros, hdigits, List.reverse_reverse, List.replicate_zero, List.nil_append]

/-! ## Multiplication and addition in place -/

/-- Multiplies the number by `m` and adds `carry`, digit by digit. What is carried
out of the last digit becomes new digits. -/
def mulAdd (b m : ℕ) (carry : ℕ) : List ℕ → List ℕ
  | [] => Nat.digits b carry
  | d :: ds => (carry + d * m) % b :: mulAdd b m ((carry + d * m) / b) ds

theorem mulAdd_digits {m : ℕ} (hb : 1 < b) (hm : 0 < m) (n carry : ℕ) :
    mulAdd b m carry (Nat.digits b n) = Nat.digits b (n * m + carry) := by
  induction n using Nat.strong_induction_on generalizing carry with
  | _ n ih =>
    by_cases hn : n = 0
    · subst hn
      rw [Nat.digits_zero, mulAdd, Nat.zero_mul, Nat.zero_add]
    · have hsplit : n * m + carry = carry + n % b * m + b * (n / b * m) := by
        calc n * m + carry = (n % b + b * (n / b)) * m + carry := by rw [Nat.mod_add_div]
          _ = carry + n % b * m + b * (n / b * m) := by ring
      have hlow : (n * m + carry) % b = (carry + n % b * m) % b := by
        rw [hsplit, Nat.add_mul_mod_self_left]
      have hhigh : (n * m + carry) / b = n / b * m + (carry + n % b * m) / b := by
        rw [hsplit, Nat.add_mul_div_left _ _ (by omega), Nat.add_comm]
      have hpos : n * m + carry ≠ 0 := by
        have hmul := Nat.mul_pos (Nat.pos_of_ne_zero hn) hm
        omega
      rw [Nat.digits_eq_cons_digits_div hb hn, mulAdd,
        ih (n / b) (Nat.div_lt_self (Nat.pos_of_ne_zero hn) hb), ← hhigh, ← hlow,
        ← Nat.digits_eq_cons_digits_div hb hpos]

/-- Reading digits in one base leaves the digits of their value in the other. -/
theorem foldl_mulAdd (ha : 0 < a) (hb : 1 < b) (ds : List ℕ) :
    ds.foldl (fun acc d => mulAdd b a d acc) [] = Nat.digits b (value a ds) := by
  induction ds using List.reverseRecOn with
  | nil => rw [value_nil, Nat.digits_zero, List.foldl_nil]
  | append_singleton ds d ih =>
    rw [List.foldl_append, ih, List.foldl_cons, List.foldl_nil, mulAdd_digits hb ha,
      value_append_singleton]

/-! ## Change of base -/

/-- Keeps the leading zeros, and writes the number in another base. -/
def transcode (a b : ℕ) (ds : List ℕ) : List ℕ :=
  List.replicate (leadingZeros ds) 0 ++ (Nat.digits b (value a ds)).reverse

@[simp] theorem transcode_nil : transcode a b [] = [] := by simp [transcode, leadingZeros]

theorem mem_transcode_lt (hb : 1 < b) {d : ℕ} (hd : d ∈ transcode a b ds) : d < b := by
  rw [transcode, List.mem_append, List.mem_replicate, List.mem_reverse] at hd
  rcases hd with ⟨-, rfl⟩ | hd
  · omega
  · exact Nat.digits_lt_base hb hd

theorem leadingZeros_transcode : leadingZeros (transcode a b ds) = leadingZeros ds := by
  have hnone : ((Nat.digits b (value a ds)).reverse.takeWhile (· = 0)).length = 0 := by
    cases hdigits : (Nat.digits b (value a ds)).reverse with
    | nil => rfl
    | cons d rest =>
      have hhead := head_reverse_digits_ne_zero (b := b) (value a ds)
        (hdigits ▸ List.cons_ne_nil d rest)
      simp only [hdigits, List.head_cons] at hhead
      rw [List.takeWhile_cons_of_neg (by simpa using hhead), List.length_nil]
  rw [leadingZeros, transcode, List.takeWhile_append_of_pos (by simp), List.length_append,
    List.length_replicate, hnone, Nat.add_zero]

theorem value_transcode : value b (transcode a b ds) = value a ds := by
  rw [transcode, value_replicate_append, value, List.reverse_reverse, Nat.ofDigits_digits]

/-- Changing the base and back gives the digits. -/
theorem transcode_transcode (ha : 1 < a) (hds : ∀ d ∈ ds, d < a) :
    transcode b a (transcode a b ds) = ds := by
  rw [transcode, leadingZeros_transcode, value_transcode]
  exact (eq_replicate_append ha hds).symm

theorem transcode_ne_nil (ha : 1 < a) (hds : ∀ d ∈ ds, d < a) (hne : ds ≠ []) :
    transcode a b ds ≠ [] := by
  intro hnil
  apply hne
  rw [← transcode_transcode (b := b) ha hds, hnil, transcode_nil]

end Radix
