-- SUMMARY: Byte buffers: little-endian and big-endian integers, writes at an offset, contiguous layouts as concatenations, slices, and the predicate that bytes stand at an offset.
import Mathlib.Data.List.Basic
import Mathlib.Data.Nat.Notation
import Mathlib.Algebra.Order.Group.Nat
import Mathlib.Tactic.Ring

/-!
# Byte buffers

A buffer is a list of bytes of fixed length. Builders zero a buffer and copy
fields into it at constant offsets. Parsers read integers and slices back. Two
views of a built buffer are used: the whole buffer as the concatenation of its
fields, when the offsets are contiguous, and `At d off bs`, which says what
stands at one offset, when writes come in a loop.
-/

namespace Bytes

/-- A fixed-size byte array. -/
abbrev Bytes32 := Vector UInt8 32

/-! ## Little-endian integers -/

/-- The `n` low bytes of `x`, least significant first. -/
def leBytes : ℕ → ℕ → List UInt8
  | 0, _ => []
  | n + 1, x => UInt8.ofNat x :: leBytes n (x / 256)

/-- The integer a little-endian byte string denotes. -/
def leValue : List UInt8 → ℕ
  | [] => 0
  | b :: bs => b.toNat + 256 * leValue bs

def u16Bytes (x : UInt16) : List UInt8 := leBytes 2 x.toNat
def u32Bytes (x : UInt32) : List UInt8 := leBytes 4 x.toNat
def u64Bytes (x : UInt64) : List UInt8 := leBytes 8 x.toNat
/-- Two's complement. -/
def i64Bytes (x : Int64) : List UInt8 := u64Bytes x.toUInt64

@[simp] theorem length_leBytes (n x : ℕ) : (leBytes n x).length = n := by
  induction n generalizing x with
  | zero => rfl
  | succ n ih => simp [leBytes, ih]

@[simp] theorem length_u16Bytes (x : UInt16) : (u16Bytes x).length = 2 := length_leBytes _ _
@[simp] theorem length_u32Bytes (x : UInt32) : (u32Bytes x).length = 4 := length_leBytes _ _
@[simp] theorem length_u64Bytes (x : UInt64) : (u64Bytes x).length = 8 := length_leBytes _ _

theorem leValue_leBytes (n x : ℕ) : leValue (leBytes n x) = x % 256 ^ n := by
  induction n generalizing x with
  | zero => simp [leBytes, leValue, Nat.mod_one]
  | succ n ih =>
    calc leValue (leBytes (n + 1) x)
        = x % 256 + 256 * (x / 256 % 256 ^ n) := by rw [leBytes, leValue, ih]; rfl
      _ = x % (256 * 256 ^ n) := Nat.mod_mul.symm
      _ = x % 256 ^ (n + 1) := by rw [Nat.pow_succ']

theorem leBytes_inj {n x y : ℕ} (hx : x < 256 ^ n) (hy : y < 256 ^ n)
    (h : leBytes n x = leBytes n y) : x = y := by
  have hvalue := congrArg leValue h
  rwa [leValue_leBytes, leValue_leBytes, Nat.mod_eq_of_lt hx, Nat.mod_eq_of_lt hy] at hvalue

@[simp] theorem u32Bytes_inj {x y : UInt32} : u32Bytes x = u32Bytes y ↔ x = y :=
  ⟨fun h => UInt32.toNat_inj.mp (leBytes_inj x.toNat_lt y.toNat_lt h), fun h => h ▸ rfl⟩

@[simp] theorem u64Bytes_inj {x y : UInt64} : u64Bytes x = u64Bytes y ↔ x = y :=
  ⟨fun h => UInt64.toNat_inj.mp (leBytes_inj x.toNat_lt y.toNat_lt h), fun h => h ▸ rfl⟩

@[simp] theorem i64Bytes_inj {x y : Int64} : i64Bytes x = i64Bytes y ↔ x = y := by
  rw [i64Bytes, i64Bytes, u64Bytes_inj]
  cases x
  cases y
  simp

theorem leValue_u16Bytes (x : UInt16) : leValue (u16Bytes x) = x.toNat := by
  rw [u16Bytes, leValue_leBytes]
  exact Nat.mod_eq_of_lt x.toNat_lt

theorem leValue_u64Bytes (x : UInt64) : leValue (u64Bytes x) = x.toNat := by
  rw [u64Bytes, leValue_leBytes]
  exact Nat.mod_eq_of_lt x.toNat_lt

theorem leValue_lt (bs : List UInt8) : leValue bs < 256 ^ bs.length := by
  induction bs with
  | nil => simp [leValue]
  | cons b bs ih =>
    have hb : b.toNat < 256 := b.toNat_lt
    rw [leValue, List.length_cons, Nat.pow_succ']
    omega

theorem leValue_append (as bs : List UInt8) :
    leValue (as ++ bs) = leValue as + 256 ^ as.length * leValue bs := by
  induction as with
  | nil => simp [leValue]
  | cons a as ih =>
    rw [List.cons_append, leValue, leValue, ih, List.length_cons, Nat.pow_succ']
    ring

theorem leBytes_leValue (bs : List UInt8) : leBytes bs.length (leValue bs) = bs := by
  induction bs with
  | nil => rfl
  | cons b bs ih =>
    have hb : b.toNat < 256 := b.toNat_lt
    have hdiv : (b.toNat + 256 * leValue bs) / 256 = leValue bs := by omega
    rw [List.length_cons, leBytes, leValue, hdiv, ih]
    congr 1
    apply UInt8.toNat_inj.mp
    rw [UInt8.toNat_ofNat']
    omega

/-- The bytes above a small integer are zero. -/
theorem leBytes_add {m x : ℕ} (hx : x < 256 ^ m) (n : ℕ) :
    leBytes (m + n) x = leBytes m x ++ List.replicate n 0 := by
  induction m generalizing x with
  | zero =>
    obtain rfl : x = 0 := by simpa using hx
    clear hx
    rw [Nat.zero_add, leBytes, List.nil_append]
    induction n with
    | zero => rfl
    | succ n ih => rw [leBytes, List.replicate_succ, Nat.zero_div, ih]; rfl
  | succ m ih =>
    have hdiv : x / 256 < 256 ^ m := by
      rw [Nat.pow_succ'] at hx
      exact Nat.div_lt_of_lt_mul hx
    rw [Nat.add_right_comm, leBytes, leBytes, ih hdiv, List.cons_append]

/-! ## Big-endian integers -/

/-- The `n` low bytes of `x`, most significant first. -/
def beBytes (n x : ℕ) : List UInt8 := (leBytes n x).reverse

/-- The integer a big-endian byte string denotes. -/
def beValue (bs : List UInt8) : ℕ := leValue bs.reverse

@[simp] theorem length_beBytes (n x : ℕ) : (beBytes n x).length = n := by
  rw [beBytes, List.length_reverse, length_leBytes]

theorem beBytes_beValue {bs : List UInt8} {n : ℕ} (h : bs.length = n) :
    beBytes n (beValue bs) = bs := by
  rw [beBytes, beValue, ← h, ← List.length_reverse, leBytes_leValue, List.reverse_reverse]

theorem beValue_cons (b : UInt8) (bs : List UInt8) :
    beValue (b :: bs) = b.toNat * 256 ^ bs.length + beValue bs := by
  rw [beValue, List.reverse_cons, leValue_append, List.length_reverse, leValue, leValue, beValue]
  ring

theorem beValue_lt (bs : List UInt8) : beValue bs < 256 ^ bs.length := by
  rw [beValue, ← List.length_reverse]
  exact leValue_lt _

theorem beBytes_inj {n x y : ℕ} (hx : x < 256 ^ n) (hy : y < 256 ^ n)
    (h : beBytes n x = beBytes n y) : x = y :=
  leBytes_inj hx hy (List.reverse_injective h)

theorem beValue_beBytes {n x : ℕ} (h : x < 256 ^ n) : beValue (beBytes n x) = x := by
  rw [beValue, beBytes, List.reverse_reverse, leValue_leBytes, Nat.mod_eq_of_lt h]

/-- A small integer is padded with zeros on the left. -/
theorem beBytes_add {m x : ℕ} (hx : x < 256 ^ m) (n : ℕ) :
    beBytes (n + m) x = List.replicate n 0 ++ beBytes m x := by
  rw [beBytes, Nat.add_comm, leBytes_add hx, List.reverse_append, List.reverse_replicate, beBytes]

/-- Concatenations whose first parts have the same length agree part by part. -/
theorem append_eq_append {a b c d : List UInt8} (h : a.length = b.length) :
    a ++ c = b ++ d ↔ a = b ∧ c = d :=
  ⟨fun heq => List.append_inj heq h, fun ⟨hab, hcd⟩ => hab ▸ hcd ▸ rfl⟩

/-- Chunks of one length can be told apart in their concatenation. -/
theorem flatten_inj {n : ℕ} (hn : 0 < n) {xs ys : List (List UInt8)}
    (hxs : ∀ x ∈ xs, x.length = n) (hys : ∀ y ∈ ys, y.length = n)
    (h : xs.flatten = ys.flatten) : xs = ys := by
  induction xs generalizing ys with
  | nil =>
    cases ys with
    | nil => rfl
    | cons y ys =>
      have hlen := congrArg List.length h
      rw [List.flatten_nil, List.flatten_cons, List.length_append, hys y List.mem_cons_self,
        List.length_nil] at hlen
      omega
  | cons x xs ih =>
    cases ys with
    | nil =>
      have hlen := congrArg List.length h
      rw [List.flatten_nil, List.flatten_cons, List.length_append, hxs x List.mem_cons_self,
        List.length_nil] at hlen
      omega
    | cons y ys =>
      have hxy : x.length = y.length := by
        rw [hxs x List.mem_cons_self, hys y List.mem_cons_self]
      rw [List.flatten_cons, List.flatten_cons, append_eq_append hxy] at h
      rw [h.1, ih (fun z hz => hxs z (List.mem_cons_of_mem x hz))
        (fun z hz => hys z (List.mem_cons_of_mem y hz)) h.2]

/-! ## Writing -/

/-- `d[off..off + bs.len()].copy_from_slice(bs)`. -/
def write (d : List UInt8) (off : ℕ) (bs : List UInt8) : List UInt8 :=
  d.take off ++ bs ++ d.drop (off + bs.length)

/-- A zeroed buffer of length `n` after the writes of `fields`, in order. -/
def fill (n : ℕ) (fields : List (ℕ × List UInt8)) : List UInt8 :=
  fields.foldl (fun d f => write d f.1 f.2) (List.replicate n 0)

/-- The fields follow one another from `pos` on and end at `n`. -/
def Contiguous : ℕ → List (ℕ × List UInt8) → ℕ → Prop
  | pos, [], n => pos = n
  | pos, f :: fields, n => f.1 = pos ∧ Contiguous (pos + f.2.length) fields n

theorem Contiguous.le {pos n : ℕ} {fields : List (ℕ × List UInt8)}
    (h : Contiguous pos fields n) : pos ≤ n := by
  induction fields generalizing pos with
  | nil => exact Nat.le_of_eq h
  | cons f fields ih =>
    have := ih h.2
    omega

theorem foldl_write_of_contiguous {n pos : ℕ} {fields : List (ℕ × List UInt8)}
    (h : Contiguous pos fields n) (front : List UInt8) (hfront : front.length = pos) :
    fields.foldl (fun d f => write d f.1 f.2) (front ++ List.replicate (n - pos) 0) =
      front ++ (fields.map Prod.snd).flatten := by
  induction fields generalizing pos front with
  | nil =>
    obtain rfl : pos = n := h
    simp
  | cons f fields ih =>
    obtain ⟨hoff, hrest⟩ := h
    have hle := hrest.le
    -- the write overwrites the first zeros and leaves the rest
    have hwrite : write (front ++ List.replicate (n - pos) 0) f.1 f.2 =
        (front ++ f.2) ++ List.replicate (n - (pos + f.2.length)) 0 := by
      rw [write, hoff, ← hfront]
      simp [List.drop_append, Nat.sub_sub]
    rw [List.foldl_cons, hwrite, ih hrest _ (by simp [hfront])]
    simp

/-- Contiguous writes over the whole buffer concatenate the fields. -/
theorem fill_eq_flatten {n : ℕ} {fields : List (ℕ × List UInt8)} (h : Contiguous 0 fields n) :
    fill n fields = (fields.map Prod.snd).flatten := by
  simpa [fill] using foldl_write_of_contiguous h [] rfl

/-! ## Reading -/

/-- `d.get(lo..hi)`. -/
def slice (d : List UInt8) (lo hi : ℕ) : Option (List UInt8) :=
  if lo ≤ hi ∧ hi ≤ d.length then some ((d.drop lo).take (hi - lo)) else none

/-- The bytes `bs` stand in `d` at offset `off`. -/
def At (d : List UInt8) (off : ℕ) (bs : List UInt8) : Prop :=
  off + bs.length ≤ d.length ∧ (d.drop off).take bs.length = bs

theorem At.slice {d bs : List UInt8} {off : ℕ} (h : At d off bs) :
    slice d off (off + bs.length) = some bs := by
  unfold Bytes.slice
  rw [if_pos ⟨Nat.le_add_right _ _, h.1⟩, Nat.add_sub_cancel_left, h.2]

theorem at_iff_getElem? {d bs : List UInt8} {off : ℕ} :
    At d off bs ↔ off + bs.length ≤ d.length ∧ ∀ k < bs.length, d[off + k]? = bs[k]? := by
  refine and_congr_right fun hle => ⟨fun h k hk => ?_, fun h => ?_⟩
  · rw [← h]
    simp [hk]
  · refine List.ext_getElem? fun k => ?_
    by_cases hk : k < bs.length
    · simp [hk, h k hk]
    · simp [hk]

theorem At.left {d bs cs : List UInt8} {off : ℕ} (h : At d off (bs ++ cs)) : At d off bs := by
  rw [at_iff_getElem?] at h ⊢
  rw [List.length_append] at h
  refine ⟨by omega, fun k hk => ?_⟩
  rw [h.2 k (by omega), List.getElem?_append_left hk]

theorem At.right {d bs cs : List UInt8} {off : ℕ} (h : At d off (bs ++ cs)) :
    At d (off + bs.length) cs := by
  rw [at_iff_getElem?] at h ⊢
  rw [List.length_append] at h
  refine ⟨by omega, fun k hk => ?_⟩
  rw [Nat.add_assoc, h.2 (bs.length + k) (by omega),
    List.getElem?_append_right (Nat.le_add_right _ _), Nat.add_sub_cancel_left]

@[simp] theorem at_append_left (bs rest : List UInt8) : At (bs ++ rest) 0 bs := by
  simp [At]

theorem at_self (bs : List UInt8) : At bs 0 bs := by
  simp [At]

/-- What stands behind a first part stands in the rest. -/
@[simp] theorem at_append_right {a b bs : List UInt8} {off : ℕ} (h : a.length ≤ off) :
    At (a ++ b) off bs ↔ At b (off - a.length) bs := by
  rw [At, At, List.drop_append, List.drop_eq_nil_of_le h, List.nil_append, List.length_append]
  refine and_congr_left fun _ => ?_
  omega

/-- What stands in what stands in a buffer stands in the buffer. -/
theorem At.trans {d bs cs : List UInt8} {off k : ℕ} (h : At d off bs) (hk : At bs k cs) :
    At d (off + k) cs := by
  rw [at_iff_getElem?] at h hk ⊢
  refine ⟨by omega, fun i hi => ?_⟩
  rw [Nat.add_assoc, h.2 (k + i) (by omega), hk.2 i hi]

theorem At.getElem? {d bs : List UInt8} {off k : ℕ} (h : At d off bs) (hk : k < bs.length) :
    d[off + k]? = bs[k]? :=
  (at_iff_getElem?.mp h).2 k hk

@[simp] theorem length_write {d bs : List UInt8} {off : ℕ} (h : off + bs.length ≤ d.length) :
    (write d off bs).length = d.length := by
  simp only [write, List.length_append, List.length_take, List.length_drop]
  omega

theorem getElem?_write {d bs : List UInt8} {off k : ℕ} (h : off + bs.length ≤ d.length) :
    (write d off bs)[k]? = if off ≤ k ∧ k < off + bs.length then bs[k - off]? else d[k]? := by
  have htake : (d.take off).length = off := by
    rw [List.length_take]
    omega
  unfold write
  by_cases hlo : k < off
  · rw [List.append_assoc, List.getElem?_append_left (by omega), List.getElem?_take_of_lt hlo,
      if_neg (by omega)]
  · by_cases hhi : k < off + bs.length
    · rw [List.append_assoc, List.getElem?_append_right (by omega), htake,
        List.getElem?_append_left (by omega), if_pos ⟨by omega, hhi⟩]
    · rw [List.getElem?_append_right (by rw [List.length_append]; omega), List.getElem?_drop,
        if_neg (by omega), List.length_append, htake]
      congr 1
      omega

/-- Two adjacent writes are one write. -/
theorem write_append {d bs cs : List UInt8} {off : ℕ}
    (h : off + (bs ++ cs).length ≤ d.length) :
    write (write d off bs) (off + bs.length) cs = write d off (bs ++ cs) := by
  rw [List.length_append] at h
  refine List.ext_getElem? fun k => ?_
  rw [getElem?_write (by rw [length_write (by omega)]; omega), getElem?_write (by omega),
    getElem?_write (by rw [List.length_append]; omega), List.length_append]
  by_cases hb : k - off < bs.length
  · rw [List.getElem?_append_left hb]
    split_ifs <;> first | rfl | omega
  · rw [List.getElem?_append_right (by omega)]
    split_ifs <;> first | rfl | omega | skip
    congr 1
    omega

/-- A write puts its bytes at its offset. -/
theorem at_write {d bs : List UInt8} {off : ℕ} (h : off + bs.length ≤ d.length) :
    At (write d off bs) off bs := by
  rw [at_iff_getElem?]
  refine ⟨by rwa [length_write h], fun k hk => ?_⟩
  rw [getElem?_write h, if_pos (by omega), Nat.add_sub_cancel_left]

/-- A write elsewhere leaves what stands at an offset. -/
theorem At.write {d bs cs : List UInt8} {off off' : ℕ} (h : At d off bs)
    (hle : off' + cs.length ≤ d.length)
    (hdisjoint : off + bs.length ≤ off' ∨ off' + cs.length ≤ off) : At (write d off' cs) off bs := by
  rw [at_iff_getElem?] at h ⊢
  refine ⟨by rw [length_write hle]; exact h.1, fun k hk => ?_⟩
  rw [getElem?_write hle, if_neg (by omega)]
  exact h.2 k hk

/-- Two fields do not overlap. -/
def Apart (f g : ℕ × List UInt8) : Prop := f.1 + f.2.length ≤ g.1 ∨ g.1 + g.2.length ≤ f.1

/-- Writes within a buffer keep its length. -/
theorem length_foldl_write {fields : List (ℕ × List UInt8)} {d : List UInt8}
    (hfit : ∀ f ∈ fields, f.1 + f.2.length ≤ d.length) :
    (fields.foldl (fun d f => write d f.1 f.2) d).length = d.length := by
  induction fields generalizing d with
  | nil => rfl
  | cons f fields ih =>
    have hlen := length_write (hfit f List.mem_cons_self)
    rw [List.foldl_cons, ih fun g hg => by rw [hlen]; exact hfit g (List.mem_cons_of_mem f hg),
      hlen]

/-- Writes of fields apart from what stands at an offset leave it. -/
theorem At.foldl_write {fields : List (ℕ × List UInt8)} {d bs : List UInt8} {off : ℕ}
    (h : At d off bs) (hfit : ∀ f ∈ fields, f.1 + f.2.length ≤ d.length)
    (hapart : ∀ f ∈ fields, Apart (off, bs) f) :
    At (fields.foldl (fun d f => Bytes.write d f.1 f.2) d) off bs := by
  induction fields generalizing d with
  | nil => exact h
  | cons f fields ih =>
    have hlen := length_write (hfit f List.mem_cons_self)
    refine ih (h.write (hfit f List.mem_cons_self) (hapart f List.mem_cons_self)) (fun g hg => ?_)
      fun g hg => hapart g (List.mem_cons_of_mem f hg)
    rw [hlen]
    exact hfit g (List.mem_cons_of_mem f hg)

/-- Writes of fields apart from one another put each of them in its place. -/
theorem at_foldl_write {fields : List (ℕ × List UInt8)} {d : List UInt8}
    (hfit : ∀ f ∈ fields, f.1 + f.2.length ≤ d.length) (hapart : fields.Pairwise Apart) :
    ∀ f ∈ fields, At (fields.foldl (fun d f => write d f.1 f.2) d) f.1 f.2 := by
  induction fields generalizing d with
  | nil => simp
  | cons f fields ih =>
    have hlen := length_write (hfit f List.mem_cons_self)
    have hfit' : ∀ g ∈ fields, g.1 + g.2.length ≤ (write d f.1 f.2).length := fun g hg => by
      rw [hlen]
      exact hfit g (List.mem_cons_of_mem f hg)
    obtain ⟨hhead, htail⟩ := List.pairwise_cons.mp hapart
    intro g hg
    rcases List.mem_cons.mp hg with rfl | hg
    · exact (at_write (hfit g List.mem_cons_self)).foldl_write hfit' hhead
    · exact ih hfit' htail g hg

end Bytes
