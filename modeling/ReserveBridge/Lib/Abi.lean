-- SUMMARY: The head and tail layout of call arguments: a reference encoder, a decoder that follows the offsets, where each dynamic value stands, and that the decoder reads the encoding back.
import ReserveBridge.Lib.Bytes

/-!
# Arguments of a call

An argument block is a head of one word per argument and a tail. The word of a
static argument is its value, the word of a dynamic one is the offset of its data
from the start of the block. The data of an array has a head and a tail of its
own, whose offsets count from the table.
-/

namespace Abi
open Bytes

inductive Arg
  | word (value : Bytes32)
  | bytes (value : List UInt8)
  | bytesArray (items : List (List UInt8))
  deriving DecidableEq

inductive Kind
  | word
  | bytes
  | bytesArray
  deriving DecidableEq

def Arg.kind : Arg → Kind
  | .word _ => .word
  | .bytes _ => .bytes
  | .bytesArray _ => .bytesArray

/-! ## Encoding -/

/-- The word of a number below 2^256. -/
def natWord (n : ℕ) : Bytes32 := ⟨(beBytes 32 n).toArray, length_beBytes 32 n⟩

@[simp] theorem toList_natWord (n : ℕ) : (natWord n).toList = beBytes 32 n := by simp [natWord]

/-- The next multiple of 32. -/
def ceil32 (n : ℕ) : ℕ := (n + 31) / 32 * 32

theorem le_ceil32 (n : ℕ) : n ≤ ceil32 n := by
  unfold ceil32
  omega

def encodeBytes (value : List UInt8) : List UInt8 :=
  beBytes 32 value.length ++ (value ++ List.replicate (ceil32 value.length - value.length) 0)

/-- One word per chunk, which says where it starts if they follow one another from
`cursor` on. -/
def table (cursor : ℕ) : List (List UInt8) → List UInt8
  | [] => []
  | chunk :: chunks => beBytes 32 cursor ++ table (cursor + chunk.length) chunks

def encodeArray (items : List (List UInt8)) : List UInt8 :=
  beBytes 32 items.length ++
    (table (32 * items.length) (items.map encodeBytes) ++ (items.map encodeBytes).flatten)

/-- What an argument adds to the tail. -/
def Arg.tail : Arg → List UInt8
  | .word _ => []
  | .bytes value => encodeBytes value
  | .bytesArray items => encodeArray items

/-- The word of an argument in the head, when its data starts at `cursor`. -/
def Arg.head (cursor : ℕ) : Arg → List UInt8
  | .word value => value.toList
  | .bytes _ => beBytes 32 cursor
  | .bytesArray _ => beBytes 32 cursor

/-- The head, when the tail starts at `cursor`. -/
def heads (cursor : ℕ) : List Arg → List UInt8
  | [] => []
  | arg :: args => arg.head cursor ++ heads (cursor + arg.tail.length) args

def encode (args : List Arg) : List UInt8 :=
  heads (32 * args.length) args ++ args.flatMap Arg.tail

@[simp] theorem length_encodeBytes (value : List UInt8) :
    (encodeBytes value).length = 32 + ceil32 value.length := by
  have hle := le_ceil32 value.length
  simp only [encodeBytes, List.length_append, length_beBytes, List.length_replicate]
  omega

@[simp] theorem length_table (cursor : ℕ) (chunks : List (List UInt8)) :
    (table cursor chunks).length = 32 * chunks.length := by
  induction chunks generalizing cursor with
  | nil => rfl
  | cons chunk chunks ih =>
    rw [table, List.length_append, length_beBytes, ih, List.length_cons]
    omega

@[simp] theorem length_head (cursor : ℕ) (arg : Arg) : (arg.head cursor).length = 32 := by
  cases arg with
  | word value => exact value.length_toList
  | bytes value => exact length_beBytes 32 cursor
  | bytesArray items => exact length_beBytes 32 cursor

@[simp] theorem length_heads (cursor : ℕ) (args : List Arg) :
    (heads cursor args).length = 32 * args.length := by
  induction args generalizing cursor with
  | nil => rfl
  | cons arg args ih =>
    rw [heads, List.length_append, length_head, ih, List.length_cons]
    omega

/-! ## Decoding -/

def readWord (d : List UInt8) (off : ℕ) : Option Bytes32 :=
  (slice d off (off + 32)).bind fun bs =>
    if h : bs.length = 32 then some ⟨bs.toArray, h⟩ else none

def readNat (d : List UInt8) (off : ℕ) : Option ℕ :=
  (readWord d off).map fun word => beValue word.toList

def readBytes (d : List UInt8) (off : ℕ) : Option (List UInt8) := do
  let length ← readNat d off
  slice d (off + 32) (off + 32 + length)

/-- Follows a table of `n` offsets at `pos`. They count from `base`. -/
def readElements {α : Type} (read : ℕ → Option α) (d : List UInt8) (base pos : ℕ) :
    ℕ → Option (List α)
  | 0 => some []
  | n + 1 => do
    let off ← readNat d pos
    let value ← read (base + off)
    let rest ← readElements read d base (pos + 32) n
    pure (value :: rest)

/-- The table stands behind the count, and its offsets count from where it starts. -/
def readBytesArray (d : List UInt8) (off : ℕ) : Option (List (List UInt8)) := do
  let count ← readNat d off
  readElements (readBytes d) d (off + 32) (off + 32) count

def readArg (d : List UInt8) (pos : ℕ) : Kind → Option Arg
  | .word => (readWord d pos).map .word
  | .bytes => do
    let off ← readNat d pos
    (readBytes d off).map .bytes
  | .bytesArray => do
    let off ← readNat d pos
    (readBytesArray d off).map .bytesArray

/-- Reads the arguments whose words start at `pos`. The offsets count from the start
of the block. -/
def readArgs (d : List UInt8) (pos : ℕ) : List Kind → Option (List Arg)
  | [] => some []
  | kind :: kinds => do
    let arg ← readArg d pos kind
    let args ← readArgs d (pos + 32) kinds
    pure (arg :: args)

def decode (kinds : List Kind) (d : List UInt8) : Option (List Arg) := readArgs d 0 kinds

/-! ## Where the values stand -/

/-- The bytes of one value: its length, its payload up to `payloadEnd`, and its
padding. -/
structure Span where
  start : ℕ
  payloadEnd : ℕ
  stop : ℕ
  deriving DecidableEq

/-- The bytes of one dynamic argument. Its values stand from `values` on. -/
structure Region where
  start : ℕ
  values : ℕ
  stop : ℕ
  spans : List Span
  deriving DecidableEq

def readSpan (d : List UInt8) (off : ℕ) : Option Span := do
  let length ← readNat d off
  pure ⟨off, off + 32 + length, off + 32 + ceil32 length⟩

/-- An array ends where its last element does, an empty one where its table does. -/
def readArrayRegion (d : List UInt8) (off : ℕ) : Option Region := do
  let count ← readNat d off
  let spans ← readElements (readSpan d) d (off + 32) (off + 32) count
  let values := off + 32 + 32 * count
  pure ⟨off, values, (spans.getLast?.map Span.stop).getD values, spans⟩

def readRegion (d : List UInt8) (pos : ℕ) : Kind → Option (List Region)
  | .word => some []
  | .bytes => do
    let off ← readNat d pos
    let span ← readSpan d off
    pure [⟨off, off, span.stop, [span]⟩]
  | .bytesArray => do
    let off ← readNat d pos
    let region ← readArrayRegion d off
    pure [region]

/-- The regions of the dynamic arguments, found by following the offsets. -/
def readRegions (d : List UInt8) (pos : ℕ) : List Kind → Option (List Region)
  | [] => some []
  | kind :: kinds => do
    let region ← readRegion d pos kind
    let regions ← readRegions d (pos + 32) kinds
    pure (region ++ regions)

def regions (kinds : List Kind) (d : List UInt8) : Option (List Region) := readRegions d 0 kinds

/-- The intervals follow one another from `lo` to `hi`. -/
def Consecutive : ℕ → List (ℕ × ℕ) → ℕ → Prop
  | lo, [], hi => lo = hi
  | lo, s :: spans, hi => s.1 = lo ∧ lo ≤ s.2 ∧ Consecutive s.2 spans hi

/-- The intervals are disjoint and in order, and cover `lo` to `hi`. -/
structure Tiles (lo : ℕ) (spans : List (ℕ × ℕ)) (hi : ℕ) : Prop where
  ordered : spans.Pairwise fun s t => s.2 ≤ t.1
  cover : ∀ i, (∃ s ∈ spans, s.1 ≤ i ∧ i < s.2) ↔ lo ≤ i ∧ i < hi

def Span.bounds (s : Span) : ℕ × ℕ := (s.start, s.stop)
def Region.bounds (r : Region) : ℕ × ℕ := (r.start, r.stop)

/-- The regions tile the tail, the values of each tile what is left of it behind the
count and the table, and every padding byte is zero. -/
structure Laid (d : List UInt8) (headLength : ℕ) (regions : List Region) : Prop where
  regions_tile : Tiles headLength (regions.map Region.bounds) d.length
  values_tile : ∀ r ∈ regions, Tiles r.values (r.spans.map Span.bounds) r.stop
  padding : ∀ r ∈ regions, ∀ s ∈ r.spans, ∀ i, s.payloadEnd ≤ i → i < s.stop → d[i]? = some 0

theorem Consecutive.le {lo hi : ℕ} {spans : List (ℕ × ℕ)} (h : Consecutive lo spans hi) :
    lo ≤ hi := by
  induction spans generalizing lo with
  | nil => exact Nat.le_of_eq h
  | cons s spans ih => exact h.2.1.trans (ih h.2.2)

theorem Consecutive.append {lo mid hi : ℕ} {spans more : List (ℕ × ℕ)}
    (h : Consecutive lo spans mid) (hmore : Consecutive mid more hi) :
    Consecutive lo (spans ++ more) hi := by
  induction spans generalizing lo with
  | nil =>
    obtain rfl : lo = mid := h
    exact hmore
  | cons s spans ih => exact ⟨h.1, h.2.1, ih h.2.2⟩

theorem Consecutive.le_of_mem {lo hi : ℕ} {spans : List (ℕ × ℕ)} (h : Consecutive lo spans hi) :
    ∀ s ∈ spans, lo ≤ s.1 := by
  induction spans generalizing lo with
  | nil => simp
  | cons t spans ih =>
    intro s hs
    rcases List.mem_cons.mp hs with rfl | hs
    · exact Nat.le_of_eq h.1.symm
    · exact h.2.1.trans (ih h.2.2 s hs)

theorem Consecutive.tiles {lo hi : ℕ} {spans : List (ℕ × ℕ)} (h : Consecutive lo spans hi) :
    Tiles lo spans hi := by
  induction spans generalizing lo with
  | nil =>
    obtain rfl : lo = hi := h
    constructor
    · exact List.Pairwise.nil
    · intro i
      simp only [List.not_mem_nil, false_and, exists_false, false_iff]
      omega
  | cons s spans ih =>
    obtain ⟨hstart, hstop, hrest⟩ := h
    have htiles := ih hrest
    have hle := hrest.le
    constructor
    · exact List.Pairwise.cons hrest.le_of_mem htiles.ordered
    · intro i
      rw [List.exists_mem_cons_iff, htiles.cover i]
      omega

/-! ## Reading back -/

section
variable {d : List UInt8}

theorem readWord_of_at {word : Bytes32} {off : ℕ} (h : At d off word.toList) :
    readWord d off = some word := by
  have hslice := h.slice
  rw [Vector.length_toList] at hslice
  rw [readWord, hslice, Option.bind_some, dif_pos word.length_toList]
  rfl

theorem readNat_of_at {n off : ℕ} (h : At d off (beBytes 32 n)) (hn : n < 256 ^ 32) :
    readNat d off = some n := by
  rw [← toList_natWord] at h
  rw [readNat, readWord_of_at h, Option.map_some, toList_natWord, beValue_beBytes hn]

/-- The bound on what a block can hold, as a bound on what it says. -/
theorem lt_of_le_length (hd : d.length < 2 ^ 64) {n : ℕ} (h : n ≤ d.length) : n < 256 ^ 32 := by
  have hpow : (2 : ℕ) ^ 64 < 256 ^ 32 := by decide
  omega

theorem readNat_length (hd : d.length < 2 ^ 64) {value : List UInt8} {off : ℕ}
    (h : At d off (encodeBytes value)) : readNat d off = some value.length := by
  have hle := h.1
  have hceil := le_ceil32 value.length
  rw [length_encodeBytes] at hle
  apply readNat_of_at h.left
  apply lt_of_le_length hd
  omega

theorem readBytes_of_at (hd : d.length < 2 ^ 64) {value : List UInt8} {off : ℕ}
    (h : At d off (encodeBytes value)) : readBytes d off = some value := by
  have hpayload := h.right.left
  rw [length_beBytes] at hpayload
  rw [readBytes, readNat_length hd h, Option.bind_eq_bind, Option.bind_some]
  exact hpayload.slice

/-- The bytes of an encoded value at an offset. -/
def spanAt (off : ℕ) (value : List UInt8) : Span :=
  ⟨off, off + 32 + value.length, off + (encodeBytes value).length⟩

theorem readSpan_of_at (hd : d.length < 2 ^ 64) {value : List UInt8} {off : ℕ}
    (h : At d off (encodeBytes value)) : readSpan d off = some (spanAt off value) := by
  rw [readSpan, readNat_length hd h, spanAt, length_encodeBytes, ← Nat.add_assoc]
  rfl

theorem padding_of_at {value : List UInt8} {off i : ℕ} (h : At d off (encodeBytes value))
    (hlo : (spanAt off value).payloadEnd ≤ i) (hhi : i < (spanAt off value).stop) :
    d[i]? = some 0 := by
  have hle := le_ceil32 value.length
  have hzeros := h.right.right
  rw [length_beBytes] at hzeros
  simp only [spanAt, length_encodeBytes] at hlo hhi
  obtain ⟨k, rfl⟩ := Nat.exists_eq_add_of_le hlo
  have hk : k < ceil32 value.length - value.length := by omega
  rw [hzeros.getElem? (by rwa [List.length_replicate]), List.getElem?_replicate, if_pos hk]

/-- The elements, each with where it stands. -/
def placed {α : Type} (place : ℕ → List UInt8 → α) (start : ℕ) : List (List UInt8) → List α
  | [] => []
  | item :: items => place start item :: placed place (start + (encodeBytes item).length) items

theorem placed_value (start : ℕ) (items : List (List UInt8)) :
    placed (fun _ item => item) start items = items := by
  induction items generalizing start with
  | nil => rfl
  | cons item items ih => rw [placed, ih]

/-- Following a table finds every element: `cursor` is what the table says of the next
one, and it stands that far behind `base`. -/
theorem readElements_of_at {α : Type} {read : ℕ → Option α} {place : ℕ → List UInt8 → α}
    (hd : d.length < 2 ^ 64)
    (hread : ∀ off value, At d off (encodeBytes value) → read off = some (place off value))
    {items : List (List UInt8)} {base pos cursor : ℕ}
    (htable : At d pos (table cursor (items.map encodeBytes)))
    (hitems : At d (base + cursor) (items.map encodeBytes).flatten) :
    readElements read d base pos items.length = some (placed place (base + cursor) items) := by
  induction items generalizing pos cursor with
  | nil => rfl
  | cons item items ih =>
    rw [List.map_cons, table] at htable
    rw [List.map_cons, List.flatten_cons] at hitems
    have hcursor : readNat d pos = some cursor := by
      have hle := hitems.1
      apply readNat_of_at htable.left
      apply lt_of_le_length hd
      omega
    have htable' := htable.right
    have hitems' := hitems.right
    rw [length_beBytes] at htable'
    rw [Nat.add_assoc] at hitems'
    have hrest := ih htable' hitems'
    rw [List.length_cons, readElements, hcursor, placed]
    simp only [Option.bind_eq_bind, Option.bind_some, Option.pure_def,
      hread _ _ hitems.left, hrest, Nat.add_assoc]

theorem readNat_count (hd : d.length < 2 ^ 64) {items : List (List UInt8)} {off : ℕ}
    (h : At d off (encodeArray items)) : readNat d off = some items.length := by
  have hle := h.1
  simp only [encodeArray, List.length_append, length_beBytes, length_table, List.length_map] at hle
  apply readNat_of_at h.left
  apply lt_of_le_length hd
  omega

theorem readArray_of_at {α : Type} {read : ℕ → Option α} {place : ℕ → List UInt8 → α}
    (hd : d.length < 2 ^ 64)
    (hread : ∀ off value, At d off (encodeBytes value) → read off = some (place off value))
    {items : List (List UInt8)} {off : ℕ} (h : At d off (encodeArray items)) :
    readElements read d (off + 32) (off + 32) items.length =
      some (placed place (off + 32 + 32 * items.length) items) := by
  have htable := h.right.left
  have hitems := h.right.right
  rw [length_beBytes] at htable hitems
  rw [length_table, List.length_map] at hitems
  exact readElements_of_at hd hread htable hitems

theorem readBytesArray_of_at (hd : d.length < 2 ^ 64) {items : List (List UInt8)} {off : ℕ}
    (h : At d off (encodeArray items)) : readBytesArray d off = some items := by
  have hread : ∀ off value, At d off (encodeBytes value) → readBytes d off = some value :=
    fun off value => readBytes_of_at hd
  have helements : readElements (readBytes d) d (off + 32) (off + 32) items.length =
      some (placed (fun _ item => item) (off + 32 + 32 * items.length) items) :=
    readArray_of_at hd hread h
  rw [readBytesArray, readNat_count hd h, Option.bind_eq_bind, Option.bind_some, helements,
    placed_value]

theorem readArg_of_at (hd : d.length < 2 ^ 64) {arg : Arg} {pos cursor : ℕ}
    (hhead : At d pos (arg.head cursor)) (htail : At d cursor arg.tail) :
    readArg d pos arg.kind = some arg := by
  have hcursor : cursor < 256 ^ 32 := by
    have hle := htail.1
    apply lt_of_le_length hd
    omega
  cases arg with
  | word value => exact congrArg (Option.map Arg.word) (readWord_of_at hhead)
  | bytes value =>
    have hoff : readNat d pos = some cursor := readNat_of_at hhead hcursor
    have hvalue := readBytes_of_at hd htail
    simp only [readArg, Arg.kind, hoff, hvalue, Option.bind_eq_bind, Option.bind_some,
      Option.map_some]
  | bytesArray items =>
    have hoff : readNat d pos = some cursor := readNat_of_at hhead hcursor
    have hitems := readBytesArray_of_at hd htail
    simp only [readArg, Arg.kind, hoff, hitems, Option.bind_eq_bind, Option.bind_some,
      Option.map_some]

theorem readArgs_of_at (hd : d.length < 2 ^ 64) {args : List Arg} {pos cursor : ℕ}
    (hheads : At d pos (heads cursor args)) (htails : At d cursor (args.flatMap Arg.tail)) :
    readArgs d pos (args.map Arg.kind) = some args := by
  induction args generalizing pos cursor with
  | nil => rfl
  | cons arg args ih =>
    rw [heads] at hheads
    rw [List.flatMap_cons] at htails
    have hheads' := hheads.right
    rw [length_head] at hheads'
    have harg := readArg_of_at hd hheads.left htails.left
    have hargs := ih hheads' htails.right
    simp only [List.map_cons, readArgs, harg, hargs, Option.bind_eq_bind, Option.bind_some,
      Option.pure_def]

theorem heads_at_encode (args : List Arg) :
    At (encode args) 0 (heads (32 * args.length) args) :=
  at_append_left _ _

theorem tails_at_encode (args : List Arg) :
    At (encode args) (32 * args.length) (args.flatMap Arg.tail) := by
  rw [encode, at_append_right (Nat.le_of_eq (length_heads _ _)), length_heads, Nat.sub_self]
  exact at_self _

/-- The decoder reads back what is encoded. -/
theorem decode_encode {args : List Arg} (h : (encode args).length < 2 ^ 64) :
    decode (args.map Arg.kind) (encode args) = some args :=
  readArgs_of_at h (heads_at_encode args) (tails_at_encode args)

/-! ## The regions of an encoding -/

/-- The region of an argument whose data starts at `cursor`. -/
def Arg.regions (cursor : ℕ) : Arg → List Region
  | .word _ => []
  | .bytes value =>
    [⟨cursor, cursor, cursor + (encodeBytes value).length, [spanAt cursor value]⟩]
  | .bytesArray items =>
    [⟨cursor, cursor + 32 + 32 * items.length, cursor + (encodeArray items).length,
      placed spanAt (cursor + 32 + 32 * items.length) items⟩]

def regionsFrom (cursor : ℕ) : List Arg → List Region
  | [] => []
  | arg :: args => arg.regions cursor ++ regionsFrom (cursor + arg.tail.length) args

theorem consecutive_placed (start : ℕ) (items : List (List UInt8)) :
    Consecutive start ((placed spanAt start items).map Span.bounds)
      (start + (items.map encodeBytes).flatten.length) := by
  induction items generalizing start with
  | nil => rfl
  | cons item items ih =>
    rw [placed, List.map_cons, List.map_cons, List.flatten_cons, List.length_append,
      ← Nat.add_assoc]
    exact ⟨rfl, Nat.le_add_right _ _, ih _⟩

/-- The last of consecutive elements ends where all of them do. -/
theorem stop_placed (start : ℕ) (items : List (List UInt8)) :
    ((placed spanAt start items).getLast?.map Span.stop).getD start =
      start + (items.map encodeBytes).flatten.length := by
  induction items generalizing start with
  | nil => rfl
  | cons item items ih =>
    rw [placed, List.map_cons, List.flatten_cons, List.length_append, ← Nat.add_assoc,
      ← ih (start + (encodeBytes item).length), List.getLast?_cons, Option.map_some,
      Option.getD_some]
    exact (Option.getD_map Span.stop (spanAt start item) _).symm

theorem add_length_encodeArray (off : ℕ) (items : List (List UInt8)) :
    off + (encodeArray items).length =
      off + 32 + 32 * items.length + (items.map encodeBytes).flatten.length := by
  rw [encodeArray, List.length_append, List.length_append, length_beBytes, length_table,
    List.length_map]
  omega

theorem readArrayRegion_of_at (hd : d.length < 2 ^ 64) {items : List (List UInt8)} {off : ℕ}
    (h : At d off (encodeArray items)) :
    readArrayRegion d off = some ⟨off, off + 32 + 32 * items.length,
      off + (encodeArray items).length, placed spanAt (off + 32 + 32 * items.length) items⟩ := by
  have hread : ∀ off value, At d off (encodeBytes value) →
      readSpan d off = some (spanAt off value) := fun off value => readSpan_of_at hd
  simp only [readArrayRegion, readNat_count hd h, readArray_of_at hd hread h, stop_placed,
    Option.bind_eq_bind, Option.bind_some, Option.pure_def, add_length_encodeArray]

theorem readRegion_of_at (hd : d.length < 2 ^ 64) {arg : Arg} {pos cursor : ℕ}
    (hhead : At d pos (arg.head cursor)) (htail : At d cursor arg.tail) :
    readRegion d pos arg.kind = some (arg.regions cursor) := by
  have hcursor : cursor < 256 ^ 32 := by
    have hle := htail.1
    apply lt_of_le_length hd
    omega
  cases arg with
  | word value => rfl
  | bytes value =>
    have hoff : readNat d pos = some cursor := readNat_of_at hhead hcursor
    have hspan := readSpan_of_at hd htail
    simp only [readRegion, Arg.kind, hoff, hspan, Option.bind_eq_bind, Option.bind_some,
      Option.pure_def]
    rfl
  | bytesArray items =>
    have hoff : readNat d pos = some cursor := readNat_of_at hhead hcursor
    have hregion := readArrayRegion_of_at hd htail
    simp only [readRegion, Arg.kind, hoff, hregion, Option.bind_eq_bind, Option.bind_some,
      Option.pure_def]
    rfl

theorem readRegions_of_at (hd : d.length < 2 ^ 64) {args : List Arg} {pos cursor : ℕ}
    (hheads : At d pos (heads cursor args)) (htails : At d cursor (args.flatMap Arg.tail)) :
    readRegions d pos (args.map Arg.kind) = some (regionsFrom cursor args) := by
  induction args generalizing pos cursor with
  | nil => rfl
  | cons arg args ih =>
    rw [heads] at hheads
    rw [List.flatMap_cons] at htails
    have hheads' := hheads.right
    rw [length_head] at hheads'
    have harg := readRegion_of_at hd hheads.left htails.left
    have hargs := ih hheads' htails.right
    simp only [List.map_cons, readRegions, harg, hargs, Option.bind_eq_bind, Option.bind_some,
      Option.pure_def]
    rfl

theorem consecutive_region (cursor : ℕ) (arg : Arg) :
    Consecutive cursor ((arg.regions cursor).map Region.bounds) (cursor + arg.tail.length) := by
  cases arg with
  | word value => rfl
  | bytes value => exact ⟨rfl, Nat.le_add_right _ _, rfl⟩
  | bytesArray items => exact ⟨rfl, Nat.le_add_right _ _, rfl⟩

theorem consecutive_regions (cursor : ℕ) (args : List Arg) :
    Consecutive cursor ((regionsFrom cursor args).map Region.bounds)
      (cursor + (args.flatMap Arg.tail).length) := by
  induction args generalizing cursor with
  | nil => rfl
  | cons arg args ih =>
    rw [regionsFrom, List.map_append, List.flatMap_cons, List.length_append, ← Nat.add_assoc]
    exact (consecutive_region cursor arg).append (ih _)

theorem consecutive_values {cursor : ℕ} {arg : Arg} :
    ∀ r ∈ arg.regions cursor, Consecutive r.values (r.spans.map Span.bounds) r.stop := by
  intro r hr
  cases arg with
  | word value => cases hr
  | bytes value =>
    obtain rfl := List.mem_singleton.mp hr
    exact ⟨rfl, Nat.le_add_right _ _, rfl⟩
  | bytesArray items =>
    obtain rfl := List.mem_singleton.mp hr
    have hplaced := consecutive_placed (cursor + 32 + 32 * items.length) items
    rwa [← add_length_encodeArray] at hplaced

/-- A span of the elements is where one of them stands. -/
theorem padding_of_placed {items : List (List UInt8)} {start : ℕ}
    (h : At d start (items.map encodeBytes).flatten) :
    ∀ s ∈ placed spanAt start items, ∀ i, s.payloadEnd ≤ i → i < s.stop → d[i]? = some 0 := by
  induction items generalizing start with
  | nil => simp [placed]
  | cons item items ih =>
    rw [List.map_cons, List.flatten_cons] at h
    intro s hs i hlo hhi
    rcases List.mem_cons.mp hs with rfl | hs
    · exact padding_of_at h.left hlo hhi
    · exact ih h.right s hs i hlo hhi

theorem padding_of_region {arg : Arg} {cursor : ℕ} (h : At d cursor arg.tail) :
    ∀ r ∈ arg.regions cursor, ∀ s ∈ r.spans, ∀ i,
      s.payloadEnd ≤ i → i < s.stop → d[i]? = some 0 := by
  intro r hr s hs i hlo hhi
  cases arg with
  | word value => cases hr
  | bytes value =>
    obtain rfl := List.mem_singleton.mp hr
    obtain rfl := List.mem_singleton.mp hs
    exact padding_of_at h hlo hhi
  | bytesArray items =>
    obtain rfl := List.mem_singleton.mp hr
    have hitems := At.right (At.right h)
    rw [length_beBytes, length_table, List.length_map] at hitems
    exact padding_of_placed hitems s hs i hlo hhi

theorem mem_regionsFrom {args : List Arg} {cursor : ℕ} (h : At d cursor (args.flatMap Arg.tail)) :
    ∀ r ∈ regionsFrom cursor args, ∃ (arg : Arg) (off : ℕ), r ∈ arg.regions off ∧
      At d off arg.tail := by
  induction args generalizing cursor with
  | nil => simp [regionsFrom]
  | cons arg args ih =>
    rw [List.flatMap_cons] at h
    intro r hr
    rcases List.mem_append.mp hr with hr | hr
    · exact ⟨arg, cursor, hr, h.left⟩
    · exact ih h.right r hr

/-- The regions found by following the offsets are laid out as they should be. -/
theorem laid_encode {args : List Arg} (h : (encode args).length < 2 ^ 64) :
    ∃ rs, regions (args.map Arg.kind) (encode args) = some rs ∧
      Laid (encode args) (32 * args.length) rs := by
  have htails := tails_at_encode args
  refine ⟨_, readRegions_of_at h (heads_at_encode args) htails, ?_, ?_, ?_⟩
  · have hlength : (encode args).length =
        32 * args.length + (args.flatMap Arg.tail).length := by
      rw [encode, List.length_append, length_heads]
    rw [hlength]
    exact (consecutive_regions (32 * args.length) args).tiles
  · intro r hr
    obtain ⟨arg, off, hregion, -⟩ := mem_regionsFrom htails r hr
    exact (consecutive_values r hregion).tiles
  · intro r hr
    obtain ⟨arg, off, hregion, htail⟩ := mem_regionsFrom htails r hr
    exact padding_of_region htail r hregion

end

end Abi
