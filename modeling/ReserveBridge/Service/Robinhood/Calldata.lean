-- SUMMARY: Calldata under construction: arguments pushed one after another, offsets resolved at the end, and that the result is the reference encoding of what was pushed.
import ReserveBridge.Lib.Abi
import ReserveBridge.Service.Robinhood.Auth

/-!
# Calldata

The encoder of `service/src/evm/abi.rs`. Lengths are those of values in memory;
the cursors are `usize`, and additions that overflow stop the program, which is
`none`.
-/

namespace Service.Robinhood
open Bytes Auth

/-! ## Words -/

/-- One 32-byte ABI word. -/
abbrev Word := Bytes32

def wordU128 (value : ℕ) : Word := ⟨(encodeUint128 value).toArray, length_encodeUint128 value⟩

@[simp] theorem toList_wordU128 (value : ℕ) : (wordU128 value).toList = encodeUint128 value := by
  simp [wordU128]

/-- A result of `usize` arithmetic. -/
def usize (n : ℕ) : Option ℕ := if n < 2 ^ 64 then some n else none

def divCeil (n d : ℕ) : ℕ := (n + d - 1) / d

/-! ## Dynamic arguments -/

/-- `Vec::resize`. -/
def resize (bytes : List UInt8) (size : ℕ) (fill : UInt8) : List UInt8 :=
  bytes.take size ++ List.replicate (size - bytes.length) fill

def encodeBytesValue (bytes : List UInt8) : Option (List UInt8) := do
  let padded ← usize (divCeil bytes.length 32 * 32)
  let size ← usize (32 + padded)
  pure (resize ((wordU128 bytes.length).toList ++ bytes) size 0)

inductive Dynamic
  | bytes (value : List UInt8)
  | bytesArray (items : List (List UInt8))

/-- The loops over dynamic values: the offset of each, and its encoding. -/
def layOut {α : Type} (encode : α → Option (List UInt8)) (cursor : ℕ) :
    List α → Option (List (Word × List UInt8))
  | [] => some []
  | value :: values => do
    let encoded ← encode value
    let next ← usize (cursor + encoded.length)
    let rest ← layOut encode next values
    pure ((wordU128 cursor, encoded) :: rest)

/-- `Dynamic::encode`. -/
def Dynamic.encode : Dynamic → Option (List UInt8)
  | .bytes value => encodeBytesValue value
  | .bytesArray items => do
    let cursor ← usize (items.length * 32)
    let placed ← layOut encodeBytesValue cursor items
    pure ((wordU128 items.length).toList ++
      (placed.flatMap fun p => p.1.toList) ++ placed.flatMap Prod.snd)

/-! ## Calls -/

/-- A slot of the head is empty until the offset of its argument is known. -/
structure Calldata where
  selector : Vector UInt8 4
  head : List (Option Word)
  dynamics : List Dynamic

def selector (keccak256 : Keccak) (signature : String) : Vector UInt8 4 :=
  (keccak256 (textBytes signature)).take 4

namespace Calldata

/-- `Calldata::new`. -/
def ofSignature (keccak256 : Keccak) (signature : String) : Calldata where
  selector := Robinhood.selector keccak256 signature
  head := []
  dynamics := []

def word (c : Calldata) (word : Word) : Calldata := { c with head := c.head ++ [some word] }

def bytesArray (c : Calldata) (items : List (List UInt8)) : Calldata :=
  { c with head := c.head ++ [none], dynamics := c.dynamics ++ [.bytesArray items] }

def bytes (c : Calldata) (value : List UInt8) : Calldata :=
  { c with head := c.head ++ [none], dynamics := c.dynamics ++ [.bytes value] }

/-- The loop over the slots. It indexes the offsets in the order of the empty ones. -/
def fillHead : List (Option Word) → List Word → Option (List UInt8)
  | [], _ => some []
  | some word :: slots, offsets => (word.toList ++ ·) <$> fillHead slots offsets
  | none :: _, [] => none
  | none :: slots, offset :: offsets => (offset.toList ++ ·) <$> fillHead slots offsets

def finish (c : Calldata) : Option (List UInt8) := do
  let headLen ← usize (c.head.length * 32)
  let placed ← layOut Dynamic.encode headLen c.dynamics
  let head ← fillHead c.head (placed.map Prod.fst)
  pure (c.selector.toList ++ head ++ placed.flatMap Prod.snd)

/-- One call of a builder. -/
def push (c : Calldata) : Abi.Arg → Calldata
  | .word value => c.word value
  | .bytes value => c.bytes value
  | .bytesArray items => c.bytesArray items

def pushAll (c : Calldata) (args : List Abi.Arg) : Calldata := args.foldl push c

end Calldata

/-! ## The encoding is the reference encoding -/

theorem usize_of_lt {n : ℕ} (h : n < 2 ^ 64) : usize n = some n := if_pos h

theorem encodeUint128_of_lt {n : ℕ} (h : n < 2 ^ 64) : encodeUint128 n = beBytes 32 n := by
  apply encodeUint128_eq
  omega

theorem encodeBytesValue_eq {bytes : List UInt8} (h : (Abi.encodeBytes bytes).length < 2 ^ 64) :
    encodeBytesValue bytes = some (Abi.encodeBytes bytes) := by
  have hle := Abi.le_ceil32 bytes.length
  have hceil : divCeil bytes.length 32 * 32 = Abi.ceil32 bytes.length := rfl
  rw [Abi.length_encodeBytes] at h
  have hlength : ((wordU128 bytes.length).toList ++ bytes).length = 32 + bytes.length := by
    rw [List.length_append, Vector.length_toList]
  rw [encodeBytesValue, hceil, usize_of_lt (by omega), Option.bind_eq_bind, Option.bind_some,
    usize_of_lt h, Option.bind_some, Option.pure_def, resize, List.take_of_length_le (by omega),
    hlength, Nat.add_sub_add_left, toList_wordU128, encodeUint128_of_lt (by omega),
    List.append_assoc, Abi.encodeBytes]

/-- The offsets of values that follow one another. -/
def starts {α : Type} (enc : α → List UInt8) (cursor : ℕ) : List α → List Word
  | [] => []
  | value :: values => wordU128 cursor :: starts enc (cursor + (enc value).length) values

/-- Where no sum overflows, the loop lays the values out one after another. -/
theorem layOut_eq {α : Type} {encode : α → Option (List UInt8)} {enc : α → List UInt8}
    (hencode : ∀ value, (enc value).length < 2 ^ 64 → encode value = some (enc value))
    {values : List α} {cursor : ℕ} (h : cursor + (values.flatMap enc).length < 2 ^ 64) :
    layOut encode cursor values = some ((starts enc cursor values).zip (values.map enc)) := by
  induction values generalizing cursor with
  | nil => rfl
  | cons value values ih =>
    rw [List.flatMap_cons, List.length_append] at h
    have hvalue : encode value = some (enc value) := by
      apply hencode
      omega
    have hnext : usize (cursor + (enc value).length) = some (cursor + (enc value).length) := by
      apply usize_of_lt
      omega
    have hroom : cursor + (enc value).length + (values.flatMap enc).length < 2 ^ 64 := by omega
    have hrest := ih hroom
    simp only [layOut, hvalue, hnext, hrest, Option.bind_eq_bind, Option.bind_some,
      Option.pure_def]
    rfl

@[simp] theorem length_starts {α : Type} (enc : α → List UInt8) (cursor : ℕ) (values : List α) :
    (starts enc cursor values).length = values.length := by
  induction values generalizing cursor with
  | nil => rfl
  | cons value values ih => rw [starts, List.length_cons, ih, List.length_cons]

theorem fst_zip_starts {α : Type} (enc : α → List UInt8) (cursor : ℕ) (values : List α) :
    ((starts enc cursor values).zip (values.map enc)).map Prod.fst = starts enc cursor values := by
  rw [List.map_fst_zip]
  rw [length_starts, List.length_map]

theorem snd_zip_starts {α : Type} (enc : α → List UInt8) (cursor : ℕ) (values : List α) :
    ((starts enc cursor values).zip (values.map enc)).flatMap Prod.snd = values.flatMap enc := by
  rw [List.flatMap_def, List.map_snd_zip, ← List.flatMap_def]
  rw [length_starts, List.length_map]

theorem flatMap_starts {α : Type} {enc : α → List UInt8} {values : List α} {cursor : ℕ}
    (h : cursor + (values.flatMap enc).length < 2 ^ 64) :
    (starts enc cursor values).flatMap (fun offset => offset.toList) =
      Abi.table cursor (values.map enc) := by
  induction values generalizing cursor with
  | nil => rfl
  | cons value values ih =>
    rw [List.flatMap_cons, List.length_append] at h
    rw [starts, List.flatMap_cons, toList_wordU128, encodeUint128_of_lt (by omega),
      ih (by omega), List.map_cons, Abi.table]

/-- The reference encoding of a dynamic argument. -/
def Dynamic.layout : Dynamic → List UInt8
  | .bytes value => Abi.encodeBytes value
  | .bytesArray items => Abi.encodeArray items

theorem Dynamic.encode_eq {dynamic : Dynamic} (h : dynamic.layout.length < 2 ^ 64) :
    dynamic.encode = some dynamic.layout := by
  cases dynamic with
  | bytes value => exact encodeBytesValue_eq h
  | bytesArray items =>
    simp only [layout, Abi.encodeArray, List.length_append, length_beBytes, Abi.length_table,
      List.length_map] at h
    rw [← List.flatMap_def] at h
    have hcursor : usize (items.length * 32) = some (32 * items.length) := by
      rw [Nat.mul_comm]
      apply usize_of_lt
      omega
    have hfits : 32 * items.length + (items.flatMap Abi.encodeBytes).length < 2 ^ 64 := by omega
    have hplaced := layOut_eq (fun value => encodeBytesValue_eq) hfits
    simp only [encode, hcursor, hplaced, Option.bind_eq_bind, Option.bind_some, Option.pure_def]
    rw [snd_zip_starts, ← List.flatMap_map Prod.fst fun offset : Word => offset.toList,
      fst_zip_starts, flatMap_starts hfits, toList_wordU128, encodeUint128_of_lt (by omega),
      List.append_assoc, layout, Abi.encodeArray, ← List.flatMap_def]

/-- The slot of an argument in the head. -/
def slot : Abi.Arg → Option Word
  | .word value => some value
  | .bytes _ => none
  | .bytesArray _ => none

def dynamic : Abi.Arg → Option Dynamic
  | .word _ => none
  | .bytes value => some (.bytes value)
  | .bytesArray items => some (.bytesArray items)

theorem flatMap_dynamic (args : List Abi.Arg) :
    (args.filterMap dynamic).flatMap Dynamic.layout = args.flatMap Abi.Arg.tail := by
  induction args with
  | nil => rfl
  | cons arg args ih =>
    rw [List.flatMap_cons, ← ih]
    cases arg <;> rfl

namespace Calldata

theorem pushAll_eq (c : Calldata) (args : List Abi.Arg) :
    c.pushAll args = ⟨c.selector, c.head ++ args.map slot,
      c.dynamics ++ args.filterMap dynamic⟩ := by
  induction args generalizing c with
  | nil => simp [pushAll]
  | cons arg args ih =>
    rw [pushAll, List.foldl_cons, ← pushAll, ih]
    cases arg <;> simp [push, word, bytes, bytesArray, slot, dynamic, List.filterMap_cons]

/-- The empty slots take the offsets of the dynamic arguments, in order. -/
theorem fillHead_eq {args : List Abi.Arg} {cursor : ℕ}
    (h : cursor + (args.flatMap Abi.Arg.tail).length < 2 ^ 64) :
    fillHead (args.map slot) (starts Dynamic.layout cursor (args.filterMap dynamic)) =
      some (Abi.heads cursor args) := by
  induction args generalizing cursor with
  | nil => rfl
  | cons arg args ih =>
    rw [List.flatMap_cons, List.length_append] at h
    have hroom : cursor + arg.tail.length + (args.flatMap Abi.Arg.tail).length < 2 ^ 64 := by
      omega
    have hrest := ih hroom
    have hcursor : (wordU128 cursor).toList = beBytes 32 cursor := by
      rw [toList_wordU128]
      apply encodeUint128_of_lt
      omega
    cases arg with
    | word value =>
      exact congrArg (Option.map (value.toList ++ ·)) hrest
    | bytes value =>
      rw [List.map_cons, List.filterMap_cons, slot, dynamic, starts, fillHead, hcursor]
      exact congrArg (Option.map (beBytes 32 cursor ++ ·)) hrest
    | bytesArray items =>
      rw [List.map_cons, List.filterMap_cons, slot, dynamic, starts, fillHead, hcursor]
      exact congrArg (Option.map (beBytes 32 cursor ++ ·)) hrest

/-- What is built is the selector and the reference encoding of the arguments. -/
theorem finish_eq {keccak256 : Keccak} {signature : String} {args : List Abi.Arg}
    (h : (Abi.encode args).length < 2 ^ 64) :
    ((ofSignature keccak256 signature).pushAll args).finish =
      some ((Robinhood.selector keccak256 signature).toList ++ Abi.encode args) := by
  rw [Abi.encode, List.length_append, Abi.length_heads] at h
  have hhead : usize ((args.map slot).length * 32) = some (32 * args.length) := by
    rw [List.length_map, Nat.mul_comm]
    apply usize_of_lt
    omega
  have hroom : 32 * args.length +
      ((args.filterMap dynamic).flatMap Dynamic.layout).length < 2 ^ 64 := by
    rwa [flatMap_dynamic]
  have hplaced := layOut_eq (fun d => Dynamic.encode_eq) hroom
  rw [pushAll_eq, finish]
  simp only [ofSignature, List.nil_append, hhead, hplaced, Option.bind_eq_bind, Option.bind_some,
    Option.pure_def, fst_zip_starts, snd_zip_starts, fillHead_eq h, flatMap_dynamic]
  rw [List.append_assoc, Abi.encode]

end Calldata

/-- The pushed arguments are read back by following the offsets, and what the offsets
lead to tiles the tail, with zeros where there is no data. -/
theorem calldata_follows_abi (keccak256 : Keccak) (signature : String) (args : List Abi.Arg)
    (h : 4 + (Abi.encode args).length < 2 ^ 64) :
    ∃ block regions,
      ((Calldata.ofSignature keccak256 signature).pushAll args).finish =
        some ((selector keccak256 signature).toList ++ block) ∧
      Abi.decode (args.map Abi.Arg.kind) block = some args ∧
      Abi.regions (args.map Abi.Arg.kind) block = some regions ∧
      Abi.Laid block (32 * args.length) regions := by
  have hblock : (Abi.encode args).length < 2 ^ 64 := by omega
  obtain ⟨regions, hregions, hlaid⟩ := Abi.laid_encode hblock
  exact ⟨Abi.encode args, regions, Calldata.finish_eq hblock, Abi.decode_encode hblock, hregions,
    hlaid⟩

/-- A call with two dynamic arguments around a static one. -/
def sampleArgs : List Abi.Arg :=
  [.bytes [1, 2, 3], .word (wordU128 7), .bytesArray [[], List.replicate 33 0xff]]

theorem calldata_follows_abi_sample :
    4 + (Abi.encode sampleArgs).length < 2 ^ 64 ∧
      ∃ block regions,
        ((Calldata.ofSignature (fun _ => Vector.replicate 32 9) "f(bytes,uint256,bytes[])").pushAll
          sampleArgs).finish =
          some ((selector (fun _ => Vector.replicate 32 9) "f(bytes,uint256,bytes[])").toList ++
            block) ∧
        Abi.decode (sampleArgs.map Abi.Arg.kind) block = some sampleArgs ∧
        Abi.regions (sampleArgs.map Abi.Arg.kind) block = some regions ∧
        Abi.Laid block (32 * sampleArgs.length) regions :=
  ⟨by decide +kernel, calldata_follows_abi _ _ sampleArgs (by decide +kernel)⟩

end Service.Robinhood
