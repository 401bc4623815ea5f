import CommonTools.Library.Numerals

namespace Records
open Numerals
open List hiding after count lookup

structure Codec (α : Type) where
  size : Nat
  encode : α → List UInt8
  decode : List UInt8 → α
  length_encode : ∀ value, (encode value).length = size
  decode_encode : ∀ value, decode (encode value) = value

structure Reading where
  bytes : List UInt8
  pos : Nat
  deriving DecidableEq

def Reading.rest (file : Reading) : List UInt8 := file.bytes.drop file.pos

-- Relative to the position. Only a position before the start is refused.
def Reading.seek (file : Reading) (offset : Int) : Option Reading :=
  if 0 ≤ file.pos + offset then some ⟨file.bytes,(file.pos + offset).toNat⟩ else none

theorem rest_between : (⟨before ++ after,before.length⟩ : Reading).rest = after := drop_left

theorem rest_after {file : Reading} {taken after : List UInt8} (rest : file.rest = taken ++ after) :
    (⟨file.bytes,file.pos + taken.length⟩ : Reading).rest = after := by
  rw [Reading.rest,← drop_drop]
  exact (congrArg (List.drop taken.length) rest).trans drop_left

namespace Codec

def word : Codec (BitVec 32) where
  size := 4
  encode x := little 4 x.toNat
  decode bytes := BitVec.ofNat 32 (unlittle bytes)
  length_encode _ := little_length _ _
  decode_encode x := word_little (by decide)

def array (width : Nat) : Codec {bytes : List UInt8 // bytes.length = width} where
  size := width
  encode := Subtype.val
  decode bytes := ⟨(bytes ++ List.replicate width 0).take width,by simp⟩
  length_encode := Subtype.property
  decode_encode field := Subtype.ext (take_left' field.property)

variable {α β : Type}

def pair (left : Codec α) (right : Codec β) : Codec (α × β) where
  size := left.size + right.size
  encode value := left.encode value.1 ++ right.encode value.2
  decode bytes := (left.decode (bytes.take left.size),right.decode (bytes.drop left.size))
  length_encode value := by rw [length_append,left.length_encode,right.length_encode]
  decode_encode value := by
    rw [take_left' (left.length_encode value.1),drop_left' (left.length_encode value.1),left.decode_encode,
      right.decode_encode]

def via (codec : Codec α) (fields : β → α) (make : α → β) (same : ∀ value, make (fields value) = value) : Codec β where
  size := codec.size
  encode value := codec.encode (fields value)
  decode bytes := make (codec.decode bytes)
  length_encode value := codec.length_encode _
  decode_encode value := by rw [codec.decode_encode,same]

variable (codec : Codec α)

def encodeAll (values : List α) : List UInt8 := values.flatMap codec.encode

def decodeAll : Nat → List UInt8 → List α
  | 0,_ => []
  | count + 1,bytes => codec.decode (bytes.take codec.size) :: decodeAll count (bytes.drop codec.size)

def fread (count : Nat) (file : Reading) : Option (List α × Reading) :=
  if count * codec.size ≤ file.rest.length then
    some (codec.decodeAll count file.rest,⟨file.bytes,file.pos + count * codec.size⟩)
  else none

def freadOne (file : Reading) : Option (α × Reading) :=
  if codec.size ≤ file.rest.length then
    some (codec.decode (file.rest.take codec.size),⟨file.bytes,file.pos + codec.size⟩)
  else none

theorem length_encodeAll (values : List α) : (codec.encodeAll values).length = values.length * codec.size := by
  induction values with
  | nil => rw [length_nil,Nat.zero_mul]; rfl
  | cons value values ih =>
    have parts : codec.encodeAll (value :: values) = codec.encode value ++ codec.encodeAll values := rfl
    rw [parts,length_append,ih,codec.length_encode,length_cons,Nat.succ_mul,Nat.add_comm]

theorem encodeAll_append :
    codec.encodeAll (left ++ right) = codec.encodeAll left ++ codec.encodeAll right := flatMap_append

theorem decodeAll_encoded : codec.decodeAll values.length (codec.encodeAll values ++ after) = values := by
  induction values with
  | nil => rfl
  | cons value values ih =>
    have parts : codec.encodeAll (value :: values) ++ after = codec.encode value ++ (codec.encodeAll values ++ after) := append_assoc _ _ _
    rw [parts,length_cons,decodeAll,take_left' (codec.length_encode value),
      drop_left' (codec.length_encode value),codec.decode_encode,ih]

theorem fread_encoded (rest : file.rest = codec.encodeAll values ++ after) :
    codec.fread values.length file = some (values,⟨file.bytes,file.pos + values.length * codec.size⟩) := by
  have enough : values.length * codec.size ≤ file.rest.length := by
    rw [rest,length_append,length_encodeAll]
    omega
  rw [fread,if_pos enough,rest,decodeAll_encoded]

theorem freadOne_encoded (rest : file.rest = codec.encode value ++ after) :
    codec.freadOne file = some (value,⟨file.bytes,file.pos + codec.size⟩) := by
  have enough : codec.size ≤ file.rest.length := by
    rw [rest,length_append,codec.length_encode]
    omega
  rw [freadOne,if_pos enough,rest,take_left' (codec.length_encode value),codec.decode_encode]

theorem fread_slice (before after : List UInt8) (inside : skip + count ≤ values.length) :
    codec.fread count ⟨before ++ codec.encodeAll values ++ after,before.length + skip * codec.size⟩ = some ((values.drop skip).take count,
        ⟨before ++ codec.encodeAll values ++ after,before.length + skip * codec.size + count * codec.size⟩) := by
  have counted : ((values.drop skip).take count).length = count := by
    rw [length_take,length_drop]
    omega
  have split : values = values.take skip ++ ((values.drop skip).take count ++ (values.drop skip).drop count) := by
    rw [take_append_drop,take_append_drop]
  have skipped : (before ++ codec.encodeAll (values.take skip)).length = before.length + skip * codec.size := by
    rw [length_append,length_encodeAll,length_take,Nat.min_eq_left (by omega)]
  have bytes : before ++ codec.encodeAll values ++ after =
      (before ++ codec.encodeAll (values.take skip)) ++ (codec.encodeAll ((values.drop skip).take count) ++
        (codec.encodeAll ((values.drop skip).drop count) ++ after)) := by
    conv_lhs => rw [split]
    rw [encodeAll_append,encodeAll_append]
    simp only [append_assoc]
  have rest : (⟨before ++ codec.encodeAll values ++ after,before.length + skip * codec.size⟩ : Reading).rest =
      codec.encodeAll ((values.drop skip).take count) ++ (codec.encodeAll ((values.drop skip).drop count) ++ after) := by
    rw [bytes,← skipped]
    exact rest_between
  have read := codec.fread_encoded rest
  rwa [counted] at read

end Codec

end Records
