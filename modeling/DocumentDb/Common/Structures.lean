import DocumentDb.Storage.PageCodec
import Mathlib.Data.List.TakeDrop
import Mathlib.Data.List.TakeWhile

namespace DocumentDb

open Bytes Storage

/-- `node_id_t` has the fields of `item_index_t`. -/
abbrev NodeId := ItemIndex

inductive ValueType
  | unknown
  | int32
  | double
  | string
  | bool
  | fileInfo
  deriving DecidableEq, Repr

/-- The size of the union in `NodeValue`: a length of four bytes and 256 characters. -/
def sizeofUnion : Nat := 260

/-- The union is kept as the bytes it consists of. -/
structure NodeValue where
  type : ValueType
  union : List UInt8
  length_union : union.length = sizeofUnion
  deriving DecidableEq, Repr

structure Node where
  id : NodeId
  parentId : NodeId
  value : NodeValue
  deriving DecidableEq, Repr

def sizeofNode : Nat := 277

section Strings

/-- The bytes of a C string that starts in a block. -/
def cString (bs : List UInt8) : List UInt8 := bs.takeWhile (· != 0)

theorem cString_append_zero {s : List UInt8} (hs : 0 ∉ s) (bs : List UInt8) :
    cString (s ++ 0 :: bs) = s := by
  rw [cString]
  rw [List.takeWhile_append_of_pos, List.takeWhile_cons_of_neg (by simp), List.append_nil]
  intro b hb
  simp only [bne_iff_ne, ne_eq]
  rintro rfl
  exact hs hb

theorem zero_notMem_cString (bs : List UInt8) : 0 ∉ cString bs := by
  intro h
  have := List.mem_takeWhile_imp h
  simp at this

theorem cString_eq_self {s : List UInt8} (hs : 0 ∉ s) : cString s = s := by
  refine List.takeWhile_eq_self_iff.mpr fun b hb => ?_
  simp only [bne_iff_ne, ne_eq]
  rintro rfl
  exact hs hb

/-- `string_value.value` as a C string. Without a terminator among its 256
characters a reader runs out of the array. -/
def NodeValue.stringValue (self : NodeValue) : Except Fault (List UInt8) :=
  if 0 ∈ slice self.union 4 256 then .ok (cString (slice self.union 4 256))
  else .error (.undefined "string without terminator")

def nodeValueOfBytes (type : ValueType) (bytes : List UInt8) : NodeValue where
  type := type
  union := bytes.takeD sizeofUnion 0
  length_union := List.takeD_length _ _ _

def nodeValueStringNew (string : List UInt8) : Except Fault NodeValue :=
  if 256 ≤ (cString string).length then
    .error (.assertion "strlen(string) < 256")
  else
    .ok (nodeValueOfBytes .string (encodeUInt32 (cString string).length ++ cString string))

end Strings

section Memory

def encodeValueType : ValueType → UInt8
  | .unknown => 0
  | .int32 => 1
  | .double => 2
  | .string => 3
  | .bool => 4
  | .fileInfo => 5

/-- A byte that names no member behaves as `UNKNOWN` in every comparison. -/
def decodeValueType (b : UInt8) : ValueType :=
  if b = 1 then .int32
  else if b = 2 then .double
  else if b = 3 then .string
  else if b = 4 then .bool
  else if b = 5 then .fileInfo
  else .unknown

def encodeNode (self : Node) : List UInt8 :=
  encodeItemIndex self.id ++ (encodeItemIndex self.parentId ++
    (encodeValueType self.value.type :: self.value.union))

def decodeNode (bs : List UInt8) : Node where
  id := ⟨decodeInt32 (slice bs 0 4), decodeInt32 (slice bs 4 4)⟩
  parentId := ⟨decodeInt32 (slice bs 8 4), decodeInt32 (slice bs 12 4)⟩
  value := nodeValueOfBytes (decodeValueType ((bs.drop 16).headD 0)) (bs.drop 17)

@[simp] theorem length_encodeNode (self : Node) : (encodeNode self).length = sizeofNode := by
  simp [encodeNode, encodeItemIndex, self.value.length_union, sizeofUnion, sizeofNode]

theorem decodeValueType_encode (type : ValueType) : decodeValueType (encodeValueType type) = type := by
  cases type <;> decide

theorem nodeValueOfBytes_union (self : NodeValue) : nodeValueOfBytes self.type self.union = self := by
  obtain ⟨type, union, hlen⟩ := self
  have hunion : union.takeD sizeofUnion 0 = union := by
    rw [List.takeD_eq_take 0 hlen.ge, ← hlen, List.take_length]
  simp only [nodeValueOfBytes, hunion]

theorem decodeNode_encode {node : Node} (hpage : IsInt32 node.parentId.pageId)
    (hitem : IsInt32 node.parentId.itemId) :
    (decodeNode (encodeNode node)).parentId = node.parentId ∧
      (decodeNode (encodeNode node)).value = node.value := by
  obtain ⟨id, ⟨pageId, itemId⟩, value⟩ := node
  have hp := hpage.decode_encode
  have hi := hitem.decode_encode
  simp only at hp hi
  simp only [decodeNode, encodeNode, encodeItemIndex, slice]
  simp [List.drop_append, List.drop_of_length_le, hp, hi, decodeValueType_encode,
    nodeValueOfBytes_union]

end Memory

end DocumentDb
