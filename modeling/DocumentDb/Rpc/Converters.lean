import DocumentDb.Documents.Document

namespace DocumentDb.Rpc

open Storage Bytes Documents

section Messages

structure RpcNodeId where
  pageId : UInt32
  itemId : UInt32
  deriving DecidableEq, Repr

/-- The `oneof` of a node value. A double is kept as its bits, and of a file info only
that it is set. -/
inductive RpcNodeValueCase
  | notSet
  | intValue (value : Int32)
  | doubleValue (bits : UInt64)
  | stringValue (value : List UInt8)
  | boolValue (value : Bool)
  | fileInfoValue
  deriving DecidableEq

/-- The types of the message have the members of `ValueType`. -/
structure RpcNodeValue where
  type : ValueType
  value : RpcNodeValueCase
  deriving DecidableEq

/-- Parts of a message that are messages themselves may be absent. -/
structure RpcNode where
  id : Option RpcNodeId
  parentId : Option RpcNodeId
  value : Option RpcNodeValue
  deriving DecidableEq

structure RpcNodes where
  nodes : List RpcNode
  deriving DecidableEq

structure RpcCreateNodeRequest where
  value : Option RpcNodeValue
  parentId : Option RpcNodeId

structure RpcUpdateNodeRequest where
  id : Option RpcNodeId
  parentId : Option RpcNodeId
  value : Option RpcNodeValue

structure RpcDeleteNodeRequest where
  id : Option RpcNodeId

structure RpcDeletedNodes where
  count : Int

inductive RpcFilterType
  | unknownType
  | greater
  | less
  | equal
  | notEqual
  | all
  | fieldName
  deriving DecidableEq

inductive RpcFilterArgument
  | notSet
  | intArgument (value : Int32)
  | doubleArgument (bits : UInt64)
  | stringArgument (value : List UInt8)
  | boolArgument (value : Bool)
  deriving DecidableEq

structure RpcFilter where
  type : RpcFilterType
  argument : RpcFilterArgument
  name : Option (List UInt8)
  deriving DecidableEq

structure RpcFilterChain where
  filters : List RpcFilter

end Messages

section Converters

def assertArgNotNull {α : Type} (arg : Option α) (name : String) : Except Fault α :=
  match arg with
  | some a => .ok a
  | none => .error (.exit ("NULL pointer in arguments. argument: " ++ name))

/-- The member of a part that a converter reads without a test. -/
def derefArg {α : Type} (arg : Option α) : Except Fault α :=
  match arg with
  | some a => .ok a
  | none => .error (.undefined "null pointer")

def convertFromRpcNodeId (nodeId : Option RpcNodeId) : Except Fault NodeId := do
  let nodeId ← assertArgNotNull nodeId "node_id"
  return ⟨toInt32 nodeId.pageId.toNat, toInt32 nodeId.itemId.toNat⟩

def convertNodeIdToRpc (nodeId : NodeId) : RpcNodeId where
  pageId := UInt32.ofNat (toUInt32 nodeId.pageId)
  itemId := UInt32.ofNat (toUInt32 nodeId.itemId)

/-- The union of a message whose `oneof` is not set is zero. -/
def intValue : RpcNodeValueCase → Except Fault Int32
  | .intValue value => .ok value
  | .notSet => .ok 0
  | _ => .error (.undefined "int_value of another member")

def doubleValue : RpcNodeValueCase → Except Fault UInt64
  | .doubleValue bits => .ok bits
  | .notSet => .ok 0
  | _ => .error (.undefined "double_value of another member")

def stringValue : RpcNodeValueCase → Except Fault (List UInt8)
  | .stringValue value => .ok value
  | .notSet => .error (.undefined "null string")
  | _ => .error (.undefined "string_value of another member")

def boolValue : RpcNodeValueCase → Except Fault Bool
  | .boolValue value => .ok value
  | .notSet => .ok false
  | _ => .error (.undefined "bool_value of another member")

def convertFromRpcNodeValue (value : RpcNodeValue) : Except Fault NodeValue :=
  match value.type with
  | .int32 => do return nodeValueOfBytes .int32 (encodeInt32 (← intValue value.value).toInt)
  | .double => do return nodeValueOfBytes .double (encodeLE 8 (← doubleValue value.value).toNat)
  | .string => do nodeValueStringNew (← stringValue value.value)
  | .bool => do return nodeValueOfBytes .bool [if ← boolValue value.value then 1 else 0]
  | .unknown | .fileInfo => .error (.exit "Unknown type")

/-- The bytes that are allocated for a copy of a string. -/
def stringCopySize (value : NodeValue) : Nat := 8 * toUInt32 (decodeLE (slice value.union 0 4) + 1 : Nat)

def convertToRpcNodeValue (value : NodeValue) : Except Fault RpcNodeValue :=
  match value.type with
  | .int32 => return ⟨.int32, .intValue (Int32.ofInt (decodeInt32 (slice value.union 0 4)))⟩
  | .double => return ⟨.double, .doubleValue (UInt64.ofNat (decodeLE (slice value.union 0 8)))⟩
  | .string => do
    let string ← value.stringValue
    if stringCopySize value < string.length + 1 then
      throw (.undefined "string longer than its copy")
    return ⟨.string, .stringValue string⟩
  | .bool => return ⟨.bool, .boolValue (value.union.headD 0 != 0)⟩
  | .unknown | .fileInfo => .error (.exit "Unknown type")

def convertToRpcNode (node : Node) : Except Fault RpcNode := do
  let value ← convertToRpcNodeValue node.value
  return ⟨some (convertNodeIdToRpc node.id), some (convertNodeIdToRpc node.parentId), some value⟩

def convertToRpcNodes (nodes : List Node) : Except Fault RpcNodes := do
  return ⟨← nodes.mapM convertToRpcNode⟩

def convertToRpcCreateNodeRequest (request : CreateNodeRequest) : Except Fault RpcCreateNodeRequest := do
  let value ← convertToRpcNodeValue request.value
  return ⟨some value, some (convertNodeIdToRpc request.parent)⟩

/-- The parent id of the message stays absent. -/
def convertToRpcUpdateNodeRequest (request : UpdateNodeRequest) : Except Fault RpcUpdateNodeRequest := do
  let value ← convertToRpcNodeValue request.newValue
  return ⟨some (convertNodeIdToRpc request.nodeId), none, some value⟩

def convertToRpcDeleteNodeRequest (request : DeleteNodeRequest) : RpcDeleteNodeRequest :=
  ⟨some (convertNodeIdToRpc request.nodeId)⟩

theorem isInt32_of_convertFromRpcNodeId {nodeId : Option RpcNodeId} {id : NodeId}
    (h : convertFromRpcNodeId nodeId = .ok id) : IsInt32 id.pageId ∧ IsInt32 id.itemId := by
  cases nodeId with
  | none => cases h
  | some nodeId =>
      cases h
      exact ⟨isInt32_toInt32 _, isInt32_toInt32 _⟩

def convertFromRpcCreateNodeRequest (request : RpcCreateNodeRequest) : Except Fault CreateNodeRequest :=
  match h : convertFromRpcNodeId request.parentId with
  | .error e => .error e
  | .ok parent => do
    let value ← convertFromRpcNodeValue (← derefArg request.value)
    return ⟨parent, value, (isInt32_of_convertFromRpcNodeId h).1, (isInt32_of_convertFromRpcNodeId h).2⟩

/-- The parent id is not read. It is zero in the initializer. -/
def convertFromRpcUpdateNodeRequest (request : RpcUpdateNodeRequest) : Except Fault UpdateNodeRequest := do
  let nodeId ← convertFromRpcNodeId request.id
  let newValue ← convertFromRpcNodeValue (← derefArg request.value)
  return ⟨nodeId, ⟨0, 0⟩, newValue, ⟨by decide, by decide⟩, by decide, by decide⟩

def convertFromRpcDeleteNodeRequest (request : RpcDeleteNodeRequest) : Except Fault DeleteNodeRequest := do
  return ⟨← convertFromRpcNodeId request.id⟩

end Converters

end DocumentDb.Rpc
