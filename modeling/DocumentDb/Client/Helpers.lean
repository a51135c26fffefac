import DocumentDb.Client.NetClient
import DocumentDb.Client.Parser
import DocumentDb.Server.Records

namespace DocumentDb.Client

open Storage Program Bytes Documents Rpc Server

section Filling

structure ParsedEntry where
  id : Int
  parentId : Int
  fileInfoContent : List UInt8

/-- `atoi` and `strdup` are not defined for the null pointer. -/
def parseEntry (line : List UInt8) : Except Fault ParsedEntry := do
  let (id, rest) := strtok line (bytesOf " ")
  let id ← atoi (← derefArg id)
  let (parentId, rest) := strtok rest (bytesOf " ")
  let parentId ← atoi (← derefArg parentId)
  let (content, _) := strtok rest []
  return ⟨id, parentId, ← derefArg content⟩

/-- An element of `added_nodes`, which are zero until a response is kept in them. -/
def addedNode (addedNodes : List RpcNode) (count : Nat) (i : Int) : Except Fault RpcNode :=
  if 0 ≤ i ∧ i < count then .ok (addedNodes[i.toNat]?.getD ⟨none, none, none⟩)
  else .error (.undefined "added_nodes out of range")

def createBelow (nodeId : Option RpcNodeId) (content : Except Fault (List UInt8)) :
    Except Fault CreateNodeRequest :=
  match h : convertFromRpcNodeId nodeId with
  | .error e => .error e
  | .ok parent => do
    let value ← nodeValueStringNew (← content)
    return ⟨parent, value, (isInt32_of_convertFromRpcNodeId h).1, (isInt32_of_convertFromRpcNodeId h).2⟩

def createRoot (content : List UInt8) : Except Fault CreateNodeRequest := do
  let value ← nodeValueStringNew content
  return ⟨nullNodeId, value, isInt32_nullNodeId_pageId, isInt32_nullNodeId_itemId⟩

def fillChildren (count : Nat) : List ParsedEntry → List RpcNode → DocumentM (List RpcNode)
  | [], addedNodes => return addedNodes
  | entry :: entries, addedNodes => do
    let parent ← lift (addedNode addedNodes count entry.parentId)
    let request ← lift (createBelow parent.id (.ok entry.fileInfoContent))
    let node ← clientAddNode request
    fillChildren count entries (addedNodes ++ [node])

/-- The nodes that have been added are returned, so that their ids can be spoken of. -/
def fillDbFromLines (lines : List (List UInt8)) : DocumentM (List RpcNode) := do
  let allEntries ← lift (lines.mapM parseEntry)
  match allEntries with
  | [] => throw (.undefined "all_entries out of range")
  | root :: entries => do
    if root.parentId ≠ -1 then
      throw (.assertion "all_entries[0].parent_id == -1")
    if root.id ≠ 0 then
      throw (.assertion "all_entries[0].id == 0")
    let request ← lift (createRoot root.fileInfoContent)
    let node ← clientAddNode request
    fillChildren lines.length entries [node]

end Filling

section Chains

def nameFilter (name : List UInt8) : RpcFilter := ⟨.equal, .stringArgument name, some (bytesOf "name")⟩

def convertNodesToFilterChainPathOnly (nodes : List ParsedNode) : Except Fault RpcFilterChain := do
  let _ ← assertArgNotNull nodes.head? "nodes"
  return ⟨nodes.map fun node => nameFilter node.name⟩

/-- The string of an element that is not asked for its type. -/
def elementString (element : Option Element) : Except Fault (List UInt8) :=
  match element with
  | some (.string value) => .ok value
  | some _ => .error (.undefined "string of another member")
  | none => .error (.undefined "null pointer")

/-- The operator of a filter is only asked whether it is `ALL_OP`. -/
def additionalFilter (filter : FilterExpr) : Except Fault RpcFilter :=
  if filter.operation = .allOp then
    .ok ⟨.all, .notSet, none⟩
  else do
    let name ← derefArg filter.left
    let argument ← elementString filter.right
    return ⟨.fieldName, .stringArgument argument, some name⟩

/-- The array is allocated for the names, and the additional filter is written behind
them. `room` says for how many pointers there is room in a block that has been asked for
to hold some number of them. -/
def convertNodesToFilterChain (room : Nat → Nat) (nodes : List ParsedNode) : Except Fault RpcFilterChain := do
  let firstNode ← assertArgNotNull nodes.head? "nodes"
  let names := nodes.map fun node => nameFilter node.name
  match firstNode.filters with
  | [] => return ⟨names⟩
  | filter :: _ =>
    let filter ← additionalFilter filter
    if room names.length ≤ names.length then
      throw (.undefined "filter behind the array")
    return ⟨names ++ [filter]⟩

end Chains

section Queries

def setAttributes : List FilterExpr → FileInfo → Except Fault FileInfo
  | [], fileInfo => .ok fileInfo
  | expr :: filters, fileInfo => do
    if expr.type ≠ .selectByLogicalOp then
      throw (.assertion "expr->type == SELECT_BY_LOGICAL_OP")
    if expr.operation ≠ .equalsOp then
      throw (.assertion "expr->operation == EQUALS_OP")
    let attrId ← fileInfoAttributeFromString (← derefArg expr.left)
    setAttributes filters (fileInfoSetAttribute fileInfo attrId (← elementString expr.right))

/-- The buffer is allocated with 256 bytes. -/
def convertQueryArgsToString (filters : List FilterExpr) : Except Fault (List UInt8) := do
  let filter ← assertArgNotNull filters.head? "filters"
  let text ←
    -- only one argument. It's not a file info
    if filters.length = 1 then elementString filter.right
    else do fileInfoToString (← setAttributes filters ⟨none, none, none, none⟩)
  if 256 ≤ text.length then
    throw (.undefined "text longer than its buffer")
  return text

def addNodesSequence (q : Query) : DocumentM Unit := do
  let chain ← lift (convertNodesToFilterChainPathOnly q.nodes)
  let nodes ← clientGetNodeByFilter chain
  match nodes.nodes with
  | [] => return ()
  | node :: _ => do
    let parameterFilters := (q.nodes.head?.map ParsedNode.filters).getD []
    let request ← lift (createBelow node.id (convertQueryArgsToString parameterFilters))
    let _ ← clientAddNode request

def deleteNodeSequence (room : Nat → Nat) (fuel : Nat) (tmpCounts : Nat → Int) (q : Query) :
    DocumentM RpcDeletedNodes := do
  let chain ← lift (convertNodesToFilterChain room q.nodes)
  clientDeleteNodeByFilter fuel tmpCounts chain

def getNodes (room : Nat → Nat) (q : Query) : DocumentM RpcNodes := do
  let chain ← lift (convertNodesToFilterChain room q.nodes)
  clientGetNodeByFilter chain

/-- What is printed of an answer is left out. -/
def makeRequestBasedOnQuery (room : Nat → Nat) (fuel : Nat) (tmpCounts : Nat → Int) (q : Query) :
    DocumentM Unit :=
  match q.func with
  | .nop => do let _ ← getNodes room q
  | .createOp => addNodesSequence q
  | .deleteOp => do let _ ← deleteNodeSequence room fuel tmpCounts q
  | .updateOp => return ()

end Queries

section Names

theorem filterCondition_nameFilter (name : List UInt8) :
    filterCondition (nameFilter name) = .ok (fsNewAttributeCondition (bytesOf "name") (.ok name)) := (rfl)

theorem asks_nameFilter (name : List UInt8) : Asks (nameFilter name) .name name :=
  ⟨by simp [nameFilter], ⟨_, rfl, rfl⟩, rfl⟩

end Names

end DocumentDb.Client
