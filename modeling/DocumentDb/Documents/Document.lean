import DocumentDb.Documents.NodeMatcher
import DocumentDb.Storage.Iterator

namespace DocumentDb.Documents

open Storage Program

def fileSignature : Int := 0x12345678

/-- The root node is kept by its value. It is only ever copied. -/
structure Document where
  rootNode : Option Node
  pageManager : PageManager
  initDone : Bool

abbrev DocumentM (α : Type) := EStateM Fault Document α

structure CreateNodeRequest where
  parent : NodeId
  value : NodeValue
  isInt32_pageId : IsInt32 parent.pageId
  isInt32_itemId : IsInt32 parent.itemId

structure UpdateNodeRequest where
  nodeId : NodeId
  parentId : NodeId
  newValue : NodeValue
  isInt32_pageId : IsInt32 parentId.pageId
  isInt32_itemId : IsInt32 parentId.itemId

structure DeleteNodeRequest where
  nodeId : NodeId

/-- The number of values is their count in the request. -/
structure CreateMultipleNodesRequest where
  parent : NodeId
  values : List NodeValue
  isInt32_pageId : IsInt32 parent.pageId
  isInt32_itemId : IsInt32 parent.itemId

structure GetAllChildrenRequest where
  parent : NodeId

section Items

def onPageManager {α : Type} (x : PageManagerM α) : DocumentM α :=
  zoom Document.pageManager (fun pm self => { self with pageManager := pm }) x

def assertInitDone : DocumentM Unit := do
  if (← get).initDone = false then
    throw (.assertion "self->init_done")

def itemToNodeId (itemId : ItemIndex) : NodeId := itemId

def nodeOfItem (item : Item) : Node := { decodeNode item.payload with id := itemToNodeId item.id }

/-- The payload is read as a `Node`, and the id of the item replaces the stored one. -/
def itemToNode (item : Item) : Except Fault Node :=
  if item.payload.length = 0 then
    .error (.assertion "item.payload.size > 0")
  else if item.payload.length < sizeofNode then
    .error (.undefined "node longer than its item")
  else
    .ok (nodeOfItem item)

def testNode (p : Node → Except Fault Bool) (item : Item) : Except Fault (Option Node) := do
  let node ← itemToNode item
  if ← p node then
    return some node
  return none

def stepNode {γ : Type} (f : γ → Node → Except Fault γ) (acc : γ) (item : Item) : Except Fault γ := do
  let node ← itemToNode item
  f acc node

/-- A loop that is left at the first node which passes a test. -/
def searchNodes (p : Node → Except Fault Bool) : DocumentM (Option Node × ItemIterator) :=
  onPageManager (scanItems (search (testNode p)) none)

def eachNode {γ : Type} (f : γ → Node → Except Fault γ) (acc : γ) : DocumentM (γ × ItemIterator) :=
  onPageManager (scanItems (each (stepNode f)) acc)

def destroyIterator (it : ItemIterator) : DocumentM Unit := do
  let _ ← onPageManager (itemIteratorDestroy it)

end Items

section Conditions

/-- The count is returned. The source adds it to a variable that every caller has set to zero. -/
def documentCountNodesByCondition (matcher : NodeMatcher) : DocumentM Nat := do
  assertInitDone
  let (count, itemsIt) ← eachNode (fun count node => do
    if ← nodeConditionMatches matcher node then
      return count + 1
    return count) 0
  destroyIterator itemsIt
  return count

def documentTakeFirstNodeByCondition (matcher : NodeMatcher) : DocumentM (Result Node) := do
  assertInitDone
  let (found, itemsIt) ← searchNodes (nodeConditionMatches matcher)
  destroyIterator itemsIt
  match found with
  | some node => return .ok node
  | none => return .error "No nodes found by condition"

/-- The result is an array of `resultCount` nodes that the caller has allocated. -/
def documentGetNodesByCondition (matcher : NodeMatcher) (resultCount : Nat) :
    DocumentM (Result (List Node)) := do
  assertInitDone
  if resultCount = 0 then
    throw (.assertion "result->count > 0")
  let (nodes, itemsIt) ← eachNode (fun nodes node => do
    if ← nodeConditionMatches matcher node then
      if resultCount ≤ nodes.length then
        throw (.undefined "node written behind the end of the array")
      return nodes ++ [node]
    return nodes) []
  destroyIterator itemsIt
  if resultCount ≠ nodes.length then
    throw (.assertion "result->count == i")
  if nodes.length = 0 then
    return .error "No nodes found by condition"
  return .ok nodes

def documentCountChildren (parentId : NodeId) : DocumentM Nat :=
  documentCountNodesByCondition (nodeMatcherNew (nodeConditionParentIdEq parentId))

end Conditions

section Init

/-- A node whose bytes are all zero, as `my_alloc` returns it. -/
def zeroNode : Node := ⟨⟨0, 0⟩, ⟨0, 0⟩, nodeValueOfBytes .unknown []⟩

def documentNew (file : FileState) : Document where
  rootNode := none
  pageManager := pageManagerNew file
  initDone := false

def setRootNode : DocumentM Unit := do
  modify fun self => { self with rootNode := some zeroNode }
  match ← documentTakeFirstNodeByCondition (nodeMatcherNew (nodeConditionParentIdEq rootNodeId)) with
  | .ok node => modify fun self => { self with rootNode := some node }
  | .error _ => return ()

def documentInit (pageSize : Nat) : DocumentM (Result Unit) := do
  modify fun self => { self with initDone := true }
  match ← onPageManager (pageManagerInit pageSize fileSignature) with
  | .error _ => return .error "failed to init page manager"
  | .ok () =>
    setRootNode
    return .ok ()

end Init

section Add

def documentPersistNewNode (node : Node) : DocumentM Node := do
  let itemResult ← onPageManager do
    let page ← pageManagerGetPageForData
    pageManagerPutItem page (encodeNode node)
  onPageManager pageManagerFreePages
  return { node with id := itemToNodeId itemResult.metadata.itemId }

/-- A root is recognised by its id. The iterator is not destroyed when there is one. -/
def documentAddRootNode (root : Node) : DocumentM (Result Unit × Node) := do
  let (found, itemsIt) ← searchNodes fun node => .ok (node.id == rootNodeId)
  if found.isSome then
    return (.error "Root node already exists in document tree", root)
  destroyIterator itemsIt
  let root ← documentPersistNewNode { root with id := rootNodeId }
  -- `self->root_node` points to the node that has just been given its id.
  modify fun self => { self with rootNode := some root }
  return (.ok (), root)

def documentAddChildNode (currentNode : Node) : DocumentM (Result Unit × Node) := do
  let (found, itemsIt) ← searchNodes fun node => .ok (node.id == currentNode.parentId)
  destroyIterator itemsIt
  if found.isSome then
    let currentNode ← documentPersistNewNode currentNode
    return (.ok (), currentNode)
  return (.error "Parent node doesn't exist in document tree", currentNode)

/-- `result` is memory of the caller, of which the id is left as it is when the
node is not added. -/
def documentAddNode (request : CreateNodeRequest) (result : Node) : DocumentM (Result Unit × Node) := do
  assertInitDone
  let result := { result with value := request.value, parentId := request.parent }
  if request.parent = nullNodeId then
    documentAddRootNode result
  else
    documentAddChildNode result

end Add

section Delete

def documentDeleteSecondStep (request : DeleteNodeRequest) : DocumentM (Result Unit) := do
  let (found, itemsIt) ← onPageManager (scanItems (search fun item =>
    .ok (if item.id = request.nodeId then some item else none)) none)
  match found with
  | some item =>
    match itemsIt.pageIterator.currentPage with
    | none => throw (.undefined "null page")
    | some page =>
      let _ ← onPageManager (pageManagerDeleteItem page item)
      destroyIterator itemsIt
      return .ok ()
  | none =>
    destroyIterator itemsIt
    return .error "Node doesn't exist in document tree"

def documentDeleteNode (request : DeleteNodeRequest) : DocumentM (Result Unit) := do
  assertInitDone
  let (child, itemsIt) ← searchNodes fun node => .ok (node.parentId == request.nodeId)
  destroyIterator itemsIt
  if child.isSome then
    throw (.exit "Can't delete node with children")
  documentDeleteSecondStep request

/-- The children are collected before the first of them is deleted. The counter is not bounded: it grows by
the number of nodes that are deleted, of which a file below `2 ^ 32` bytes has fewer than `2 ^ 24`. -/
def deleteNodeWithAllDescendants : Nat → NodeId → Int → DocumentM (Result Unit × Int)
  | 0, _, _ => throw .diverges
  | fuel + 1, nodeId, deletedCount => do
    let childrenCount ← documentCountChildren nodeId
    let deletedCount ← do
      if 0 < childrenCount then
        let matcher := nodeMatcherNew (nodeConditionParentIdEq nodeId)
        let res ← documentGetNodesByCondition matcher childrenCount
        let children ← abortIfFail res "Failed to get children of node"
        children.foldlM (fun deletedCount child => do
          let (res, deletedCount) ← deleteNodeWithAllDescendants fuel child.id deletedCount
          abortIfFail res "Failed to delete node"
          pure deletedCount) deletedCount
      else
        pure deletedCount
    let deletedCount := deletedCount + 1
    let res ← documentDeleteNode ⟨nodeId⟩
    abortIfFail res "Trying to delete node with not children"
    return (res, deletedCount)

end Delete

section Update

/-- The node is deleted and added again. -/
def documentUpdateNode (request : UpdateNodeRequest) (result : Node) : DocumentM (Result Unit × Node) := do
  assertInitDone
  match ← documentDeleteNode ⟨request.nodeId⟩ with
  | .error _ => return (.error "failed to delete node while updating", result)
  | .ok () =>
    let (res, result) ← documentAddNode
      ⟨request.parentId, request.newValue, request.isInt32_pageId, request.isInt32_itemId⟩ result
    return (returnIfFail res "failed to add node while updating", result)

end Update

section Bulk

/-- The new nodes are written to `nodes`, memory of the caller. The iterator of the
search for the parent is released in every round. -/
def bulkLoop (parent : NodeId) :
    List NodeValue → List Node → ItemIterator → DocumentM (List Node × ItemIterator)
  | [], nodes, itemsIt => return (nodes, itemsIt)
  | _ :: _, [], _ => throw (.undefined "node written behind the end of the array")
  | value :: values, node :: nodes, itemsIt => do
    let node ← documentPersistNewNode { node with value := value, parentId := parent }
    let itemsIt ← onPageManager (itemIteratorDestroy itemsIt)
    let (nodes, itemsIt) ← bulkLoop parent values nodes itemsIt
    return (node :: nodes, itemsIt)

def documentAddBulkNodes (request : CreateMultipleNodesRequest) (result : List Node) :
    DocumentM (Result Unit × List Node) := do
  assertInitDone
  if request.values.length = 0 then
    return (.error "Bulk add, empty request", result)
  let (found, itemsIt) ← searchNodes fun node => .ok (node.id == request.parent)
  if found.isSome then
    let (result, itemsIt) ← bulkLoop request.parent request.values result itemsIt
    destroyIterator itemsIt
    return (.ok (), result)
  destroyIterator itemsIt
  return (.error "Parent node doesn't exist in document tree", result)

end Bulk

section Children

/-- The number of children and the children. `result` is an array of the caller with
room for `capacity` nodes. -/
def documentGetAllChildren (request : GetAllChildrenRequest) (capacity : Nat) :
    DocumentM (Nat × List Node) := do
  assertInitDone
  let (count, itemsIt) ← eachNode (fun count node => do
    if node.parentId == request.parent then
      return count + 1
    return count) 0
  destroyIterator itemsIt
  if count = 0 then
    return (count, [])
  let (nodes, itemsIt) ← eachNode (fun nodes node => do
    if node.parentId == request.parent then
      if capacity ≤ nodes.length then
        throw (.undefined "node written behind the end of the array")
      return nodes ++ [node]
    return nodes) []
  destroyIterator itemsIt
  return (count, nodes)

def documentGetAllNodes (capacity : Nat) : DocumentM (Nat × List Node) :=
  documentGetAllChildren ⟨nullNodeId⟩ capacity

def deleteByConditionLoop (fuel : Nat) (matcher : NodeMatcher) :
    List Node → Int → DocumentM (Result Unit × Int)
  | [], deletedCount => return (.ok (), deletedCount)
  | node :: nodes, deletedCount => do
    if ← lift (nodeConditionMatches matcher node) then
      let (res, deletedCount) ← deleteNodeWithAllDescendants fuel node.id deletedCount
      match res with
      | .error _ => return (.error "failed to delete node", deletedCount)
      | .ok () => deleteByConditionLoop fuel matcher nodes (deletedCount + 1)
    else
      deleteByConditionLoop fuel matcher nodes deletedCount

/-- The nodes are collected in an array of 1000. -/
def documentDeleteNodesByCondition (fuel : Nat) (matcher : NodeMatcher) (deletedCount : Int) :
    DocumentM (Result Unit × Int) := do
  assertInitDone
  let (count, nodes) ← documentGetAllNodes 1000
  deleteByConditionLoop fuel matcher (nodes.take count) deletedCount

end Children

section Sequences

/-- The matcher with the parent condition, and how many nodes it matches. -/
def countUnderParent (matcher : NodeMatcher) (parentId : NodeId) : DocumentM (NodeMatcher × Nat) := do
  let matcher ← lift (nodeAddCondition matcher (nodeConditionParentIdEq parentId))
  let matchedNodesCount ← documentCountNodesByCondition matcher
  return (matcher, matchedNodesCount)

/-- Reads `*self->root_node`. The copy is overwritten before it is used. -/
def copyRootNode : DocumentM Unit := do
  if (← get).rootNode = none then
    throw (.undefined "null root node")

/-- The parent condition is taken off only when no node matches. -/
def countSequenceLoop : List NodeMatcher → NodeId → Nat → DocumentM (Nat × List NodeMatcher)
  | [], _, matchedNodesCount => return (matchedNodesCount, [])
  | matcher :: matchers, parentId, _ => do
    let (matcher, matchedNodesCount) ← countUnderParent matcher parentId
    if matchedNodesCount = 0 then
      return (0, nodeRemoveLastCondition matcher :: matchers)
    let res ← documentGetNodesByCondition matcher matchedNodesCount
    let nodes ← abortIfFail res "Failed to get node by condition"
    match nodes with
    | [] => throw (.undefined "first node of an empty array")
    | currentNode :: _ =>
      let (count, matchers) ← countSequenceLoop matchers currentNode.id matchedNodesCount
      return (count, matcher :: matchers)

/-- The number of nodes, and the matchers as they are left behind. -/
def documentCountNodesByConditionSequence (matchers : List NodeMatcher) :
    DocumentM (Nat × List NodeMatcher) := do
  assertInitDone
  copyRootNode
  countSequenceLoop matchers nullNodeId 0

/-- Every path that returns takes the parent condition off again. Without matchers the
result stays as it was allocated. -/
def getSequenceLoop (resultCount : Nat) :
    List NodeMatcher → NodeId → DocumentM (Result (List Node) × List NodeMatcher)
  | [], _ => return (.ok (List.replicate resultCount zeroNode), [])
  | matcher :: matchers, parentId => do
    let (matcher, matchedNodesCount) ← countUnderParent matcher parentId
    if matchedNodesCount = 0 then
      return (.error "No nodes found by condition", nodeRemoveLastCondition matcher :: matchers)
    if matchers.isEmpty ∧ resultCount ≠ matchedNodesCount then
      throw (.assertion "result->count == matched_nodes_count")
    match ← documentGetNodesByCondition matcher matchedNodesCount with
    | .error message => return (.error message, nodeRemoveLastCondition matcher :: matchers)
    | .ok nodes =>
      let matcher := nodeRemoveLastCondition matcher
      if matchers.isEmpty then
        return (.ok nodes, matcher :: matchers)
      match nodes with
      | [] => throw (.undefined "first node of an empty array")
      | currentNode :: _ =>
        let (res, matchers) ← getSequenceLoop resultCount matchers currentNode.id
        return (res, matcher :: matchers)

/-- The nodes, and the matchers as they are left behind. -/
def documentGetNodesByConditionSequence (matchers : List NodeMatcher) (resultCount : Nat) :
    DocumentM (Result (List Node) × List NodeMatcher) := do
  assertInitDone
  if resultCount = 0 then
    throw (.assertion "result->count > 0")
  copyRootNode
  getSequenceLoop resultCount matchers nullNodeId

end Sequences

end DocumentDb.Documents
