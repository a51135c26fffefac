import DocumentDb.Server.Filters

namespace DocumentDb.Client

open Storage Program Bytes Documents Rpc Server

section Calls

def convertersCopyNode (node : RpcNode) : Except Fault RpcNode := do
  let id ← derefArg node.id
  let parentId ← derefArg node.parentId
  let value ← derefArg node.value
  return ⟨some id, some parentId, some value⟩

/-- What is left in `g_add_node_response`. -/
def handleCreateResponse (response : RpcNode) : Except Fault RpcNode := do
  let addNodeResponse ← convertersCopyNode response
  let nodeId ← convertFromRpcNodeId response.id
  if nodeId.itemId ≠ -1 then
    let nodeValue ← derefArg response.value
    if nodeValue.type ≠ .string then
      throw (.exit "Error: node value is not string. Type")
  return addNodeResponse

def printNode (node : RpcNode) : Except Fault Unit := do
  let _ ← convertFromRpcNodeId node.id
  let nodeValue ← derefArg node.value
  let _ ← stringValue nodeValue.value
  return ()

/-- What is left in `g_get_nodes_response`, where the response is taken to live on after its callback. -/
def handleGetResponse (response : RpcNodes) : Except Fault RpcNodes := do
  response.nodes.forM printNode
  return response

/-- The transport hands a request to the server and its response back. -/
def clientAddNode (request : CreateNodeRequest) : DocumentM RpcNode := do
  let query ← lift (convertToRpcCreateNodeRequest request)
  let response ← handleCreateNodeRequest query
  lift (handleCreateResponse response)

def clientGetNodeByFilter (filters : RpcFilterChain) : DocumentM RpcNodes := do
  let response ← handleGetNodesByFilterRequest filters
  lift (handleGetResponse response)

def clientDeleteNodeByFilter (fuel : Nat) (tmpCounts : Nat → Int) (filters : RpcFilterChain) :
    DocumentM RpcDeletedNodes :=
  handleDeleteNodesByFilterRequest fuel tmpCounts filters

/-- The chain of the request is `RPC__FILTER_CHAIN__INIT`, which has no filters. -/
def clientDeleteAllNodes (fuel : Nat) (tmpCounts : Nat → Int) : DocumentM RpcDeletedNodes :=
  handleDeleteNodesByFilterRequest fuel tmpCounts ⟨[]⟩

end Calls

section DeleteAll

variable {pageSize : Nat} {doc t : Document} {fuel : Nat} {tmpCounts : Nat → Int}

/-- A chain without filters selects nothing. -/
theorem clientDeleteAllNodes_run {store : List (List Slot)} (h : Holds pageSize store doc) (fuel : Nat)
    (tmpCounts : Nat → Int) : clientDeleteAllNodes fuel tmpCounts doc = .ok ⟨0⟩ doc := by
  have hmatchers : fsNewNodeMatcherArray ⟨[]⟩ = .ok [] := rfl
  have hcount : documentCountNodesByConditionSequence [] doc = .ok (0, []) doc := by
    rw [documentCountNodesByConditionSequence]
    simp only [run_bind, h.assertInitDone, run_copyRootNode h, andThen_ok, countSequenceLoop, run_pure]
  rw [clientDeleteAllNodes, handleDeleteNodesByFilterRequest, getNodesByFilterRequest]
  simp only [run_bind, hmatchers, run_lift_ok, andThen_ok, hcount, if_true, run_pure, List.length_nil]

/-- The request for all nodes returns and leaves no node exactly when there was none. -/
theorem clientDeleteAllNodes_empty_iff (h : ReachableDocument pageSize doc) (fuel : Nat) (tmpCounts : Nat → Int) :
    ∃ response t, clientDeleteAllNodes fuel tmpCounts doc = .ok response t ∧
      (liveNodes t = [] ↔ liveNodes doc = []) := by
  obtain ⟨store, hs, _⟩ := h.tree
  exact ⟨⟨0⟩, doc, clientDeleteAllNodes_run hs fuel tmpCounts, Iff.rfl⟩

theorem clientDeleteAllNodes_empty_iff_root :
    ∃ doc response t, ReachableDocument 4096 doc ∧ clientDeleteAllNodes 1 (fun _ => 0) doc = .ok response t ∧
      (liveNodes t = [] ↔ liveNodes doc = []) := by
  obtain ⟨doc, _, hr, _⟩ := exists_serverRoot rootValue_received
  obtain ⟨response, t, hrun, hiff⟩ := clientDeleteAllNodes_empty_iff hr.document 1 fun _ => 0
  exact ⟨doc, response, t, hr.document, hrun, hiff⟩

/-- The root stays. -/
theorem clientDeleteAllNodes_keeps_root :
    ∃ doc t, ServerReachable 4096 doc ∧ clientDeleteAllNodes 1 (fun _ => 0) doc = .ok ⟨0⟩ t ∧
      liveNodes t = [⟨rootNodeId, nullNodeId, rootValue⟩] := by
  obtain ⟨doc, slots, hr, hs, _, hnodes⟩ := exists_serverRoot rootValue_received
  exact ⟨doc, doc, hr, clientDeleteAllNodes_run hs.holds 1 fun _ => 0, by rw [hs.holds.liveNodes_eq, hnodes]⟩

end DeleteAll

end DocumentDb.Client
