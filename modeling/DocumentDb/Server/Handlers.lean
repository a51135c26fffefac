import DocumentDb.Server.Fs
import DocumentDb.Rpc.RoundTrip
import DocumentDb.Documents.Runs

namespace DocumentDb.Server

open Storage Program Bytes Documents Rpc

section Handlers

def handleCreateNodeRequest (request : RpcCreateNodeRequest) : DocumentM RpcNode := do
  let _ ← lift (assertArgNotNull request.parentId "request->parent_id")
  let _ ← lift (assertArgNotNull request.value "request->value")
  let nodeRequest ← lift (convertFromRpcCreateNodeRequest request)
  -- an error is only logged
  let (_, result) ← documentAddNode nodeRequest zeroNode
  lift (convertToRpcNode result)

def handleUpdateNodeRequest (request : RpcUpdateNodeRequest) : DocumentM RpcNode := do
  let _ ← lift (assertArgNotNull request.id "request->id")
  let _ ← lift (assertArgNotNull request.value "request->value")
  let nodeRequest ← lift (convertFromRpcUpdateNodeRequest request)
  let (res, result) ← documentUpdateNode nodeRequest zeroNode
  abortIfFail res "failed to update node"
  lift (convertToRpcNode result)

/-- `document_delete_node` is given the result and does not write to it. -/
def handleDeleteNodeRequest (request : RpcDeleteNodeRequest) : DocumentM RpcNode := do
  let _ ← lift (assertArgNotNull request.id "request->id")
  let nodeRequest ← lift (convertFromRpcDeleteNodeRequest request)
  let result := zeroNode
  let res ← documentDeleteNode nodeRequest
  abortIfFail res "failed to delete node"
  lift (convertToRpcNode result)

def getNodesByFilterRequest (request : RpcFilterChain) : DocumentM RpcNodes := do
  let matcherArray ← lift (fsNewNodeMatcherArray request)
  let (nodesCount, matcherArray) ← documentCountNodesByConditionSequence matcherArray
  if nodesCount = 0 then
    return ⟨[]⟩
  match ← documentGetNodesByConditionSequence matcherArray nodesCount with
  | (.ok result, _) => lift (convertToRpcNodes result)
  | (.error _, _) => return ⟨[]⟩

def handleGetNodesByFilterRequest (request : RpcFilterChain) : DocumentM RpcNodes :=
  getNodesByFilterRequest request

/-- The counter that a round passes on is not initialised: `tmpCounts` says what it
is found to be. Nothing reads it after the call, so it does not matter where it would wrap around. -/
def deleteNodesLoop (fuel : Nat) : (Nat → Int) → List RpcNode → DocumentM Unit
  | _, [] => return ()
  | tmpCounts, node :: nodes => do
    let deleteNodeId ← lift (convertFromRpcNodeId node.id)
    let (res, _) ← deleteNodeWithAllDescendants fuel deleteNodeId (tmpCounts 0)
    abortIfFail res "failed to delete node"
    deleteNodesLoop fuel (fun i => tmpCounts (i + 1)) nodes

def handleDeleteNodesByFilterRequest (fuel : Nat) (tmpCounts : Nat → Int) (request : RpcFilterChain) :
    DocumentM RpcDeletedNodes := do
  let nodes ← getNodesByFilterRequest request
  if nodes.nodes.length = 0 then
    return ⟨0⟩
  deleteNodesLoop fuel tmpCounts nodes.nodes
  return ⟨nodes.nodes.length⟩

def serverInitDocument (pageSize : Nat) : DocumentM Unit := do
  let res ← documentInit pageSize
  abortIfFail res "failed to init document"

end Handlers

section Outcomes

variable {doc t : Document} {response : RpcNode}

theorem handleCreateNodeRequest_ok {request : RpcCreateNodeRequest}
    (hrun : handleCreateNodeRequest request doc = .ok response t) :
    ∃ nodeRequest res node, convertFromRpcCreateNodeRequest request = .ok nodeRequest ∧
      documentAddNode nodeRequest zeroNode doc = .ok (res, node) t ∧ convertToRpcNode node = .ok response := by
  rw [handleCreateNodeRequest] at hrun
  obtain ⟨_, _, hparent, hrest⟩ := bind_eq_ok.mp hrun
  obtain ⟨_, rfl⟩ := lift_eq_ok.mp hparent
  obtain ⟨_, _, hvalue, hrest⟩ := bind_eq_ok.mp hrest
  obtain ⟨_, rfl⟩ := lift_eq_ok.mp hvalue
  obtain ⟨nodeRequest, _, hconvert, hrest⟩ := bind_eq_ok.mp hrest
  obtain ⟨hrequest, rfl⟩ := lift_eq_ok.mp hconvert
  obtain ⟨⟨res, node⟩, _, hadd, hrest⟩ := bind_eq_ok.mp hrest
  obtain ⟨hresponse, rfl⟩ := lift_eq_ok.mp hrest
  exact ⟨nodeRequest, res, node, hrequest, hadd, hresponse⟩

theorem handleCreateNodeRequest_eq {request : RpcCreateNodeRequest} {nodeRequest : CreateNodeRequest}
    {res : Result Unit} {node : Node} (hrequest : convertFromRpcCreateNodeRequest request = .ok nodeRequest)
    (hadd : documentAddNode nodeRequest zeroNode doc = .ok (res, node) t)
    (hresponse : convertToRpcNode node = .ok response) :
    handleCreateNodeRequest request doc = .ok response t := by
  obtain ⟨hparent, message, hmessage, _⟩ := convertFromRpcCreateNodeRequest_ok hrequest
  obtain ⟨value, parentId⟩ := request
  obtain rfl : value = some message := hmessage
  cases parentId with
  | none => cases hparent
  | some parentId =>
      rw [handleCreateNodeRequest]
      simp only [run_bind, assertArgNotNull, run_lift_ok, andThen_ok, hrequest, hadd, hresponse]

theorem handleUpdateNodeRequest_ok {request : RpcUpdateNodeRequest}
    (hrun : handleUpdateNodeRequest request doc = .ok response t) :
    ∃ nodeRequest node, convertFromRpcUpdateNodeRequest request = .ok nodeRequest ∧
      documentUpdateNode nodeRequest zeroNode doc = .ok (.ok (), node) t ∧
      convertToRpcNode node = .ok response := by
  rw [handleUpdateNodeRequest] at hrun
  obtain ⟨_, _, hid, hrest⟩ := bind_eq_ok.mp hrun
  obtain ⟨_, rfl⟩ := lift_eq_ok.mp hid
  obtain ⟨_, _, hvalue, hrest⟩ := bind_eq_ok.mp hrest
  obtain ⟨_, rfl⟩ := lift_eq_ok.mp hvalue
  obtain ⟨nodeRequest, _, hconvert, hrest⟩ := bind_eq_ok.mp hrest
  obtain ⟨hrequest, rfl⟩ := lift_eq_ok.mp hconvert
  obtain ⟨⟨res, node⟩, _, hupdate, hrest⟩ := bind_eq_ok.mp hrest
  obtain ⟨_, _, habort, hrest⟩ := bind_eq_ok.mp hrest
  obtain ⟨rfl, rfl⟩ := abortIfFail_eq_ok.mp habort
  obtain ⟨hresponse, rfl⟩ := lift_eq_ok.mp hrest
  exact ⟨nodeRequest, node, hrequest, hupdate, hresponse⟩

theorem handleUpdateNodeRequest_eq {request : RpcUpdateNodeRequest} {nodeRequest : UpdateNodeRequest}
    {node : Node} (hrequest : convertFromRpcUpdateNodeRequest request = .ok nodeRequest)
    (hupdate : documentUpdateNode nodeRequest zeroNode doc = .ok (.ok (), node) t)
    (hresponse : convertToRpcNode node = .ok response) :
    handleUpdateNodeRequest request doc = .ok response t := by
  obtain ⟨hid, _, message, hmessage, _⟩ := convertFromRpcUpdateNodeRequest_ok hrequest
  obtain ⟨id, parentId, value⟩ := request
  obtain rfl : value = some message := hmessage
  cases id with
  | none => cases hid
  | some id =>
      rw [handleUpdateNodeRequest]
      simp only [run_bind, assertArgNotNull, run_lift_ok, andThen_ok, hrequest, hupdate, run_abortIfFail_ok,
        hresponse]

/-- The response of a delete would be made of a node without a type. -/
theorem handleDeleteNodeRequest_ne_ok (request : RpcDeleteNodeRequest) :
    handleDeleteNodeRequest request doc ≠ .ok response t := by
  intro hrun
  rw [handleDeleteNodeRequest] at hrun
  obtain ⟨_, _, _, hrest⟩ := bind_eq_ok.mp hrun
  obtain ⟨_, _, _, hrest⟩ := bind_eq_ok.mp hrest
  obtain ⟨_, _, _, hrest⟩ := bind_eq_ok.mp hrest
  obtain ⟨_, _, _, hrest⟩ := bind_eq_ok.mp hrest
  obtain ⟨hconvert, _⟩ := lift_eq_ok.mp hrest
  cases hconvert

theorem getNodesByFilterRequest_run {request : RpcFilterChain} {nodes : RpcNodes}
    (hrun : getNodesByFilterRequest request doc = .ok nodes t) :
    ∃ matchers n left s, fsNewNodeMatcherArray request = .ok matchers ∧
      documentCountNodesByConditionSequence matchers doc = .ok (n, left) s ∧
      (n = 0 ∧ nodes = ⟨[]⟩ ∧ t = s ∨
        n ≠ 0 ∧ ∃ res left', documentGetNodesByConditionSequence left n s = .ok (res, left') t ∧
          ∀ result, res = .ok result → convertToRpcNodes result = .ok nodes) := by
  rw [getNodesByFilterRequest] at hrun
  obtain ⟨matchers, s, hlift, hrest⟩ := bind_eq_ok.mp hrun
  obtain ⟨hmatchers, rfl⟩ := lift_eq_ok.mp hlift
  obtain ⟨⟨n, left⟩, s1, hcount, hrest⟩ := bind_eq_ok.mp hrest
  refine ⟨matchers, n, left, s1, hmatchers, hcount, ?_⟩
  dsimp only at hrest
  by_cases hzero : n = 0
  · rw [if_pos hzero, run_pure] at hrest
    cases hrest
    exact Or.inl ⟨hzero, rfl, rfl⟩
  · rw [if_neg hzero] at hrest
    obtain ⟨⟨res, left'⟩, s2, hget, hrest⟩ := bind_eq_ok.mp hrest
    refine Or.inr ⟨hzero, res, left', ?_⟩
    cases res with
    | ok result =>
        obtain ⟨hconvert, rfl⟩ := lift_eq_ok.mp hrest
        refine ⟨hget, ?_⟩
        rintro _ ⟨⟩
        exact hconvert
    | error message =>
        dsimp only at hrest
        rw [run_pure] at hrest
        cases hrest
        exact ⟨hget, fun result hres => by cases hres⟩

end Outcomes

end DocumentDb.Server
