import DocumentDb.Documents.Crashes
import DocumentDb.Documents.Evaluations

namespace DocumentDb.Documents

open Storage Program Forest

section Requests

inductive Request
  | add (request : CreateNodeRequest)
  | addBulk (request : CreateMultipleNodesRequest)
  | delete (id : NodeId)
  | deleteTree (id : NodeId)
  | deleteMatching (matcher : NodeMatcher)
  | update (request : UpdateNodeRequest)
  | children (parent : NodeId)
  | count (matcher : NodeMatcher)
  | first (matcher : NodeMatcher)
  | get (matcher : NodeMatcher)
  | path (matchers : List NodeMatcher)
  | reopen

inductive Answer
  | refused
  | done
  | node (node : Node)
  | number (n : Int)
  | nodes (nodes : List Node)

def answerOf (res : Result Unit) (answer : Answer) : Answer :=
  match res with
  | .ok () => answer
  | .error _ => .refused

/-- A request is carried out by the functions of the document, which return. The nodes on a path are
counted before they are collected. -/
inductive Serves : Request → Answer → Document → Document → Prop
  | add {s request result res node t} : documentAddNode request result s = .ok (res, node) t →
      Serves (.add request) (answerOf res (.node node)) s t
  | addBulk {s request result res nodes t} : documentAddBulkNodes request result s = .ok (res, nodes) t →
      Serves (.addBulk request) (answerOf res (.nodes nodes)) s t
  | delete {s id res t} : documentDeleteNode ⟨id⟩ s = .ok res t → Serves (.delete id) (answerOf res .done) s t
  | deleteTree {s fuel id count res count' t} : deleteNodeWithAllDescendants fuel id count s = .ok (res, count') t →
      Serves (.deleteTree id) (answerOf res (.number (count' - count))) s t
  | deleteMatching {s fuel matcher count res count' t} :
      documentDeleteNodesByCondition fuel matcher count s = .ok (res, count') t →
      Serves (.deleteMatching matcher) (answerOf res (.number (count' - count))) s t
  | update {s request result res node t} : documentUpdateNode request result s = .ok (res, node) t →
      Serves (.update request) (answerOf res (.node node)) s t
  | children {s parent capacity count nodes t} :
      documentGetAllChildren ⟨parent⟩ capacity s = .ok (count, nodes) t →
      Serves (.children parent) (.nodes (nodes.take count)) s t
  | count {s matcher n t} : documentCountNodesByCondition matcher s = .ok n t →
      Serves (.count matcher) (.number n) s t
  | first {s matcher node t} : documentTakeFirstNodeByCondition matcher s = .ok (.ok node) t →
      Serves (.first matcher) (.node node) s t
  | noFirst {s matcher message t} : documentTakeFirstNodeByCondition matcher s = .ok (.error message) t →
      Serves (.first matcher) .refused s t
  | get {s matcher n nodes t} : documentGetNodesByCondition matcher n s = .ok (.ok nodes) t →
      Serves (.get matcher) (.nodes nodes) s t
  | noGet {s matcher n message t} : documentGetNodesByCondition matcher n s = .ok (.error message) t →
      Serves (.get matcher) .refused s t
  | path {s matchers n left u nodes left' t} : documentCountNodesByConditionSequence matchers s = .ok (n, left) u →
      n ≠ 0 → documentGetNodesByConditionSequence left n u = .ok (.ok nodes, left') t →
      Serves (.path matchers) (.nodes nodes) s t
  | noPath {s matchers left t} : documentCountNodesByConditionSequence matchers s = .ok (0, left) t →
      Serves (.path matchers) (.nodes []) s t
  | reopen {s pageSize res t} :
      documentInit pageSize (documentNew (fileOpen (some (savedFile s)) noFaults)) = .ok res t →
      Serves .reopen (answerOf res .done) s t

inductive Served (pageSize : Nat) : List (Request × Answer) → Document → Prop
  | init {res t} : sizeofFileHeader + Bytes.toUInt32 pageSize < 2 ^ 32 →
      documentInit pageSize (documentNew (fileOpen none noFaults)) = .ok res t → Served pageSize [] t
  | request {history request answer s t} : Served pageSize history s → Serves request answer s t →
      FileBelow t.pageManager → Served pageSize (history ++ [(request, answer)]) t

end Requests

section Machine

def Leaf (nodes : List Node) (id : NodeId) : Prop := ∀ node ∈ nodes, node.parentId ≠ id

def Live (nodes : List Node) (id : NodeId) : Prop := ∃ node ∈ nodes, node.id = id

def without (nodes : List Node) (id : NodeId) : List Node := nodes.filter fun node => node.id ≠ id

structure IsNew (nodes : List Node) (request : CreateNodeRequest) (node : Node) : Prop where
  behind : ∀ other ∈ nodes, Before other.id node.id
  parentId : node.parentId = request.parent
  value : node.value = request.value

open Classical in
/-- The nodes that are left when these go with all below them. -/
noncomputable def pruned (nodes : List Node) (gone : List NodeId) : List Node :=
  nodes.filter fun node => ¬∃ id ∈ gone, Below nodes id node.id

theorem mem_pruned {nodes : List Node} {gone : List NodeId} {node : Node} :
    node ∈ pruned nodes gone ↔ node ∈ nodes ∧ ¬∃ id ∈ gone, Below nodes id node.id := by
  simp [pruned]

theorem pruned_sublist (nodes : List Node) (gone : List NodeId) : (pruned nodes gone).Sublist nodes :=
  List.filter_sublist

def matchingRoots (nodes : List Node) (matcher : NodeMatcher) : List Node :=
  (nodes.filter fun node => node.parentId == nullNodeId).filter (matching matcher)

/-- What a list of nodes answers, and what becomes of it. -/
inductive Answers : List Node → Request → Answer → List Node → Prop
  | added {nodes request node} : Granted request nodes → IsNew nodes request node →
      Answers nodes (.add request) (.node node) (nodes ++ [node])
  | notAdded {nodes request} : ¬Granted request nodes → Answers nodes (.add request) .refused nodes
  | notAddedBulk {nodes request} : (request.values ≠ [] → ¬Live nodes request.parent) →
      Answers nodes (.addBulk request) .refused nodes
  | deleted {nodes id} : Live nodes id → Leaf nodes id → Answers nodes (.delete id) .done (without nodes id)
  | notDeleted {nodes id} : ¬Live nodes id → Leaf nodes id → Answers nodes (.delete id) .refused nodes
  | treeDeleted {nodes id} :
      Answers nodes (.deleteTree id) (.number (nodes.length - (pruned nodes [id]).length)) (pruned nodes [id])
  | matchingDeleted {nodes matcher roots} : roots = (matchingRoots nodes matcher).map Node.id →
      Answers nodes (.deleteMatching matcher) (.number (roots.length + (nodes.length - (pruned nodes roots).length)))
        (pruned nodes roots)
  | updated {nodes request node} : Live nodes request.nodeId → Leaf nodes request.nodeId →
      Granted (createRequest request) (without nodes request.nodeId) →
      IsNew (without nodes request.nodeId) (createRequest request) node →
      Answers nodes (.update request) (.node node) (without nodes request.nodeId ++ [node])
  | lost {nodes request} : Live nodes request.nodeId → Leaf nodes request.nodeId →
      ¬Granted (createRequest request) (without nodes request.nodeId) →
      Answers nodes (.update request) .refused (without nodes request.nodeId)
  | notUpdated {nodes request} : ¬Live nodes request.nodeId → Leaf nodes request.nodeId →
      Answers nodes (.update request) .refused nodes
  | children {nodes parent} :
      Answers nodes (.children parent) (.nodes (nodes.filter fun node => node.parentId == parent)) nodes
  | counted {nodes matcher} : Defined matcher nodes →
      Answers nodes (.count matcher) (.number (nodes.filter (matching matcher)).length) nodes
  | first {before node after matcher} : (∀ other ∈ before, nodeConditionMatches matcher other = .ok false) →
      nodeConditionMatches matcher node = .ok true →
      Answers (before ++ node :: after) (.first matcher) (.node node) (before ++ node :: after)
  | noFirst {nodes matcher} : (∀ node ∈ nodes, nodeConditionMatches matcher node = .ok false) →
      Answers nodes (.first matcher) .refused nodes
  | got {nodes matcher} : Defined matcher nodes → nodes.filter (matching matcher) ≠ [] →
      Answers nodes (.get matcher) (.nodes (nodes.filter (matching matcher))) nodes
  | path {nodes matchers} : Evaluable nodes matchers nullNodeId →
      Answers nodes (.path matchers) (.nodes (selected nodes matchers nullNodeId)) nodes
  | reopened {nodes} : Answers nodes .reopen .done nodes

inductive Told : List (Request × Answer) → List Node → Prop
  | nil : Told [] []
  | request {history request answer nodes nodes'} : Told history nodes → Answers nodes request answer nodes' →
      Told (history ++ [(request, answer)]) nodes'

end Machine

section Search

variable {pageSize : Nat} {store : List (List Slot)} {doc t : Document} {node : Node} {item : Item}

theorem AllNodes.testNode_eq_some {p : Node → Except Fault Bool} (h : AllNodes store)
    (hitem : item ∈ liveItems store) :
    testNode p item = .ok (some node) ↔ p (nodeOfItem item) = .ok true ∧ nodeOfItem item = node := by
  rw [h.testNode_eq hitem]
  rcases p (nodeOfItem item) with _ | _ | _ <;> simp [Except.map]

theorem AllNodes.testNode_eq_none {p : Node → Except Fault Bool} (h : AllNodes store)
    (hitem : item ∈ liveItems store) :
    testNode p item = .ok none ↔ p (nodeOfItem item) = .ok false := by
  rw [h.testNode_eq hitem]
  rcases p (nodeOfItem item) with _ | _ | _ <;> simp [Except.map]

theorem runVisits_search_first {β : Type} {p : Item → Except Fault (Option β)} {vs : List (ItemIndex × Slot)}
    {b : β} {stop : Option ItemIndex} (h : runVisits (search p) none vs = .ok (some b, stop)) :
    ∃ front item back, vs.filterMap liveItem = front ++ item :: back ∧ (∀ other ∈ front, p other = .ok none) ∧
      p item = .ok (some b) := by
  induction vs with
  | nil => cases h
  | cons v vs ih =>
      obtain ⟨hlive, ⟨hdone, _⟩ | ⟨acc, hyield, hrest⟩⟩ := runVisits_cons h
      · obtain ⟨b', hb, hp⟩ := search_eq_done hdone
        cases hb
        exact ⟨[], _, vs.filterMap liveItem, List.filterMap_cons_some (liveItem_eq v hlive), by simp, hp⟩
      · obtain ⟨rfl, hp⟩ := search_eq_yield hyield
        obtain ⟨front, item, back, hvs, hfront, hitem⟩ := ih hrest
        refine ⟨_ :: front, item, back, ?_, List.forall_mem_cons.mpr ⟨hp, hfront⟩, hitem⟩
        rw [List.filterMap_cons_some (liveItem_eq v hlive), hvs, List.cons_append]

theorem Holds.searchNodes_first {p : Node → Except Fault Bool} {it : ItemIterator} (h : Holds pageSize store doc)
    (hrun : searchNodes p doc = .ok (some node, it) t) :
    ∃ front back, nodesOf store = front ++ node :: back ∧ (∀ other ∈ front, p other = .ok false) ∧
      p node = .ok true := by
  obtain ⟨pm, hscan, _⟩ := onPageManager_eq_ok.mp hrun
  obtain ⟨stop, hvisits, _⟩ := h.stores.scan_ok hscan
  obtain ⟨front, item, back, hitems, hfront, hitem⟩ := runVisits_search_first hvisits
  rw [filterMap_visits] at hitems
  have hmem : ∀ other ∈ front ++ item :: back, other ∈ liveItems store := fun other hother => hitems ▸ hother
  obtain ⟨hnode, rfl⟩ := (h.nodes.testNode_eq_some (hmem item (by simp))).mp hitem
  have hnodes : nodesOf store = front.map nodeOfItem ++ nodeOfItem item :: back.map nodeOfItem := by
    rw [nodesOf, hitems, List.map_append, List.map_cons]
  refine ⟨_, _, hnodes, ?_, hnode⟩
  intro other hother
  obtain ⟨item', hitem', rfl⟩ := List.mem_map.mp hother
  exact (h.nodes.testNode_eq_none (hmem item' (List.mem_append_left _ hitem'))).mp (hfront item' hitem')

/-- `document_take_first_node_by_condition` returns the first node that matches. -/
theorem Holds.takeFirst_answers {matcher : NodeMatcher} {res : Result Node} (h : Holds pageSize store doc)
    (hrun : documentTakeFirstNodeByCondition matcher doc = .ok res t) :
    match res with
    | .ok node => ∃ front back, nodesOf store = front ++ node :: back ∧
        (∀ other ∈ front, nodeConditionMatches matcher other = .ok false) ∧
        nodeConditionMatches matcher node = .ok true
    | .error _ => ∀ node ∈ nodesOf store, nodeConditionMatches matcher node = .ok false := by
  rw [documentTakeFirstNodeByCondition] at hrun
  simp only [run_bind, h.assertInitDone, andThen_ok] at hrun
  rw [← run_bind] at hrun
  obtain ⟨⟨found, it⟩, s, hsearch, hrest⟩ := bind_eq_ok.mp hrun
  obtain ⟨_, u, _, hrest⟩ := bind_eq_ok.mp hrest
  cases found with
  | some node =>
      cases hrest
      exact h.searchNodes_first hsearch
  | none =>
      cases hrest
      exact (h.searchNodes_ok hsearch).2.2.2

end Search

section Steps

variable {pageSize : Nat} {store : List (List Slot)} {doc t : Document} {nodes nodes' : List Node} {id : NodeId}
  {res : Result Unit} {node : Node} {result : Node} {fuel : Nat} {count count' : Int}

theorem answerOf_error (h : res ≠ .ok ()) (answer : Answer) : answerOf res answer = .refused := by
  cases res with
  | ok => exact absurd rfl h
  | error message => rfl

theorem not_live (h : ∀ node ∈ nodes, node.id ≠ id) : ¬Live nodes id := by
  rintro ⟨node, hnode, hid⟩
  exact h node hnode hid

theorem Holds.addNode_granted {request : CreateNodeRequest} (h : Holds pageSize store doc)
    (hrun : documentAddNode request result doc = .ok (res, node) t) (hbelow : FileBelow t.pageManager) :
    ∃ store', Holds pageSize store' t ∧
      (res = .ok () ∧ Granted request (nodesOf store) ∧ IsNew (nodesOf store) request node ∧
          nodesOf store' = nodesOf store ++ [node] ∨
        res ≠ .ok () ∧ ¬Granted request (nodesOf store) ∧ nodesOf store' = nodesOf store) := by
  rcases h.addNode_ok hrun hbelow with
    ⟨hres, ht, _, hroot, hchild⟩ | ⟨rfl, hroot, hchild, rfl, stored, hp, hv, ht⟩
  · refine ⟨store, ht, Or.inr ⟨hres, ?_, rfl⟩⟩
    rintro ⟨hnone, hsome⟩
    by_cases hnull : request.parent = nullNodeId
    · obtain ⟨root, hmem, hid⟩ := hroot hnull
      exact hnone hnull root hmem hid
    · obtain ⟨parent, hmem, hid⟩ := hsome hnull
      exact hchild hnull parent hmem hid
  · have hgranted : Granted request (nodesOf store) := ⟨fun hnull => (hroot hnull).2, hchild⟩
    refine ⟨_, ht, Or.inl ⟨rfl, hgranted, ⟨?_, rfl, rfl⟩, nodesOf_added h hp hv result⟩⟩
    exact fun other hother => before_putId_node _ _ hother

theorem Holds.addNode_answers {request : CreateNodeRequest} (h : Holds pageSize store doc)
    (hrun : documentAddNode request result doc = .ok (res, node) t) (hbelow : FileBelow t.pageManager) :
    ∃ store', Holds pageSize store' t ∧
      Answers (nodesOf store) (.add request) (answerOf res (.node node)) (nodesOf store') := by
  obtain ⟨store', ht, ⟨rfl, hgranted, hnew, hnodes⟩ | ⟨hres, hnot, hnodes⟩⟩ := h.addNode_granted hrun hbelow
  · refine ⟨store', ht, ?_⟩
    rw [hnodes]
    exact .added hgranted hnew
  · refine ⟨store', ht, ?_⟩
    rw [hnodes, answerOf_error hres]
    exact .notAdded hnot

theorem Holds.deleteNode_answers (h : Holds pageSize store doc)
    (hrun : documentDeleteNode ⟨id⟩ doc = .ok res t) :
    ∃ store', Holds pageSize store' t ∧
      Answers (nodesOf store) (.delete id) (answerOf res .done) (nodesOf store') := by
  obtain ⟨_, hleaf, ⟨hres, ht, hdead⟩ | ⟨rfl, hlive, k, i, rfl, ht⟩⟩ := h.deleteNode_ok hrun
  · refine ⟨store, ht, ?_⟩
    rw [answerOf_error hres]
    exact .notDeleted (not_live hdead) hleaf
  · refine ⟨_, ht, ?_⟩
    rw [nodesOf_deleteAt]
    exact .deleted hlive hleaf

theorem Holds.updateNode_answers {request : UpdateNodeRequest} (h : Holds pageSize store doc)
    (hrun : documentUpdateNode request result doc = .ok (res, node) t) (hbelow : FileBelow t.pageManager) :
    ∃ store', Holds pageSize store' t ∧
      Answers (nodesOf store) (.update request) (answerOf res (.node node)) (nodesOf store') := by
  obtain ⟨hleaf, ⟨hres, ht, hdead⟩ | ⟨hlive, k, i, hid, s, res', hs, hadd, hiff⟩⟩ := h.updateNode_ok hrun
  · refine ⟨store, ht, ?_⟩
    rw [answerOf_error hres]
    exact .notUpdated (not_live hdead) hleaf
  · have hwithout : nodesOf (deleteAt store k i) = without (nodesOf store) request.nodeId := by
      rw [nodesOf_deleteAt, hid, without]
    obtain ⟨store', ht, hcases⟩ := hs.addNode_granted hadd hbelow
    rw [hwithout] at hcases
    refine ⟨store', ht, ?_⟩
    rcases hcases with ⟨hok, hgranted, hnew, hnodes⟩ | ⟨hbad, hnot, hnodes⟩
    · obtain rfl := hiff.mpr hok
      rw [hnodes]
      exact .updated hlive hleaf hgranted hnew
    · rw [hnodes, answerOf_error (mt hiff.mp hbad)]
      exact .lost hlive hleaf hnot

theorem eq_of_same_nodes (h : nodes.Pairwise fun a b => Before a.id b.id)
    (h' : nodes'.Pairwise fun a b => Before a.id b.id) (hsame : ∀ node, node ∈ nodes ↔ node ∈ nodes') :
    nodes = nodes' := by
  have : Std.Irrefl fun a b : Node => Before a.id b.id := ⟨fun a => Before.irrefl a.id⟩
  have : Std.Antisymm fun a b : Node => Before a.id b.id :=
    ⟨fun a _ hab hba => absurd (hab.trans hba) (Before.irrefl a.id)⟩
  exact h.eq_of_mem_iff h' hsame

theorem Deletes.pruned {gone : List NodeId}
    (h : Deletes pageSize store (fun k => ∃ id ∈ gone, Below (nodesOf store) id k) count count' t) :
    ∃ store', Holds pageSize store' t ∧ nodesOf store' = Documents.pruned (nodesOf store) gone ∧
      count' - count = (nodesOf store).length - (nodesOf store').length := by
  obtain ⟨store', ht, hmem, hcount⟩ := h
  have hsorted := (pairwise_nodesOf store).sublist (pruned_sublist (nodesOf store) gone)
  refine ⟨store', ht, eq_of_same_nodes (pairwise_nodesOf store') hsorted fun node => ?_, by omega⟩
  rw [hmem, mem_pruned]

theorem Holds.deleteTree_answers (h : Holds pageSize store doc)
    (hrun : deleteNodeWithAllDescendants fuel id count doc = .ok (res, count') t) :
    ∃ store', Holds pageSize store' t ∧
      Answers (nodesOf store) (.deleteTree id) (answerOf res (.number (count' - count))) (nodesOf store') := by
  obtain ⟨rfl, hdeletes⟩ := deleteNodeWithAllDescendants_ok h hrun
  have htop : (fun k => ∃ top ∈ [id], Below (nodesOf store) top k) = Below (nodesOf store) id := by
    funext k
    simp
  rw [← htop] at hdeletes
  obtain ⟨store', ht, hnodes, hcount⟩ := hdeletes.pruned
  refine ⟨store', ht, ?_⟩
  rw [answerOf, hcount, hnodes]
  exact .treeDeleted

theorem Holds.deleteMatching_answers {matcher : NodeMatcher} (h : Holds pageSize store doc)
    (hrun : documentDeleteNodesByCondition fuel matcher count doc = .ok (res, count') t) :
    ∃ store', Holds pageSize store' t ∧
      Answers (nodesOf store) (.deleteMatching matcher) (answerOf res (.number (count' - count))) (nodesOf store') := by
  let roots := (matchingRoots (nodesOf store) matcher).map Node.id
  obtain ⟨rfl, _, hdeletes⟩ := h.deleteByCondition_ok hrun
  have hlength : (matchingRoots (nodesOf store) matcher).length = roots.length := (List.length_map Node.id).symm
  have hpruned : Deletes pageSize store (fun k => ∃ top ∈ roots, Below (nodesOf store) top k)
      (count + roots.length) count' t := by
    rw [← hlength]
    simpa [roots, matchingRoots] using hdeletes
  obtain ⟨store', ht, hnodes, hcount⟩ := hpruned.pruned
  have hnumber : count' - count = roots.length + ((nodesOf store).length - (nodesOf store').length) := by omega
  refine ⟨store', ht, ?_⟩
  rw [answerOf, hnumber, hnodes]
  exact .matchingDeleted rfl

theorem Holds.answers {request : Request} {answer : Answer} (h : Holds pageSize store doc)
    (hserves : Serves request answer doc t) (hbelow : FileBelow t.pageManager) :
    ∃ store', Holds pageSize store' t ∧ Answers (nodesOf store) request answer (nodesOf store') := by
  cases hserves with
  | add hrun => exact h.addNode_answers hrun hbelow
  | addBulk hrun =>
      obtain ⟨hres, ht, _, hdead⟩ := h.addBulkNodes_ok hrun
      refine ⟨store, ht, ?_⟩
      rw [answerOf_error hres]
      exact .notAddedBulk fun hvalues => not_live (hdead hvalues)
  | delete hrun => exact h.deleteNode_answers hrun
  | deleteTree hrun => exact h.deleteTree_answers hrun
  | deleteMatching hrun => exact h.deleteMatching_answers hrun
  | update hrun => exact h.updateNode_answers hrun hbelow
  | @children _ parent capacity count nodes _ hrun =>
      obtain ⟨ht, _, hnodes, hcount⟩ := h.getAllChildren_ok hrun
      simp only at hnodes hcount
      refine ⟨store, ht, ?_⟩
      rw [hcount, List.take_length, hnodes]
      exact .children
  | count hrun =>
      obtain ⟨ht, _, hdef, rfl⟩ := h.count_ok hrun
      exact ⟨store, ht, .counted hdef⟩
  | first hrun =>
      obtain ⟨front, back, hnodes, hfront, hmatch⟩ := h.takeFirst_answers hrun
      refine ⟨store, h.takeFirst_ok hrun, ?_⟩
      rw [hnodes]
      exact .first hfront hmatch
  | noFirst hrun => exact ⟨store, h.takeFirst_ok hrun, .noFirst (h.takeFirst_answers hrun)⟩
  | get hrun =>
      obtain ⟨ht, _, hdef, hres, hn, hpos⟩ := h.get_ok hrun
      cases hres
      exact ⟨store, ht, .got hdef (List.length_pos_iff.mp (hn ▸ hpos))⟩
  | noGet hrun =>
      obtain ⟨_, _, _, hres, _⟩ := h.get_ok hrun
      cases hres
  | @path _ matchers n left u nodes left' _ hcount hn hget =>
      -- The matchers come to the second pass as the first one has left them.
      obtain ⟨hu, heval, rfl, rfl⟩ := h.countSequence_ok hcount
      obtain ⟨ht, hres⟩ := hu.getSequence_ok hget
      rw [selected_leftBehind] at hres
      obtain rfl : nodes = selected (nodesOf store) matchers nullNodeId := by
        simpa using hres fun hnil => hn (by rw [hnil]; rfl)
      exact ⟨store, ht, .path heval⟩
  | noPath hcount =>
      obtain ⟨ht, heval, _, hn⟩ := h.countSequence_ok hcount
      refine ⟨store, ht, ?_⟩
      rw [← List.length_eq_zero_iff.mp hn.symm]
      exact .path heval
  | reopen hrun =>
      obtain ⟨rfl, ht⟩ := h.reopen_ok hrun
      exact ⟨store, ht, .reopened⟩

end Steps

section Histories

variable {pageSize : Nat} {doc : Document} {history : List (Request × Answer)}

theorem Served.told (h : Served pageSize history doc) :
    ∃ store, Holds (Bytes.toUInt32 pageSize) store doc ∧ Told history (nodesOf store) := by
  induction h with
  | init hsmall hinit => exact ⟨[[]], (documentInit_new_ok hsmall hinit).2, nodesOf_fresh ▸ .nil⟩
  | request _ hserves hbelow ih =>
      obtain ⟨store, hs, htold⟩ := ih
      obtain ⟨store', ht, hanswers⟩ := hs.answers hserves hbelow
      exact ⟨store', ht, htold.request hanswers⟩

/-- Whatever a document is asked and answers, a list of nodes answers the same, and holds
the live nodes then. -/
theorem served_told (h : Served pageSize history doc) : Told history (liveNodes doc) := by
  obtain ⟨store, hs, htold⟩ := h.told
  rwa [hs.liveNodes_eq]

/-- A child takes over a deleted id, the children are listed and the file is opened again. -/
theorem served_told_root :
    ∃ history doc, Served 4096 history doc ∧ Told history (liveNodes doc) ∧
      history.map Prod.fst = [.add newRoot, .add newChild, .add newChild, .delete ⟨0, 2⟩, .add otherChild,
        .children rootNodeId, .reopen] ∧
      liveNodes doc = [onFirstPage 0 newRoot, onFirstPage 1 newChild, onFirstPage 2 otherChild] := by
  obtain ⟨d0, d1, d2, d3, d4, d5, h⟩ := exists_replacing
  obtain ⟨slots, _, hpacked, hnodes⟩ := h.packed
  have hsize : Bytes.toUInt32 (4096 : Nat) = 4096 := Bytes.toUInt32_of_lt (by decide)
  have hroot := (Served.init (by rw [hsize]; decide) h.opened).request (.add h.root) (h.below d1 (by simp))
  have hfirst := hroot.request (.add h.first) (h.below d2 (by simp))
  have hgrown := hfirst.request (.add h.second) (h.below d3 (by simp))
  have hdeleted := hgrown.request (.delete h.deleted) (h.below d4 (by simp))
  have hadded := hdeleted.request (.add h.third) (h.below d5 (by simp))
  obtain ⟨s, hchildren, hs⟩ := hpacked.holds.getAllChildren_clean hpacked.allLive.clean ⟨rootNodeId⟩
    (show _ = [onFirstPage 1 newChild, onFirstPage 2 otherChild] by rw [hnodes]; rfl) (show _ ≤ 2 by decide)
  obtain ⟨t, hreopen, ht⟩ := hs.reopen hpacked.allLive.clean 4096
  have hserved := (hadded.request (.children hchildren) hs.below).request (.reopen hreopen) ht.below
  exact ⟨_, t, hserved, served_told hserved, rfl, ht.liveNodes_eq.trans hnodes⟩

end Histories

end DocumentDb.Documents
