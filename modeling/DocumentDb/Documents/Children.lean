import DocumentDb.Documents.Termination

namespace DocumentDb.Documents

open Storage Program Forest

variable {pageSize : Nat} {store : List (List Slot)} {doc t : Document}

section Children

variable {request : GetAllChildrenRequest} {capacity : Nat}

theorem childrenCount_eq (parent : NodeId) :
    (fun (count : Nat) (node : Node) => (do
      if node.parentId == parent then
        return count + 1
      return count : Except Fault Nat)) =
      countStep (nodeMatcherNew (nodeConditionParentIdEq parent)) := by
  funext count node
  rw [countStep]
  rw [nodeConditionMatches_new]
  exact (pure_bind _ _).symm

theorem childrenCollect_eq (parent : NodeId) (capacity : Nat) :
    (fun (nodes : List Node) (node : Node) => (do
      if node.parentId == parent then
        if capacity ≤ nodes.length then
          throw (.undefined "node written behind the end of the array")
        return nodes ++ [node]
      return nodes : Except Fault (List Node))) =
      collectStep (nodeMatcherNew (nodeConditionParentIdEq parent)) capacity := by
  funext nodes node
  rw [collectStep]
  rw [nodeConditionMatches_new]
  rfl

theorem Holds.getAllChildren_ok {result : Nat × List Node} (h : Holds pageSize store doc)
    (hrun : documentGetAllChildren request capacity doc = .ok result t) :
    Holds pageSize store t ∧ Clean (visits store) ∧
      result.2 = (nodesOf store).filter (fun node => node.parentId == request.parent) ∧
      result.1 = result.2.length := by
  have hmatch : matching (nodeMatcherNew (nodeConditionParentIdEq request.parent)) =
      fun node => node.parentId == request.parent := funext (matching_parentIdEq request.parent)
  rw [documentGetAllChildren] at hrun
  rw [childrenCount_eq, childrenCollect_eq] at hrun
  simp only [run_bind, h.assertInitDone, andThen_ok] at hrun
  rw [← run_bind] at hrun
  obtain ⟨⟨count, it⟩, s1, hcount, hrest⟩ := bind_eq_ok.mp hrun
  obtain ⟨h1, halive, hclean, hfold⟩ := h.eachNode_ok hcount
  obtain ⟨_, hn⟩ := foldlM_countStep.mp hfold
  rw [hmatch, Nat.zero_add] at hn
  obtain ⟨_, s2, hdestroy, hrest⟩ := bind_eq_ok.mp hrest
  have h2 := h1.destroyIterator_ok halive hdestroy
  by_cases hzero : count = 0
  · rw [if_pos hzero, run_pure] at hrest
    cases hrest
    have hnil := List.length_eq_zero_iff.mp (hn.symm.trans hzero)
    exact ⟨h2, hclean, hnil.symm, hzero⟩
  · rw [if_neg hzero] at hrest
    obtain ⟨⟨nodes, it'⟩, s3, hcollect, hrest⟩ := bind_eq_ok.mp hrest
    obtain ⟨h3, halive', _, hfold'⟩ := h2.eachNode_ok hcollect
    obtain ⟨_, hnodes, _⟩ := (foldlM_collectStep (Nat.zero_le capacity)).mp hfold'
    rw [hmatch, List.nil_append] at hnodes
    obtain ⟨_, s4, hdestroy', hrest⟩ := bind_eq_ok.mp hrest
    have h4 := h3.destroyIterator_ok halive' hdestroy'
    simp only [run_pure] at hrest
    cases hrest
    exact ⟨h4, hclean, hnodes, by rw [hn, hnodes]⟩

theorem Holds.getAllChildren_clean (h : Holds pageSize store doc) (hclean : Clean (visits store))
    (request : GetAllChildrenRequest) {children : List Node}
    (hchildren : (nodesOf store).filter (fun node => node.parentId == request.parent) = children)
    (hcapacity : children.length ≤ capacity) :
    ∃ t, documentGetAllChildren request capacity doc = .ok (children.length, children) t ∧
      Holds pageSize store t := by
  have hdef := defined_parentIdEq request.parent (nodesOf store)
  have hmatch : matching (nodeMatcherNew (nodeConditionParentIdEq request.parent)) =
      fun node => node.parentId == request.parent := funext (matching_parentIdEq request.parent)
  rw [← hmatch] at hchildren
  obtain ⟨it, s1, hcount, h1, halive⟩ := h.eachNode_clean hclean
    (foldlM_countStep.mpr ⟨hdef, (Nat.zero_add _).symm⟩)
  obtain ⟨s2, hdestroy, h2⟩ := h1.destroyIterator halive
  rw [documentGetAllChildren]
  rw [childrenCount_eq, childrenCollect_eq]
  rw [hchildren] at hcount
  simp only [run_bind, h.assertInitDone, andThen_ok, hcount, hdestroy]
  cases children with
  | nil => exact ⟨s2, by simp only [List.length_nil, if_true, run_pure], h2⟩
  | cons child children =>
      have hfold : (nodesOf store).foldlM
          (collectStep (nodeMatcherNew (nodeConditionParentIdEq request.parent)) capacity) [] =
            .ok (child :: children) :=
        (foldlM_collectStep (Nat.zero_le capacity)).mpr ⟨hdef, by rw [hchildren]; rfl, hcapacity⟩
      obtain ⟨it', s3, hcollect, h3, halive'⟩ := h2.eachNode_clean hclean hfold
      obtain ⟨t, hdestroy', ht⟩ := h3.destroyIterator halive'
      have hpos : ¬(child :: children).length = 0 := by simp
      exact ⟨t, by simp only [if_neg hpos, run_bind, hcollect, andThen_ok, hdestroy', run_pure], ht⟩

end Children

section DeleteByCondition

variable {fuel : Nat} {matcher : NodeMatcher} {nodes : List Node} {count count' : Int} {res : Result Unit}

/-- The loop of `document_delete_nodes_by_condition` that returns: it counts every
node that matches once more. -/
theorem deleteByConditionLoop_ok (h : Holds pageSize store doc)
    (hrun : deleteByConditionLoop fuel matcher nodes count doc = .ok (res, count') t) :
    res = .ok () ∧ Defined matcher nodes ∧
      Deletes pageSize store (fun k => ∃ node ∈ nodes.filter (matching matcher), Below (nodesOf store) node.id k)
        (count + (nodes.filter (matching matcher)).length) count' t := by
  induction nodes generalizing store doc count with
  | nil =>
      simp only [deleteByConditionLoop, run_pure] at hrun
      cases hrun
      exact ⟨rfl, by simp [Defined], by simpa using h.deletes_nil _⟩
  | cons node nodes ih =>
      rw [deleteByConditionLoop] at hrun
      obtain ⟨b, s1, hlift, hrest⟩ := bind_eq_ok.mp hrun
      obtain ⟨hmatch, rfl⟩ := lift_eq_ok.mp hlift
      have hb : matching matcher node = b := by rw [matching, hmatch]
      cases b with
      | false =>
          simp only [Bool.false_eq_true, if_false] at hrest
          obtain ⟨hres, hdef, hdeletes⟩ := ih h hrest
          rw [List.filter_cons_of_neg (by simp [hb])]
          exact ⟨hres, List.forall_mem_cons.mpr ⟨⟨_, hmatch⟩, hdef⟩, hdeletes⟩
      | true =>
          simp only [if_true] at hrest
          obtain ⟨⟨res1, count1⟩, s2, hone, hrest⟩ := bind_eq_ok.mp hrest
          obtain ⟨rfl, store1, h1, hnodes1, hcount1⟩ := deleteNodeWithAllDescendants_ok h hone
          obtain ⟨hres, hdef, hdeletes⟩ := ih h1 hrest
          rw [List.filter_cons_of_pos hb]
          refine ⟨hres, List.forall_mem_cons.mpr ⟨⟨_, hmatch⟩, hdef⟩, Deletes.cons hnodes1 ?_ hdeletes⟩
          push_cast [List.length_cons]
          omega

/-- `document_delete_nodes_by_condition` that returns has deleted the roots that
match, with the nodes below them. -/
theorem Holds.deleteByCondition_ok (h : Holds pageSize store doc)
    (hrun : documentDeleteNodesByCondition fuel matcher count doc = .ok (res, count') t) :
    let roots := (nodesOf store).filter fun node => node.parentId == nullNodeId
    res = .ok () ∧ Defined matcher roots ∧
      Deletes pageSize store (fun k => ∃ node ∈ roots.filter (matching matcher), Below (nodesOf store) node.id k)
        (count + (roots.filter (matching matcher)).length) count' t := by
  rw [documentDeleteNodesByCondition, documentGetAllNodes] at hrun
  simp only [run_bind, h.assertInitDone, andThen_ok] at hrun
  rw [← run_bind] at hrun
  obtain ⟨⟨n, nodes⟩, s1, hget, hrest⟩ := bind_eq_ok.mp hrun
  obtain ⟨h1, _, hnodes, hn⟩ := h.getAllChildren_ok hget
  simp only at hnodes hn
  rw [hn, List.take_length, hnodes] at hrest
  exact deleteByConditionLoop_ok h1 hrest

end DeleteByCondition

section Bulk

variable {parent : NodeId} {values : List NodeValue} {nodes nodes' : List Node} {it it' : ItemIterator}

theorem bulkLoop_cons (parent : NodeId) (value : NodeValue) (values : List NodeValue) (node : Node)
    (nodes : List Node) (it : ItemIterator) :
    bulkLoop parent (value :: values) (node :: nodes) it = (do
      let node ← documentPersistNewNode { node with value := value, parentId := parent }
      let it ← onPageManager (itemIteratorDestroy it)
      let r ← bulkLoop parent values nodes it
      return (node :: r.1, r.2)) := (rfl)

theorem bulkLoop_released (hvalues : values ≠ [])
    (hrun : bulkLoop parent values nodes it doc = .ok (nodes', it') t) : it'.isReleased = true := by
  induction values generalizing nodes it doc nodes' t with
  | nil => exact absurd rfl hvalues
  | cons value values ih =>
      cases nodes with
      | nil =>
          rw [bulkLoop, run_throw] at hrun
          cases hrun
      | cons node nodes =>
          rw [bulkLoop_cons] at hrun
          obtain ⟨node', s1, _, hrest⟩ := bind_eq_ok.mp hrun
          obtain ⟨it1, s2, hdestroyOn, hrest⟩ := bind_eq_ok.mp hrest
          obtain ⟨pm, hdestroy, rfl⟩ := onPageManager_eq_ok.mp hdestroyOn
          obtain ⟨⟨nodes1, it2⟩, s3, hloop, hrest⟩ := bind_eq_ok.mp hrest
          simp only [run_pure] at hrest
          cases hrest
          cases values with
          | nil =>
              rw [bulkLoop, run_pure] at hloop
              cases hloop
              exact (itemIteratorDestroy_ok hdestroy).2.1
          | cons value' values => exact ih (by simp) hloop

/-- The release behind the loop ends the program. -/
theorem bulk_not_ok {s : Document} {u : Unit} (hvalues : values ≠ []) :
    (do
      let r ← bulkLoop parent values nodes it
      destroyIterator r.2) doc ≠ .ok u s := by
  intro hrun
  obtain ⟨⟨nodes', it'⟩, s1, hloop, hdestroy⟩ := bind_eq_ok.mp hrun
  have hreleased := bulkLoop_released hvalues hloop
  obtain ⟨it'', s2, hdestroyOn, _⟩ := bind_eq_ok.mp hdestroy
  obtain ⟨pm, hdestroy', _⟩ := onPageManager_eq_ok.mp hdestroyOn
  rw [(itemIteratorDestroy_ok hdestroy').1] at hreleased
  cases hreleased

/-- `document_add_bulk_nodes` that returns has added nothing. -/
theorem Holds.addBulkNodes_ok {request : CreateMultipleNodesRequest} {result result' : List Node}
    {res : Result Unit} (h : Holds pageSize store doc)
    (hrun : documentAddBulkNodes request result doc = .ok (res, result') t) :
    res ≠ .ok () ∧ Holds pageSize store t ∧ result' = result ∧
      (request.values ≠ [] → ∀ node ∈ nodesOf store, node.id ≠ request.parent) := by
  rw [documentAddBulkNodes] at hrun
  simp only [run_bind, h.assertInitDone, andThen_ok] at hrun
  by_cases hempty : request.values.length = 0
  · rw [if_pos hempty, run_pure] at hrun
    cases hrun
    exact ⟨by simp, h, rfl, fun hne => absurd (List.length_eq_zero_iff.mp hempty) hne⟩
  rw [if_neg hempty] at hrun
  have hvalues : request.values ≠ [] := fun hnil => hempty (by rw [hnil]; rfl)
  obtain ⟨⟨found, it⟩, s1, hsearch, hrest⟩ := bind_eq_ok.mp hrun
  obtain ⟨h1, halive, hfound⟩ := h.searchNodes_ok hsearch
  cases found with
  | none =>
      simp only [Option.isSome_none, Bool.false_eq_true, if_false] at hrest
      obtain ⟨_, s2, hdestroy, hrest⟩ := bind_eq_ok.mp hrest
      simp only [run_pure] at hrest
      cases hrest
      exact ⟨by simp, h1.destroyIterator_ok halive hdestroy, rfl,
        fun _ node hnode => by simpa using hfound.2 node hnode⟩
  | some node =>
      simp only [Option.isSome_some, if_true] at hrest
      obtain ⟨⟨nodes, it'⟩, s2, hloop, hrest⟩ := bind_eq_ok.mp hrest
      obtain ⟨_, s3, hdestroy, _⟩ := bind_eq_ok.mp hrest
      exact absurd (bind_eq_ok.mpr ⟨_, s2, hloop, hdestroy⟩) (bulk_not_ok hvalues)

end Bulk

end DocumentDb.Documents
