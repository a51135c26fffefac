import DocumentDb.Documents.Operations

namespace DocumentDb.Documents

open Storage Program

section Matching

variable {matcher : NodeMatcher} {nodes : List Node} {node : Node}

def Defined (matcher : NodeMatcher) (nodes : List Node) : Prop :=
  ∀ node ∈ nodes, ∃ b, nodeConditionMatches matcher node = .ok b

def matching (matcher : NodeMatcher) (node : Node) : Bool :=
  match nodeConditionMatches matcher node with
  | .ok b => b
  | .error _ => false

theorem nodeConditionMatches_new (condition : NodeConditionFunc) (node : Node) :
    nodeConditionMatches (nodeMatcherNew condition) node = condition node := by
  rw [nodeConditionMatches, nodeMatcherNew]
  cases h : condition node with
  | error e => simp [List.allM, h, bind, Except.bind]
  | ok b => cases b <;> simp [List.allM, h, bind, Except.bind, pure, Except.pure]

theorem defined_parentIdEq (parentId : NodeId) (nodes : List Node) :
    Defined (nodeMatcherNew (nodeConditionParentIdEq parentId)) nodes := fun node _ =>
  ⟨_, nodeConditionMatches_new _ node⟩

theorem matching_parentIdEq (parentId : NodeId) (node : Node) :
    matching (nodeMatcherNew (nodeConditionParentIdEq parentId)) node = (node.parentId == parentId) := by
  rw [matching, nodeConditionMatches_new]
  rfl

theorem Defined.matches_eq (h : Defined matcher nodes) (hnode : node ∈ nodes) :
    nodeConditionMatches matcher node = .ok (matching matcher node) := by
  obtain ⟨b, hb⟩ := h node hnode
  rw [matching, hb]

def countStep (matcher : NodeMatcher) (count : Nat) (node : Node) : Except Fault Nat := do
  if ← nodeConditionMatches matcher node then
    return count + 1
  return count

def collectStep (matcher : NodeMatcher) (resultCount : Nat) (nodes : List Node) (node : Node) :
    Except Fault (List Node) := do
  if ← nodeConditionMatches matcher node then
    if resultCount ≤ nodes.length then
      throw (.undefined "node written behind the end of the array")
    return nodes ++ [node]
  return nodes

theorem countStep_eq_ok {count r : Nat} : countStep matcher count node = .ok r ↔
    ∃ b, nodeConditionMatches matcher node = .ok b ∧ r = if b then count + 1 else count := by
  rw [countStep]
  cases nodeConditionMatches matcher node with
  | error e =>
      constructor
      · rintro ⟨⟩
      · rintro ⟨_, ⟨⟩, _⟩
  | ok b =>
      cases b with
      | true => simp [bind, Except.bind, pure, Except.pure, eq_comm]
      | false => simp [bind, Except.bind, pure, Except.pure, eq_comm]

theorem collectStep_eq_ok {resultCount : Nat} {acc r : List Node} :
    collectStep matcher resultCount acc node = .ok r ↔
    ∃ b, nodeConditionMatches matcher node = .ok b ∧ (b = true → acc.length < resultCount) ∧
      r = if b then acc ++ [node] else acc := by
  rw [collectStep]
  cases nodeConditionMatches matcher node with
  | error e =>
      constructor
      · rintro ⟨⟩
      · rintro ⟨_, ⟨⟩, _⟩
  | ok b =>
      cases b with
      | false => simp [bind, Except.bind, pure, Except.pure, eq_comm]
      | true =>
          by_cases hfull : resultCount ≤ acc.length
          · simp [bind, Except.bind, throw, throwThe, MonadExceptOf.throw, hfull]
          · simp [bind, Except.bind, pure, Except.pure, hfull, eq_comm, Nat.lt_of_not_le hfull]

theorem foldlM_countStep {count r : Nat} :
    nodes.foldlM (countStep matcher) count = .ok r ↔
      Defined matcher nodes ∧ r = count + (nodes.filter (matching matcher)).length := by
  induction nodes generalizing count with
  | nil =>
      simp only [List.foldlM_nil, List.filter_nil, List.length_nil, Nat.add_zero]
      constructor
      · rintro ⟨⟩
        exact ⟨by simp [Defined], rfl⟩
      · rintro ⟨_, rfl⟩
        rfl
  | cons node nodes ih =>
      rw [foldlM_cons_eq_ok, Defined, List.forall_mem_cons, List.filter_cons]
      constructor
      · rintro ⟨count1, hstep, hrest⟩
        obtain ⟨b, hm, rfl⟩ := countStep_eq_ok.mp hstep
        obtain ⟨hdef, hr⟩ := ih.mp hrest
        refine ⟨⟨⟨b, hm⟩, hdef⟩, ?_⟩
        rw [hr, matching, hm]
        cases b with
        | true => rw [if_pos rfl, if_pos rfl, List.length_cons, Nat.add_right_comm, Nat.add_assoc]
        | false => rfl
      · rintro ⟨⟨⟨b, hm⟩, hdef⟩, hr⟩
        refine ⟨_, countStep_eq_ok.mpr ⟨b, hm, rfl⟩, ih.mpr ⟨hdef, ?_⟩⟩
        rw [hr, matching, hm]
        cases b with
        | true => rw [if_pos rfl, if_pos rfl, List.length_cons, Nat.add_right_comm, Nat.add_assoc]
        | false => rfl

theorem foldlM_collectStep {resultCount : Nat} {acc r : List Node} (hacc : acc.length ≤ resultCount) :
    nodes.foldlM (collectStep matcher resultCount) acc = .ok r ↔
      Defined matcher nodes ∧ r = acc ++ nodes.filter (matching matcher) ∧ r.length ≤ resultCount := by
  induction nodes generalizing acc with
  | nil =>
      simp only [List.foldlM_nil, List.filter_nil, List.append_nil]
      constructor
      · rintro ⟨⟩
        exact ⟨by simp [Defined], rfl, hacc⟩
      · rintro ⟨_, rfl, _⟩
        rfl
  | cons node nodes ih =>
      rw [foldlM_cons_eq_ok, Defined, List.forall_mem_cons, List.filter_cons]
      constructor
      · rintro ⟨acc1, hstep, hrest⟩
        obtain ⟨b, hm, hroom, rfl⟩ := collectStep_eq_ok.mp hstep
        rw [matching, hm]
        cases b with
        | true =>
            obtain ⟨hdef, hr, hlen⟩ := (ih (by rw [if_pos rfl, List.length_append]; exact hroom rfl)).mp hrest
            refine ⟨⟨⟨_, rfl⟩, hdef⟩, ?_, hlen⟩
            rw [hr, if_pos rfl, if_pos rfl, List.append_assoc, List.singleton_append]
        | false =>
            obtain ⟨hdef, hr⟩ := (ih hacc).mp hrest
            exact ⟨⟨⟨_, rfl⟩, hdef⟩, hr⟩
      · rintro ⟨⟨⟨b, hm⟩, hdef⟩, hr, hlen⟩
        rw [matching, hm] at hr
        cases b with
        | true =>
            rw [if_pos rfl] at hr
            have hroom : acc.length < resultCount := by
              rw [hr, List.length_append, List.length_cons] at hlen
              omega
            refine ⟨acc ++ [node], collectStep_eq_ok.mpr ⟨true, hm, fun _ => hroom, rfl⟩,
              (ih ?_).mpr ⟨hdef, ?_, hlen⟩⟩
            · rw [List.length_append]
              exact hroom
            · rw [hr, List.append_assoc, List.singleton_append]
        | false =>
            exact ⟨acc, collectStep_eq_ok.mpr ⟨false, hm, by simp, rfl⟩,
              (ih hacc).mpr ⟨hdef, hr, hlen⟩⟩

theorem countStep_error {count : Nat} {e : Fault} (h : countStep matcher count node = .error e) :
    nodeConditionMatches matcher node = .error e := by
  rw [countStep] at h
  cases hm : nodeConditionMatches matcher node with
  | error e' =>
      rw [hm] at h
      cases h
      rfl
  | ok b =>
      rw [hm] at h
      cases b <;> cases h

end Matching

section Counting

variable {pageSize : Nat} {store : List (List Slot)} {doc t : Document} {matcher : NodeMatcher} {n : Nat}

theorem Holds.count_ok (h : Holds pageSize store doc)
    (hrun : documentCountNodesByCondition matcher doc = .ok n t) :
    Holds pageSize store t ∧ Clean (visits store) ∧ Defined matcher (nodesOf store) ∧
      n = ((nodesOf store).filter (matching matcher)).length := by
  rw [documentCountNodesByCondition] at hrun
  simp only [run_bind, h.assertInitDone, andThen_ok] at hrun
  rw [← run_bind] at hrun
  obtain ⟨⟨count, it⟩, s1, heach, hrest⟩ := bind_eq_ok.mp hrun
  obtain ⟨h1, halive, hclean, hfold⟩ := h.eachNode_ok heach
  obtain ⟨_, s2, hdestroy, hpure⟩ := bind_eq_ok.mp hrest
  have h2 := h1.destroyIterator_ok halive hdestroy
  simp only [run_pure] at hpure
  cases hpure
  obtain ⟨hdef, hcount⟩ := foldlM_countStep.mp hfold
  exact ⟨h2, hclean, hdef, by rw [hcount, Nat.zero_add]⟩

theorem Holds.count_clean (h : Holds pageSize store doc) (hclean : Clean (visits store))
    (hdef : Defined matcher (nodesOf store)) :
    ∃ t, documentCountNodesByCondition matcher doc =
        .ok ((nodesOf store).filter (matching matcher)).length t ∧ Holds pageSize store t := by
  obtain ⟨it, s1, heach, h1, halive⟩ := h.eachNode_clean hclean
    (foldlM_countStep.mpr ⟨hdef, (Nat.zero_add _).symm⟩)
  obtain ⟨t, hdestroy, ht⟩ := h1.destroyIterator halive
  refine ⟨t, ?_, ht⟩
  unfold countStep at heach
  rw [documentCountNodesByCondition]
  simp only [run_bind, h.assertInitDone, andThen_ok, heach, hdestroy, run_pure]

theorem Holds.count_error (h : Holds pageSize store doc) {e : Fault}
    (hrun : documentCountNodesByCondition matcher doc = .error e t) :
    e = .assertion "metadata->is_deleted == false" ∨
      ∃ node ∈ nodesOf store, nodeConditionMatches matcher node = .error e := by
  rw [documentCountNodesByCondition] at hrun
  simp only [run_bind, h.assertInitDone, andThen_ok] at hrun
  cases heach : eachNode (countStep matcher) 0 doc with
  | error e' s1 =>
      unfold countStep at heach
      rw [heach] at hrun
      cases hrun
      rcases h.eachNode_error heach with hassert | ⟨acc, node, hnode, hstep⟩
      · exact Or.inl hassert
      · exact Or.inr ⟨node, hnode, countStep_error hstep⟩
  | ok r s1 =>
      obtain ⟨count, it⟩ := r
      obtain ⟨h1, halive, _⟩ := h.eachNode_ok heach
      obtain ⟨s2, hdestroy, _⟩ := h1.destroyIterator halive
      unfold countStep at heach
      simp only [heach, andThen_ok, run_bind, hdestroy, run_pure, reduceCtorEq] at hrun

theorem Holds.get_ok {res : Result (List Node)} (h : Holds pageSize store doc)
    (hrun : documentGetNodesByCondition matcher n doc = .ok res t) :
    Holds pageSize store t ∧ Clean (visits store) ∧ Defined matcher (nodesOf store) ∧
      res = .ok ((nodesOf store).filter (matching matcher)) ∧
      n = ((nodesOf store).filter (matching matcher)).length ∧ 0 < n := by
  rw [documentGetNodesByCondition] at hrun
  simp only [run_bind, h.assertInitDone, andThen_ok] at hrun
  by_cases hn : n = 0
  · rw [if_pos hn, run_bind, run_throw] at hrun
    cases hrun
  rw [if_neg hn, run_bind] at hrun
  cases heach : eachNode (collectStep matcher n) [] doc with
  | error e s1 =>
      unfold collectStep at heach
      rw [heach] at hrun
      cases hrun
  | ok r s1 =>
      obtain ⟨nodes, it⟩ := r
      obtain ⟨h1, halive, hclean, hfold⟩ := h.eachNode_ok heach
      obtain ⟨hdef, rfl, hlen⟩ := (foldlM_collectStep (Nat.zero_le n)).mp hfold
      obtain ⟨s2, hdestroy, h2⟩ := h1.destroyIterator halive
      unfold collectStep at heach
      rw [List.nil_append] at heach
      simp only [heach, andThen_ok, run_bind, hdestroy] at hrun
      by_cases hcount : n = ((nodesOf store).filter (matching matcher)).length
      · rw [if_neg (not_not.mpr hcount), if_neg (by rw [← hcount]; exact hn), run_pure] at hrun
        cases hrun
        exact ⟨h2, hclean, hdef, rfl, hcount, Nat.pos_of_ne_zero hn⟩
      · rw [if_pos hcount, run_bind, run_throw] at hrun
        cases hrun

theorem Holds.get_clean (h : Holds pageSize store doc) (hclean : Clean (visits store))
    (hdef : Defined matcher (nodesOf store))
    (hn : 0 < ((nodesOf store).filter (matching matcher)).length) :
    ∃ t, documentGetNodesByCondition matcher ((nodesOf store).filter (matching matcher)).length doc =
        .ok (.ok ((nodesOf store).filter (matching matcher))) t ∧ Holds pageSize store t := by
  obtain ⟨it, s1, heach, h1, halive⟩ := h.eachNode_clean hclean
    ((foldlM_collectStep (Nat.zero_le _)).mpr ⟨hdef, (List.nil_append _).symm, le_rfl⟩)
  obtain ⟨t, hdestroy, ht⟩ := h1.destroyIterator halive
  refine ⟨t, ?_, ht⟩
  unfold collectStep at heach
  rw [documentGetNodesByCondition]
  simp only [run_bind, h.assertInitDone, andThen_ok, hn.ne', if_false, heach, hdestroy, run_pure, ne_eq,
    not_true]

end Counting

section First

variable {pageSize : Nat} {store : List (List Slot)} {doc t : Document} {matcher : NodeMatcher}

theorem Holds.takeFirst_ok {res : Result Node} (h : Holds pageSize store doc)
    (hrun : documentTakeFirstNodeByCondition matcher doc = .ok res t) : Holds pageSize store t := by
  rw [documentTakeFirstNodeByCondition] at hrun
  simp only [run_bind, h.assertInitDone, andThen_ok] at hrun
  rw [← run_bind] at hrun
  obtain ⟨⟨found, it⟩, s1, hsearch, hrest⟩ := bind_eq_ok.mp hrun
  obtain ⟨h1, halive, _⟩ := h.searchNodes_ok hsearch
  obtain ⟨_, s2, hdestroy, hrest⟩ := bind_eq_ok.mp hrest
  have h2 := h1.destroyIterator_ok halive hdestroy
  cases found <;> · simp only [run_pure] at hrest; cases hrest; exact h2

theorem Holds.withRoot (h : Holds pageSize store doc) (root : Node) :
    Holds pageSize store { doc with rootNode := some root } :=
  ⟨h.initDone, by simp, h.stores, h.nodes⟩

theorem Holds.setRootNode_ok {u : Unit} (h : Holds pageSize store doc) (hrun : setRootNode doc = .ok u t) :
    Holds pageSize store t := by
  rw [setRootNode] at hrun
  simp only [run_bind, run_modify, andThen_ok] at hrun
  rw [← run_bind] at hrun
  obtain ⟨res, s1, hfirst, hrest⟩ := bind_eq_ok.mp hrun
  have h1 := (h.withRoot zeroNode).takeFirst_ok hfirst
  cases res with
  | error message =>
      simp only [run_pure] at hrest
      cases hrest
      exact h1
  | ok node =>
      simp only [run_modify] at hrest
      cases hrest
      exact h1.withRoot node

theorem Holds.setRootNode_clean (h : Holds pageSize store doc) (hclean : Clean (visits store)) :
    ∃ t, setRootNode doc = .ok () t ∧ Holds pageSize store t := by
  have hmatch : nodeConditionMatches (nodeMatcherNew (nodeConditionParentIdEq rootNodeId)) =
      fun node => .ok (node.parentId == rootNodeId) := by
    funext node
    exact nodeConditionMatches_new _ node
  have hzero := h.withRoot zeroNode
  obtain ⟨it, s1, hsearch, h1, halive⟩ :=
    hzero.searchNodes_clean hclean fun node => node.parentId == rootNodeId
  obtain ⟨s2, hdestroy, h2⟩ := h1.destroyIterator halive
  rw [setRootNode, documentTakeFirstNodeByCondition]
  simp only [run_bind, run_modify, andThen_ok, hzero.assertInitDone, hmatch, hsearch, hdestroy]
  cases (nodesOf store).find? fun node => node.parentId == rootNodeId with
  | none => exact ⟨s2, by simp only [run_pure, andThen_ok], h2⟩
  | some node =>
      exact ⟨{ s2 with rootNode := some node }, by simp only [run_pure, andThen_ok, run_modify],
        h2.withRoot node⟩

end First

end DocumentDb.Documents
