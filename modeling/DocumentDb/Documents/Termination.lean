import DocumentDb.Documents.Descendants

namespace DocumentDb.Documents

open Storage Program Forest

section Faults

variable {pageSize : Nat} {store : List (List Slot)} {doc t : Document} {matcher : NodeMatcher}
  {p : Node → Except Fault Bool} {id : NodeId}

abbrev Stops {α : Type} (x : DocumentM α) (doc : Document) : Prop := FailsWith (· ≠ Fault.diverges) x doc

theorem Holds.searchNodes_stops (h : Holds pageSize store doc)
    (hp : ∀ node ∈ nodesOf store, ∀ e, p node = .error e → e ≠ .diverges) : Stops (searchNodes p) doc := by
  intro e t hrun
  rcases h.searchNodes_error hrun with rfl | ⟨node, hnode, he⟩
  · simp
  · exact hp node hnode e he

theorem Holds.search_stops (h : Holds pageSize store doc) (test : Node → Bool) :
    Stops (searchNodes fun node => .ok (test node)) doc :=
  h.searchNodes_stops fun node _ e he => by cases he

theorem Holds.destroyIterator_stops {it : ItemIterator} (h : Holds pageSize store doc)
    (hit : it.isReleased = false) : Stops (Documents.destroyIterator it) doc := by
  obtain ⟨t, hrun, _⟩ := h.destroyIterator hit
  exact FailsWith.of_ok hrun

theorem Holds.assertInitDone_stops (h : Holds pageSize store doc) : Stops Documents.assertInitDone doc :=
  FailsWith.of_ok h.assertInitDone

def MatcherStops (matcher : NodeMatcher) (nodes : List Node) : Prop :=
  ∀ node ∈ nodes, ∀ e, nodeConditionMatches matcher node = .error e → e ≠ .diverges

theorem matcherStops_of_defined {nodes : List Node} (h : Defined matcher nodes) :
    MatcherStops matcher nodes := by
  intro node hnode e he
  rw [h.matches_eq hnode] at he
  cases he

theorem Holds.count_stops (h : Holds pageSize store doc) (hm : MatcherStops matcher (nodesOf store)) :
    Stops (documentCountNodesByCondition matcher) doc := by
  intro e t hrun
  rcases h.count_error hrun with rfl | ⟨node, hnode, he⟩
  · simp
  · exact hm node hnode e he

theorem collectStep_error {n : Nat} {acc : List Node} {node : Node} {e : Fault}
    (h : collectStep matcher n acc node = .error e) :
    nodeConditionMatches matcher node = .error e ∨
      e = .undefined "node written behind the end of the array" := by
  rw [collectStep] at h
  cases hm : nodeConditionMatches matcher node with
  | error e' =>
      rw [hm] at h
      cases h
      exact Or.inl rfl
  | ok b =>
      rw [hm] at h
      cases b with
      | false => cases h
      | true =>
          simp only [bind, Except.bind, if_true] at h
          split at h
          · cases h
            exact Or.inr rfl
          · cases h

theorem Holds.get_stops (h : Holds pageSize store doc) (hm : MatcherStops matcher (nodesOf store)) (n : Nat) :
    Stops (documentGetNodesByCondition matcher n) doc := by
  rw [documentGetNodesByCondition]
  refine FailsWith.bind h.assertInitDone_stops fun _ s hs => ?_
  rw [h.assertInitDone] at hs
  cases hs
  by_cases hn : n = 0
  · rw [if_pos hn]
    exact FailsWith.bind (FailsWith.throw (by simp)) fun _ s hs => by cases hs
  · rw [if_neg hn]
    refine FailsWith.bind (fun e t heach => ?_) fun r s heach => ?_
    · rcases h.eachNode_error heach with rfl | ⟨acc, node, hnode, hstep⟩
      · simp
      · rcases collectStep_error hstep with he | rfl
        · exact hm node hnode e he
        · simp
    · obtain ⟨nodes, it⟩ := r
      obtain ⟨hs, halive, _⟩ := h.eachNode_ok heach
      refine FailsWith.bind (hs.destroyIterator_stops halive) fun _ u _ => ?_
      by_cases hlen : n = nodes.length
      · rw [if_neg (not_not.mpr hlen)]
        split <;> exact FailsWith.pure _
      · rw [if_pos hlen]
        exact FailsWith.bind (FailsWith.throw (by simp)) fun _ s hs => by cases hs

theorem abortIfFail_stops {α : Type} (res : Result α) (message : String) (doc : Document) :
    Stops (abortIfFail res message) doc := by
  cases res with
  | ok a => exact FailsWith.pure a
  | error e => exact FailsWith.throw (by simp)

theorem Holds.deleteSecondStep_stops (h : Holds pageSize store doc) (id : NodeId) :
    Stops (documentDeleteSecondStep ⟨id⟩) doc := by
  intro e t hrun
  have hstep := h.deleteSecondStep_eq id
  cases hvisits : runVisits (search (hasId id)) none (visits store) with
  | error e' =>
      rw [hvisits] at hstep
      obtain ⟨u, hu⟩ := hstep
      rw [hrun] at hu
      cases hu
      rcases runVisits_error hvisits with rfl | ⟨acc, item, _, hbody⟩
      · simp
      · simp only [search, hasId, bind, Except.bind] at hbody
        split at hbody <;> cases hbody
  | ok r =>
      obtain ⟨found, stop⟩ := r
      rw [hvisits] at hstep
      cases found with
      | none =>
          obtain ⟨u, hu, _⟩ := hstep
          rw [hrun] at hu
          cases hu
      | some item =>
          obtain ⟨_, _, k, i, u, _, hu, _⟩ := hstep
          rw [hrun] at hu
          cases hu

theorem Holds.deleteNode_stops (h : Holds pageSize store doc) (id : NodeId) :
    Stops (documentDeleteNode ⟨id⟩) doc := by
  rw [documentDeleteNode]
  refine FailsWith.bind h.assertInitDone_stops fun _ s hs => ?_
  rw [h.assertInitDone] at hs
  cases hs
  refine FailsWith.bind (h.search_stops _) fun r s hsearch => ?_
  obtain ⟨child, it⟩ := r
  obtain ⟨h1, halive, _⟩ := h.searchNodes_ok hsearch
  refine FailsWith.bind (h1.destroyIterator_stops halive) fun _ u hdestroy => ?_
  have h2 := h1.destroyIterator_ok halive hdestroy
  cases child with
  | some child => exact FailsWith.bind (FailsWith.throw (by simp)) fun _ s hs => by cases hs
  | none => exact h2.deleteSecondStep_stops id

theorem Holds.takeChildren_stops (h : Holds pageSize store doc) (id : NodeId) :
    Stops (takeChildren id) doc := by
  have hdef := matcherStops_of_defined (defined_parentIdEq id (nodesOf store))
  rw [takeChildren]
  refine FailsWith.bind (h.count_stops hdef) fun n s hcount => ?_
  obtain ⟨h1, _⟩ := h.count_ok hcount
  split
  · exact FailsWith.bind (h1.get_stops hdef n) fun res u _ => abortIfFail_stops _ _ u
  · exact FailsWith.pure _

end Faults

section Recursion

variable {pageSize : Nat} {store : List (List Slot)} {doc : Document} {nodes nodes' : List Node}

/-- The nodes with a greater id than `id`. Every node below `id` is one of them. -/
def above (nodes : List Node) (id : NodeId) : Nat := nodes.countP fun node => decide (Before id node.id)

/-- The children of a node have fewer nodes above them than the node has. -/
theorem above_child {id : NodeId} {child : Node} (hids : nodes.Pairwise fun a b => Before a.id b.id)
    (hchild : child ∈ nodes) (hbefore : Before id child.id) : above nodes child.id < above nodes id := by
  unfold above
  induction hids with
  | nil => cases hchild
  | @cons a nodes ha hpair ih =>
      rw [List.countP_cons, List.countP_cons]
      rcases List.mem_cons.mp hchild with rfl | hchild
      · have hmono : nodes.countP (fun node => decide (Before child.id node.id)) ≤
            nodes.countP fun node => decide (Before id node.id) :=
          List.countP_mono_left fun node _ hnode => by
            simp only [decide_eq_true_eq] at hnode ⊢
            exact hbefore.trans hnode
        rw [if_neg (by simpa using Before.irrefl child.id), if_pos (by simpa using hbefore)]
        omega
      · have hlt := ih hchild
        have ha' : ¬Before child.id a.id := fun h => Before.irrefl _ (h.trans (ha child hchild))
        rw [if_neg (by simpa using ha')]
        omega

theorem above_subset {id : NodeId} (hids : nodes'.Pairwise fun a b => Before a.id b.id)
    (hsub : nodes' ⊆ nodes) : above nodes' id ≤ above nodes id := by
  have hnodup : nodes'.Nodup := hids.imp fun h => by
    rintro rfl
    exact Before.irrefl _ h
  exact (List.subperm_of_subset hnodup hsub).countP_le _

/-- A child has a greater id than its parent; the ids of roots are not negative. -/
theorem Rooted.before_child {id : NodeId} {child : Node} (h : Rooted (nodesOf store))
    (hchild : child ∈ nodesOf store) (hparent : child.parentId = id) : Before id child.id := by
  rcases h child hchild with hnull | ⟨m, _, hkey, hlt⟩
  · obtain ⟨item, hitem, rfl⟩ := List.mem_map.mp hchild
    obtain ⟨k, i, _, _, hid, _⟩ := liveBytes_some (mem_liveItems.mp hitem).1
    rw [← hparent, hnull, nodeOfItem_id, hid]
    exact Or.inl (by simp only [nullNodeId]; omega)
  · rw [← hparent, ← hkey]
    exact hlt

theorem Rooted.deleted {store' : List (List Slot)} (h : Rooted (nodesOf store)) (id : NodeId)
    (hnodes : ∀ node, node ∈ nodesOf store' ↔
      node ∈ nodesOf store ∧ ¬Below (nodesOf store) id node.id) : Rooted (nodesOf store') :=
  Grounded.remaining h _ hnodes fun _ hn hp => Under.child hn hp

theorem deleteChildren_stops {fuel : Nat} {children : List Node} {count : Int}
    (ih : ∀ {store : List (List Slot)} {doc : Document} {id : NodeId} {count : Int},
      Holds pageSize store doc → Rooted (nodesOf store) → above (nodesOf store) id < fuel →
        Stops (deleteNodeWithAllDescendants fuel id count) doc)
    (h : Holds pageSize store doc) (hrooted : Rooted (nodesOf store))
    (hfuel : ∀ child ∈ children, above (nodesOf store) child.id < fuel) :
    Stops (deleteChildren fuel children count) doc := by
  induction children generalizing store doc count with
  | nil => exact FailsWith.pure _
  | cons child children ihc =>
      rw [deleteChildren_cons]
      refine FailsWith.bind (ih h hrooted (hfuel child List.mem_cons_self)) fun r s hone => ?_
      obtain ⟨res, count1⟩ := r
      obtain ⟨_, store1, h1, hnodes1, _⟩ := deleteNodeWithAllDescendants_ok h hone
      refine FailsWith.bind (abortIfFail_stops _ _ s) fun _ u habort => ?_
      obtain ⟨_, rfl⟩ := abortIfFail_eq_ok.mp habort
      refine ihc h1 (hrooted.deleted child.id hnodes1) fun c hc => ?_
      exact (above_subset (pairwise_nodesOf store1) fun n hn => ((hnodes1 n).mp hn).1).trans_lt
        (hfuel c (List.mem_cons_of_mem _ hc))

/-- `delete_node_with_all_descendants` ends: every level of the recursion goes
to a greater id. -/
theorem deleteNodeWithAllDescendants_stops {fuel : Nat} {id : NodeId} {count : Int}
    (h : Holds pageSize store doc) (hrooted : Rooted (nodesOf store))
    (hfuel : above (nodesOf store) id < fuel) : Stops (deleteNodeWithAllDescendants fuel id count) doc := by
  induction fuel generalizing store doc id count with
  | zero => omega
  | succ fuel ih =>
      rw [deleteNodeWithAllDescendants_eq]
      refine FailsWith.bind (h.takeChildren_stops id) fun children s htake => ?_
      obtain ⟨h1, rfl⟩ := h.takeChildren_ok htake
      refine FailsWith.bind (deleteChildren_stops ih h1 hrooted fun child hchild => ?_) fun count2 s2 hrun => ?_
      · obtain ⟨hmem, hparent⟩ := List.mem_filter.mp hchild
        have hlt := above_child (pairwise_nodesOf store) hmem
          (Rooted.before_child hrooted hmem (by simpa using hparent))
        omega
      · obtain ⟨store2, h2, _⟩ := deleteChildren_ok deleteNodeWithAllDescendants_ok h1 hrun
        refine FailsWith.bind (h2.deleteNode_stops id) fun res u _ => ?_
        exact FailsWith.bind (abortIfFail_stops _ _ u) fun _ v _ => FailsWith.pure _

end Recursion

end DocumentDb.Documents
