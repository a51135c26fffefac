import DocumentDb.Documents.Growth

namespace DocumentDb.Documents

open Storage Program Forest Bytes

section Parents

variable {pageSize : Nat} {doc : Document}

/-- Going from a node to its parent goes to a live node that comes before it, and never
back to where it started. -/
theorem reachableDocument_parents (h : ReachableDocument pageSize doc) :
    (∀ node ∈ liveNodes doc, node.parentId = nullNodeId ∨
      ∃ parent ∈ liveNodes doc, parent.id = node.parentId ∧ Before parent.id node.id) ∧
    ∀ id, ¬Relation.TransGen (ChildOf Node.id Node.parentId (liveNodes doc)) id id := by
  obtain ⟨store, hstore, hrooted⟩ := h.tree
  rw [hstore.liveNodes_eq]
  refine ⟨hrooted, fun id => ?_⟩
  exact hrooted.acyclic (fun _ _ _ => Before.trans) Before.irrefl (fun _ => id_ne_null) id

/-- A root with a child on a page of 4096 bytes. -/
theorem reachableDocument_parents_pair :
    ∃ doc, ReachableDocument 4096 doc ∧ (liveNodes doc).length = 2 ∧
      (∀ node ∈ liveNodes doc, node.parentId = nullNodeId ∨
        ∃ parent ∈ liveNodes doc, parent.id = node.parentId ∧ Before parent.id node.id) ∧
      ∀ id, ¬Relation.TransGen (ChildOf Node.id Node.parentId (liveNodes doc)) id id := by
  obtain ⟨doc, slots, hr, hs, _, hnodes⟩ := exists_child zeroNode.value zeroNode.value
    (show sizeofPageHeader + (sizeofItemMetadata + sizeofNode) * 2 ≤ 4096 by decide) (by decide)
  refine ⟨doc, hr, ?_, reachableDocument_parents hr⟩
  rw [hs.holds.liveNodes_eq, hnodes]
  rfl

end Parents

section Children

variable {pageSize : Nat} {store : List (List Slot)} {doc t : Document} {request : CreateNodeRequest}
  {result node' : Node} {res : Result Unit}

theorem Holds.addNode_content (h : Holds pageSize store doc) (hchild : request.parent ≠ nullNodeId)
    (hrun : documentAddNode request result doc = .ok (res, node') t) (hres : res ≠ .ok ()) :
    savedFile t = savedFile doc := by
  rw [documentAddNode] at hrun
  simp only [run_bind, h.assertInitDone, andThen_ok, if_neg hchild] at hrun
  rw [documentAddChildNode] at hrun
  obtain ⟨⟨found, it⟩, s1, hsearch, hrest⟩ := bind_eq_ok.mp hrun
  obtain ⟨_, s2, hdestroy, hrest⟩ := bind_eq_ok.mp hrest
  cases found with
  | some parent =>
      simp only [Option.isSome_some, if_true] at hrest
      obtain ⟨child, s3, _, hrest⟩ := bind_eq_ok.mp hrest
      simp only [run_pure] at hrest
      cases hrest
      exact absurd rfl hres
  | none =>
      simp only [Option.isSome_none, Bool.false_eq_true, if_false, run_pure] at hrest
      cases hrest
      rw [destroyIterator_content hdestroy, h.searchNodes_content hsearch]

/-- `document_add_node` below a node: it returns `OK` exactly for a live parent, the new
node is behind the others and met by every scan, and an error changes nothing. -/
theorem addNode_child (h : ReachableDocument pageSize doc) (hchild : request.parent ≠ nullNodeId)
    (hrun : documentAddNode request result doc = .ok (res, node') t) (hbelow : FileBelow t.pageManager) :
    (res = .ok () ↔ ∃ parent ∈ liveNodes doc, parent.id = request.parent) ∧
    (res = .ok () → liveNodes t = liveNodes doc ++ [node'] ∧ node'.parentId = request.parent ∧
      node'.value = request.value ∧ (∀ node ∈ liveNodes doc, node.id ≠ node'.id) ∧
      ∀ {γ : Type} (f : γ → Node → Except Fault γ) (acc acc' : γ) it u,
        eachNode f acc t = .ok (acc', it) u → (liveNodes doc ++ [node']).foldlM f acc = .ok acc') ∧
    (res ≠ .ok () → liveNodes t = liveNodes doc ∧ savedFile t = savedFile doc) := by
  obtain ⟨store, hstore, _⟩ := h.tree
  rw [hstore.liveNodes_eq]
  rcases hstore.addNode_ok hrun hbelow with ⟨hres, ht, _, _, hmissing⟩ | ⟨rfl, _, hparent, rfl, stored, hp, hv, ht⟩
  · refine ⟨⟨fun hok => absurd hok hres, ?_⟩, fun hok => absurd hok hres, fun _ => ?_⟩
    · rintro ⟨parent, hmem, hid⟩
      exact absurd hid (hmissing hchild parent hmem)
    · exact ⟨ht.liveNodes_eq, hstore.addNode_content hchild hrun hres⟩
  · have hnodes := nodesOf_added hstore hp hv result
    refine ⟨⟨fun _ => hparent hchild, fun _ => rfl⟩, fun _ => ⟨?_, rfl, rfl, ?_, ?_⟩, fun hbad => absurd rfl hbad⟩
    · rw [ht.liveNodes_eq, hnodes]
    · exact fun node hnode => (before_putId_node _ _ hnode).ne
    · intro γ f acc acc' it u hscan
      rw [← hnodes]
      exact (ht.eachNode_ok hscan).2.2.2

/-- A child below the root of a new document. -/
theorem addNode_child_root :
    ∃ doc t node', ReachableDocument 4096 doc ∧
      documentAddNode ⟨rootNodeId, nodeValueOfBytes .int32 [2], isInt32_rootNodeId_pageId, isInt32_rootNodeId_itemId⟩
        zeroNode doc = .ok (.ok (), node') t ∧
      liveNodes t = liveNodes doc ++ [node'] ∧ node'.parentId = rootNodeId := by
  obtain ⟨doc, slots, hr, hs, hlen, hnodes⟩ := exists_root (nodeValueOfBytes .int32 [1])
    (show sizeofPageHeader + (sizeofItemMetadata + sizeofNode) ≤ 4096 by decide) (by decide)
  obtain ⟨t, slot, hrun, ht, _⟩ := hs.addOnPage
    ⟨rootNodeId, nodeValueOfBytes .int32 [2], isInt32_rootNodeId_pageId, isInt32_rootNodeId_itemId⟩ zeroNode
    (by rw [hlen]; decide) (by decide) (fun hnull => by cases hnull)
    fun _ => ⟨_, by rw [hnodes]; exact List.mem_cons_self, rfl⟩
  obtain ⟨_, hok, _⟩ := addNode_child hr (show rootNodeId ≠ nullNodeId by decide) hrun ht.holds.below
  exact ⟨doc, t, _, hr, hrun, (hok rfl).1, (hok rfl).2.1⟩

end Children

section Order

/-- A run of adds, deletes and updates from a new document, with the nodes that are
left in the order in which they were added. An update that returns an error may have
lost its node. -/
inductive InsertionRun (pageSize : Nat) : Document → List Node → Prop
  | init {res t} : sizeofFileHeader + toUInt32 pageSize < 2 ^ 32 →
      documentInit pageSize (documentNew (fileOpen none noFaults)) = .ok res t → InsertionRun pageSize t []
  | added {s log request result node t} : InsertionRun pageSize s log →
      documentAddNode request result s = .ok (.ok (), node) t → FileBelow t.pageManager →
      InsertionRun pageSize t (log ++ [node])
  | notAdded {s log request result message node t} : InsertionRun pageSize s log →
      documentAddNode request result s = .ok (.error message, node) t → FileBelow t.pageManager →
      InsertionRun pageSize t log
  | deleted {s log request t} : InsertionRun pageSize s log →
      documentDeleteNode request s = .ok (.ok ()) t →
      InsertionRun pageSize t (log.filter fun node => node.id ≠ request.nodeId)
  | notDeleted {s log request message t} : InsertionRun pageSize s log →
      documentDeleteNode request s = .ok (.error message) t → InsertionRun pageSize t log
  | updated {s log request result node t} : InsertionRun pageSize s log →
      documentUpdateNode request result s = .ok (.ok (), node) t → FileBelow t.pageManager →
      InsertionRun pageSize t ((log.filter fun node => node.id ≠ request.nodeId) ++ [node])
  | notUpdated {s log request result message node t} : InsertionRun pageSize s log →
      documentUpdateNode request result s = .ok (.error message, node) t → FileBelow t.pageManager →
      InsertionRun pageSize t (log.filter fun node => node.id ≠ request.nodeId)
  | reopen {s log pageSize' res t} : InsertionRun pageSize s log →
      documentInit pageSize' (documentNew (fileOpen (some (savedFile s)) noFaults)) = .ok res t →
      InsertionRun pageSize t log

variable {pageSize : Nat} {store : List (List Slot)} {doc t : Document} {log : List Node}
  {request : CreateNodeRequest} {result node' : Node} {res : Result Unit}

theorem Holds.addNode_nodes (h : Holds pageSize store doc)
    (hrun : documentAddNode request result doc = .ok (res, node') t) (hbelow : FileBelow t.pageManager) :
    ∃ store', Holds pageSize store' t ∧
      (res = .ok () → nodesOf store' = nodesOf store ++ [node'] ∧ ∀ node ∈ nodesOf store, Before node.id node'.id) ∧
      (res ≠ .ok () → nodesOf store' = nodesOf store) := by
  rcases h.addNode_ok hrun hbelow with ⟨hres, ht, _⟩ | ⟨rfl, _, _, rfl, stored, hp, hv, ht⟩
  · exact ⟨store, ht, fun hok => absurd hok hres, fun _ => rfl⟩
  · refine ⟨_, ht, fun _ => ⟨nodesOf_added h hp hv result, fun node hnode => ?_⟩, fun hbad => absurd rfl hbad⟩
    exact before_putId_node _ _ hnode

theorem filter_missing {nodes : List Node} {id : NodeId} (h : ∀ node ∈ nodes, node.id ≠ id) :
    nodes.filter (fun node => node.id ≠ id) = nodes :=
  List.filter_eq_self.mpr fun node hnode => decide_eq_true (h node hnode)

/-- The nodes in the file are those of the run, in its order. -/
theorem InsertionRun.holds (h : InsertionRun pageSize doc log) :
    ∃ store, Holds (toUInt32 pageSize) store doc ∧ nodesOf store = log := by
  induction h with
  | init hsmall hinit => exact ⟨[[]], (documentInit_new_ok hsmall hinit).2, nodesOf_fresh⟩
  | added _ hrun hbelow ih =>
      obtain ⟨store, hs, rfl⟩ := ih
      obtain ⟨store', ht, hok, _⟩ := hs.addNode_nodes hrun hbelow
      exact ⟨store', ht, (hok rfl).1⟩
  | notAdded _ hrun hbelow ih =>
      obtain ⟨store, hs, rfl⟩ := ih
      obtain ⟨store', ht, _, herror⟩ := hs.addNode_nodes hrun hbelow
      exact ⟨store', ht, herror (by simp)⟩
  | deleted _ hrun ih =>
      obtain ⟨store, hs, rfl⟩ := ih
      obtain ⟨_, _, ⟨hbad, _⟩ | ⟨_, _, k, i, hki, ht⟩⟩ := hs.deleteNode_ok hrun
      · exact absurd rfl hbad
      · exact ⟨_, ht, by rw [nodesOf_deleteAt, hki]⟩
  | notDeleted _ hrun ih =>
      obtain ⟨store, hs, rfl⟩ := ih
      obtain ⟨_, _, ⟨_, ht, _⟩ | ⟨hbad, _⟩⟩ := hs.deleteNode_ok hrun
      · exact ⟨store, ht, rfl⟩
      · cases hbad
  | updated _ hrun hbelow ih =>
      obtain ⟨store, hs, rfl⟩ := ih
      obtain ⟨_, ⟨hbad, _⟩ | ⟨_, k, i, hki, s, res, hdeleted, hadd, hiff⟩⟩ := hs.updateNode_ok hrun
      · exact absurd rfl hbad
      · obtain ⟨store', ht, hok, _⟩ := hdeleted.addNode_nodes hadd hbelow
        exact ⟨store', ht, by rw [(hok (hiff.mp rfl)).1, nodesOf_deleteAt, hki]⟩
  | notUpdated _ hrun hbelow ih =>
      obtain ⟨store, hs, rfl⟩ := ih
      obtain ⟨_, ⟨_, ht, hmissing⟩ | ⟨_, k, i, hki, s, res, hdeleted, hadd, hiff⟩⟩ := hs.updateNode_ok hrun
      · exact ⟨store, ht, (filter_missing hmissing).symm⟩
      · obtain ⟨store', ht, _, herror⟩ := hdeleted.addNode_nodes hadd hbelow
        have hres : res ≠ .ok () := fun hok => by cases hiff.mpr hok
        exact ⟨store', ht, by rw [herror hres, nodesOf_deleteAt, hki]⟩
  | reopen _ hrun ih =>
      obtain ⟨store, hs, rfl⟩ := ih
      exact ⟨store, (hs.reopen_ok hrun).2, rfl⟩

/-- New nodes come behind all live ones. So every scan, and every list of nodes, is in
the order of insertion. -/
theorem insertionRun_ordered (h : InsertionRun pageSize doc log) :
    (∀ request result node t, documentAddNode request result doc = .ok (.ok (), node) t →
      FileBelow t.pageManager → ∀ other ∈ liveNodes doc, Before other.id node.id) ∧
    liveNodes doc = log ∧
    (∀ {γ : Type} (f : γ → Node → Except Fault γ) (acc acc' : γ) it t,
      eachNode f acc doc = .ok (acc', it) t → log.foldlM f acc = .ok acc') ∧
    (∀ request capacity r t, documentGetAllChildren request capacity doc = .ok r t →
      r.2 = log.filter fun node => node.parentId == request.parent) ∧
    (∀ matcher n nodes t, documentGetNodesByCondition matcher n doc = .ok (.ok nodes) t →
      nodes = log.filter (matching matcher)) := by
  obtain ⟨store, hs, rfl⟩ := h.holds
  refine ⟨?added, hs.liveNodes_eq, ?scan, ?children, ?nodes⟩
  case added =>
    intro request result node t hrun hbelow
    obtain ⟨_, _, hok, _⟩ := hs.addNode_nodes hrun hbelow
    rw [hs.liveNodes_eq]
    exact (hok rfl).2
  case scan =>
    intro γ f acc acc' it t hrun
    exact (hs.eachNode_ok hrun).2.2.2
  case children =>
    intro request capacity r t hrun
    exact (hs.getAllChildren_ok hrun).2.2.1
  case nodes =>
    intro matcher n nodes t hrun
    obtain ⟨_, _, _, hres, _⟩ := hs.get_ok hrun
    cases hres
    rfl

/-- The child that takes over a deleted id comes behind the one that was there before. -/
theorem insertionRun_ordered_root :
    ∃ doc, InsertionRun 4096 doc [onFirstPage 0 newRoot, onFirstPage 1 newChild, onFirstPage 2 otherChild] ∧
      (∀ request result node t, documentAddNode request result doc = .ok (.ok (), node) t →
        FileBelow t.pageManager → ∀ other ∈ liveNodes doc, Before other.id node.id) ∧
      liveNodes doc = [onFirstPage 0 newRoot, onFirstPage 1 newChild, onFirstPage 2 otherChild] ∧
      ∀ request capacity r t, documentGetAllChildren request capacity doc = .ok r t → request.parent = rootNodeId →
        r.2 = [onFirstPage 1 newChild, onFirstPage 2 otherChild] := by
  obtain ⟨d0, d1, d2, d3, d4, d5, h⟩ := exists_replacing
  have hsize : toUInt32 (4096 : Nat) = 4096 := toUInt32_of_lt (by decide)
  have hroot := (InsertionRun.init (by rw [hsize]; decide) h.opened).added h.root (h.below d1 (by simp))
  have hgrown := (hroot.added h.first (h.below d2 (by simp))).added h.second (h.below d3 (by simp))
  have hrun : InsertionRun 4096 d5 [onFirstPage 0 newRoot, onFirstPage 1 newChild, onFirstPage 2 otherChild] :=
    (hgrown.deleted h.deleted).added h.third (h.below d5 (by simp))
  obtain ⟨hbehind, hlive, _, hchildren, _⟩ := insertionRun_ordered hrun
  refine ⟨d5, hrun, hbehind, hlive, fun request capacity r t hget hparent => ?_⟩
  rw [hchildren request capacity r t hget, hparent]
  rfl

end Order

end DocumentDb.Documents
