import DocumentDb.Documents.Invariant

namespace DocumentDb.Documents

open Storage Program

variable {pageSize : Nat} {store : List (List Slot)} {doc t : Document} {node node' : Node}

section Persist

theorem documentPersistNewNode_eq (node : Node) :
    documentPersistNewNode node = (do
      let itemResult ← onPageManager (putData (encodeNode node))
      onPageManager pageManagerFreePages
      return { node with id := itemToNodeId itemResult.metadata.itemId }) := (rfl)

theorem Holds.put {pm : PageManager} (h : Holds pageSize store doc)
    (hpm : Stores fileSignature pageSize (putSlots pageSize store (encodeNode node)) pm) :
    Holds pageSize (putSlots pageSize store (encodeNode node)) { doc with pageManager := pm } :=
  h.withManager hpm (h.nodes.put node)

theorem Holds.persist_eq {pm : PageManager} {res : ItemAddResult} (h : Holds pageSize store doc)
    (hput : putData (encodeNode node) doc.pageManager = .ok res pm)
    (hid : res.metadata.itemId = putId pageSize store sizeofNode)
    (hpm : Stores fileSignature pageSize (putSlots pageSize store (encodeNode node)) pm) :
    ∃ t, documentPersistNewNode node doc =
        .ok { node with id := putId pageSize store sizeofNode } t ∧
      Holds pageSize (putSlots pageSize store (encodeNode node)) t ∧
      t.pageManager.fileManager = pm.fileManager := by
  obtain ⟨pm', hfree, hpm'⟩ := hpm.freePages
  refine ⟨_, ?_, h.put hpm', ?_⟩
  · have hfreeOn : onPageManager pageManagerFreePages { doc with pageManager := pm } =
        .ok () { doc with pageManager := pm' } := run_onPageManager hfree
    rw [documentPersistNewNode_eq]
    simp only [run_bind, run_onPageManager hput, andThen_ok, hfreeOn, run_pure, hid, itemToNodeId]
  · cases hfree
    rfl

theorem Holds.persist_ok (h : Holds pageSize store doc)
    (hrun : documentPersistNewNode node doc = .ok node' t) (hbelow : FileBelow t.pageManager) :
    node' = { node with id := putId pageSize store sizeofNode } ∧
      Holds pageSize (putSlots pageSize store (encodeNode node)) t := by
  have hlen := length_encodeNode node
  have h0 : 0 < (encodeNode node).length := by rw [hlen]; decide
  have hn : (encodeNode node).length < 2 ^ 31 := by rw [hlen]; decide
  have hrun' := hrun
  rw [documentPersistNewNode_eq] at hrun'
  obtain ⟨res, s1, hputOn, hrest⟩ := bind_eq_ok.mp hrun'
  obtain ⟨pm, hput, rfl⟩ := onPageManager_eq_ok.mp hputOn
  obtain ⟨_, s2, hfreeOn, hpure⟩ := bind_eq_ok.mp hrest
  obtain ⟨pm', hfree, rfl⟩ := onPageManager_eq_ok.mp hfreeOn
  have hbelow' : FileBelow pm := by
    simp only [run_pure] at hpure
    cases hpure
    cases hfree
    exact hbelow
  have hfit := h.stores.put_fits h0 hn hput hbelow'
  obtain ⟨res', pm1, hput', hid, hpm⟩ := h.stores.put h0 hfit hn (by rw [hput]; exact hbelow')
  rw [hput] at hput'
  cases hput'
  rw [hlen] at hid
  obtain ⟨t', hrun'', ht, _⟩ := h.persist_eq hput hid hpm
  rw [hrun] at hrun''
  cases hrun''
  exact ⟨rfl, ht⟩

/-- `document_persist_new_node` returns when a node fits a page and the file has
room for another one. -/
theorem Holds.persist_room (h : Holds pageSize store doc) (node : Node)
    (hfit : sizeofNode + sizeofPageHeader + sizeofItemMetadata ≤ pageSize)
    (hroom : ¬HasPlace pageSize store sizeofNode → sizeofFileHeader + (store.length + 1) * pageSize < 2 ^ 32) :
    ∃ t, documentPersistNewNode node doc =
        .ok { node with id := putId pageSize store sizeofNode } t ∧
      Holds pageSize (putSlots pageSize store (encodeNode node)) t := by
  have hlen := length_encodeNode node
  have h0 : 0 < (encodeNode node).length := by rw [hlen]; decide
  have hn : (encodeNode node).length < 2 ^ 31 := by rw [hlen]; decide
  obtain ⟨res, pm, hput, hid, hpm⟩ := h.stores.put_of_room h0 (by rw [hlen]; exact hfit) hn (by rw [hlen]; exact hroom)
  rw [hlen] at hid
  obtain ⟨t, hrun, ht, _⟩ := h.persist_eq hput hid hpm
  exact ⟨t, hrun, ht⟩

end Persist

section Add

variable {request : CreateNodeRequest} {result : Node} {res : Result Unit}

/-- A request that adds a root: none has been found, and the root is put. -/
theorem Holds.addRoot_ok (h : Holds pageSize store doc)
    (hrun : documentAddRootNode node doc = .ok (res, node') t) (hbelow : FileBelow t.pageManager) :
    (res ≠ .ok () ∧ Holds pageSize store t ∧ node' = node ∧ ∃ root ∈ nodesOf store, root.id = rootNodeId) ∨
    (res = .ok () ∧ Clean (visits store) ∧ (∀ other ∈ nodesOf store, other.id ≠ rootNodeId) ∧
      node' = { node with id := putId pageSize store sizeofNode } ∧
      Holds pageSize (putSlots pageSize store (encodeNode { node with id := rootNodeId })) t) := by
  rw [documentAddRootNode] at hrun
  obtain ⟨⟨found, it⟩, s1, hsearch, hrest⟩ := bind_eq_ok.mp hrun
  obtain ⟨h1, halive, hfound⟩ := h.searchNodes_ok hsearch
  cases found with
  | some root =>
      simp only [Option.isSome_some, if_true, run_pure] at hrest
      cases hrest
      obtain ⟨hroot, hid⟩ := hfound
      exact Or.inl ⟨by simp, h1, rfl, root, hroot, by simpa using hid⟩
  | none =>
      simp only [Option.isSome_none, Bool.false_eq_true, if_false] at hrest
      obtain ⟨_, s2, hdestroy, hrest⟩ := bind_eq_ok.mp hrest
      have h2 := h1.destroyIterator_ok halive hdestroy
      obtain ⟨root, s3, hpersist, hrest⟩ := bind_eq_ok.mp hrest
      simp only [run_bind, run_modify, andThen_ok, run_pure] at hrest
      cases hrest
      obtain ⟨rfl, h3⟩ := h2.persist_ok hpersist hbelow
      exact Or.inr ⟨rfl, hfound.1, fun other hother => by simpa using hfound.2 other hother, rfl,
        h3.initDone, by simp, h3.stores, h3.nodes⟩

/-- A request that adds a child: its parent has been found, and the child is put. -/
theorem Holds.addChild_ok (h : Holds pageSize store doc)
    (hrun : documentAddChildNode node doc = .ok (res, node') t) (hbelow : FileBelow t.pageManager) :
    (res ≠ .ok () ∧ Holds pageSize store t ∧ node' = node ∧
      ∀ other ∈ nodesOf store, other.id ≠ node.parentId) ∨
    (res = .ok () ∧ (∃ parent ∈ nodesOf store, parent.id = node.parentId) ∧
      node' = { node with id := putId pageSize store sizeofNode } ∧
      Holds pageSize (putSlots pageSize store (encodeNode node)) t) := by
  rw [documentAddChildNode] at hrun
  obtain ⟨⟨found, it⟩, s1, hsearch, hrest⟩ := bind_eq_ok.mp hrun
  obtain ⟨h1, halive, hfound⟩ := h.searchNodes_ok hsearch
  obtain ⟨_, s2, hdestroy, hrest⟩ := bind_eq_ok.mp hrest
  have h2 := h1.destroyIterator_ok halive hdestroy
  cases found with
  | some parent =>
      simp only [Option.isSome_some, if_true] at hrest
      obtain ⟨child, s3, hpersist, hrest⟩ := bind_eq_ok.mp hrest
      simp only [run_pure] at hrest
      cases hrest
      obtain ⟨rfl, h3⟩ := h2.persist_ok hpersist hbelow
      exact Or.inr ⟨rfl, ⟨parent, hfound.1, by simpa using hfound.2⟩, rfl, h3⟩
  | none =>
      simp only [Option.isSome_none, Bool.false_eq_true, if_false, run_pure] at hrest
      cases hrest
      exact Or.inl ⟨by simp, h2, rfl, fun other hother => by simpa using hfound.2 other hother⟩

def requested (request : CreateNodeRequest) (result : Node) : Node :=
  { result with value := request.value, parentId := request.parent }

/-- `document_add_node` that returns: an error, or the new node behind all others. -/
theorem Holds.addNode_ok (h : Holds pageSize store doc)
    (hrun : documentAddNode request result doc = .ok (res, node') t) (hbelow : FileBelow t.pageManager) :
    (res ≠ .ok () ∧ Holds pageSize store t ∧ node' = requested request result ∧
      (request.parent = nullNodeId → ∃ root ∈ nodesOf store, root.id = rootNodeId) ∧
      (request.parent ≠ nullNodeId → ∀ other ∈ nodesOf store, other.id ≠ request.parent)) ∨
    (res = .ok () ∧
      (request.parent = nullNodeId →
        Clean (visits store) ∧ ∀ other ∈ nodesOf store, other.id ≠ rootNodeId) ∧
      (request.parent ≠ nullNodeId → ∃ parent ∈ nodesOf store, parent.id = request.parent) ∧
      node' = { requested request result with id := putId pageSize store sizeofNode } ∧
      ∃ stored : Node, stored.parentId = request.parent ∧ stored.value = request.value ∧
        Holds pageSize (putSlots pageSize store (encodeNode stored)) t) := by
  rw [documentAddNode] at hrun
  simp only [run_bind, h.assertInitDone, andThen_ok, run_ite] at hrun
  split at hrun
  · rename_i hnull
    rcases h.addRoot_ok hrun hbelow with ⟨hres, ht, hnode, hroot⟩ | ⟨hres, hclean, hno, hnode, ht⟩
    · exact Or.inl ⟨hres, ht, hnode, fun _ => hroot, fun hne => absurd hnull hne⟩
    · exact Or.inr ⟨hres, fun _ => ⟨hclean, hno⟩, fun hne => absurd hnull hne, hnode, _, rfl, rfl, ht⟩
  · rename_i hchild
    rcases h.addChild_ok hrun hbelow with ⟨hres, ht, hnode, hno⟩ | ⟨hres, hparent, hnode, ht⟩
    · exact Or.inl ⟨hres, ht, hnode, fun hnull => absurd hnull hchild, fun _ => hno⟩
    · exact Or.inr ⟨hres, fun hnull => absurd hnull hchild, fun _ => hparent, hnode, _, rfl, rfl, ht⟩

theorem nodesOf_added (h : Holds pageSize store doc) {stored : Node}
    (hparent : stored.parentId = request.parent) (hvalue : stored.value = request.value) (result : Node) :
    nodesOf (putSlots pageSize store (encodeNode stored)) =
      nodesOf store ++ [{ requested request result with id := putId pageSize store sizeofNode }] := by
  rw [nodesOf_putSlots h.stores.ne_nil (by rw [hparent]; exact request.isInt32_pageId)
    (by rw [hparent]; exact request.isInt32_itemId)]
  obtain ⟨id, parentId, value⟩ := stored
  simp only at hparent hvalue
  simp only [requested, hparent, hvalue]

end Add

section Delete

variable {id : NodeId} {res : Result Unit}

def hasId (id : NodeId) (item : Item) : Except Fault (Option Item) :=
  .ok (if item.id = id then some item else none)

theorem hasId_eq_some {item item' : Item} : hasId id item = .ok (some item') ↔ item.id = id ∧ item = item' := by
  rw [hasId]
  split <;> simp_all

theorem hasId_eq_none {item : Item} : hasId id item = .ok none ↔ item.id ≠ id := by
  rw [hasId]
  split <;> simp_all

theorem Holds.deleteSecondStep_eq (h : Holds pageSize store doc) (id : NodeId) :
    match runVisits (search (hasId id)) none (visits store) with
    | .ok (none, _) => ∃ t, documentDeleteSecondStep ⟨id⟩ doc =
        .ok (.error "Node doesn't exist in document tree") t ∧ Holds pageSize store t
    | .ok (some item, _) => item ∈ liveItems store ∧ item.id = id ∧ ∃ (k i : Nat) (t : Document),
        id = ⟨k, i⟩ ∧ documentDeleteSecondStep ⟨id⟩ doc = .ok (.ok ()) t ∧
          Holds pageSize (deleteAt store k i) t
    | .error e => ∃ t, documentDeleteSecondStep ⟨id⟩ doc = .error e t := by
  have hsearch : (search fun item => .ok (if item.id = id then some item else none)) = search (hasId id) := rfl
  rw [documentDeleteSecondStep]
  rw [hsearch]
  have hscan := h.stores.scan (search (hasId id)) none
  cases hvisits : runVisits (search (hasId id)) none (visits store) with
  | error e =>
      rw [hvisits] at hscan
      obtain ⟨pm, herror⟩ := hscan
      exact ⟨{ doc with pageManager := pm }, by
        simp only [run_bind, run_onPageManager_error herror, andThen_error]⟩
  | ok r =>
      obtain ⟨found, stop⟩ := r
      rw [hvisits] at hscan
      obtain ⟨it, pm, hok, hpm, halive, hstop⟩ := hscan
      have h1 := h.withManager hpm h.nodes
      cases found with
      | none =>
          obtain ⟨t, hdestroy, ht⟩ := h1.destroyIterator halive
          exact ⟨t, by simp only [run_bind, run_onPageManager hok, andThen_ok, hdestroy, run_pure], ht⟩
      | some item =>
          obtain ⟨item', hitem, htest, hstop'⟩ := runVisits_search_some hvisits rfl
          rw [filterMap_visits] at hitem
          obtain ⟨hid, rfl⟩ := hasId_eq_some.mp htest
          obtain ⟨hbytes, hfresh⟩ := mem_liveItems.mp hitem
          obtain ⟨k, i, _, _, hki, _⟩ := liveBytes_some hbytes
          rw [hki] at hbytes hstop'
          obtain ⟨a, hpage, ha⟩ := hstop _ hstop'
          obtain ⟨pm', hdelete, hpm'⟩ := hpm.delete ha hki hfresh hbytes
          have hdeleteOn : onPageManager (pageManagerDeleteItem a item') { doc with pageManager := pm } =
              .ok _ { doc with pageManager := pm' } := run_onPageManager hdelete
          obtain ⟨t, hdestroy, ht⟩ := (h.withManager hpm' (h.nodes.delete k i)).destroyIterator halive
          refine ⟨hitem, hid, k, i, t, by rw [← hid, hki], ?_, ht⟩
          simp only [run_bind, run_onPageManager hok, andThen_ok, hpage, hdeleteOn, hdestroy, run_pure]

theorem Holds.deleteSecondStep_ok (h : Holds pageSize store doc)
    (hrun : documentDeleteSecondStep ⟨id⟩ doc = .ok res t) :
    (res ≠ .ok () ∧ Holds pageSize store t ∧ ∀ node ∈ nodesOf store, node.id ≠ id) ∨
    (res = .ok () ∧ (∃ node ∈ nodesOf store, node.id = id) ∧
      ∃ k i : Nat, id = ⟨k, i⟩ ∧ Holds pageSize (deleteAt store k i) t) := by
  have hstep := h.deleteSecondStep_eq id
  cases hvisits : runVisits (search (hasId id)) none (visits store) with
  | error e =>
      rw [hvisits] at hstep
      obtain ⟨u, hu⟩ := hstep
      rw [hrun] at hu
      cases hu
  | ok r =>
      obtain ⟨found, stop⟩ := r
      rw [hvisits] at hstep
      cases found with
      | none =>
          obtain ⟨u, hu, ht⟩ := hstep
          rw [hrun] at hu
          cases hu
          obtain ⟨_, hnone⟩ := runVisits_search_none hvisits
          rw [filterMap_visits] at hnone
          refine Or.inl ⟨by simp, ht, fun node hnode => ?_⟩
          obtain ⟨item, hitem, rfl⟩ := List.mem_map.mp hnode
          exact hasId_eq_none.mp (hnone item hitem)
      | some item =>
          obtain ⟨hitem, hid, k, i, u, hki, hu, ht⟩ := hstep
          rw [hrun] at hu
          cases hu
          exact Or.inr ⟨rfl, ⟨_, List.mem_map_of_mem hitem, hid⟩, k, i, hki, ht⟩

theorem Holds.deleteSecondStep_clean (h : Holds pageSize store doc) (hclean : Clean (visits store))
    {k i : Nat} (hlive : ∃ node ∈ nodesOf store, node.id = ⟨k, i⟩) :
    ∃ t, documentDeleteSecondStep ⟨⟨k, i⟩⟩ doc = .ok (.ok ()) t ∧
      Holds pageSize (deleteAt store k i) t := by
  have hstep := h.deleteSecondStep_eq ⟨k, i⟩
  cases hvisits : runVisits (search (hasId ⟨k, i⟩)) none (visits store) with
  | error e =>
      obtain ⟨stop, hclean'⟩ := runVisits_search_clean hclean (hasId ⟨k, i⟩)
      rw [hvisits] at hclean'
      have hpure : hasId ⟨k, i⟩ = fun item => pure (if item.id = ⟨k, i⟩ then some item else none) := rfl
      rw [hpure, List.findSomeM?_pure] at hclean'
      cases hclean'
  | ok r =>
      obtain ⟨found, stop⟩ := r
      rw [hvisits] at hstep
      cases found with
      | none =>
          obtain ⟨_, hnone⟩ := runVisits_search_none hvisits
          rw [filterMap_visits] at hnone
          obtain ⟨node, hnode, hid⟩ := hlive
          obtain ⟨item, hitem, rfl⟩ := List.mem_map.mp hnode
          exact absurd hid (hasId_eq_none.mp (hnone item hitem))
      | some item =>
          obtain ⟨_, _, k', i', t, hki, hrun, ht⟩ := hstep
          obtain ⟨rfl, rfl⟩ : k = k' ∧ i = i' := by simpa using hki
          exact ⟨t, hrun, ht⟩

/-- `document_delete_node` that returns: an error, or the node is gone. It had no children. -/
theorem Holds.deleteNode_ok (h : Holds pageSize store doc)
    (hrun : documentDeleteNode ⟨id⟩ doc = .ok res t) :
    Clean (visits store) ∧ (∀ node ∈ nodesOf store, node.parentId ≠ id) ∧
    ((res ≠ .ok () ∧ Holds pageSize store t ∧ ∀ node ∈ nodesOf store, node.id ≠ id) ∨
    (res = .ok () ∧ (∃ node ∈ nodesOf store, node.id = id) ∧
      ∃ k i : Nat, id = ⟨k, i⟩ ∧ Holds pageSize (deleteAt store k i) t)) := by
  rw [documentDeleteNode] at hrun
  simp only [run_bind, h.assertInitDone, andThen_ok] at hrun
  rw [← run_bind] at hrun
  obtain ⟨⟨child, it⟩, s1, hsearch, hrest⟩ := bind_eq_ok.mp hrun
  obtain ⟨h1, halive, hfound⟩ := h.searchNodes_ok hsearch
  obtain ⟨_, s2, hdestroy, hrest⟩ := bind_eq_ok.mp hrest
  have h2 := h1.destroyIterator_ok halive hdestroy
  cases child with
  | some child =>
      simp only [Option.isSome_some, if_true, run_bind, run_throw, andThen_error, reduceCtorEq] at hrest
  | none =>
      simp only [Option.isSome_none, Bool.false_eq_true, if_false] at hrest
      exact ⟨hfound.1, fun node hnode => by simpa using hfound.2 node hnode, h2.deleteSecondStep_ok hrest⟩

end Delete

section Update

variable {request : UpdateNodeRequest} {result : Node} {res : Result Unit}

def createRequest (request : UpdateNodeRequest) : CreateNodeRequest :=
  ⟨request.parentId, request.newValue, request.isInt32_pageId, request.isInt32_itemId⟩

/-- `document_update_node` that returns: the node is not found, or it is gone and
the new one has been refused or added. -/
theorem Holds.updateNode_ok (h : Holds pageSize store doc)
    (hrun : documentUpdateNode request result doc = .ok (res, node') t) :
    (∀ node ∈ nodesOf store, node.parentId ≠ request.nodeId) ∧
    ((res ≠ .ok () ∧ Holds pageSize store t ∧ ∀ node ∈ nodesOf store, node.id ≠ request.nodeId) ∨
    ((∃ node ∈ nodesOf store, node.id = request.nodeId) ∧
      ∃ k i : Nat, request.nodeId = ⟨k, i⟩ ∧ ∃ s res', Holds pageSize (deleteAt store k i) s ∧
        documentAddNode (createRequest request) result s = .ok (res', node') t ∧
        (res = .ok () ↔ res' = .ok ()))) := by
  rw [documentUpdateNode] at hrun
  simp only [run_bind, h.assertInitDone, andThen_ok] at hrun
  rw [← run_bind] at hrun
  obtain ⟨r, s1, hdelete, hrest⟩ := bind_eq_ok.mp hrun
  obtain ⟨_, hleaf, ⟨hbad, h1, hmissing⟩ | ⟨rfl, hlive, k, i, hki, h1⟩⟩ := h.deleteNode_ok hdelete
  · cases r with
    | ok u => exact absurd rfl hbad
    | error message =>
        simp only [run_pure] at hrest
        cases hrest
        exact ⟨hleaf, Or.inl ⟨by simp, h1, hmissing⟩⟩
  · obtain ⟨⟨res', node1⟩, s2, hadd, hrest⟩ := bind_eq_ok.mp hrest
    simp only [run_pure] at hrest
    cases hrest
    refine ⟨hleaf, Or.inr ⟨hlive, k, i, hki, s1, res', h1, hadd, ?_⟩⟩
    cases res' <;> simp [returnIfFail, Except.mapError]

end Update

section Success

variable {request : CreateNodeRequest} {result : Node} {id : NodeId}

theorem Holds.below (h : Holds pageSize store doc) : FileBelow doc.pageManager := by
  obtain ⟨_, hd, _⟩ := h.stores
  exact hd.below

/-- A request is granted when no scan is in its way, the file has room, and the
tree has no root or the parent. -/
theorem Holds.addNode_room (h : Holds pageSize store doc) (hclean : Clean (visits store))
    (request : CreateNodeRequest) (result : Node)
    (hfit : sizeofNode + sizeofPageHeader + sizeofItemMetadata ≤ pageSize)
    (hroom : ¬HasPlace pageSize store sizeofNode → sizeofFileHeader + (store.length + 1) * pageSize < 2 ^ 32)
    (hroot : request.parent = nullNodeId → ∀ node ∈ nodesOf store, node.id ≠ rootNodeId)
    (hchild : request.parent ≠ nullNodeId → ∃ node ∈ nodesOf store, node.id = request.parent) :
    ∃ t stored, documentAddNode request result doc =
        .ok (.ok (), { requested request result with id := putId pageSize store sizeofNode }) t ∧
      Holds pageSize (putSlots pageSize store (encodeNode stored)) t ∧
      stored.parentId = request.parent ∧ stored.value = request.value := by
  rw [documentAddNode]
  simp only [run_bind, h.assertInitDone, andThen_ok, run_ite]
  by_cases hnull : request.parent = nullNodeId
  · obtain ⟨it, s1, hsearch, h1, halive⟩ := h.searchNodes_clean hclean fun node => node.id == rootNodeId
    have hnone : (nodesOf store).find? (fun node => node.id == rootNodeId) = none :=
      List.find?_eq_none.mpr fun node hnode => by simpa using hroot hnull node hnode
    rw [hnone] at hsearch
    obtain ⟨s2, hdestroy, h2⟩ := h1.destroyIterator halive
    obtain ⟨s3, hpersist, h3⟩ := h2.persist_room { requested request result with id := rootNodeId } hfit hroom
    rw [requested] at hpersist
    let root : Node := { requested request result with id := putId pageSize store sizeofNode }
    refine ⟨{ s3 with rootNode := some root }, _, ?_, ⟨h3.initDone, by simp, h3.stores, h3.nodes⟩, rfl, rfl⟩
    rw [if_pos hnull]
    rw [documentAddRootNode]
    simp only [run_bind, hsearch, andThen_ok, Option.isSome_none, Bool.false_eq_true, if_false, hdestroy,
      hpersist, run_modify, run_pure, requested, root]
  · obtain ⟨it, s1, hsearch, h1, halive⟩ := h.searchNodes_clean hclean fun node => node.id == request.parent
    obtain ⟨parent, hparent, hid⟩ := hchild hnull
    have hsome : ((nodesOf store).find? fun node => node.id == request.parent).isSome = true :=
      List.find?_isSome.mpr ⟨parent, hparent, by simpa using hid⟩
    obtain ⟨s2, hdestroy, h2⟩ := h1.destroyIterator halive
    obtain ⟨s3, hpersist, h3⟩ := h2.persist_room (requested request result) hfit hroom
    rw [requested] at hpersist
    refine ⟨s3, _, ?_, h3, rfl, rfl⟩
    rw [if_neg hnull]
    rw [documentAddChildNode]
    simp only [run_bind, hsearch, andThen_ok, hdestroy, hsome, if_true, hpersist, run_pure, requested]

/-- A request is refused when no scan is in its way and there is a root already, or
the parent is missing. -/
theorem Holds.addNode_refused (h : Holds pageSize store doc) (hclean : Clean (visits store))
    (request : CreateNodeRequest) (result : Node)
    (hroot : request.parent = nullNodeId → ∃ node ∈ nodesOf store, node.id = rootNodeId)
    (hchild : request.parent ≠ nullNodeId → ∀ node ∈ nodesOf store, node.id ≠ request.parent) :
    ∃ t message, documentAddNode request result doc = .ok (.error message, requested request result) t ∧
      Holds pageSize store t := by
  rw [documentAddNode]
  simp only [run_bind, h.assertInitDone, andThen_ok, run_ite]
  by_cases hnull : request.parent = nullNodeId
  · obtain ⟨it, s1, hsearch, h1, _⟩ := h.searchNodes_clean hclean fun node => node.id == rootNodeId
    obtain ⟨root, hmem, hid⟩ := hroot hnull
    have hsome : ((nodesOf store).find? fun node => node.id == rootNodeId).isSome = true :=
      List.find?_isSome.mpr ⟨root, hmem, by simpa using hid⟩
    refine ⟨s1, "Root node already exists in document tree", ?_, h1⟩
    rw [if_pos hnull]
    rw [documentAddRootNode]
    simp only [run_bind, hsearch, andThen_ok, hsome, if_true, run_pure, requested]
  · obtain ⟨it, s1, hsearch, h1, halive⟩ := h.searchNodes_clean hclean fun node => node.id == request.parent
    have hnone : (nodesOf store).find? (fun node => node.id == request.parent) = none :=
      List.find?_eq_none.mpr fun node hnode => by simpa using hchild hnull node hnode
    rw [hnone] at hsearch
    obtain ⟨s2, hdestroy, h2⟩ := h1.destroyIterator halive
    refine ⟨s2, "Parent node doesn't exist in document tree", ?_, h2⟩
    rw [if_neg hnull]
    rw [documentAddChildNode]
    simp only [run_bind, hsearch, andThen_ok, hdestroy, Option.isSome_none, Bool.false_eq_true, if_false,
      run_pure, requested]

theorem Holds.deleteNode_clean (h : Holds pageSize store doc) (hclean : Clean (visits store)) {k i : Nat}
    (hlive : ∃ node ∈ nodesOf store, node.id = ⟨k, i⟩)
    (hleaf : ∀ node ∈ nodesOf store, node.parentId ≠ ⟨k, i⟩) :
    ∃ t, documentDeleteNode ⟨⟨k, i⟩⟩ doc = .ok (.ok ()) t ∧ Holds pageSize (deleteAt store k i) t := by
  obtain ⟨it, s1, hsearch, h1, halive⟩ :=
    h.searchNodes_clean hclean fun node => node.parentId == (⟨k, i⟩ : NodeId)
  have hnone : (nodesOf store).find? (fun node => node.parentId == (⟨k, i⟩ : NodeId)) = none :=
    List.find?_eq_none.mpr fun node hnode => by simpa using hleaf node hnode
  rw [hnone] at hsearch
  obtain ⟨s2, hdestroy, h2⟩ := h1.destroyIterator halive
  have hrun : documentDeleteNode ⟨⟨k, i⟩⟩ doc = documentDeleteSecondStep ⟨⟨k, i⟩⟩ s2 := by
    rw [documentDeleteNode]
    simp only [run_bind, h.assertInitDone, andThen_ok, hsearch, hdestroy, Option.isSome_none,
      Bool.false_eq_true, if_false]
  rw [hrun]
  exact h2.deleteSecondStep_clean hclean hlive

end Success

end DocumentDb.Documents
