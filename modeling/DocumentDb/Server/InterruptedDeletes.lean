import DocumentDb.Server.Driving
import DocumentDb.Server.Filters

namespace DocumentDb.Server

open Storage Program Bytes Documents Rpc Forest

section Survivors

variable {pageSize : Nat} {nodes nodes' : List Node} {tops tops' : NodeId → Prop} {store : List (List Slot)}
  {doc t : Document} {id : NodeId} {bytes : List UInt8} {count : Int} {fuel : Nat}

abbrev NodesPruned (tops : NodeId → Prop) (nodes nodes' : List Node) : Prop :=
  Pruned Node.id Node.parentId tops nodes nodes'

def PrunedSurvivor (pageSize : Nat) (nodes : List Node) (tops : NodeId → Prop) (bytes : List UInt8) : Prop :=
  ∃ store, AllNodes store ∧ Saved fileSignature pageSize store bytes ∧ NodesPruned tops nodes (nodesOf store)

theorem Holds.prunedSurvivor (h : Holds pageSize store doc) (hpruned : NodesPruned tops nodes (nodesOf store)) :
    PrunedSurvivor pageSize nodes tops (savedFile doc) :=
  ⟨store, h.nodes, h.saved, hpruned⟩

theorem PrunedSurvivor.behind (h : PrunedSurvivor pageSize nodes' tops bytes)
    (hpruned : NodesPruned tops nodes nodes') :
    PrunedSurvivor pageSize nodes tops bytes := by
  obtain ⟨store, hnodes, hsaved, hrest⟩ := h
  exact ⟨store, hnodes, hsaved, hpruned.trans hrest⟩

theorem PrunedSurvivor.mono (h : PrunedSurvivor pageSize nodes tops bytes) (hle : ∀ k, tops k → tops' k) :
    PrunedSurvivor pageSize nodes tops' bytes := by
  obtain ⟨store, hnodes, hsaved, hpruned⟩ := h
  exact ⟨store, hnodes, hsaved, hpruned.mono hle⟩

theorem pruned_deleteAt {k i : Nat} (hki : id = ⟨k, i⟩) (hleaf : ∀ node ∈ nodesOf store, node.parentId ≠ id) :
    NodesPruned (· = id) (nodesOf store) (nodesOf (deleteAt store k i)) := by
  refine pruned_leaf (fun n => ?_) hleaf
  rw [nodesOf_deleteAt, List.mem_filter, decide_eq_true_eq, hki]

theorem DeleteSurvivor.pruned (h : DeleteSurvivor pageSize store id bytes) (hnodes : AllNodes store) :
    PrunedSurvivor pageSize (nodesOf store) (· = id) bytes := by
  rcases h with hsaved | ⟨hleaf, k, i, hki, hsaved⟩
  · exact ⟨store, hnodes, hsaved, pruned_refl _ _⟩
  · exact ⟨_, hnodes.delete k i, hsaved, pruned_deleteAt hki hleaf⟩

theorem drives_takeChildren {R : List UInt8 → List UInt8 → Prop} [Std.Refl R] [IsTrans (List UInt8) R]
    (nodeId : NodeId) :
    Driven R (takeChildren nodeId) := by
  apply (drives_countChildren nodeId).bind
  intro childrenCount
  apply Device.Drives.ite
  · exact (drives_getNodes _ childrenCount).bind fun _ => Documents.drives_abortIfFail
  · exact Device.Drives.pure _

theorem drives_deleteChildren (fuel : Nat) (children : List Node) (count : Int) :
    Driven Longer (deleteChildren fuel children count) := by
  apply drives_foldlM
  intro count child
  apply (drives_deleteWithDescendants fuel child.id count).bind
  rintro ⟨res, count⟩
  exact Documents.drives_abortIfFail.bind fun _ => Device.Drives.pure _

theorem Holds.survives_children {children : List Node}
    (ih : ∀ {store : List (List Slot)} {doc : Document} {id : NodeId} {count : Int}, Holds pageSize store doc →
      Documents.Survives (PrunedSurvivor pageSize (nodesOf store) (· = id)) (deleteNodeWithAllDescendants fuel id count) doc)
    (h : Holds pageSize store doc) :
    Documents.Survives (PrunedSurvivor pageSize (nodesOf store) fun k => ∃ child ∈ children, child.id = k)
      (deleteChildren fuel children count) doc := by
  induction children generalizing store doc count with
  | nil => exact survives_reads (Device.Drives.pure _) (Holds.prunedSurvivor h (pruned_refl _ _))
  | cons child children ihc =>
      have hrest (r : Result Unit × Int) : Driven Longer (do
          abortIfFail r.1 "Failed to delete node"
          deleteChildren fuel children r.2) :=
        Documents.drives_abortIfFail.bind fun _ => drives_deleteChildren fuel children r.2
      rw [deleteChildren_cons]
      refine Device.Survives.bind (drives_deleteWithDescendants fuel child.id count) hrest ?_ ?_
      · apply (ih h).mono
        intro bytes hbytes
        apply hbytes.mono
        rintro k rfl
        exact ⟨child, List.mem_cons_self, rfl⟩
      rintro ⟨res, count₁⟩ s hdelete
      obtain ⟨rfl, store₁, h₁, hnodes, _⟩ := deleteNodeWithAllDescendants_ok h hdelete
      have hgone : NodesPruned (fun k => ∃ c ∈ child :: children, c.id = k) (nodesOf store) (nodesOf store₁) := by
        apply (pruned_under hnodes).mono
        rintro k rfl
        exact ⟨child, List.mem_cons_self, rfl⟩
      refine Device.Survives.silent (t := s) (fun k => rfl) rfl ?_
      apply (ihc h₁).mono
      intro bytes hbytes
      have hlater : PrunedSurvivor pageSize (nodesOf store₁) (fun k => ∃ c ∈ child :: children, c.id = k) bytes := by
        apply hbytes.mono
        rintro k ⟨c, hc, hid⟩
        exact ⟨c, List.mem_cons_of_mem _ hc, hid⟩
      exact hlater.behind hgone

theorem Holds.survives_deleteWithDescendants (h : Holds pageSize store doc) :
    Documents.Survives (PrunedSurvivor pageSize (nodesOf store) (· = id))
      (deleteNodeWithAllDescendants fuel id count) doc := by
  induction fuel generalizing store doc id count with
  | zero => exact survives_reads (Device.Drives.throw _) (Holds.prunedSurvivor h (pruned_refl _ _))
  | succ fuel ih =>
      have hlast (R) [Std.Refl R] [IsTrans (List UInt8) R] (res : Result Unit) (count : Int) : Documents.Driven R (do
          abortIfFail res "Trying to delete node with not children"
          return (res, count + 1)) :=
        Documents.drives_abortIfFail.bind fun _ => Device.Drives.pure _
      have hdelete (count : Int) : Driven Longer (do
          let res ← documentDeleteNode ⟨id⟩
          abortIfFail res "Trying to delete node with not children"
          return (res, count + 1)) :=
        (drives_deleteNode _).bind fun res => hlast Longer res count
      rw [deleteNodeWithAllDescendants_eq]
      refine Device.Survives.bind (drives_takeChildren id) ?_ ?_ ?_
      · exact fun children => (drives_deleteChildren fuel children count).bind hdelete
      · exact survives_reads (drives_takeChildren id) (Holds.prunedSurvivor h (pruned_refl _ _))
      intro children s hchildren
      obtain ⟨hs, rfl⟩ := h.takeChildren_ok hchildren
      have hup : ∀ k, (∃ child ∈ (nodesOf store).filter fun node => node.parentId == id, child.id = k) →
          ∃ top, top = id ∧ Under Node.id Node.parentId (nodesOf store) top k := by
        rintro k ⟨child, hchild, rfl⟩
        obtain ⟨hmem, hparent⟩ := List.mem_filter.mp hchild
        exact ⟨id, rfl, .of_child hmem (beq_iff_eq.mp hparent) .root⟩
      refine Device.Survives.bind (drives_deleteChildren fuel _ count) hdelete ?_ ?_
      · apply (Holds.survives_children (fun h => ih h) hs).mono
        rintro bytes ⟨store', hnodes, hsaved, hpruned⟩
        exact ⟨store', hnodes, hsaved, hpruned.lift hup⟩
      intro count₁ u hrun
      obtain ⟨store₁, hu, hnodes, _⟩ := deleteChildren_ok (fun h hrun => deleteNodeWithAllDescendants_ok h hrun) hs hrun
      have hgone : NodesPruned (· = id) (nodesOf store) (nodesOf store₁) := (pruned_trees hnodes).lift hup
      refine Device.Survives.bind (drives_deleteNode _) (fun res => hlast Longer res count₁) ?_ ?_
      · apply (hu.survives_deleteNode id).mono
        intro bytes hbytes
        exact (DeleteSurvivor.pruned hbytes hu.nodes).behind hgone
      intro res v hdeleted
      obtain ⟨_, hleaf, ⟨_, hv, _⟩ | ⟨_, _, k, i, hki, hv⟩⟩ := hu.deleteNode_ok hdeleted
      · exact survives_reads (hlast Eq res count₁) (Holds.prunedSurvivor hv hgone)
      · exact survives_reads (hlast Eq res count₁) (Holds.prunedSurvivor hv (hgone.trans (pruned_deleteAt hki hleaf)))

end Survivors

section Requests

variable {pageSize : Nat} {store : List (List Slot)} {doc : Document} {fuel : Nat} {tmpCounts : Nat → Int}
  {messages : List RpcNode} {nodes : List Node} {request : RpcFilterChain}

theorem Holds.survives_deleteNodesLoop (h : Holds pageSize store doc)
    (hnames : List.Forall₂ (fun message node => convertFromRpcNodeId message.id = .ok node.id) messages nodes) :
    Documents.Survives (PrunedSurvivor pageSize (nodesOf store) fun k => ∃ c ∈ nodes, c.id = k)
      (deleteNodesLoop fuel tmpCounts messages) doc := by
  induction hnames generalizing store doc tmpCounts with
  | nil => exact survives_reads (Device.Drives.pure _) (Holds.prunedSurvivor h (pruned_refl _ _))
  | @cons message node messages nodes hname _ ih =>
      have hrest (r : Result Unit × Int) : Documents.Driven Longer (do
          abortIfFail r.1 "failed to delete node"
          deleteNodesLoop fuel (fun i => tmpCounts (i + 1)) messages) :=
        Documents.drives_abortIfFail.bind fun _ => drives_deleteNodesLoop fuel _ messages
      rw [deleteNodesLoop, hname]
      refine Device.Survives.silent (t := doc) (fun k => rfl) rfl ?_
      refine Device.Survives.bind (drives_deleteWithDescendants fuel node.id _) hrest ?_ ?_
      · apply (Holds.survives_deleteWithDescendants h).mono
        intro bytes hbytes
        apply hbytes.mono
        rintro k rfl
        exact ⟨node, List.mem_cons_self, rfl⟩
      rintro ⟨res, count⟩ s hdelete
      obtain ⟨rfl, store₁, h₁, hnodes, _⟩ := deleteNodeWithAllDescendants_ok h hdelete
      have hgone : NodesPruned (fun k => ∃ c ∈ node :: nodes, c.id = k) (nodesOf store) (nodesOf store₁) := by
        apply (pruned_under hnodes).mono
        rintro k rfl
        exact ⟨node, List.mem_cons_self, rfl⟩
      refine Device.Survives.silent (t := s) (fun k => rfl) rfl ?_
      apply (ih h₁).mono
      intro bytes hbytes
      have hlater : PrunedSurvivor pageSize (nodesOf store₁) (fun k => ∃ c ∈ node :: nodes, c.id = k) bytes := by
        apply hbytes.mono
        rintro k ⟨c, hc, hid⟩
        exact ⟨c, List.mem_cons_of_mem _ hc, hid⟩
      exact hlater.behind hgone

theorem Holds.survives_deleteNodesByFilter (h : Holds pageSize store doc) :
    Documents.Survives
      (PrunedSurvivor pageSize (nodesOf store) fun k =>
        ∃ c ∈ answer (nodesOf store) request.filters nullNodeId, c.id = k)
      (handleDeleteNodesByFilterRequest fuel tmpCounts request) doc := by
  have hdelete (nodes : RpcNodes) : Documents.Driven Longer
      (if nodes.nodes.length = 0 then return ⟨0⟩
        else do
          deleteNodesLoop fuel tmpCounts nodes.nodes
          return ⟨nodes.nodes.length⟩ : DocumentM RpcDeletedNodes) := by
    apply Device.Drives.ite
    · exact Device.Drives.pure _
    · exact (drives_deleteNodesLoop fuel tmpCounts nodes.nodes).bind fun _ => Device.Drives.pure _
  refine Device.Survives.bind (drives_getNodesByFilter request) hdelete ?_ ?_
  · exact survives_reads (drives_getNodesByFilter request) (Holds.prunedSurvivor h (pruned_refl _ _))
  intro messages s hget
  obtain ⟨hs, matchers, hmatchers, _, hconvert⟩ := getNodesByFilterRequest_ok h hget
  have hnames := convertToRpcNodes_ids hconvert fun node hnode => idsFit h (selected_subset matchers nullNodeId hnode)
  rw [selected_of_matchers hmatchers] at hnames
  split
  · exact survives_reads (Device.Drives.pure _) (Holds.prunedSurvivor hs (pruned_refl _ _))
  refine Device.Survives.bind (drives_deleteNodesLoop fuel tmpCounts messages.nodes) (fun _ => Device.Drives.pure _)
    (Holds.survives_deleteNodesLoop hs hnames) ?_
  intro u t hloop
  obtain ⟨_, store', ht, hnodes, _⟩ := deleteNodesLoop_ok hs hnames hloop 0
  exact survives_reads (Device.Drives.pure _) (Holds.prunedSurvivor ht (pruned_trees hnodes))

/-- Wherever a delete request is interrupted, the header of the file that it leaves names the last page.
If `document_init` gets past the slots that are deleted, the file holds a tree: nodes have gone only at and
below those that the request selects, and with each of them all nodes below it. -/
theorem deleteNodesByFilter_interrupted (h : ServerReachable pageSize doc) (k : Nat) :
    Consistent (killedAfter k (handleDeleteNodesByFilterRequest fuel tmpCounts request) doc) ∧
    ∀ pageSize' res t, documentInit pageSize' (documentNew (fileOpen
        (some (killedAfter k (handleDeleteNodesByFilterRequest fuel tmpCounts request) doc)) noFaults)) = .ok res t →
      Documents.Tree (toUInt32 pageSize) t ∧
      NodesPruned (fun k => ∃ c ∈ answer (liveNodes doc) request.filters nullNodeId, c.id = k)
        (liveNodes doc) (liveNodes t) := by
  obtain ⟨store, hstore, hrooted⟩ := h.document.tree
  have hsurvives : Documents.Survives _ (handleDeleteNodesByFilterRequest fuel tmpCounts request) doc :=
    Holds.survives_deleteNodesByFilter hstore
  obtain ⟨store', hnodes, hsaved, hpruned⟩ := hsurvives.killed k
  refine ⟨hsaved.consistent, fun pageSize' res t hrun => ?_⟩
  have ht := holds_of_saved hsaved hnodes hrun
  rw [hstore.liveNodes_eq, ht.liveNodes_eq]
  exact ⟨⟨store', ht, hpruned.grounded hrooted⟩, hpruned⟩

theorem family_below {k : NodeId} (h : Below family ⟨0, 2⟩ k) : k = ⟨0, 2⟩ ∨ k = ⟨0, 3⟩ := by
  have honly : family.filter (fun node => node.parentId == ⟨0, 2⟩) = [oneChar ⟨0, 3⟩ ⟨0, 2⟩ 100] := rfl
  have hleaf : ∀ node ∈ family, node.parentId ≠ ⟨0, 3⟩ := by decide
  rcases h.cases_child with rfl | ⟨child, hchild, hparent, hunder⟩
  · exact Or.inl rfl
  have hmem : child ∈ family.filter fun node => node.parentId == ⟨0, 2⟩ :=
    List.mem_filter.mpr ⟨hchild, by simpa using hparent⟩
  rw [honly, List.mem_singleton] at hmem
  subst hmem
  rcases hunder.cases_child with rfl | ⟨child, hchild, hparent, _⟩
  · exact Or.inr rfl
  · exact absurd hparent (hleaf child hchild)

/-- The second child of the root is deleted with the node below it: the others stay, and the node
below it does not stay alone. -/
theorem deleteNodesByFilter_interrupted_root :
    ∃ doc, ServerReachable 4096 doc ∧ liveNodes doc = family ∧ ∀ k,
      Consistent (killedAfter k (handleDeleteNodesByFilterRequest 5 (fun _ => 7) childC) doc) ∧
      ∀ pageSize' res t, documentInit pageSize' (documentNew (fileOpen
          (some (killedAfter k (handleDeleteNodesByFilterRequest 5 (fun _ => 7) childC) doc)) noFaults)) = .ok res t →
        oneChar rootNodeId nullNodeId 97 ∈ liveNodes t ∧ oneChar ⟨0, 1⟩ rootNodeId 98 ∈ liveNodes t ∧
        (oneChar ⟨0, 3⟩ ⟨0, 2⟩ 100 ∈ liveNodes t → oneChar ⟨0, 2⟩ rootNodeId 99 ∈ liveNodes t) := by
  obtain ⟨doc, slots, hr, hs, _, hnodes⟩ := exists_family
  have hlive : liveNodes doc = family := by rw [hs.holds.liveNodes_eq, hnodes]
  refine ⟨doc, hr, hlive, fun k => ?_⟩
  refine ⟨(deleteNodesByFilter_interrupted hr k).1, fun pageSize' res t hrun => ?_⟩
  obtain ⟨_, gone, hleft, hdown, htops⟩ := (deleteNodesByFilter_interrupted hr k).2 pageSize' res t hrun
  rw [hlive] at hleft hdown htops
  have hkept (node : Node) (hnode : node ∈ family) (hsecond : node.id ≠ ⟨0, 2⟩) (hthird : node.id ≠ ⟨0, 3⟩) :
      node ∈ liveNodes t := by
    refine (hleft node).mpr ⟨hnode, fun hgone => ?_⟩
    obtain ⟨top, ⟨c, hc, rfl⟩, hunder⟩ := htops node hnode hgone
    rw [childC_answer, List.mem_singleton] at hc
    subst hc
    rcases family_below hunder with hid | hid
    · exact hsecond hid
    · exact hthird hid
  refine ⟨hkept _ (by simp [family]) (by decide) (by decide), hkept _ (by simp [family]) (by decide) (by decide),
    fun hthird => (hleft _).mpr ⟨by simp [family], fun hgone => ?_⟩⟩
  exact ((hleft _).mp hthird).2 (hdown _ (by simp [family]) hgone)

end Requests

end DocumentDb.Server
