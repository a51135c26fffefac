import DocumentDb.Documents.Growth

namespace DocumentDb.Documents

open Storage Program Bytes

section Runs

/-- If there is a root among the nodes, one of them has the id that roots are
recognised by. -/
def RootKnown (nodes : List Node) : Prop :=
  (∃ node ∈ nodes, node.parentId = nullNodeId) → ∃ node ∈ nodes, node.id = rootNodeId

/-- A run of adds, deletes and updates from a new document in which roots are only
requested besides nodes with some property. An update counts without the node that it
replaces. -/
inductive EditRun (pageSize : Nat) (P : List Node → Prop) : Document → Prop
  | init {res t} : sizeofFileHeader + toUInt32 pageSize < 2 ^ 32 →
      documentInit pageSize (documentNew (fileOpen none noFaults)) = .ok res t → EditRun pageSize P t
  | addNode {s request result r t} : EditRun pageSize P s →
      (request.parent = nullNodeId → P (liveNodes s)) →
      documentAddNode request result s = .ok r t → FileBelow t.pageManager → EditRun pageSize P t
  | deleteNode {s request res t} : EditRun pageSize P s → documentDeleteNode request s = .ok res t →
      EditRun pageSize P t
  | updateNode {s request result r t} : EditRun pageSize P s →
      (request.parentId = nullNodeId → (∃ node ∈ liveNodes s, node.id = request.nodeId) →
        P ((liveNodes s).filter fun node => node.id ≠ request.nodeId)) →
      documentUpdateNode request result s = .ok r t → FileBelow t.pageManager → EditRun pageSize P t

variable {pageSize : Nat} {store : List (List Slot)} {doc t : Document} {request : CreateNodeRequest}
  {result node' : Node} {res : Result Unit}

def OneRoot (nodes : List Node) : Prop :=
  ∀ a ∈ nodes, ∀ b ∈ nodes, a.parentId = nullNodeId → b.parentId = nullNodeId → a = b

theorem OneRoot.filter {nodes : List Node} (h : OneRoot nodes) (p : Node → Bool) : OneRoot (nodes.filter p) :=
  fun a ha b hb => h a (List.mem_of_mem_filter ha) b (List.mem_of_mem_filter hb)

theorem OneRoot.append_child {nodes : List Node} (h : OneRoot nodes) {node : Node}
    (hchild : node.parentId ≠ nullNodeId) : OneRoot (nodes ++ [node]) := by
  intro a ha b hb hroot hroot'
  rcases List.mem_append.mp ha with ha | ha
  · rcases List.mem_append.mp hb with hb | hb
    · exact h a ha b hb hroot hroot'
    · rw [List.mem_singleton.mp hb] at hroot'
      exact absurd hroot' hchild
  · rw [List.mem_singleton.mp ha] at hroot
    exact absurd hroot hchild

theorem oneRoot_append_root {nodes : List Node} (hno : ∀ node ∈ nodes, node.parentId ≠ nullNodeId) (node : Node) :
    OneRoot (nodes ++ [node]) := by
  intro a ha b hb hroot hroot'
  rcases List.mem_append.mp ha with ha | ha
  · exact absurd hroot (hno a ha)
  · rcases List.mem_append.mp hb with hb | hb
    · exact absurd hroot' (hno b hb)
    · rw [List.mem_singleton.mp ha, List.mem_singleton.mp hb]

theorem Holds.addNode_oneRoot (h : Holds pageSize store doc) (hone : OneRoot (nodesOf store))
    (hknown : request.parent = nullNodeId → RootKnown (nodesOf store))
    (hrun : documentAddNode request result doc = .ok (res, node') t) (hbelow : FileBelow t.pageManager) :
    ∃ store', Holds pageSize store' t ∧ OneRoot (nodesOf store') := by
  rcases h.addNode_ok hrun hbelow with ⟨_, ht, _⟩ | ⟨_, hroot, _, rfl, stored, hp, hv, ht⟩
  · exact ⟨store, ht, hone⟩
  · refine ⟨_, ht, ?_⟩
    rw [nodesOf_added h hp hv result]
    by_cases hnull : request.parent = nullNodeId
    · refine oneRoot_append_root (fun node hnode hparent => ?_) _
      obtain ⟨root, hmem, hid⟩ := hknown hnull ⟨node, hnode, hparent⟩
      exact (hroot hnull).2 root hmem hid
    · exact hone.append_child hnull

theorem EditRun.oneRoot (h : EditRun pageSize RootKnown doc) :
    ∃ store, Holds (toUInt32 pageSize) store doc ∧ OneRoot (nodesOf store) := by
  induction h with
  | init hsmall hinit =>
      refine ⟨[[]], (documentInit_new_ok hsmall hinit).2, ?_⟩
      simp [nodesOf_fresh, OneRoot]
  | addNode _ hknown hrun hbelow ih =>
      obtain ⟨store, hs, hone⟩ := ih
      rw [hs.liveNodes_eq] at hknown
      exact hs.addNode_oneRoot hone hknown hrun hbelow
  | deleteNode _ hrun ih =>
      obtain ⟨store, hs, hone⟩ := ih
      obtain ⟨_, _, ⟨_, ht, _⟩ | ⟨_, _, k, i, _, ht⟩⟩ := hs.deleteNode_ok hrun
      · exact ⟨store, ht, hone⟩
      · exact ⟨_, ht, by rw [nodesOf_deleteAt]; exact hone.filter _⟩
  | updateNode _ hknown hrun hbelow ih =>
      obtain ⟨store, hs, hone⟩ := ih
      rw [hs.liveNodes_eq] at hknown
      obtain ⟨_, ⟨_, ht, _⟩ | ⟨hlive, k, i, hki, s, res, hdeleted, hadd, _⟩⟩ := hs.updateNode_ok hrun
      · exact ⟨store, ht, hone⟩
      · refine hdeleted.addNode_oneRoot (by rw [nodesOf_deleteAt]; exact hone.filter _) (fun hnull => ?_) hadd hbelow
        rw [nodesOf_deleteAt, ← hki]
        exact hknown hnull hlive

/-- When roots are only requested while a live root has the id `(0, 0)`, or none is live,
there is never a second one. A request for a root besides a live one is refused
exactly when a node with that id is live. -/
theorem editRun_oneRoot (h : EditRun pageSize RootKnown doc) :
    OneRoot (liveNodes doc) ∧
    ∀ request result res node' t, request.parent = nullNodeId →
      (∃ root ∈ liveNodes doc, root.parentId = nullNodeId) →
      documentAddNode request result doc = .ok (res, node') t → FileBelow t.pageManager →
      (res ≠ .ok () ↔ RootKnown (liveNodes doc)) := by
  obtain ⟨store, hs, hone⟩ := h.oneRoot
  rw [hs.liveNodes_eq]
  refine ⟨hone, fun request result res node' t hnull hlive hrun hbelow => ?_⟩
  rcases hs.addNode_ok hrun hbelow with ⟨hres, _, _, hroot, _⟩ | ⟨rfl, hroot, _⟩
  · exact ⟨fun _ _ => hroot hnull, fun _ => hres⟩
  · refine ⟨fun hbad => absurd rfl hbad, fun hknown => ?_⟩
    obtain ⟨node, hnode, hid⟩ := hknown hlive
    exact absurd hid ((hroot hnull).2 node hnode)

end Runs

section TwoRoots

variable {doc : Document} {pages : List (List Slot)} {nodes : List Node} {slot : Slot}

structure SmallRun (store : List (List Slot)) (nodes : List Node) (doc : Document) : Prop where
  run : EditRun 400 (fun _ => True) doc
  packed : Packed 400 store doc
  nodes_eq : nodesOf store = nodes

theorem SmallRun.new : ∃ doc, SmallRun [[]] [] doc := by
  obtain ⟨t, hinit, _, ht⟩ := Packed.new (show sizeofPageHeader ≤ 400 by decide) (by decide)
  have hsize : toUInt32 (400 : Nat) = 400 := toUInt32_of_lt (by decide)
  exact ⟨t, .init (by rw [hsize]; decide) hinit, ht, nodesOf_fresh⟩

theorem SmallRun.add_empty (h : SmallRun (pages ++ [[]]) nodes doc) (request : CreateNodeRequest)
    (hpages : pages.length ≤ 2)
    (hroot : request.parent = nullNodeId → ∀ node ∈ nodes, node.id ≠ rootNodeId)
    (hchild : request.parent ≠ nullNodeId → ∃ node ∈ nodes, node.id = request.parent) :
    ∃ t slot, SmallRun (pages ++ [[slot]]) (nodes ++ [⟨⟨pages.length, 0⟩, request.parent, request.value⟩]) t := by
  obtain ⟨hrun, hpacked, rfl⟩ := h
  have hlen : (pages ++ [[]]).length = pages.length + 1 := List.length_append
  obtain ⟨t, stored, hadd, ht, hnodes⟩ := hpacked.add request zeroNode (by decide)
    (fun _ => by rw [hlen]; simp only [sizeofFileHeader]; omega) hroot hchild
  obtain ⟨hput, hid⟩ := putSlots_empty hpacked.holds.nodes (show 400 < 2 ^ 31 by decide)
    (show sizeofPageHeader + (sizeofItemMetadata + sizeofNode) ≤ 400 by decide) (by simp [lastSlots]) stored
  have hset : (pages ++ [[]]).set pages.length [⟨encodeNode stored, false⟩] =
      pages ++ [[⟨encodeNode stored, false⟩]] := by
    rw [List.set_append_right _ _ le_rfl, Nat.sub_self, List.set_cons_zero]
  rw [hlen, Nat.add_sub_cancel] at hput hid
  rw [hput, hset] at ht hnodes
  rw [hid] at hnodes
  exact ⟨t, _, .addNode hrun (fun _ => trivial) hadd ht.holds.below, ht, hnodes⟩

theorem SmallRun.add_full (h : SmallRun (pages ++ [[slot]]) nodes doc) (request : CreateNodeRequest)
    (hpages : pages.length ≤ 2)
    (hroot : request.parent = nullNodeId → ∀ node ∈ nodes, node.id ≠ rootNodeId)
    (hchild : request.parent ≠ nullNodeId → ∃ node ∈ nodes, node.id = request.parent) :
    ∃ t slot', SmallRun (pages ++ [[slot]] ++ [[slot']])
      (nodes ++ [⟨⟨(pages.length + 1 : Nat), 0⟩, request.parent, request.value⟩]) t := by
  obtain ⟨hrun, hpacked, rfl⟩ := h
  have hlen : (pages ++ [[slot]]).length = pages.length + 1 := List.length_append
  obtain ⟨t, stored, hadd, ht, hnodes⟩ := hpacked.add request zeroNode (by decide)
    (fun _ => by rw [hlen]; simp only [sizeofFileHeader]; omega) hroot hchild
  have hlast : lastSlots (pages ++ [[slot]]) = [slot] := by simp [lastSlots]
  obtain ⟨hput, hid⟩ := putSlots_full hpacked.holds.nodes (show 400 < 2 ^ 31 by decide)
    (show 400 < sizeofPageHeader + (sizeofItemMetadata + sizeofNode) * (_ + 1) by
      rw [hlast]; exact (show 400 < 28 + 298 * 2 by decide)) stored
  rw [hput] at ht hnodes
  rw [hid, hlen] at hnodes
  exact ⟨t, _, .addNode hrun (fun _ => trivial) hadd ht.holds.below, ht, hnodes⟩

theorem SmallRun.delete {store : List (List Slot)} (h : SmallRun store nodes doc) {k : Nat}
    (hk : store[k]? = some [slot]) (hlive : ∃ node ∈ nodes, node.id = ⟨k, 0⟩)
    (hleaf : ∀ node ∈ nodes, node.parentId ≠ ⟨k, 0⟩) :
    ∃ t, SmallRun (deleteAt store k 0) (nodes.filter fun node => node.id ≠ ⟨k, 0⟩) t := by
  obtain ⟨hrun, hpacked, rfl⟩ := h
  obtain ⟨t, hdelete, ht⟩ := hpacked.pop hk rfl hlive hleaf
  exact ⟨t, .deleteNode hrun hdelete, ht, nodesOf_deleteAt store k 0⟩

/-- A root and its child are deleted again. The next root goes to the second page, and
does not keep another one away. -/
theorem editRun_two_roots :
    ∃ doc, EditRun 400 (fun _ => True) doc ∧
      liveNodes doc = [⟨⟨1, 0⟩, nullNodeId, nodeValueOfBytes .int32 [1]⟩,
        ⟨⟨2, 0⟩, nullNodeId, nodeValueOfBytes .int32 [1]⟩] ∧ ¬OneRoot (liveNodes doc) := by
  obtain ⟨d0, r0⟩ := SmallRun.new
  obtain ⟨d1, s1, r1⟩ := SmallRun.add_empty (show SmallRun ([] ++ [[]]) _ _ from r0) newRoot (by decide)
    (by simp) fun hne => absurd rfl hne
  obtain ⟨d2, s2, r2⟩ := r1.add_full newChild (by decide) (fun hnull => by cases hnull)
    fun _ => ⟨_, List.mem_cons_self, rfl⟩
  obtain ⟨d3, r3⟩ := r2.delete (show _[1]? = some [s2] from rfl) (by simp)
    (by simp [newRoot, newChild, nullNodeId, rootNodeId])
  obtain ⟨d4, r4⟩ := r3.delete (show _[0]? = some [s1] from rfl) (by simp)
    (by simp [newRoot, newChild, nullNodeId, rootNodeId])
  obtain ⟨d5, s5, r5⟩ := SmallRun.add_empty (show SmallRun ([[]] ++ [[]]) _ _ from r4) newRoot (by decide)
    (by simp) fun hne => absurd rfl hne
  obtain ⟨d6, s6, r6⟩ := r5.add_full newRoot (by decide) (by simp [rootNodeId]) fun hne => absurd rfl hne
  have hnodes : liveNodes d6 = [⟨⟨1, 0⟩, nullNodeId, nodeValueOfBytes .int32 [1]⟩,
      ⟨⟨2, 0⟩, nullNodeId, nodeValueOfBytes .int32 [1]⟩] := by
    rw [r6.packed.holds.liveNodes_eq, r6.nodes_eq]
    rfl
  refine ⟨d6, r6.run, hnodes, fun hone => ?_⟩
  rw [hnodes] at hone
  have heq := hone _ List.mem_cons_self _ (List.mem_cons_of_mem _ List.mem_cons_self) rfl rfl
  simp at heq

/-- Another root is asked for besides a live one, after a child has been deleted. -/
theorem editRun_oneRoot_new :
    ∃ doc, EditRun 4096 RootKnown doc ∧ (liveNodes doc).length = 3 ∧ OneRoot (liveNodes doc) ∧
      ∃ res node t, documentAddNode newRoot zeroNode doc = .ok (res, node) t ∧ res ≠ .ok () := by
  obtain ⟨d0, d1, d2, d3, d4, d5, h⟩ := exists_replacing
  obtain ⟨slots, _, hpacked, hnodes⟩ := h.packed
  have hsize : toUInt32 (4096 : Nat) = 4096 := toUInt32_of_lt (by decide)
  have hnew : RootKnown (liveNodes d0) := by
    rw [h.empty]
    simp [RootKnown]
  have hroot := (EditRun.init (P := RootKnown) (by rw [hsize]; decide) h.opened).addNode (fun _ => hnew) h.root
    (h.below d1 (by simp))
  have hgrown := (hroot.addNode (fun hnull => by cases hnull) h.first (h.below d2 (by simp))).addNode
    (fun hnull => by cases hnull) h.second (h.below d3 (by simp))
  have hrun := (hgrown.deleteNode h.deleted).addNode (fun hnull => by cases hnull) h.third (h.below d5 (by simp))
  have hlive : liveNodes d5 = _ := hpacked.holds.liveNodes_eq.trans hnodes
  have hmem : onFirstPage 0 newRoot ∈ liveNodes d5 := hlive ▸ List.mem_cons_self
  obtain ⟨hone, hrefused⟩ := editRun_oneRoot hrun
  obtain ⟨t, message, hadd, ht⟩ := hpacked.holds.addNode_refused hpacked.allLive.clean newRoot zeroNode
    (fun _ => ⟨_, hpacked.holds.liveNodes_eq ▸ hmem, rfl⟩) fun hchild => absurd rfl hchild
  have hiff := hrefused newRoot zeroNode _ _ t rfl ⟨_, hmem, rfl⟩ hadd ht.below
  exact ⟨d5, hrun, by rw [hlive]; rfl, hone, _, _, t, hadd, hiff.mpr fun _ => ⟨_, hmem, rfl⟩⟩

end TwoRoots

end DocumentDb.Documents
