import DocumentDb.Documents.Runs

namespace DocumentDb.Documents

open Storage Program Bytes

section Slots

variable {pageSize : Nat} {store : List (List Slot)} {node : Node} {k i : Nat} {slots : List Slot}

def AllLive (store : List (List Slot)) : Prop := ∀ slots ∈ store, ∀ slot ∈ slots, slot.deleted = false

theorem allLive_fresh : AllLive [[]] := by
  intro slots hslots slot hslot
  rw [List.mem_singleton] at hslots
  subst hslots
  cases hslot

theorem AllLive.put (h : AllLive store) (payload : ItemPayload) :
    AllLive (putSlots pageSize store payload) := forall_putSlots h rfl

theorem AllLive.pop (h : AllLive store) (hk : store[k]? = some slots) (hi : i + 1 = slots.length) :
    AllLive (deleteAt store k i) := by
  intro slots' hslots' slot hslot
  rcases mem_modify_cases hslots' with hslots' | ⟨old, hold, rfl⟩
  · exact h slots' hslots' slot hslot
  · rw [hk] at hold
    cases hold
    rw [deleteSlot, if_pos hi] at hslot
    exact h slots (List.mem_of_getElem? hk) slot (List.dropLast_subset _ hslot)

theorem slot_of_mem_pagesVisits {v : ItemIndex × Slot} (hv : v ∈ pagesVisits k store) :
    ∃ slots ∈ store, v.2 ∈ slots := by
  obtain ⟨j, slots, i, slot, hj, hi, rfl⟩ := mem_pagesVisits.mp hv
  exact ⟨slots, List.mem_of_getElem? hj, List.mem_of_getElem? hi⟩

theorem laterVisits_subset (k : Nat) (pages : List (List Slot)) :
    laterVisits k pages ⊆ pagesVisits k pages := by
  induction pages generalizing k with
  | nil => exact List.Subset.refl _
  | cons slots pages ih =>
      intro v hv
      rw [laterVisits] at hv
      rw [pagesVisits, List.mem_append]
      rcases List.mem_append.mp hv with hv | hv
      · split at hv
        · exact Or.inl hv
        · cases hv
      · exact Or.inr (ih (k + 1) hv)

theorem visits_subset (store : List (List Slot)) : visits store ⊆ pagesVisits 0 store := by
  cases store with
  | nil => exact List.Subset.refl _
  | cons slots pages =>
      intro v hv
      rw [visits] at hv
      rw [pagesVisits, List.mem_append]
      exact (List.mem_append.mp hv).imp id fun h => laterVisits_subset 1 pages h

theorem AllLive.clean (h : AllLive store) : Clean (visits store) := by
  intro v hv
  obtain ⟨slots, hslots, hslot⟩ := slot_of_mem_pagesVisits (visits_subset store hv)
  exact h slots hslots v.2 hslot

theorem hasPlace_node (h : AllNodes store) (hp : pageSize < 2 ^ 31) :
    HasPlace pageSize store sizeofNode ↔
      sizeofPageHeader + (sizeofItemMetadata + sizeofNode) * ((lastSlots store).length + 1) ≤ pageSize := by
  have hdata : dataSize (lastSlots store) = sizeofNode * (lastSlots store).length := by
    rw [dataSize, List.map_congr_left (forall_lastSlots h), List.map_const', List.sum_replicate_nat,
      Nat.mul_comm]
  have hused : usedSpace (lastSlots store) =
      sizeofPageHeader + (sizeofItemMetadata + sizeofNode) * (lastSlots store).length := by
    rw [usedSpace, hdata, Nat.add_mul, Nat.add_assoc]
  have hfits : HasPlace pageSize store sizeofNode ↔ Fits pageSize (lastSlots store) sizeofNode := by
    constructor
    · exact fun hplace => fits_of_le_available (by decide) hplace.2
    · intro hfits
      have hle := le_available_of_fits hp hfits
      exact ⟨le_trans (by decide) hle, hle⟩
  rw [hfits, Fits, hused, Nat.mul_succ]
  simp only [sizeofPageHeader, sizeofItemMetadata, sizeofNode]
  omega

theorem putSlots_onePage (h : AllNodes [slots]) (hp : pageSize < 2 ^ 31)
    (hfit : sizeofPageHeader + (sizeofItemMetadata + sizeofNode) * (slots.length + 1) ≤ pageSize) (node : Node) :
    putSlots pageSize [slots] (encodeNode node) = [slots ++ [⟨encodeNode node, false⟩]] ∧
      putId pageSize [slots] sizeofNode = ⟨0, slots.length⟩ := by
  have hplace : HasPlace pageSize [slots] sizeofNode := (hasPlace_node h hp).mpr hfit
  rw [putSlots, putId, length_encodeNode, if_pos hplace, if_pos hplace]
  exact ⟨rfl, rfl⟩

theorem putSlots_empty (h : AllNodes store) (hp : pageSize < 2 ^ 31)
    (hfit : sizeofPageHeader + (sizeofItemMetadata + sizeofNode) ≤ pageSize) (hlast : lastSlots store = [])
    (node : Node) :
    putSlots pageSize store (encodeNode node) = store.set (store.length - 1) [⟨encodeNode node, false⟩] ∧
      putId pageSize store sizeofNode = ⟨(store.length - 1 : Nat), 0⟩ := by
  have hplace : HasPlace pageSize store sizeofNode := (hasPlace_node h hp).mpr (by rw [hlast]; exact hfit)
  rw [putSlots, putId, length_encodeNode, if_pos hplace, if_pos hplace, hlast]
  exact ⟨rfl, rfl⟩

theorem putSlots_full (h : AllNodes store) (hp : pageSize < 2 ^ 31)
    (hfull : pageSize < sizeofPageHeader + (sizeofItemMetadata + sizeofNode) * ((lastSlots store).length + 1))
    (node : Node) :
    putSlots pageSize store (encodeNode node) = store ++ [[⟨encodeNode node, false⟩]] ∧
      putId pageSize store sizeofNode = ⟨store.length, 0⟩ := by
  have hplace : ¬HasPlace pageSize store sizeofNode := fun hplace =>
    absurd ((hasPlace_node h hp).mp hplace) (Nat.not_le.mpr hfull)
  rw [putSlots, putId, length_encodeNode, if_neg hplace, if_neg hplace]
  exact ⟨rfl, rfl⟩

end Slots

section Capacity

variable {pageSize n : Nat} {store : List (List Slot)}

/-- The nodes that a page takes, with their metadata, behind its header. -/
def nodesPerPage (pageSize : Nat) : Nat := (pageSize - sizeofPageHeader) / (sizeofItemMetadata + sizeofNode)

/-- The pages of a file with some number of nodes. There is always one. -/
def pagesFor (pageSize n : Nat) : Nat := max 1 ((n + nodesPerPage pageSize - 1) / nodesPerPage pageSize)

/-- The pages have been filled one after the other with `n` nodes. -/
structure Filled (pageSize n : Nat) (store : List (List Slot)) : Prop where
  pos : 0 < store.length
  count : (store.length - 1) * nodesPerPage pageSize + (lastSlots store).length = n
  last : (lastSlots store).length ≤ nodesPerPage pageSize

theorem filled_fresh (pageSize : Nat) : Filled pageSize 0 [[]] :=
  ⟨by decide, by simp [lastSlots], by simp [lastSlots]⟩

theorem hasPlace_iff_lt (h : AllNodes store) (hp : pageSize < 2 ^ 31)
    (hfit : sizeofPageHeader + (sizeofItemMetadata + sizeofNode) ≤ pageSize) :
    HasPlace pageSize store sizeofNode ↔ (lastSlots store).length < nodesPerPage pageSize := by
  rw [hasPlace_node h hp, nodesPerPage, ← Nat.succ_le_iff, Nat.le_div_iff_mul_le (by decide), Nat.succ_eq_add_one,
    Nat.mul_comm]
  omega

theorem Filled.room (hfilled : Filled pageSize n store) (h : AllNodes store) (hp : pageSize < 2 ^ 31)
    (hfit : sizeofPageHeader + (sizeofItemMetadata + sizeofNode) ≤ pageSize) {total : Nat} (htotal : n < total)
    (hfile : sizeofFileHeader + pagesFor pageSize total * pageSize < 2 ^ 32)
    (hplace : ¬HasPlace pageSize store sizeofNode) :
    sizeofFileHeader + (store.length + 1) * pageSize < 2 ^ 32 := by
  rw [hasPlace_iff_lt h hp hfit, Nat.not_lt] at hplace
  have hper : 0 < nodesPerPage pageSize := Nat.div_pos (by omega) (by decide)
  have hfull : store.length * nodesPerPage pageSize = n := by
    have hlast := le_antisymm hfilled.last hplace
    rw [← hfilled.count, hlast, ← Nat.succ_mul, Nat.succ_eq_add_one, Nat.sub_add_cancel hfilled.pos]
  have hpages : store.length + 1 ≤ pagesFor pageSize total := by
    refine le_trans ((Nat.le_div_iff_mul_le hper).mpr ?_) (le_max_right _ _)
    rw [Nat.add_mul, hfull]
    omega
  exact lt_of_le_of_lt (Nat.add_le_add_left (Nat.mul_le_mul_right _ hpages) _) hfile

theorem Filled.put (hfilled : Filled pageSize n store) (h : AllNodes store) (hp : pageSize < 2 ^ 31)
    (hfit : sizeofPageHeader + (sizeofItemMetadata + sizeofNode) ≤ pageSize) (node : Node) :
    Filled pageSize (n + 1) (putSlots pageSize store (encodeNode node)) := by
  have hper : 0 < nodesPerPage pageSize := Nat.div_pos (by omega) (by decide)
  obtain ⟨hpos, hcount, hlast⟩ := hfilled
  have hplace := hasPlace_iff_lt h hp hfit
  rw [putSlots, length_encodeNode]
  split
  · rename_i hlt
    rw [hplace] at hlt
    have hslots : lastSlots (store.set (store.length - 1) (lastSlots store ++ [⟨encodeNode node, false⟩])) =
        lastSlots store ++ [⟨encodeNode node, false⟩] := by
      simp [lastSlots, hpos]
    refine ⟨by simpa using hpos, ?_, ?_⟩
    · rw [hslots, List.length_set, List.length_append, List.length_singleton]
      omega
    · rw [hslots, List.length_append, List.length_singleton]
      omega
  · rename_i hge
    rw [hplace, Nat.not_lt] at hge
    have hslots : lastSlots (store ++ [[⟨encodeNode node, false⟩]]) = [⟨encodeNode node, false⟩] := by
      simp [lastSlots]
    refine ⟨by simp, ?_, ?_⟩
    · have hfull := le_antisymm hlast hge
      rw [hslots, List.length_append, List.length_singleton, Nat.add_sub_cancel, List.length_singleton, ← hcount,
        hfull, ← Nat.succ_mul, Nat.succ_eq_add_one, Nat.sub_add_cancel hpos]
    · rw [hslots]
      exact hper

end Capacity

section Packed

variable {pageSize : Nat} {store : List (List Slot)} {doc : Document}

structure Packed (pageSize : Nat) (store : List (List Slot)) (doc : Document) : Prop where
  holds : Holds pageSize store doc
  allLive : AllLive store

theorem Packed.new (hmin : sizeofPageHeader ≤ pageSize) (hsmall : sizeofFileHeader + pageSize < 2 ^ 32) :
    ∃ t, documentInit pageSize (documentNew (fileOpen none noFaults)) = .ok (.ok ()) t ∧
      ReachableDocument pageSize t ∧ Packed pageSize [[]] t := by
  have hsize : toUInt32 pageSize = pageSize := toUInt32_of_lt (by omega)
  have hsmall' : sizeofFileHeader + toUInt32 pageSize < 2 ^ 32 := by rw [hsize]; exact hsmall
  obtain ⟨t, hinit, ht⟩ := documentInit_new hsmall' (by rw [hsize]; exact hmin)
  rw [hsize] at ht
  exact ⟨t, hinit, .init hsmall' hinit, ht, allLive_fresh⟩

theorem Packed.add (h : Packed pageSize store doc) (request : CreateNodeRequest) (result : Node)
    (hfit : sizeofNode + sizeofPageHeader + sizeofItemMetadata ≤ pageSize)
    (hroom : ¬HasPlace pageSize store sizeofNode → sizeofFileHeader + (store.length + 1) * pageSize < 2 ^ 32)
    (hroot : request.parent = nullNodeId → ∀ node ∈ nodesOf store, node.id ≠ rootNodeId)
    (hchild : request.parent ≠ nullNodeId → ∃ node ∈ nodesOf store, node.id = request.parent) :
    ∃ t stored, documentAddNode request result doc =
        .ok (.ok (), { requested request result with id := putId pageSize store sizeofNode }) t ∧
      Packed pageSize (putSlots pageSize store (encodeNode stored)) t ∧
      nodesOf (putSlots pageSize store (encodeNode stored)) =
        nodesOf store ++ [{ requested request result with id := putId pageSize store sizeofNode }] := by
  obtain ⟨t, stored, hrun, ht, hparent, hvalue⟩ :=
    h.holds.addNode_room h.allLive.clean request result hfit hroom hroot hchild
  exact ⟨t, stored, hrun, ⟨ht, h.allLive.put _⟩, nodesOf_added h.holds hparent hvalue result⟩

theorem node_fits_of_more {k : Nat}
    (hfit : sizeofPageHeader + (sizeofItemMetadata + sizeofNode) * (k + 1) ≤ pageSize) :
    sizeofNode + sizeofPageHeader + sizeofItemMetadata ≤ pageSize := by
  have hle := Nat.le_mul_of_pos_right (sizeofItemMetadata + sizeofNode) (Nat.zero_lt_succ k)
  rw [Nat.succ_eq_add_one] at hle
  omega

theorem Packed.addOnPage {slots : List Slot} (h : Packed pageSize [slots] doc) (request : CreateNodeRequest)
    (result : Node)
    (hfit : sizeofPageHeader + (sizeofItemMetadata + sizeofNode) * (slots.length + 1) ≤ pageSize)
    (hroom : sizeofFileHeader + 2 * pageSize < 2 ^ 32)
    (hroot : request.parent = nullNodeId → ∀ node ∈ nodesOf [slots], node.id ≠ rootNodeId)
    (hchild : request.parent ≠ nullNodeId → ∃ node ∈ nodesOf [slots], node.id = request.parent) :
    ∃ t slot, documentAddNode request result doc =
        .ok (.ok (), ⟨⟨0, slots.length⟩, request.parent, request.value⟩) t ∧
      Packed pageSize [slots ++ [slot]] t ∧
      nodesOf [slots ++ [slot]] = nodesOf [slots] ++ [⟨⟨0, slots.length⟩, request.parent, request.value⟩] := by
  obtain ⟨t, stored, hrun, ht, hnodes⟩ := h.add request result (node_fits_of_more hfit) (fun _ => hroom) hroot hchild
  obtain ⟨hput, hid⟩ := putSlots_onePage h.holds.nodes (by omega) hfit stored
  rw [hid] at hrun hnodes
  rw [hput] at ht hnodes
  exact ⟨t, _, hrun, ht, hnodes⟩

theorem Packed.pop (h : Packed pageSize store doc) {k i : Nat} {slots : List Slot}
    (hk : store[k]? = some slots) (hi : i + 1 = slots.length)
    (hlive : ∃ node ∈ nodesOf store, node.id = ⟨k, i⟩)
    (hleaf : ∀ node ∈ nodesOf store, node.parentId ≠ ⟨k, i⟩) :
    ∃ t, documentDeleteNode ⟨⟨k, i⟩⟩ doc = .ok (.ok ()) t ∧ Packed pageSize (deleteAt store k i) t := by
  obtain ⟨t, hrun, ht⟩ := h.holds.deleteNode_clean h.allLive.clean hlive hleaf
  exact ⟨t, hrun, ht, h.allLive.pop hk hi⟩

theorem Packed.takeChildren (h : Packed pageSize store doc) (id : NodeId) :
    ∃ t, Documents.takeChildren id doc = .ok ((nodesOf store).filter fun node => node.parentId == id) t ∧
      Packed pageSize store t := by
  have hmatch : matching (nodeMatcherNew (nodeConditionParentIdEq id)) = fun node => node.parentId == id :=
    funext (matching_parentIdEq id)
  have hdef := defined_parentIdEq id (nodesOf store)
  obtain ⟨s, hcount, hs⟩ := h.holds.count_clean h.allLive.clean hdef
  by_cases hpos : 0 < ((nodesOf store).filter (matching (nodeMatcherNew (nodeConditionParentIdEq id)))).length
  · obtain ⟨t, hget, ht⟩ := hs.get_clean h.allLive.clean hdef hpos
    refine ⟨t, ?_, ht, h.allLive⟩
    rw [Documents.takeChildren, documentCountChildren]
    simp only [run_bind, hcount, andThen_ok, if_pos hpos, hget, run_abortIfFail_ok]
    rw [hmatch]
  · have hnil := List.length_eq_zero_iff.mp (Nat.eq_zero_of_not_pos hpos)
    refine ⟨s, ?_, hs, h.allLive⟩
    rw [Documents.takeChildren, documentCountChildren]
    simp only [run_bind, hcount, andThen_ok, if_neg hpos, run_pure]
    rw [← hmatch, hnil]

theorem Packed.deleteLeaf (h : Packed pageSize store doc) {k i : Nat} {slots : List Slot}
    (hk : store[k]? = some slots) (hi : i + 1 = slots.length)
    (hlive : ∃ node ∈ nodesOf store, node.id = ⟨k, i⟩)
    (hleaf : ∀ node ∈ nodesOf store, node.parentId ≠ ⟨k, i⟩) (fuel : Nat) (count : Int) :
    ∃ t, deleteNodeWithAllDescendants (fuel + 1) ⟨k, i⟩ count doc = .ok (.ok (), count + 1) t ∧
      Packed pageSize (deleteAt store k i) t := by
  obtain ⟨s, htake, hs⟩ := h.takeChildren ⟨k, i⟩
  rw [List.filter_eq_nil_iff.mpr fun node hnode => by simpa using hleaf node hnode] at htake
  obtain ⟨t, hdelete, ht⟩ := hs.pop hk hi hlive hleaf
  refine ⟨t, ?_, ht⟩
  rw [deleteNodeWithAllDescendants_eq]
  simp only [run_bind, htake, andThen_ok, deleteChildren, List.foldlM_nil, run_pure, hdelete,
    run_abortIfFail_ok]

theorem Packed.deletePair (h : Packed pageSize store doc) {k i : Nat} {slots : List Slot} {child : Node}
    (hk : store[k]? = some slots) (hi : i + 2 = slots.length)
    (hlive : ∃ node ∈ nodesOf store, node.id = ⟨k, i⟩)
    (hchildren : (nodesOf store).filter (fun node => node.parentId == (⟨k, i⟩ : NodeId)) = [child])
    (hchild : child.id = ⟨k, (i + 1 : Nat)⟩)
    (hleaf : ∀ node ∈ nodesOf store, node.parentId ≠ ⟨k, (i + 1 : Nat)⟩) (fuel : Nat) (count : Int) :
    ∃ t, deleteNodeWithAllDescendants (fuel + 2) ⟨k, i⟩ count doc = .ok (.ok (), count + 2) t ∧
      Packed pageSize (deleteAt (deleteAt store k (i + 1)) k i) t := by
  have hmem : child ∈ (nodesOf store).filter (fun node => node.parentId == (⟨k, i⟩ : NodeId)) :=
    hchildren ▸ List.mem_cons_self
  obtain ⟨s, htake, hs⟩ := h.takeChildren ⟨k, i⟩
  rw [hchildren] at htake
  obtain ⟨u, hfirst, hu⟩ := hs.deleteLeaf hk hi ⟨child, List.mem_of_mem_filter hmem, hchild⟩ hleaf fuel count
  have hk' : (deleteAt store k (i + 1))[k]? = some slots.dropLast := by
    rw [deleteAt, List.getElem?_modify_eq, hk, Option.map_eq_map, Option.map_some, deleteSlot, if_pos hi]
  have hi' : i + 1 = slots.dropLast.length := by rw [List.length_dropLast, ← hi, Nat.add_succ_sub_one]
  obtain ⟨t, hdelete, ht⟩ := hu.pop hk' hi'
    (by
      obtain ⟨node, hnode, hid⟩ := hlive
      rw [nodesOf_deleteAt]
      exact ⟨node, List.mem_filter.mpr ⟨hnode, by simp [hid]⟩, hid⟩)
    (fun node hnode hparent => by
      rw [nodesOf_deleteAt] at hnode
      obtain ⟨hnode, hne⟩ := List.mem_filter.mp hnode
      have honly : node ∈ [child] := hchildren ▸ List.mem_filter.mpr ⟨hnode, by simpa using hparent⟩
      rw [List.mem_singleton.mp honly, hchild] at hne
      simp at hne)
  refine ⟨t, ?_, ht⟩
  rw [deleteNodeWithAllDescendants_eq]
  simp only [run_bind, htake, andThen_ok, deleteChildren, List.foldlM_cons, List.foldlM_nil, run_pure, hchild, hfirst,
    hdelete, run_abortIfFail_ok]
  rw [Int.add_assoc]
  rfl

end Packed

section Beginnings

variable {pageSize : Nat}

theorem isInt32_nullNodeId_pageId : IsInt32 nullNodeId.pageId := ⟨by decide, by decide⟩

theorem isInt32_nullNodeId_itemId : IsInt32 nullNodeId.itemId := ⟨by decide, by decide⟩

theorem isInt32_rootNodeId_pageId : IsInt32 rootNodeId.pageId := ⟨by decide, by decide⟩

theorem isInt32_rootNodeId_itemId : IsInt32 rootNodeId.itemId := ⟨by decide, by decide⟩

/-- The first node of a new document is a root with the id that roots are known by. -/
theorem exists_root (value : NodeValue)
    (hfit : sizeofPageHeader + (sizeofItemMetadata + sizeofNode) ≤ pageSize)
    (hroom : sizeofFileHeader + 2 * pageSize < 2 ^ 32) :
    ∃ doc slots, ReachableDocument pageSize doc ∧ Packed pageSize [slots] doc ∧ slots.length = 1 ∧
      nodesOf [slots] = [⟨rootNodeId, nullNodeId, value⟩] := by
  obtain ⟨s, _, hr, hs⟩ := Packed.new (le_trans (Nat.le_add_right _ _) hfit)
    (show sizeofFileHeader + pageSize < 2 ^ 32 by omega)
  obtain ⟨t, slot, hrun, ht, hnodes⟩ := hs.addOnPage
    ⟨nullNodeId, value, isInt32_nullNodeId_pageId, isInt32_nullNodeId_itemId⟩ zeroNode hfit hroom
    (by simp [nodesOf_fresh]) fun hne => absurd rfl hne
  rw [nodesOf_fresh] at hnodes
  exact ⟨t, _, .call hr (.addNode hrun) ht.holds.below, ht, rfl, hnodes⟩

theorem exists_child (value value' : NodeValue)
    (hfit : sizeofPageHeader + (sizeofItemMetadata + sizeofNode) * 2 ≤ pageSize)
    (hroom : sizeofFileHeader + 2 * pageSize < 2 ^ 32) :
    ∃ doc slots, ReachableDocument pageSize doc ∧ Packed pageSize [slots] doc ∧ slots.length = 2 ∧
      nodesOf [slots] = [⟨rootNodeId, nullNodeId, value⟩, ⟨⟨0, 1⟩, rootNodeId, value'⟩] := by
  obtain ⟨s, slots, hr, hs, hlen, hroot⟩ := exists_root value (by omega) hroom
  obtain ⟨t, slot, hrun, ht, hnodes⟩ := hs.addOnPage
    ⟨rootNodeId, value', isInt32_rootNodeId_pageId, isInt32_rootNodeId_itemId⟩ zeroNode (by rw [hlen]; exact hfit) hroom
    (fun hnull => by cases hnull) fun _ => ⟨_, by rw [hroot]; exact List.mem_cons_self, rfl⟩
  rw [hroot, hlen] at hnodes
  exact ⟨t, _, .call hr (.addNode hrun) ht.holds.below, ht, by rw [List.length_append, hlen]; rfl, hnodes⟩

theorem exists_grandchild (value value' value'' : NodeValue)
    (hfit : sizeofPageHeader + (sizeofItemMetadata + sizeofNode) * 3 ≤ pageSize)
    (hroom : sizeofFileHeader + 2 * pageSize < 2 ^ 32) :
    ∃ doc slots, ReachableDocument pageSize doc ∧ Packed pageSize [slots] doc ∧ slots.length = 3 ∧
      nodesOf [slots] = [⟨rootNodeId, nullNodeId, value⟩, ⟨⟨0, 1⟩, rootNodeId, value'⟩,
        ⟨⟨0, 2⟩, ⟨0, 1⟩, value''⟩] := by
  obtain ⟨s, slots, hr, hs, hlen, hnodes⟩ := exists_child value value' (by omega) hroom
  obtain ⟨t, slot, hrun, ht, hadded⟩ := hs.addOnPage
    ⟨⟨0, 1⟩, value'', ⟨by decide, by decide⟩, by decide, by decide⟩ zeroNode (by rw [hlen]; exact hfit) hroom
    (fun hnull => by cases hnull) fun _ => ⟨⟨⟨0, 1⟩, rootNodeId, value'⟩, by rw [hnodes]; simp, rfl⟩
  rw [hnodes, hlen] at hadded
  exact ⟨t, _, .call hr (.addNode hrun) ht.holds.below, ht, by rw [List.length_append, hlen]; rfl, hadded⟩

def newRoot : CreateNodeRequest where
  parent := nullNodeId
  value := nodeValueOfBytes .int32 [1]
  isInt32_pageId := isInt32_nullNodeId_pageId
  isInt32_itemId := isInt32_nullNodeId_itemId

def newChild : CreateNodeRequest where
  parent := rootNodeId
  value := nodeValueOfBytes .int32 [2]
  isInt32_pageId := isInt32_rootNodeId_pageId
  isInt32_itemId := isInt32_rootNodeId_itemId

def onFirstPage (i : Nat) (request : CreateNodeRequest) : Node := ⟨⟨0, i⟩, request.parent, request.value⟩

def otherChild : CreateNodeRequest := { newChild with value := nodeValueOfBytes .int32 [3] }

/-- A new document gets a root and two children of it. The second child is deleted, and another
one takes over its id. -/
structure Replacing (d0 d1 d2 d3 d4 d5 : Document) : Prop where
  opened : documentInit 4096 (documentNew (fileOpen none noFaults)) = .ok (.ok ()) d0
  root : documentAddNode newRoot zeroNode d0 = .ok (.ok (), onFirstPage 0 newRoot) d1
  first : documentAddNode newChild zeroNode d1 = .ok (.ok (), onFirstPage 1 newChild) d2
  second : documentAddNode newChild zeroNode d2 = .ok (.ok (), onFirstPage 2 newChild) d3
  deleted : documentDeleteNode ⟨⟨0, 2⟩⟩ d3 = .ok (.ok ()) d4
  third : documentAddNode otherChild zeroNode d4 = .ok (.ok (), onFirstPage 2 otherChild) d5
  empty : liveNodes d0 = []
  below : ∀ doc ∈ [d1, d2, d3, d4, d5], FileBelow doc.pageManager
  packed : ∃ slots, slots.length = 3 ∧ Packed 4096 [slots] d5 ∧
    nodesOf [slots] = [onFirstPage 0 newRoot, onFirstPage 1 newChild, onFirstPage 2 otherChild]

theorem exists_replacing : ∃ d0 d1 d2 d3 d4 d5, Replacing d0 d1 d2 d3 d4 d5 := by
  obtain ⟨d0, opened, _, h0⟩ := Packed.new (show sizeofPageHeader ≤ 4096 by decide) (by decide)
  obtain ⟨d1, s1, root, h1, e1⟩ := h0.addOnPage newRoot zeroNode (by decide) (by decide)
    (by simp [nodesOf_fresh]) fun hne => absurd rfl hne
  rw [nodesOf_fresh] at e1
  obtain ⟨d2, s2, first, h2, e2⟩ := h1.addOnPage newChild zeroNode (show 28 + 298 * 2 ≤ 4096 by decide) (by decide)
    (fun hnull => by cases hnull) fun _ => ⟨_, by rw [e1]; exact List.mem_cons_self, rfl⟩
  rw [e1] at e2
  obtain ⟨d3, s3, second, h3, e3⟩ := h2.addOnPage newChild zeroNode (show 28 + 298 * 3 ≤ 4096 by decide) (by decide)
    (fun hnull => by cases hnull) fun _ => ⟨_, by rw [e2]; exact List.mem_cons_self, rfl⟩
  rw [e2] at e3
  obtain ⟨d4, deleted, h4⟩ := h3.pop (k := 0) (i := 2) rfl rfl (by rw [e3]; simp)
    (by rw [e3]; simp [newRoot, newChild, nullNodeId, rootNodeId])
  have e4 : nodesOf (deleteAt [[] ++ [s1] ++ [s2] ++ [s3]] 0 2) = [onFirstPage 0 newRoot, onFirstPage 1 newChild] := by
    rw [nodesOf_deleteAt, e3]
    rfl
  obtain ⟨d5, s5, third, h5, e5⟩ := Packed.addOnPage (show Packed 4096 [[s1, s2]] d4 from h4) otherChild zeroNode
    (show 28 + 298 * 3 ≤ 4096 by decide) (by decide) (fun hnull => by cases hnull)
    fun _ => ⟨onFirstPage 0 newRoot, e4 ▸ List.mem_cons_self, rfl⟩
  have e5' : nodesOf [[s1, s2]] = [onFirstPage 0 newRoot, onFirstPage 1 newChild] := e4
  rw [e5'] at e5
  refine ⟨d0, d1, d2, d3, d4, d5, opened, root, first, second, deleted, third, ?_, ?_, _, rfl, h5, e5⟩
  · rw [h0.holds.liveNodes_eq, nodesOf_fresh]
  · simp only [List.forall_mem_cons]
    exact ⟨h1.holds.below, h2.holds.below, h3.holds.below, h4.holds.below, h5.holds.below, List.forall_mem_nil _⟩

end Beginnings

end DocumentDb.Documents
