import DocumentDb.Documents.SingleRoot

namespace DocumentDb.Documents

open Storage Program Bytes

section Mixed

variable {pageSize : Nat} {store : List (List Slot)} {k i : Nat} {slots : List Slot} {payload : ItemPayload}

/-- Some page has a slot that is marked as deleted and a slot that is not. -/
def Mixed (store : List (List Slot)) : Prop :=
  ∃ slots ∈ store, (∃ slot ∈ slots, slot.deleted = true) ∧ ∃ slot ∈ slots, slot.deleted = false

theorem Mixed.put (h : Mixed store) : Mixed (putSlots pageSize store payload) := by
  obtain ⟨slots, hslots, ⟨dead, hdead, hmarked⟩, alive, halive, hfresh⟩ := h
  rw [putSlots]
  split
  · obtain ⟨k, hk⟩ := List.getElem?_of_mem hslots
    have hlt := lt_length_of_getElem? hk
    by_cases hlast : k = store.length - 1
    · subst hlast
      have heq : lastSlots store = slots := by rw [lastSlots, hk, Option.getD_some]
      rw [heq]
      exact ⟨_, List.mem_set hlt _, ⟨dead, List.mem_append_left _ hdead, hmarked⟩,
        alive, List.mem_append_left _ halive, hfresh⟩
    · refine ⟨slots, List.mem_of_getElem? (i := k) ?_, ⟨dead, hdead, hmarked⟩, alive, halive, hfresh⟩
      rw [List.getElem?_set_ne (Ne.symm hlast), hk]
  · exact ⟨slots, List.mem_append_left _ hslots, ⟨dead, hdead, hmarked⟩, alive, halive, hfresh⟩

theorem mem_laterVisits {v : ItemIndex × Slot} (hslots : store[k]? = some slots) (hpos : 0 < liveCount slots)
    (j : Nat) (hv : v ∈ slotVisits (j + k) 0 slots) : v ∈ laterVisits j store := by
  induction store generalizing k j with
  | nil => simp at hslots
  | cons slots' pages ih =>
      rw [laterVisits, List.mem_append]
      cases k with
      | zero =>
          cases hslots
          rw [if_pos hpos]
          exact Or.inl hv
      | succ k => exact Or.inr (ih hslots (j + 1) (by rwa [Nat.add_assoc, Nat.add_comm 1 k]))

theorem Mixed.not_clean (h : Mixed store) : ¬Clean (visits store) := by
  obtain ⟨slots, hslots, ⟨dead, hdead, hmarked⟩, alive, halive, hfresh⟩ := h
  obtain ⟨k, hk⟩ := List.getElem?_of_mem hslots
  obtain ⟨i, hi⟩ := List.getElem?_of_mem hdead
  have hpos : 0 < liveCount slots := List.countP_pos_iff.mpr ⟨alive, halive, by simp [hfresh]⟩
  have hvisit : (⟨k, i⟩, dead) ∈ visits store := by
    have hin : ((⟨k, i⟩, dead) : ItemIndex × Slot) ∈ slotVisits k 0 slots :=
      mem_slotVisits.mpr ⟨i, dead, hi, by rw [Nat.zero_add]⟩
    cases store with
    | nil => simp at hk
    | cons first pages =>
        rw [visits, List.mem_append]
        cases k with
        | zero =>
            cases hk
            exact Or.inl hin
        | succ k =>
            have hk' : pages[k]? = some slots := hk
            exact Or.inr (mem_laterVisits hk' hpos 1 (by rwa [Nat.add_comm 1 k]))
  intro hclean
  rw [hclean _ hvisit] at hmarked
  cases hmarked

theorem AllLive.mark (h : AllLive store) (hk : store[k]? = some slots) (hi : i + 1 < slots.length) :
    Mixed (deleteAt store k i) := by
  have hlive := h slots (List.mem_of_getElem? hk)
  refine ⟨slots.modify i Slot.mark, ?_, ⟨slots[i].mark, ?_, rfl⟩, slots[i + 1], ?_, hlive _ (List.getElem_mem hi)⟩
  · refine List.mem_of_getElem? (i := k) ?_
    rw [deleteAt, List.getElem?_modify_eq, hk]
    simp only [Option.map_eq_map, Option.map_some, deleteSlot, if_neg (Nat.ne_of_lt hi)]
  · refine List.mem_of_getElem? (i := i) ?_
    rw [List.getElem?_modify_eq, List.getElem?_eq_getElem (by omega)]
    rfl
  · refine List.mem_of_getElem? (i := i + 1) ?_
    rw [List.getElem?_modify_ne _ _ (by omega), List.getElem?_eq_getElem hi]

end Mixed

section Runs

/-- The node with this id has the greatest slot number of the nodes on its page. -/
def LastOfPage (nodes : List Node) (id : NodeId) : Prop :=
  ∀ node ∈ nodes, node.id.pageId = id.pageId → node.id.itemId ≤ id.itemId

/-- A run of adds and deletes that return `OK`, with the nodes that have been added and
not deleted, and whether every deleted node was the last one of its page. -/
inductive AddDeleteRun (pageSize : Nat) : Document → List Node → Prop → Prop
  | init {res t} : sizeofFileHeader + toUInt32 pageSize < 2 ^ 32 →
      documentInit pageSize (documentNew (fileOpen none noFaults)) = .ok res t →
      AddDeleteRun pageSize t [] True
  | add {s live popped request result node t} : AddDeleteRun pageSize s live popped →
      documentAddNode request result s = .ok (.ok (), node) t → FileBelow t.pageManager →
      AddDeleteRun pageSize t (live ++ [node]) popped
  | delete {s live popped request t} : AddDeleteRun pageSize s live popped →
      documentDeleteNode request s = .ok (.ok ()) t →
      AddDeleteRun pageSize t (live.filter fun node => node.id ≠ request.nodeId)
        (popped ∧ LastOfPage live request.nodeId)

variable {pageSize : Nat} {store : List (List Slot)} {doc t : Document} {live : List Node} {popped : Prop}

theorem AllLive.delete {k i : Nat} (h : AllLive store) (hlive : ∃ node ∈ nodesOf store, node.id = ⟨k, i⟩) :
    (LastOfPage (nodesOf store) ⟨k, i⟩ → AllLive (deleteAt store k i)) ∧
      (¬LastOfPage (nodesOf store) ⟨k, i⟩ → Mixed (deleteAt store k i)) := by
  have hslot : ∀ {k i : Nat}, (∃ node ∈ nodesOf store, node.id = (⟨k, i⟩ : NodeId)) →
      ∃ slots, store[k]? = some slots ∧ i < slots.length := by
    rintro k i ⟨node, hnode, hid⟩
    obtain ⟨item, hitem, rfl⟩ := List.mem_map.mp hnode
    obtain ⟨k', i', slots, slot, hki, hk, hi, _⟩ := liveBytes_some (mem_liveItems.mp hitem).1
    rw [nodeOfItem_id, hki] at hid
    obtain ⟨rfl, rfl⟩ : k' = k ∧ i' = i := by simpa using hid
    exact ⟨slots, hk, lt_length_of_getElem? hi⟩
  obtain ⟨slots, hk, hi⟩ := hslot hlive
  obtain hlast | hinner : i + 1 = slots.length ∨ i + 1 < slots.length := by omega
  · refine ⟨fun _ => h.pop hk hlast, fun hbad => absurd (fun node hnode hpage => ?_) hbad⟩
    obtain ⟨item, hitem, rfl⟩ := List.mem_map.mp hnode
    obtain ⟨k', i', slots', slot, hki, hk', hi', _⟩ := liveBytes_some (mem_liveItems.mp hitem).1
    rw [nodeOfItem_id, hki] at hpage ⊢
    obtain rfl : k' = k := by simpa using hpage
    rw [hk] at hk'
    cases hk'
    have hlt := lt_length_of_getElem? hi'
    simp only
    omega
  · refine ⟨fun hbad => ?_, fun _ => h.mark hk hinner⟩
    have hnext : liveBytes store ⟨k, (i + 1 : Nat)⟩ = some slots[i + 1].data :=
      liveBytes_eq hk (List.getElem?_eq_getElem hinner)
        (h slots (List.mem_of_getElem? hk) _ (List.getElem_mem hinner))
    have hitem : createItem slots[i + 1].data ⟨k, (i + 1 : Nat)⟩ ∈ liveItems store :=
      mem_liveItems.mpr ⟨hnext, rfl⟩
    have hle := hbad _ (List.mem_map_of_mem hitem) rfl
    rw [nodeOfItem_id] at hle
    simp only [createItem] at hle
    omega

/-- As long as only last nodes are deleted no slot is marked. The first other delete
leaves a mark, after which no scan of all nodes and no delete returns any more. -/
theorem AddDeleteRun.holds (h : AddDeleteRun pageSize doc live popped) :
    ∃ store, Holds (toUInt32 pageSize) store doc ∧ nodesOf store = live ∧
      (popped → AllLive store) ∧ (¬popped → Mixed store) := by
  induction h with
  | init hsmall hinit =>
      exact ⟨[[]], (documentInit_new_ok hsmall hinit).2, nodesOf_fresh, fun _ => allLive_fresh, by simp⟩
  | @add s live popped request result node t _ hrun hbelow ih =>
      obtain ⟨store, hs, rfl, hlive, hmixed⟩ := ih
      rcases hs.addNode_ok hrun hbelow with ⟨hbad, _⟩ | ⟨_, _, _, rfl, stored, hp, hv, ht⟩
      · exact absurd rfl hbad
      · exact ⟨_, ht, nodesOf_added hs hp hv result, fun hpopped => (hlive hpopped).put _,
          fun hnot => (hmixed hnot).put⟩
  | @delete s live popped request t _ hrun ih =>
      obtain ⟨store, hs, rfl, hlive, hmixed⟩ := ih
      obtain ⟨hclean, _, ⟨hbad, _⟩ | ⟨_, hmem, k, i, hki, ht⟩⟩ := hs.deleteNode_ok hrun
      · exact absurd rfl hbad
      · have hpopped : popped := by
          by_contra hnot
          exact (hmixed hnot).not_clean hclean
        rw [hki] at hmem ⊢
        obtain ⟨hpop, hmark⟩ := (hlive hpopped).delete hmem
        exact ⟨_, ht, nodesOf_deleteAt store k i, fun hlast => hpop hlast.2,
          fun hnot => hmark fun hlast => hnot ⟨hpopped, hlast⟩⟩

def ScanYields (doc : Document) (nodes : List Node) : Prop :=
  ∃ items it pm, scanItems (each fun items item => .ok (items ++ [item])) [] doc.pageManager = .ok (items, it) pm ∧
    items.map nodeOfItem = nodes

def Reopens (doc : Document) : Prop :=
  ∀ pageSize, ∃ t, documentInit pageSize (documentNew (fileOpen (some (savedFile doc)) noFaults)) = .ok (.ok ()) t

theorem foldlM_append (items acc : List Item) :
    items.foldlM (fun items item => (.ok (items ++ [item]) : Except Fault (List Item))) acc = .ok (acc ++ items) := by
  induction items generalizing acc with
  | nil => rw [List.append_nil]; rfl
  | cons item items ih =>
      rw [List.foldlM_cons]
      exact (ih (acc ++ [item])).trans (by rw [List.append_assoc, List.singleton_append])

theorem Holds.scanYields (h : Holds pageSize store doc) (hclean : Clean (visits store)) :
    ScanYields doc (nodesOf store) := by
  have hscan := h.stores.scan (each fun items item => .ok (items ++ [item])) []
  rw [runVisits_each_clean hclean, filterMap_visits, foldlM_append, List.nil_append] at hscan
  obtain ⟨it, pm, hrun, _⟩ := hscan
  exact ⟨_, it, pm, hrun, rfl⟩

theorem Holds.not_scanYields (h : Holds pageSize store doc) (hmixed : Mixed store) (nodes : List Node) :
    ¬ScanYields doc nodes := by
  rintro ⟨items, it, pm, hrun, _⟩
  have hscan := h.stores.scan (each fun items item => .ok (items ++ [item])) []
  obtain ⟨e, herror⟩ := runVisits_each_dirty (f := fun (items : List Item) item => .ok (items ++ [item]))
    hmixed.not_clean []
  rw [herror] at hscan
  obtain ⟨pm', hrun'⟩ := hscan
  rw [hrun] at hrun'
  cases hrun'

/-- After a run of adds and deletes a scan yields the live nodes, and the file can be
opened again, exactly when every delete took the last node of a page. -/
theorem addDeleteRun_scan_iff (h : AddDeleteRun pageSize doc live popped) :
    ScanYields doc live ∧ Reopens doc ↔ popped := by
  obtain ⟨store, hs, rfl, hlive, hmixed⟩ := h.holds
  constructor
  · rintro ⟨hyields, _⟩
    by_contra hnot
    exact hs.not_scanYields (hmixed hnot) _ hyields
  · intro hpopped
    have hclean := (hlive hpopped).clean
    refine ⟨hs.scanYields hclean, fun pageSize' => ?_⟩
    obtain ⟨t, hrun, _⟩ := hs.reopen hclean pageSize'
    exact ⟨t, hrun⟩

end Runs

section Marked

variable {doc : Document} {slots : List Slot} {live : List Node} {popped : Prop}

theorem addDeleteRun_new :
    ∃ doc, AddDeleteRun 4096 doc [] True ∧ Packed 4096 [[]] doc := by
  obtain ⟨t, hinit, _, ht⟩ := Packed.new (show sizeofPageHeader ≤ 4096 by decide) (by decide)
  have hsize : toUInt32 (4096 : Nat) = 4096 := toUInt32_of_lt (by decide)
  exact ⟨t, .init (by rw [hsize]; decide) hinit, ht⟩

/-- The deleted node was the last one of its page, and its id has been given out again. -/
theorem addDeleteRun_scan_iff_root :
    ∃ doc live popped, AddDeleteRun 4096 doc live popped ∧
      live = [onFirstPage 0 newRoot, onFirstPage 1 newChild, onFirstPage 2 otherChild] ∧
      ScanYields doc live ∧ Reopens doc := by
  obtain ⟨d0, d1, d2, d3, d4, d5, h⟩ := exists_replacing
  have hsize : toUInt32 (4096 : Nat) = 4096 := toUInt32_of_lt (by decide)
  have hgrown := (((AddDeleteRun.init (by rw [hsize]; decide) h.opened).add h.root (h.below d1 (by simp))).add h.first
    (h.below d2 (by simp))).add h.second (h.below d3 (by simp))
  have hrun := (hgrown.delete h.deleted).add h.third (h.below d5 (by simp))
  refine ⟨d5, _, _, hrun, rfl, (addDeleteRun_scan_iff hrun).mpr ⟨trivial, ?_⟩⟩
  intro node hnode _
  simp only [List.nil_append, List.cons_append, List.mem_cons, List.not_mem_nil, or_false] at hnode
  rcases hnode with rfl | rfl | rfl <;> decide

/-- Of two children of a root the first is deleted. -/
theorem addDeleteRun_marked :
    ∃ doc popped, AddDeleteRun 4096 doc [⟨⟨0, 0⟩, nullNodeId, nodeValueOfBytes .int32 [1]⟩,
        ⟨⟨0, 2⟩, rootNodeId, nodeValueOfBytes .int32 [2]⟩] popped ∧
      ¬ScanYields doc [⟨⟨0, 0⟩, nullNodeId, nodeValueOfBytes .int32 [1]⟩,
        ⟨⟨0, 2⟩, rootNodeId, nodeValueOfBytes .int32 [2]⟩] := by
  obtain ⟨d0, r0, h0⟩ := addDeleteRun_new
  obtain ⟨d1, s1, add1, h1, e1⟩ := h0.addOnPage newRoot zeroNode (by decide) (by decide)
    (by simp [nodesOf_fresh]) fun hne => absurd rfl hne
  rw [nodesOf_fresh] at e1
  obtain ⟨d2, s2, add2, h2, e2⟩ := h1.addOnPage newChild zeroNode (show 28 + 298 * 2 ≤ 4096 by decide)
    (by decide) (fun hnull => by cases hnull) fun _ => ⟨_, by rw [e1]; exact List.mem_cons_self, rfl⟩
  rw [e1] at e2
  obtain ⟨d3, s3, add3, h3, e3⟩ := h2.addOnPage newChild zeroNode (show 28 + 298 * 3 ≤ 4096 by decide)
    (by decide) (fun hnull => by cases hnull) fun _ => ⟨_, by rw [e2]; exact List.mem_cons_self, rfl⟩
  rw [e2] at e3
  obtain ⟨d4, delete4, h4⟩ := h3.holds.deleteNode_clean h3.allLive.clean (k := 0) (i := 1)
    (by rw [e3]; simp) (by rw [e3]; simp [newRoot, newChild, nullNodeId, rootNodeId])
  have hrun := (((r0.add add1 h1.holds.below).add add2 h2.holds.below).add add3 h3.holds.below).delete delete4
  refine ⟨d4, _, hrun, ?_⟩
  obtain ⟨store, hs, _, _, hmixed⟩ := hrun.holds
  refine hs.not_scanYields (hmixed fun hlast => ?_) _
  have hle := hlast.2 ⟨⟨0, 2⟩, rootNodeId, nodeValueOfBytes .int32 [2]⟩ (by simp [newChild]) rfl
  simp at hle

end Marked

end DocumentDb.Documents
