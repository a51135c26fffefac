import DocumentDb.Documents.Document
import DocumentDb.Storage.StoreScan

namespace DocumentDb.Documents

open Storage Program

section Runs

variable {α : Type} {self t : Document} {x : PageManagerM α} {a : α}

theorem run_onPageManager {pm : PageManager} (h : x self.pageManager = .ok a pm) :
    onPageManager x self = .ok a { self with pageManager := pm } := zoom_ok h

theorem run_onPageManager_error {pm : PageManager} {e : Fault} (h : x self.pageManager = .error e pm) :
    onPageManager x self = .error e { self with pageManager := pm } := zoom_error h

theorem onPageManager_eq_ok :
    onPageManager x self = .ok a t ↔
      ∃ pm, x self.pageManager = .ok a pm ∧ t = { self with pageManager := pm } := by
  rw [onPageManager]
  rw [zoom_eq_ok]

theorem run_assertInitDone (h : self.initDone = true) : assertInitDone self = .ok () self := by
  rw [assertInitDone]
  simp only [run_bind, run_get, andThen_ok, h, reduceCtorEq, if_false, run_pure]

end Runs

section Nodes

variable {store : List (List Slot)} {item : Item}

def AllNodes (store : List (List Slot)) : Prop :=
  ∀ slots ∈ store, ∀ slot ∈ slots, slot.data.length = sizeofNode

def nodesOf (store : List (List Slot)) : List Node := (liveItems store).map nodeOfItem

/-- The live nodes: what the file holds of nodes that have been added and not deleted. -/
def liveNodes (self : Document) : List Node := (storedItems self.pageManager).map nodeOfItem

theorem nodeOfItem_id (item : Item) : (nodeOfItem item).id = item.id := rfl

theorem AllNodes.length_payload (h : AllNodes store) (hitem : item ∈ liveItems store) :
    item.payload.length = sizeofNode := by
  obtain ⟨k, i, slots, slot, _, hk, hi, _, hdata⟩ := liveBytes_some (mem_liveItems.mp hitem).1
  rw [← hdata]
  exact h slots (List.mem_of_getElem? hk) slot (List.mem_of_getElem? hi)

theorem AllNodes.itemToNode_eq (h : AllNodes store) (hitem : item ∈ liveItems store) :
    itemToNode item = .ok (nodeOfItem item) := by
  rw [itemToNode]
  rw [h.length_payload hitem, if_neg (by decide), if_neg (by decide)]

theorem itemToNode_eq_ok {node : Node} (h : itemToNode item = .ok node) : node = nodeOfItem item := by
  rw [itemToNode] at h
  split at h
  · cases h
  split at h
  · cases h
  cases h
  rfl

theorem testNode_of_ok {node : Node} (h : itemToNode item = .ok node) (p : Node → Except Fault Bool) :
    testNode p item = (p node).map fun b => if b then some node else none := by
  rw [testNode]
  rw [h]
  cases hp : p node with
  | error e => simp [bind, Except.bind, hp, Except.map]
  | ok b => cases b <;> simp [bind, Except.bind, hp, Except.map, pure, Except.pure]

theorem stepNode_of_ok {γ : Type} {node : Node} (h : itemToNode item = .ok node) (f : γ → Node → Except Fault γ)
    (acc : γ) : stepNode f acc item = f acc node := by
  rw [stepNode]
  rw [h]
  rfl

theorem AllNodes.testNode_eq (h : AllNodes store) (hitem : item ∈ liveItems store)
    (p : Node → Except Fault Bool) :
    testNode p item =
      (p (nodeOfItem item)).map fun b => if b then some (nodeOfItem item) else none :=
  testNode_of_ok (h.itemToNode_eq hitem) p

theorem AllNodes.stepNode_eq {γ : Type} (h : AllNodes store) (hitem : item ∈ liveItems store)
    (f : γ → Node → Except Fault γ) (acc : γ) : stepNode f acc item = f acc (nodeOfItem item) :=
  stepNode_of_ok (h.itemToNode_eq hitem) f acc

theorem AllNodes.foldlM_stepNode {γ : Type} (h : AllNodes store) (f : γ → Node → Except Fault γ) (acc : γ) :
    (liveItems store).foldlM (stepNode f) acc = (nodesOf store).foldlM f acc := by
  have hstep := fun item (hitem : item ∈ liveItems store) acc => h.stepNode_eq hitem f acc
  rw [nodesOf]
  generalize liveItems store = items at hstep
  induction items generalizing acc with
  | nil => rfl
  | cons item items ih =>
      rw [List.foldlM_cons, List.map_cons, List.foldlM_cons, hstep item List.mem_cons_self]
      cases f acc (nodeOfItem item) with
      | error e => rfl
      | ok acc' => exact ih acc' fun item hitem => hstep item (List.mem_cons_of_mem _ hitem)

theorem forall_lastSlots {P : Slot → Prop} (h : ∀ slots ∈ store, ∀ slot ∈ slots, P slot) :
    ∀ slot ∈ lastSlots store, P slot := by
  intro slot hslot
  rw [lastSlots] at hslot
  cases hk : store[store.length - 1]? with
  | none => simp [hk] at hslot
  | some slots =>
      rw [hk, Option.getD_some] at hslot
      exact h slots (List.mem_of_getElem? hk) slot hslot

theorem forall_putSlots {P : Slot → Prop} {pageSize : Nat} {payload : ItemPayload}
    (h : ∀ slots ∈ store, ∀ slot ∈ slots, P slot) (hnew : P ⟨payload, false⟩) :
    ∀ slots ∈ putSlots pageSize store payload, ∀ slot ∈ slots, P slot := by
  rw [putSlots]
  split
  · intro slots hslots slot hslot
    rcases List.mem_or_eq_of_mem_set hslots with hold | rfl
    · exact h slots hold slot hslot
    · rcases List.mem_append.mp hslot with hslot | hslot
      · exact forall_lastSlots h slot hslot
      · rw [List.mem_singleton] at hslot
        exact hslot ▸ hnew
  · intro slots hslots slot hslot
    rcases List.mem_append.mp hslots with hslots | hslots
    · exact h slots hslots slot hslot
    · rw [List.mem_singleton] at hslots
      subst hslots
      rw [List.mem_singleton] at hslot
      exact hslot ▸ hnew

theorem AllNodes.put {pageSize : Nat} (h : AllNodes store) (node : Node) :
    AllNodes (putSlots pageSize store (encodeNode node)) :=
  forall_putSlots h (length_encodeNode node)

theorem AllNodes.delete (h : AllNodes store) (k i : Nat) : AllNodes (deleteAt store k i) := by
  intro slots hslots slot hslot
  rcases mem_modify_cases hslots with hslots | ⟨old, hold, rfl⟩
  · exact h slots hslots slot hslot
  · obtain ⟨slot', hslot', rfl | rfl⟩ := mem_deleteSlot hslot
    · exact h old (List.mem_of_getElem? hold) slot hslot'
    · exact h old (List.mem_of_getElem? hold) slot' hslot'

theorem nodesOf_putSlots {pageSize : Nat} (hne : store ≠ []) {node : Node}
    (hpage : IsInt32 node.parentId.pageId) (hitem : IsInt32 node.parentId.itemId) :
    nodesOf (putSlots pageSize store (encodeNode node)) =
      nodesOf store ++ [{ node with id := putId pageSize store sizeofNode }] := by
  obtain ⟨hparent, hvalue⟩ := decodeNode_encode hpage hitem
  rw [nodesOf, liveItems_putSlots hne, List.map_append, List.map_singleton, length_encodeNode]
  congr 2
  rw [nodeOfItem, createItem]
  obtain ⟨id, parentId, value⟩ := node
  simp only at hparent hvalue
  simp only [hparent, hvalue, itemToNodeId]

theorem nodesOf_deleteAt (store : List (List Slot)) (k i : Nat) :
    nodesOf (deleteAt store k i) = (nodesOf store).filter fun node => node.id ≠ ⟨k, i⟩ := by
  rw [nodesOf, liveItems_deleteAt, nodesOf, List.filter_map]
  rfl

theorem pairwise_nodesOf (store : List (List Slot)) :
    (nodesOf store).Pairwise fun a b => Before a.id b.id :=
  List.pairwise_map.mpr (pairwise_liveItems store)

theorem before_putId_node {node : Node} (pageSize size : Nat) (hnode : node ∈ nodesOf store) :
    Before node.id (putId pageSize store size) := by
  obtain ⟨item, hitem, rfl⟩ := List.mem_map.mp hnode
  exact before_putId pageSize size hitem

end Nodes

section Invariant

/-- The document is open, and its file holds the slots of nodes. -/
structure Holds (pageSize : Nat) (store : List (List Slot)) (doc : Document) : Prop where
  initDone : doc.initDone = true
  rootNode : doc.rootNode ≠ none
  stores : Stores fileSignature pageSize store doc.pageManager
  nodes : AllNodes store

variable {pageSize : Nat} {store : List (List Slot)} {doc t : Document} {γ : Type}
  {p : Node → Except Fault Bool} {found : Option Node} {it : ItemIterator}

theorem Holds.liveNodes_eq (h : Holds pageSize store doc) : liveNodes doc = nodesOf store := by
  rw [liveNodes, h.stores.storedItems_eq, nodesOf]

theorem Holds.withManager (h : Holds pageSize store doc) {pm : PageManager} {store' : List (List Slot)}
    (hpm : Stores fileSignature pageSize store' pm) (hnodes : AllNodes store') :
    Holds pageSize store' { doc with pageManager := pm } :=
  ⟨h.initDone, h.rootNode, hpm, hnodes⟩

theorem Holds.assertInitDone (h : Holds pageSize store doc) :
    Documents.assertInitDone doc = .ok () doc := run_assertInitDone h.initDone

theorem Holds.destroyIterator (h : Holds pageSize store doc) (hit : it.isReleased = false) :
    ∃ t, destroyIterator it doc = .ok () t ∧ Holds pageSize store t := by
  obtain ⟨it', pm, hrun, hpm⟩ := h.stores.destroy hit
  refine ⟨_, ?_, h.withManager hpm h.nodes⟩
  rw [Documents.destroyIterator]
  simp only [run_bind, run_onPageManager hrun, andThen_ok, run_pure]

theorem Holds.destroyIterator_ok (h : Holds pageSize store doc) (hit : it.isReleased = false) {u : Unit}
    (hrun : Documents.destroyIterator it doc = .ok u t) : Holds pageSize store t := by
  obtain ⟨t', hrun', ht⟩ := h.destroyIterator hit
  rw [hrun] at hrun'
  cases hrun'
  exact ht

theorem Holds.searchNodes_ok (h : Holds pageSize store doc)
    (hrun : searchNodes p doc = .ok (found, it) t) :
    Holds pageSize store t ∧ it.isReleased = false ∧
      match found with
      | some node => node ∈ nodesOf store ∧ p node = .ok true
      | none => Clean (visits store) ∧ ∀ node ∈ nodesOf store, p node = .ok false := by
  obtain ⟨pm, hscan, rfl⟩ := onPageManager_eq_ok.mp hrun
  obtain ⟨stop, hvisits, hpm, halive, _⟩ := h.stores.scan_ok hscan
  refine ⟨h.withManager hpm h.nodes, halive, ?_⟩
  cases found with
  | some node =>
      obtain ⟨item, hitem, htest, _⟩ := runVisits_search_some hvisits rfl
      rw [filterMap_visits] at hitem
      rw [h.nodes.testNode_eq hitem] at htest
      cases hp : p (nodeOfItem item) with
      | error e => simp [hp, Except.map] at htest
      | ok b =>
          cases b with
          | false => simp [hp, Except.map] at htest
          | true =>
              obtain rfl : nodeOfItem item = node := by simpa [hp, Except.map] using htest
              exact ⟨List.mem_map_of_mem hitem, hp⟩
  | none =>
      obtain ⟨hclean, hall⟩ := runVisits_search_none hvisits
      refine ⟨hclean, fun node hnode => ?_⟩
      obtain ⟨item, hitem, rfl⟩ := List.mem_map.mp hnode
      have htest := hall item (by rw [filterMap_visits]; exact hitem)
      rw [h.nodes.testNode_eq hitem] at htest
      cases hp : p (nodeOfItem item) with
      | error e => simp [hp, Except.map] at htest
      | ok b =>
          cases b with
          | false => rfl
          | true => simp [hp, Except.map] at htest

def savedFile (self : Document) : List UInt8 := self.pageManager.fileManager.file.content

theorem destroyIterator_content {u : Unit} (hrun : destroyIterator it doc = .ok u t) :
    savedFile t = savedFile doc := by
  rw [destroyIterator] at hrun
  obtain ⟨it', s, hon, hpure⟩ := bind_eq_ok.mp hrun
  obtain ⟨pm, hdestroy, rfl⟩ := onPageManager_eq_ok.mp hon
  simp only [run_pure] at hpure
  cases hpure
  unfold savedFile
  rw [(itemIteratorDestroy_ok hdestroy).2.2]

theorem Holds.searchNodes_content (h : Holds pageSize store doc)
    (hrun : searchNodes p doc = .ok (found, it) t) : savedFile t = savedFile doc := by
  obtain ⟨pm, hscan, rfl⟩ := onPageManager_eq_ok.mp hrun
  exact h.stores.scan_content hscan

/-- A search does not end the program by itself without a deleted slot in its way. -/
theorem Holds.searchNodes_error (h : Holds pageSize store doc) {e : Fault}
    (hrun : searchNodes p doc = .error e t) :
    e = .assertion "metadata->is_deleted == false" ∨ ∃ node ∈ nodesOf store, p node = .error e := by
  have hscan := h.stores.scan (search (testNode p)) none
  cases hvisits : runVisits (search (testNode p)) none (visits store) with
  | ok r =>
      rw [hvisits] at hscan
      obtain ⟨it, pm, hok, _⟩ := hscan
      have hok' : searchNodes p doc = _ := run_onPageManager hok
      rw [hrun] at hok'
      cases hok'
  | error e' =>
      rw [hvisits] at hscan
      obtain ⟨pm, herror⟩ := hscan
      have herror' : searchNodes p doc = _ := run_onPageManager_error herror
      rw [hrun] at herror'
      cases herror'
      rcases runVisits_error hvisits with hassert | ⟨acc, item, hitem, hbody⟩
      · exact Or.inl hassert
      · rw [filterMap_visits] at hitem
        refine Or.inr ⟨_, List.mem_map_of_mem hitem, ?_⟩
        rw [search] at hbody
        rw [h.nodes.testNode_eq hitem] at hbody
        cases hp : p (nodeOfItem item) with
        | error e =>
            simp only [hp, Except.map, bind, Except.bind, Except.error.injEq] at hbody
            rw [hbody]
        | ok b => cases b <;> simp [hp, Except.map, bind, Except.bind, pure, Except.pure] at hbody

theorem Holds.searchNodes_clean (h : Holds pageSize store doc) (hclean : Clean (visits store))
    (test : Node → Bool) :
    ∃ it t, searchNodes (fun node => .ok (test node)) doc = .ok ((nodesOf store).find? test, it) t ∧
      Holds pageSize store t ∧ it.isReleased = false := by
  have hscan := h.stores.scan (search (testNode fun node => .ok (test node))) none
  obtain ⟨stop, hvisits⟩ := runVisits_search_clean hclean (testNode fun node => .ok (test node))
  have hfind : (liveItems store).findSomeM? (testNode fun node => .ok (test node)) =
      .ok ((nodesOf store).find? test) := by
    have htest := fun item (hitem : item ∈ liveItems store) =>
      h.nodes.testNode_eq hitem fun node => .ok (test node)
    rw [nodesOf]
    generalize liveItems store = items at htest
    induction items with
    | nil => rfl
    | cons item items ih =>
        rw [List.findSomeM?_cons, htest item List.mem_cons_self, List.map_cons, List.find?_cons]
        cases test (nodeOfItem item) with
        | true => rfl
        | false => exact ih fun item hitem => htest item (List.mem_cons_of_mem _ hitem)
  rw [filterMap_visits, hfind] at hvisits
  rw [hvisits] at hscan
  obtain ⟨it, pm, hok, hpm, halive, _⟩ := hscan
  exact ⟨it, _, run_onPageManager hok, h.withManager hpm h.nodes, halive⟩

theorem Holds.eachNode_ok {f : γ → Node → Except Fault γ} {acc acc' : γ} (h : Holds pageSize store doc)
    (hrun : eachNode f acc doc = .ok (acc', it) t) :
    Holds pageSize store t ∧ it.isReleased = false ∧ Clean (visits store) ∧
      (nodesOf store).foldlM f acc = .ok acc' := by
  obtain ⟨pm, hscan, rfl⟩ := onPageManager_eq_ok.mp hrun
  obtain ⟨stop, hvisits, hpm, halive, _⟩ := h.stores.scan_ok hscan
  obtain ⟨hclean, hfold⟩ := runVisits_each hvisits
  rw [filterMap_visits, h.nodes.foldlM_stepNode] at hfold
  exact ⟨h.withManager hpm h.nodes, halive, hclean, hfold⟩

theorem Holds.eachNode_clean {f : γ → Node → Except Fault γ} {acc acc' : γ} (h : Holds pageSize store doc)
    (hclean : Clean (visits store)) (hfold : (nodesOf store).foldlM f acc = .ok acc') :
    ∃ it t, eachNode f acc doc = .ok (acc', it) t ∧ Holds pageSize store t ∧ it.isReleased = false := by
  have hscan := h.stores.scan (each (stepNode f)) acc
  rw [runVisits_each_clean hclean, filterMap_visits, h.nodes.foldlM_stepNode, hfold] at hscan
  obtain ⟨it, pm, hok, hpm, halive, _⟩ := hscan
  exact ⟨it, _, run_onPageManager hok, h.withManager hpm h.nodes, halive⟩

theorem Holds.eachNode_error {f : γ → Node → Except Fault γ} {acc : γ} {e : Fault}
    (h : Holds pageSize store doc) (hrun : eachNode f acc doc = .error e t) :
    e = .assertion "metadata->is_deleted == false" ∨
      ∃ acc', ∃ node ∈ nodesOf store, f acc' node = .error e := by
  have hscan := h.stores.scan (each (stepNode f)) acc
  cases hvisits : runVisits (each (stepNode f)) acc (visits store) with
  | ok r =>
      rw [hvisits] at hscan
      obtain ⟨it, pm, hok, _⟩ := hscan
      have hok' : eachNode f acc doc = _ := run_onPageManager hok
      rw [hrun] at hok'
      cases hok'
  | error e' =>
      rw [hvisits] at hscan
      obtain ⟨pm, herror⟩ := hscan
      have herror' : eachNode f acc doc = _ := run_onPageManager_error herror
      rw [hrun] at herror'
      cases herror'
      rcases runVisits_error hvisits with hassert | ⟨acc', item, hitem, hbody⟩
      · exact Or.inl hassert
      · rw [filterMap_visits] at hitem
        refine Or.inr ⟨acc', _, List.mem_map_of_mem hitem, ?_⟩
        rw [each] at hbody
        rw [h.nodes.stepNode_eq hitem] at hbody
        cases hf : f acc' (nodeOfItem item) with
        | error e =>
            simp only [hf, bind, Except.bind, Except.error.injEq] at hbody
            rw [hbody]
        | ok b => simp [hf, bind, Except.bind, pure, Except.pure] at hbody

end Invariant

end DocumentDb.Documents
