import Mathlib.Data.Set.Basic
import DocumentDb.Documents.Insertion
import DocumentDb.Storage.Interruption

namespace DocumentDb.Documents

open Storage Program Bytes

section Device

variable (R : List UInt8 → List UInt8 → Prop) [Std.Refl R] [IsTrans (List UInt8) R] {α : Type}

def documentDevice : Device Document (Option IoFault) (List UInt8) :=
  (storageDevice R).component Document.pageManager (fun pm self => { self with pageManager := pm }) (fun _ _ => rfl)
    (fun _ => rfl) fun _ _ _ => rfl

abbrev Driven (x : DocumentM α) : Prop := (documentDevice R).Drives x

end Device

section Functions

variable {R : List UInt8 → List UInt8 → Prop} [Std.Refl R] [IsTrans (List UInt8) R] {α γ : Type}

theorem drives_onPageManager {x : PageManagerM α} (h : Storage.Driven R x) : Driven R (onPageManager x) := h.zoom

theorem drives_assertInitDone : Driven R assertInitDone := by
  apply Device.Drives.get
  · intro p doc
    rfl
  intro doc
  apply Device.Drives.ite
  · exact Device.Drives.throw _
  · exact Device.Drives.pure _

theorem drives_abortIfFail {res : Result α} {message : String} : Driven R (abortIfFail res message) := by
  cases res with
  | ok a => exact Device.Drives.pure a
  | error e => exact Device.Drives.throw _

theorem drives_memory {f : Document → Document} (hfile : ∀ doc, (f doc).pageManager = doc.pageManager)
    (hf : ∀ p doc, f ((documentDevice R).withPlan p doc) = (documentDevice R).withPlan p (f doc)) :
    Driven R (modify f) := by
  apply Device.Drives.modify
  · intro doc
    apply Device.leads_of_eq
    · exact congrArg (fun pm => pm.fileManager.file.faults) (hfile doc)
    · exact congrArg (fun pm => pm.fileManager.file.accesses) (hfile doc)
    · exact congrArg (fun pm => pm.fileManager.file.content) (hfile doc)
  · exact hf

theorem drives_searchNodes (p : Node → Except Fault Bool) : Driven R (searchNodes p) :=
  drives_onPageManager (drives_scanItems _ _)

theorem drives_destroyIterator (it : ItemIterator) : Driven R (destroyIterator it) :=
  (drives_onPageManager (drives_itemIteratorDestroy it)).bind fun _ => Device.Drives.pure _

theorem drives_persistNewNode (node : Node) : Driven Longer (documentPersistNewNode node) := by
  apply (drives_onPageManager (drives_getPageForData.bind fun page => drives_putItem page _)).bind
  intro itemResult
  exact (drives_onPageManager drives_freePages).bind fun _ => Device.Drives.pure _

def persistRoot (root : Node) : DocumentM (Result Unit × Node) := do
  let root ← documentPersistNewNode { root with id := rootNodeId }
  modify fun self => { self with rootNode := some root }
  return (.ok (), root)

theorem drives_persistRoot (root : Node) : Driven Longer (persistRoot root) := by
  apply (drives_persistNewNode _).bind
  intro root
  apply Device.Drives.bind
  · exact drives_memory (fun _ => rfl) fun _ _ => rfl
  · exact fun _ => Device.Drives.pure _

def rootSearched (root : Node) (r : Option Node × ItemIterator) : DocumentM (Result Unit × Node) :=
  if r.1.isSome then return (.error "Root node already exists in document tree", root)
  else destroyIterator r.2 >>= fun _ => persistRoot root

theorem documentAddRootNode_eq (root : Node) :
    documentAddRootNode root = searchNodes (fun node => .ok (node.id == rootNodeId)) >>= rootSearched root := (rfl)

theorem drives_rootSearched (root : Node) (r : Option Node × ItemIterator) : Driven Longer (rootSearched root r) := by
  apply Device.Drives.ite
  · exact Device.Drives.pure _
  · exact (drives_destroyIterator r.2).bind fun _ => drives_persistRoot root

def childSearched (child : Node) (r : Option Node × ItemIterator) : DocumentM (Result Unit × Node) := do
  destroyIterator r.2
  if r.1.isSome then
    let child ← documentPersistNewNode child
    return (.ok (), child)
  return (.error "Parent node doesn't exist in document tree", child)

theorem documentAddChildNode_eq (child : Node) :
    documentAddChildNode child =
      searchNodes (fun node => .ok (node.id == child.parentId)) >>= childSearched child := (rfl)

theorem drives_persistChild (found : Option Node) (child : Node) : Driven Longer (if found.isSome then do
    let child ← documentPersistNewNode child
    return (.ok (), child)
    else return ((.error "Parent node doesn't exist in document tree", child) : Result Unit × Node)) := by
  apply Device.Drives.ite
  · exact (drives_persistNewNode child).bind fun _ => Device.Drives.pure _
  · exact Device.Drives.pure _

theorem drives_childSearched (child : Node) (r : Option Node × ItemIterator) : Driven Longer (childSearched child r) :=
  (drives_destroyIterator r.2).bind fun _ => drives_persistChild r.1 child

theorem drives_addNode (request : CreateNodeRequest) (result : Node) :
    Driven Longer (documentAddNode request result) := by
  apply drives_assertInitDone.bind
  intro _
  apply Device.Drives.ite
  · exact (drives_searchNodes _).bind (drives_rootSearched _)
  · exact (drives_searchNodes _).bind (drives_childSearched _)

def secondStepSearched (r : Option Item × ItemIterator) : DocumentM (Result Unit) :=
  match r.1 with
  | some item =>
    match r.2.pageIterator.currentPage with
    | none => throw (.undefined "null page")
    | some page => do
      let _ ← onPageManager (pageManagerDeleteItem page item)
      destroyIterator r.2
      return .ok ()
  | none => do
    destroyIterator r.2
    return .error "Node doesn't exist in document tree"

theorem documentDeleteSecondStep_eq (request : DeleteNodeRequest) :
    documentDeleteSecondStep request =
      onPageManager (scanItems (search (hasId request.nodeId)) none) >>= secondStepSearched := by
  rfl

theorem drives_secondStepSearched (r : Option Item × ItemIterator) : Driven Longer (secondStepSearched r) := by
  obtain ⟨_ | item, ⟨⟨nextPageId, _ | page⟩, currentItemIndex, isReleased⟩⟩ := r
  · exact (drives_destroyIterator _).bind fun _ => Device.Drives.pure _
  · exact (drives_destroyIterator _).bind fun _ => Device.Drives.pure _
  · exact Device.Drives.throw _
  · apply (drives_onPageManager (drives_deleteItem page item)).bind
    intro _
    exact (drives_destroyIterator _).bind fun _ => Device.Drives.pure _

theorem drives_deleteSecondStep (request : DeleteNodeRequest) : Driven Longer (documentDeleteSecondStep request) := by
  rw [documentDeleteSecondStep_eq]
  exact (drives_onPageManager (drives_scanItems _ _)).bind drives_secondStepSearched

theorem drives_deleteUnlessParent (request : DeleteNodeRequest) (child : Option Node) : Driven Longer (do
    if child.isSome then
      throw (.exit "Can't delete node with children")
    documentDeleteSecondStep request) := by
  apply Device.Drives.ite
  · exact Device.Drives.throw_bind _
  · exact drives_deleteSecondStep request

theorem drives_deleteNode (request : DeleteNodeRequest) : Driven Longer (documentDeleteNode request) := by
  apply drives_assertInitDone.bind
  intro _
  apply (drives_searchNodes _).bind
  rintro ⟨child, itemsIt⟩
  apply (drives_destroyIterator itemsIt).bind
  exact fun _ => drives_deleteUnlessParent request child

end Functions

section Requests

variable {pageSize : Nat} {store : List (List Slot)} {doc t : Document} {request : CreateNodeRequest}
  {result node : Node} {P : List UInt8 → Prop} {α β : Type} {x : DocumentM α} {f : α → DocumentM β}

/-- Whenever the data file goes, its bytes have the property. -/
abbrev Survives (P : List UInt8 → Prop) (x : DocumentM α) (doc : Document) : Prop :=
  (documentDevice Longer).Survives P x doc

theorem survives_reads (hx : Driven Eq x) (hP : P (savedFile doc)) : Survives P x doc :=
  Device.Survives.of_reads (fun s => ((hx.leads s).onward).symm) hP

theorem FileBelow.of_bind (hf : ∀ a, Driven Longer (f a)) (h : FileBelow (final ((x >>= f) doc)).pageManager) :
    FileBelow (final (x doc)).pageManager :=
  Nat.lt_of_le_of_lt (Device.Drives.onward_bind hf doc) h

theorem final_onPageManager (x : PageManagerM α) (doc : Document) :
    (final (onPageManager x doc)).pageManager = final (x doc.pageManager) := by
  rw [onPageManager, final_zoom]

/-- No root is there yet, or the parent is. -/
def Granted (request : CreateNodeRequest) (nodes : List Node) : Prop :=
  (request.parent = nullNodeId → ∀ other ∈ nodes, other.id ≠ rootNodeId) ∧
    (request.parent ≠ nullNodeId → ∃ parent ∈ nodes, parent.id = request.parent)

/-- What is in the file when it goes while a request adds a node. -/
def AddSurvivor (pageSize : Nat) (store : List (List Slot)) (request : CreateNodeRequest) (bytes : List UInt8) : Prop :=
  Saved fileSignature pageSize store bytes ∨ Granted request (nodesOf store) ∧
    ∃ stored : Node, stored.parentId = request.parent ∧ stored.value = request.value ∧
      PutSurvivor fileSignature pageSize store (encodeNode stored) bytes

theorem Holds.saved (h : Holds pageSize store doc) : Saved fileSignature pageSize store (savedFile doc) :=
  h.stores.saved

theorem Holds.survives_persist (h : Holds pageSize store doc)
    (hfit : sizeofNode + sizeofPageHeader + sizeofItemMetadata ≤ pageSize)
    (hbelow : FileBelow (final (documentPersistNewNode node doc)).pageManager) :
    Survives (PutSurvivor fileSignature pageSize store (encodeNode node)) (documentPersistNewNode node) doc := by
  have hlen := length_encodeNode node
  have h0 : 0 < (encodeNode node).length := by rw [hlen]; decide
  have hn : (encodeNode node).length < 2 ^ 31 := by rw [hlen]; decide
  have hrest (R) [Std.Refl R] [IsTrans (List UInt8) R] (itemResult : ItemAddResult) : Driven R (do
      onPageManager pageManagerFreePages
      return { node with id := itemToNodeId itemResult.metadata.itemId }) := by
    apply (drives_onPageManager drives_freePages).bind
    exact fun _ => Device.Drives.pure _
  rw [documentPersistNewNode_eq] at hbelow ⊢
  have hput := FileBelow.of_bind (hrest Longer) hbelow
  rw [final_onPageManager] at hput
  rw [← hlen] at hfit
  have hroom := fun hplace => h.stores.room_of_below h0 hn hplace hput
  refine Device.Survives.bind ?_ (hrest Longer) (h.stores.survives_putData h0 hfit hn hroom).zoom ?_
  · exact drives_onPageManager (drives_getPageForData.bind fun page => drives_putItem page _)
  intro itemResult u hrun
  obtain ⟨pm, hputs, rfl⟩ := onPageManager_eq_ok.mp hrun
  obtain ⟨_, pm', hputs', _, hpm⟩ := h.stores.put_of_room h0 hfit hn hroom
  rw [hputs] at hputs'
  cases hputs'
  exact survives_reads (hrest Eq itemResult) (Or.inr (Or.inr (Or.inr hpm.saved)))

theorem Holds.survives_search {p : Node → Except Fault Bool} {f : Option Node × ItemIterator → DocumentM β}
    (h : Holds pageSize store doc) (hf : ∀ r, Driven Longer (f r)) (hP : P (savedFile doc))
    (hrest : ∀ found it t, searchNodes p doc = .ok (found, it) t → Holds pageSize store t → it.isReleased = false →
      Survives P (f (found, it)) t) : Survives P (searchNodes p >>= f) doc := by
  apply Device.Survives.bind (drives_searchNodes p) hf (survives_reads (drives_searchNodes p) hP)
  rintro ⟨found, it⟩ t hsearch
  obtain ⟨ht, halive, _⟩ := h.searchNodes_ok hsearch
  exact hrest found it t hsearch ht halive

theorem Holds.survives_destroy {it : ItemIterator} {f : Unit → DocumentM β} (h : Holds pageSize store doc)
    (halive : it.isReleased = false) (hf : ∀ u, Driven Longer (f u)) (hP : P (savedFile doc))
    (hrest : ∀ t, Documents.destroyIterator it doc = .ok () t → Holds pageSize store t → Survives P (f ()) t) :
    Survives P (Documents.destroyIterator it >>= f) doc := by
  apply Device.Survives.bind (drives_destroyIterator it) hf (survives_reads (drives_destroyIterator it) hP)
  intro u t hdestroy
  exact hrest t hdestroy (h.destroyIterator_ok halive hdestroy)

theorem Holds.addSurvivor (h : Holds pageSize store doc) (request : CreateNodeRequest) :
    AddSurvivor pageSize store request (savedFile doc) :=
  Or.inl h.saved

theorem Holds.survives_persistNode {f : Node → DocumentM β} (h : Holds pageSize store doc)
    (hgranted : Granted request (nodesOf store)) (hparent : node.parentId = request.parent)
    (hvalue : node.value = request.value) (hfit : sizeofNode + sizeofPageHeader + sizeofItemMetadata ≤ pageSize)
    (hf : ∀ a, Driven Longer (f a))
    (hreads : ∀ a, Driven Eq (f a))
    (hbelow : FileBelow (final ((documentPersistNewNode node >>= f) doc)).pageManager) :
    Survives (AddSurvivor pageSize store request) (documentPersistNewNode node >>= f) doc := by
  have hpersist := FileBelow.of_bind hf hbelow
  refine Device.Survives.bind (drives_persistNewNode node) hf ?_ ?_
  · exact (h.survives_persist hfit hpersist).mono fun bytes hbytes => Or.inr ⟨hgranted, node, hparent, hvalue, hbytes⟩
  intro stored t hrun
  rw [hrun, final_ok] at hpersist
  obtain ⟨_, ht⟩ := h.persist_ok hrun hpersist
  exact survives_reads (hreads stored)
    (Or.inr ⟨hgranted, node, hparent, hvalue, Or.inr (Or.inr (Or.inr ht.saved))⟩)

theorem Holds.survives_addRoot (h : Holds pageSize store doc) (hnull : request.parent = nullNodeId)
    (hparent : node.parentId = request.parent)
    (hvalue : node.value = request.value) (hfit : sizeofNode + sizeofPageHeader + sizeofItemMetadata ≤ pageSize)
    (hbelow : FileBelow (final (documentAddRootNode node doc)).pageManager) :
    Survives (AddSurvivor pageSize store request) (documentAddRootNode node) doc := by
  rw [documentAddRootNode_eq] at hbelow ⊢
  apply h.survives_search (drives_rootSearched node) (h.addSurvivor request)
  intro found it s hsearch hs halive
  rw [run_bind, hsearch, andThen_ok] at hbelow
  cases found with
  | some root => exact survives_reads (Device.Drives.pure _) (hs.addSurvivor request)
  | none =>
      rw [rootSearched, Option.isSome_none, if_neg (by simp)] at hbelow ⊢
      apply hs.survives_destroy halive (fun _ => drives_persistRoot node) (hs.addSurvivor request)
      intro u hdestroy hu
      rw [run_bind, hdestroy, andThen_ok] at hbelow
      have hrest (R) [Std.Refl R] [IsTrans (List UInt8) R] (root : Node) : Driven R (do
          modify fun self : Document => { self with rootNode := some root }
          return ((.ok (), root) : Result Unit × Node)) := by
        apply Device.Drives.bind
        · exact drives_memory (fun _ => rfl) fun _ _ => rfl
        · exact fun _ => Device.Drives.pure _
      have hgranted : Granted request (nodesOf store) := by
        obtain ⟨_, _, _, hnone⟩ := h.searchNodes_ok hsearch
        exact ⟨fun _ other hother => by simpa using hnone other hother, fun hchild => absurd hnull hchild⟩
      exact hu.survives_persistNode hgranted hparent hvalue hfit (hrest Longer) (hrest Eq) hbelow

theorem Holds.survives_addChild (h : Holds pageSize store doc) (hchild : request.parent ≠ nullNodeId)
    (hparent : node.parentId = request.parent)
    (hvalue : node.value = request.value) (hfit : sizeofNode + sizeofPageHeader + sizeofItemMetadata ≤ pageSize)
    (hbelow : FileBelow (final (documentAddChildNode node doc)).pageManager) :
    Survives (AddSurvivor pageSize store request) (documentAddChildNode node) doc := by
  rw [documentAddChildNode_eq] at hbelow ⊢
  apply h.survives_search (drives_childSearched node) (h.addSurvivor request)
  intro found it s hsearch hs halive
  rw [run_bind, hsearch, andThen_ok] at hbelow
  apply hs.survives_destroy halive (fun _ => drives_persistChild found node) (hs.addSurvivor request)
  intro u hdestroy hu
  rw [childSearched, run_bind, hdestroy, andThen_ok] at hbelow
  cases found with
  | some parent =>
      have hgranted : Granted request (nodesOf store) := by
        obtain ⟨_, _, hmem, hid⟩ := h.searchNodes_ok hsearch
        exact ⟨fun hnull => absurd hnull hchild, fun _ => ⟨parent, hmem, by rw [← hparent]; simpa using hid⟩⟩
      exact hu.survives_persistNode hgranted hparent hvalue hfit (fun _ => Device.Drives.pure _)
        (fun _ => Device.Drives.pure _) hbelow
  | none => exact survives_reads (Device.Drives.pure _) (hu.addSurvivor request)

theorem Holds.survives_addNode (h : Holds pageSize store doc)
    (hfit : sizeofNode + sizeofPageHeader + sizeofItemMetadata ≤ pageSize)
    (hbelow : FileBelow (final (documentAddNode request result doc)).pageManager) :
    Survives (AddSurvivor pageSize store request) (documentAddNode request result) doc := by
  rw [documentAddNode] at hbelow ⊢
  rw [run_bind, h.assertInitDone, andThen_ok, run_ite] at hbelow
  refine Device.Survives.silent (t := doc) (fun k => run_assertInitDone h.initDone) rfl ?_
  split
  · rename_i hnull
    rw [if_pos hnull] at hbelow
    exact h.survives_addRoot hnull rfl rfl hfit hbelow
  · rename_i hchild
    rw [if_neg hchild] at hbelow
    exact h.survives_addChild hchild rfl rfl hfit hbelow

def DeleteSurvivor (pageSize : Nat) (store : List (List Slot)) (id : NodeId) (bytes : List UInt8) : Prop :=
  Saved fileSignature pageSize store bytes ∨ (∀ node ∈ nodesOf store, node.parentId ≠ id) ∧
    ∃ k i : Nat, id = ⟨k, i⟩ ∧ Saved fileSignature pageSize (deleteAt store k i) bytes

theorem Holds.survives_deleteSecondStep (h : Holds pageSize store doc) (id : NodeId)
    (hleaf : ∀ node ∈ nodesOf store, node.parentId ≠ id) :
    Survives (DeleteSurvivor pageSize store id) (documentDeleteSecondStep ⟨id⟩) doc := by
  rw [documentDeleteSecondStep_eq]
  refine Device.Survives.bind (drives_onPageManager (drives_scanItems _ _)) drives_secondStepSearched
    (survives_reads (drives_onPageManager (drives_scanItems _ _)) (Or.inl h.saved)) ?_
  rintro ⟨found, it⟩ t hrun
  obtain ⟨pm, hscan, rfl⟩ := onPageManager_eq_ok.mp hrun
  obtain ⟨stop, hvisits, hpm, halive, hstop⟩ := h.stores.scan_ok hscan
  cases found with
  | none =>
      refine survives_reads ?_ (Or.inl hpm.saved)
      exact (drives_destroyIterator it).bind fun _ => Device.Drives.pure _
  | some item =>
      obtain ⟨item', hitem, htest, hstop'⟩ := runVisits_search_some hvisits rfl
      rw [filterMap_visits] at hitem
      obtain ⟨hid, rfl⟩ := hasId_eq_some.mp htest
      obtain ⟨hbytes, hfresh⟩ := mem_liveItems.mp hitem
      obtain ⟨k, i, _, _, hki, _⟩ := liveBytes_some hbytes
      rw [hki] at hbytes hstop'
      obtain ⟨a, hpage, ha⟩ := hstop _ hstop'
      have hidki : id = ⟨k, i⟩ := hid.symm.trans hki
      have hrest (R) [Std.Refl R] [IsTrans (List UInt8) R] : Driven R (do
          Documents.destroyIterator it
          return (.ok () : Result Unit)) := by
        apply (drives_destroyIterator it).bind
        exact fun _ => Device.Drives.pure _
      have hdeletes : Survives (DeleteSurvivor pageSize store id) (onPageManager (pageManagerDeleteItem a item'))
          { doc with pageManager := pm } := by
        apply Device.Survives.zoom
        apply (hpm.survives_delete ha hki hfresh hbytes).mono
        rintro bytes (hbefore | hafter)
        · exact Or.inl hbefore
        · exact Or.inr ⟨hleaf, k, i, hidki, hafter⟩
      rw [secondStepSearched]
      dsimp only
      rw [hpage]
      refine Device.Survives.bind (drives_onPageManager (drives_deleteItem a item')) (fun _ => hrest Longer) hdeletes ?_
      intro deleted u hdeleteOn
      obtain ⟨pm', hdelete, rfl⟩ := onPageManager_eq_ok.mp hdeleteOn
      obtain ⟨pm'', hdelete', hpm'⟩ := hpm.delete ha hki hfresh hbytes
      dsimp only at hdelete
      rw [hdelete] at hdelete'
      cases hdelete'
      exact survives_reads (hrest Eq) (Or.inr ⟨hleaf, k, i, hidki, hpm'.saved⟩)

theorem Holds.survives_deleteNode (h : Holds pageSize store doc) (id : NodeId) :
    Survives (DeleteSurvivor pageSize store id) (documentDeleteNode ⟨id⟩) doc := by
  rw [documentDeleteNode]
  refine Device.Survives.silent (t := doc) (fun k => run_assertInitDone h.initDone) rfl ?_
  apply h.survives_search
  · rintro ⟨child, itemsIt⟩
    apply (drives_destroyIterator itemsIt).bind
    exact fun _ => drives_deleteUnlessParent ⟨id⟩ child
  · exact Or.inl h.saved
  intro child it s hsearch hs halive
  apply hs.survives_destroy halive (fun _ => drives_deleteUnlessParent ⟨id⟩ child) (Or.inl hs.saved)
  intro u hdestroy hu
  cases child with
  | some child => exact survives_reads (Device.Drives.throw_bind _) (Or.inl hu.saved)
  | none =>
      obtain ⟨_, _, _, hnone⟩ := h.searchNodes_ok hsearch
      apply hu.survives_deleteSecondStep id
      intro node hnode
      simpa using hnone node hnode

def UpdateSurvivor (pageSize : Nat) (store : List (List Slot)) (request : UpdateNodeRequest)
    (bytes : List UInt8) : Prop :=
  DeleteSurvivor pageSize store request.nodeId bytes ∨
    ∃ k i : Nat, request.nodeId = ⟨k, i⟩ ∧
      AddSurvivor pageSize (deleteAt store k i) (createRequest request) bytes

theorem Holds.survives_updateNode {request : UpdateNodeRequest} (h : Holds pageSize store doc)
    (hfit : sizeofNode + sizeofPageHeader + sizeofItemMetadata ≤ pageSize)
    (hbelow : FileBelow (final (documentUpdateNode request result doc)).pageManager) :
    Survives (UpdateSurvivor pageSize store request) (documentUpdateNode request result) doc := by
  have hrest (R) [Std.Refl R] [IsTrans (List UInt8) R] (r : Result Unit × Node) :
      Driven R (pure (returnIfFail r.1 "failed to add node while updating", r.2) : DocumentM (Result Unit × Node)) :=
    Device.Drives.pure _
  rw [documentUpdateNode] at hbelow ⊢
  rw [run_bind, h.assertInitDone, andThen_ok] at hbelow
  refine Device.Survives.silent (t := doc) (fun k => run_assertInitDone h.initDone) rfl ?_
  refine Device.Survives.bind (drives_deleteNode _) ?_ ((h.survives_deleteNode _).mono fun _ => Or.inl) ?_
  · rintro (message | _)
    · exact Device.Drives.pure _
    · exact (drives_addNode _ _).bind (hrest Longer)
  intro res t hdelete
  rw [run_bind, hdelete, andThen_ok] at hbelow
  obtain ⟨_, _, ⟨hbad, ht, _⟩ | ⟨rfl, _, k, i, hki, ht⟩⟩ := h.deleteNode_ok hdelete
  · cases res with
    | ok u => exact absurd rfl hbad
    | error message => exact survives_reads (Device.Drives.pure _) (Or.inl (Or.inl ht.saved))
  · have hadd : FileBelow (final (documentAddNode (createRequest request) result t)).pageManager :=
      FileBelow.of_bind (hrest Longer) hbelow
    refine Device.Survives.bind (drives_addNode _ _) (hrest Longer) ?_ ?_
    · exact (ht.survives_addNode hfit hadd).mono fun bytes hbytes => Or.inr ⟨k, i, hki, hbytes⟩
    intro r u hrun
    refine survives_reads (hrest Eq r) (Or.inr ⟨k, i, hki, ?_⟩)
    obtain ⟨res, node'⟩ := r
    rw [show documentAddNode (createRequest request) result t = _ from hrun, final_ok] at hadd
    rcases ht.addNode_ok hrun hadd with ⟨_, hu, _⟩ | ⟨_, hroot, hchild, _, stored, hp, hv, hu⟩
    · exact hu.addSurvivor _
    · exact Or.inr ⟨⟨fun hnull => (hroot hnull).2, hchild⟩, stored, hp, hv, Or.inr (Or.inr (Or.inr hu.saved))⟩

end Requests

section Recovery

variable {pageSize : Nat} {store : List (List Slot)} {t : Document} {bytes : List UInt8} {res : Result Unit}

theorem pagesVisits_concat_nil (k : Nat) (store : List (List Slot)) :
    pagesVisits k (store ++ [[]]) = pagesVisits k store := by
  induction store generalizing k with
  | nil => rfl
  | cons slots pages ih => rw [List.cons_append, pagesVisits, pagesVisits, ih]

theorem nodesOf_concat_nil (store : List (List Slot)) : nodesOf (store ++ [[]]) = nodesOf store := by
  rw [nodesOf, liveItems, pagesVisits_concat_nil]
  rfl

theorem AllNodes.concat_nil (h : AllNodes store) : AllNodes (store ++ [[]]) := by
  intro slots hslots slot hslot
  rcases List.mem_append.mp hslots with hslots | hslots
  · exact h slots hslots slot hslot
  · rw [List.mem_singleton] at hslots
    rw [hslots] at hslot
    cases hslot

theorem holds_of_saved (h : Saved fileSignature pageSize store bytes) (hnodes : AllNodes store) {pageSize' : Nat}
    (hrun : documentInit pageSize' (documentNew (fileOpen (some bytes) noFaults)) = .ok res t) :
    Holds pageSize store t := by
  obtain ⟨pm, hinit, hpm⟩ := h.reopen pageSize'
  exact (documentInit_ok hinit hpm hnodes hrun).2

end Recovery

section Runs

/-- The document when its data file goes after `k` more accesses. -/
def Document.losing (self : Document) (k : Nat) : Document :=
  let file := self.pageManager.fileManager.file
  { self with pageManager.fileManager.file.faults := fun n =>
      if n < file.accesses + k then file.faults n else some .seek }

/-- What a request leaves in the data file when the process is killed after `k` accesses of it. -/
def killedAfter {α : Type} (k : Nat) (x : DocumentM α) (doc : Document) : List UInt8 :=
  savedFile (final (x (doc.losing k)))

theorem Survives.killed {P : List UInt8 → Prop} {α : Type} {x : DocumentM α} {doc : Document} (h : Survives P x doc)
    (k : Nat) : P (killedAfter k x doc) :=
  h.holds _ (Nat.le_add_right _ _)

def adding (request : CreateNodeRequest) (possible : Set (List Node)) : Set (List Node) :=
  { log' | ∃ log ∈ possible, ∃ node : Node, Granted request log ∧ node.parentId = request.parent ∧
    node.value = request.value ∧ (∀ other ∈ log, Before other.id node.id) ∧ log' = log ++ [node] }

def deleting (id : NodeId) (possible : Set (List Node)) : Set (List Node) :=
  (fun log => log.filter fun node => node.id ≠ id) '' possible

/-- A run of adds, deletes and updates in which the process is killed now and then and started again,
with the lists of nodes that may be left: a request that has been answered has had its effect, and
one in whose middle the process has been killed has had it or not. The process is not killed while
it adds a page to the file. -/
inductive CrashRun (pageSize : Nat) : Document → Set (List Node) → Prop
  | init {res t} : sizeofFileHeader + toUInt32 pageSize < 2 ^ 32 →
      documentInit pageSize (documentNew (fileOpen none noFaults)) = .ok res t → CrashRun pageSize t {[]}
  | added {s possible request result node t} : CrashRun pageSize s possible →
      documentAddNode request result s = .ok (.ok (), node) t → FileBelow t.pageManager →
      CrashRun pageSize t ((fun log => log ++ [node]) '' possible)
  | notAdded {s possible request result message node t} : CrashRun pageSize s possible →
      documentAddNode request result s = .ok (.error message, node) t → FileBelow t.pageManager →
      CrashRun pageSize t possible
  | deleted {s possible request t} : CrashRun pageSize s possible →
      documentDeleteNode request s = .ok (.ok ()) t → CrashRun pageSize t (deleting request.nodeId possible)
  | notDeleted {s possible request message t} : CrashRun pageSize s possible →
      documentDeleteNode request s = .ok (.error message) t → CrashRun pageSize t possible
  | updated {s possible request result node t} : CrashRun pageSize s possible →
      documentUpdateNode request result s = .ok (.ok (), node) t → FileBelow t.pageManager →
      CrashRun pageSize t ((fun log => log ++ [node]) '' deleting request.nodeId possible)
  | notUpdated {s possible request result message node t} : CrashRun pageSize s possible →
      documentUpdateNode request result s = .ok (.error message, node) t → FileBelow t.pageManager →
      CrashRun pageSize t (deleting request.nodeId possible)
  | reopen {s possible pageSize' res t} : CrashRun pageSize s possible →
      documentInit pageSize' (documentNew (fileOpen (some (savedFile s)) noFaults)) = .ok res t →
      CrashRun pageSize t possible
  | killedAdding {s possible request result k pageSize' res t} : CrashRun pageSize s possible →
      FileBelow (final (documentAddNode request result s)).pageManager →
      Consistent (killedAfter k (documentAddNode request result) s) →
      documentInit pageSize' (documentNew (fileOpen (some (killedAfter k (documentAddNode request result) s)) noFaults)) =
        .ok res t →
      CrashRun pageSize t (possible ∪ adding request possible)
  | killedDeleting {s possible request k pageSize' res t} : CrashRun pageSize s possible →
      documentInit pageSize' (documentNew (fileOpen (some (killedAfter k (documentDeleteNode request) s)) noFaults)) =
        .ok res t →
      CrashRun pageSize t (possible ∪ deleting request.nodeId possible)
  | killedUpdating {s possible request result k pageSize' res t} : CrashRun pageSize s possible →
      FileBelow (final (documentUpdateNode request result s)).pageManager →
      Consistent (killedAfter k (documentUpdateNode request result) s) →
      documentInit pageSize' (documentNew (fileOpen (some (killedAfter k (documentUpdateNode request result) s)) noFaults)) =
        .ok res t →
      CrashRun pageSize t (possible ∪ deleting request.nodeId possible ∪
        adding (createRequest request) (deleting request.nodeId possible))

variable {pageSize : Nat} {store : List (List Slot)} {doc t : Document} {possible : Set (List Node)}
  {bytes : List UInt8}
  {request : CreateNodeRequest} {res : Result Unit} {id : NodeId}

def HoldsOne (pageSize : Nat) (possible : Set (List Node)) (doc : Document) : Prop :=
  ∃ store, Holds pageSize store doc ∧ nodesOf store ∈ possible

theorem AddSurvivor.recovers (h : AddSurvivor pageSize store request bytes) (hnodes : AllNodes store) (hne : store ≠ [])
    (hmem : nodesOf store ∈ possible) (hconsistent : Consistent bytes) {pageSize' : Nat}
    (hrun : documentInit pageSize' (documentNew (fileOpen (some bytes) noFaults)) = .ok res t) :
    HoldsOne pageSize (possible ∪ adding request possible) t := by
  rcases h with hsaved | ⟨hgranted, stored, hp, hv, hsaved | htorn | hsaved | hsaved⟩
  · exact ⟨store, holds_of_saved hsaved hnodes hrun, Or.inl hmem⟩
  · exact ⟨store, holds_of_saved hsaved hnodes hrun, Or.inl hmem⟩
  · exact absurd hconsistent htorn.not_consistent
  · refine ⟨_, holds_of_saved hsaved hnodes.concat_nil hrun, Or.inl ?_⟩
    rwa [nodesOf_concat_nil]
  · refine ⟨_, holds_of_saved hsaved (hnodes.put stored) hrun, Or.inr ?_⟩
    refine ⟨_, hmem, { stored with id := putId pageSize store sizeofNode }, hgranted, hp, hv,
      fun other hother => before_putId_node _ _ hother, nodesOf_putSlots hne ?_ ?_⟩
    · rw [hp]
      exact request.isInt32_pageId
    · rw [hp]
      exact request.isInt32_itemId

theorem DeleteSurvivor.recovers (h : DeleteSurvivor pageSize store id bytes) (hnodes : AllNodes store)
    (hmem : nodesOf store ∈ possible) {pageSize' : Nat}
    (hrun : documentInit pageSize' (documentNew (fileOpen (some bytes) noFaults)) = .ok res t) :
    HoldsOne pageSize (possible ∪ deleting id possible) t := by
  rcases h with hsaved | ⟨_, k, i, rfl, hsaved⟩
  · exact ⟨store, holds_of_saved hsaved hnodes hrun, Or.inl hmem⟩
  · refine ⟨_, holds_of_saved hsaved (hnodes.delete k i) hrun, Or.inr ⟨_, hmem, ?_⟩⟩
    exact (nodesOf_deleteAt store k i).symm

theorem mem_deleting (hmem : nodesOf store ∈ possible) {k i : Nat} (hki : id = ⟨k, i⟩) :
    nodesOf (deleteAt store k i) ∈ deleting id possible :=
  ⟨_, hmem, by rw [nodesOf_deleteAt, hki]⟩

theorem UpdateSurvivor.recovers {request : UpdateNodeRequest} (h : UpdateSurvivor pageSize store request bytes)
    (hnodes : AllNodes store) (hne : store ≠ []) (hmem : nodesOf store ∈ possible) (hconsistent : Consistent bytes)
    {pageSize' : Nat} (hrun : documentInit pageSize' (documentNew (fileOpen (some bytes) noFaults)) = .ok res t) :
    HoldsOne pageSize (possible ∪ deleting request.nodeId possible ∪
      adding (createRequest request) (deleting request.nodeId possible)) t := by
  rcases h with hdelete | ⟨k, i, hki, hadd⟩
  · obtain ⟨store', ht, hmem'⟩ := hdelete.recovers hnodes hmem hrun
    exact ⟨store', ht, Or.inl hmem'⟩
  · have hne' : deleteAt store k i ≠ [] := by
      intro hnil
      apply hne
      rw [← List.length_eq_zero_iff, ← List.length_modify (fun slots => deleteSlot slots i) store k]
      exact List.length_eq_zero_iff.mpr hnil
    obtain ⟨store', ht, hbefore | hafter⟩ :=
      hadd.recovers (hnodes.delete k i) hne' (mem_deleting hmem hki) hconsistent hrun
    · exact ⟨store', ht, Or.inl (Or.inr hbefore)⟩
    · exact ⟨store', ht, Or.inr hafter⟩

theorem CrashRun.holds (hfit : sizeofNode + sizeofPageHeader + sizeofItemMetadata ≤ toUInt32 pageSize)
    (h : CrashRun pageSize doc possible) : HoldsOne (toUInt32 pageSize) possible doc := by
  induction h with
  | init hsmall hinit => exact ⟨[[]], (documentInit_new_ok hsmall hinit).2, nodesOf_fresh⟩
  | added _ hrun hbelow ih =>
      obtain ⟨store, hs, hmem⟩ := ih
      obtain ⟨store', ht, hok, _⟩ := hs.addNode_nodes hrun hbelow
      exact ⟨store', ht, _, hmem, (hok rfl).1.symm⟩
  | notAdded _ hrun hbelow ih =>
      obtain ⟨store, hs, hmem⟩ := ih
      obtain ⟨store', ht, _, herror⟩ := hs.addNode_nodes hrun hbelow
      exact ⟨store', ht, by rwa [herror (by simp)]⟩
  | deleted _ hrun ih =>
      obtain ⟨store, hs, hmem⟩ := ih
      obtain ⟨_, _, ⟨hbad, _⟩ | ⟨_, _, k, i, hki, ht⟩⟩ := hs.deleteNode_ok hrun
      · exact absurd rfl hbad
      · exact ⟨_, ht, mem_deleting hmem hki⟩
  | notDeleted _ hrun ih =>
      obtain ⟨store, hs, hmem⟩ := ih
      obtain ⟨_, _, ⟨_, ht, _⟩ | ⟨hbad, _⟩⟩ := hs.deleteNode_ok hrun
      · exact ⟨store, ht, hmem⟩
      · cases hbad
  | updated _ hrun hbelow ih =>
      obtain ⟨store, hs, hmem⟩ := ih
      obtain ⟨_, ⟨hbad, _⟩ | ⟨_, k, i, hki, s, res, hdeleted, hadd, hiff⟩⟩ := hs.updateNode_ok hrun
      · exact absurd rfl hbad
      · obtain ⟨store', ht, hok, _⟩ := hdeleted.addNode_nodes hadd hbelow
        exact ⟨store', ht, _, mem_deleting hmem hki, (hok (hiff.mp rfl)).1.symm⟩
  | notUpdated _ hrun hbelow ih =>
      obtain ⟨store, hs, hmem⟩ := ih
      obtain ⟨_, ⟨_, ht, hmissing⟩ | ⟨_, k, i, hki, s, res, hdeleted, hadd, hiff⟩⟩ := hs.updateNode_ok hrun
      · exact ⟨store, ht, _, hmem, filter_missing hmissing⟩
      · obtain ⟨store', ht, _, herror⟩ := hdeleted.addNode_nodes hadd hbelow
        have hres : res ≠ .ok () := fun hok => by cases hiff.mpr hok
        refine ⟨store', ht, ?_⟩
        rw [herror hres]
        exact mem_deleting hmem hki
  | reopen _ hrun ih =>
      obtain ⟨store, hs, hmem⟩ := ih
      exact ⟨store, (hs.reopen_ok hrun).2, hmem⟩
  | killedAdding _ hbelow hconsistent hrun ih =>
      obtain ⟨store, hs, hmem⟩ := ih
      exact ((hs.survives_addNode hfit hbelow).killed _).recovers hs.nodes hs.stores.ne_nil hmem hconsistent hrun
  | killedDeleting _ hrun ih =>
      obtain ⟨store, hs, hmem⟩ := ih
      exact ((hs.survives_deleteNode _).killed _).recovers hs.nodes hmem hrun
  | killedUpdating _ hbelow hconsistent hrun ih =>
      obtain ⟨store, hs, hmem⟩ := ih
      exact ((hs.survives_updateNode hfit hbelow).killed _).recovers hs.nodes hs.stores.ne_nil hmem hconsistent hrun

/-- Nothing that has been answered is lost, and what has been interrupted is there or not. A request
that leaves another file behind has been interrupted while it added a page: the page count has been
raised, and no node is touched. -/
theorem crashRun_durable (hfit : sizeofNode + sizeofPageHeader + sizeofItemMetadata ≤ toUInt32 pageSize)
    (h : CrashRun pageSize doc possible) :
    liveNodes doc ∈ possible ∧
    (∀ request k, Consistent (killedAfter k (documentDeleteNode request) doc)) ∧
    ∀ request result k, FileBelow (final (documentAddNode request result doc)).pageManager →
      ¬Consistent (killedAfter k (documentAddNode request result) doc) →
        ∃ store, nodesOf store = liveNodes doc ∧
          Extending fileSignature (toUInt32 pageSize) store (killedAfter k (documentAddNode request result) doc) := by
  obtain ⟨store, hs, hmem⟩ := h.holds hfit
  rw [hs.liveNodes_eq]
  refine ⟨hmem, fun request k => ?_, fun request result k hbelow hbad => ?_⟩
  · rcases (hs.survives_deleteNode request.nodeId).killed k with hsaved | ⟨_, _, _, _, hsaved⟩
    · exact hsaved.consistent
    · exact hsaved.consistent
  · rcases (hs.survives_addNode hfit hbelow).killed k with hsaved | ⟨_, _, _, _, hsaved | htorn | hsaved | hsaved⟩
    · exact absurd hsaved.consistent hbad
    · exact absurd hsaved.consistent hbad
    · exact ⟨store, rfl, htorn⟩
    · exact absurd hsaved.consistent hbad
    · exact absurd hsaved.consistent hbad

/-- However far a delete of the last of three nodes gets before it is killed, the document can be opened
again, and the node is there or not. -/
theorem crashRun_durable_root :
    ∃ s, ∀ k, ∃ doc,
      documentInit 4096 (documentNew (fileOpen (some (killedAfter k (documentDeleteNode ⟨⟨0, 2⟩⟩) s)) noFaults)) =
        .ok (.ok ()) doc ∧
      (liveNodes doc = [onFirstPage 0 newRoot, onFirstPage 1 newChild, onFirstPage 2 otherChild] ∨
        liveNodes doc = [onFirstPage 0 newRoot, onFirstPage 1 newChild]) ∧
      ∀ request n, Consistent (killedAfter n (documentDeleteNode request) doc) := by
  obtain ⟨d0, d1, d2, d3, d4, d5, h⟩ := exists_replacing
  obtain ⟨slots, hlen, hpacked, hnodes⟩ := h.packed
  have hsize : toUInt32 (4096 : Nat) = 4096 := toUInt32_of_lt (by decide)
  have hroot := (CrashRun.init (by rw [hsize]; decide) h.opened).added h.root (h.below d1 (by simp))
  have hgrown := (hroot.added h.first (h.below d2 (by simp))).added h.second (h.below d3 (by simp))
  have hrun := (hgrown.deleted h.deleted).added h.third (h.below d5 (by simp))
  have hlog : (fun log => log ++ [onFirstPage 2 otherChild]) '' deleting ⟨0, 2⟩
      ((fun log => log ++ [onFirstPage 2 newChild]) '' ((fun log => log ++ [onFirstPage 1 newChild]) ''
        ((fun log => log ++ [onFirstPage 0 newRoot]) '' {[]}))) =
      {[onFirstPage 0 newRoot, onFirstPage 1 newChild, onFirstPage 2 otherChild]} := by
    simp only [deleting, Set.image_singleton]
    rfl
  rw [hlog] at hrun
  refine ⟨d5, fun k => ?_⟩
  have hdelete : ∃ store, Saved fileSignature 4096 store (killedAfter k (documentDeleteNode ⟨⟨0, 2⟩⟩) d5) ∧
      AllNodes store ∧ AllLive store := by
    rcases (hpacked.holds.survives_deleteNode ⟨0, 2⟩).killed k with hsaved | ⟨_, i, j, hij, hsaved⟩
    · exact ⟨_, hsaved, hpacked.holds.nodes, hpacked.allLive⟩
    · cases hij
      exact ⟨_, hsaved, hpacked.holds.nodes.delete 0 2, hpacked.allLive.pop rfl hlen.symm⟩
  obtain ⟨store, hsaved, hall, hlive⟩ := hdelete
  obtain ⟨pm, hinit, hpm⟩ := hsaved.reopen 4096
  obtain ⟨t, hreopen, _⟩ := documentInit_clean hinit hpm hall hlive.clean
  have hkilled := hrun.killedDeleting hreopen
  obtain ⟨hmem, hconsistent, _⟩ := crashRun_durable (by rw [hsize]; decide) hkilled
  refine ⟨t, hreopen, ?_, hconsistent⟩
  simp only [deleting, Set.image_singleton] at hmem
  exact hmem

end Runs

end DocumentDb.Documents
