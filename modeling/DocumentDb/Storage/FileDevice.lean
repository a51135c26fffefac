import DocumentDb.Lib.Device
import DocumentDb.Storage.Iterator

namespace DocumentDb.Storage

open Bytes Program

section Device

variable (R : List UInt8 → List UInt8 → Prop) [Std.Refl R] [IsTrans (List UInt8) R] {α : Type}

/-- The file is reached by seeks and transfers only. A file that is gone cannot be seeked in. -/
def fileDevice : Device FileState (Option IoFault) (List UInt8) where
  accesses fs := fs.accesses
  plan fs := fs.faults
  withPlan faults fs := { fs with faults := faults }
  content fs := fs.content
  Onward := R
  gone := some .seek
  accesses_withPlan _ _ := rfl
  plan_withPlan _ _ := rfl
  content_withPlan _ _ := rfl
  withPlan_plan _ := rfl
  withPlan_withPlan _ _ _ := rfl
  refl := Std.Refl.refl
  trans := IsTrans.trans

def managerDevice : Device FileManager (Option IoFault) (List UInt8) :=
  (fileDevice R).component FileManager.file (fun fs self => { self with file := fs }) (fun _ _ => rfl) (fun _ => rfl)
    fun _ _ _ => rfl

def storageDevice : Device PageManager (Option IoFault) (List UInt8) :=
  (managerDevice R).component PageManager.fileManager (fun fm self => { self with fileManager := fm })
    (fun _ _ => rfl) (fun _ => rfl) fun _ _ _ => rfl

abbrev Driven (x : PageManagerM α) : Prop := (storageDevice R).Drives x

def Longer (bs cs : List UInt8) : Prop := bs.length ≤ cs.length

instance : Std.Refl Longer := ⟨fun _ => Nat.le_refl _⟩

instance : IsTrans (List UInt8) Longer := ⟨fun _ _ _ => Nat.le_trans⟩

end Device

section Files

variable {R : List UInt8 → List UInt8 → Prop} [Std.Refl R] [IsTrans (List UInt8) R] {α : Type}

theorem drives_access {f : Option IoFault → EStateM Fault FileState α}
    (h : ∀ fault, ∃ (a : α) (change : List UInt8 → List UInt8),
      (∀ fs, f fault fs = .ok a { fs with content := change fs.content }) ∧ (∀ bs, R bs (change bs)) ∧
        (fault = some .seek → ∀ bs, change bs = bs)) : (fileDevice R).Drives (nextAccess >>= f) := by
  choose a change hf hR hseek using h
  let g (fault : Option IoFault) (fs : FileState) : EStateM.Result Fault FileState α :=
    .ok (a fault) { fs with content := change fault fs.content, accesses := fs.accesses + 1 }
  have hrun (fs : FileState) : (nextAccess >>= f) fs = g (fs.faults fs.accesses) fs := by
    rw [nextAccess]
    simp only [run_bind, run_get, run_set, run_pure, andThen_ok, hf, g]
  apply Device.Drives.access hrun
  · intro fault fs
    rfl
  · intro fault fs
    rfl
  · intro fault fs
    exact hR fault fs.content
  · intro fs
    exact hseek _ rfl fs.content
  · intro fault p fs
    rfl

theorem drives_fileWrite (data : List UInt8) (offset : Nat) : (fileDevice Longer).Drives (fileWrite data offset) := by
  apply Device.Drives.get
  · intro p fs
    rfl
  intro fs
  apply Device.Drives.ite
  · exact Device.Drives.throw_bind _
  apply drives_access
  intro fault
  split
  · exact ⟨_, id, fun _ => rfl, Std.Refl.refl, fun _ _ => rfl⟩
  next hseek =>
    have hnot : fault = some .seek → ∀ bs, writtenContent fault data offset bs = bs := fun h => absurd (Or.inl h) hseek
    split
    · exact ⟨_, id, fun _ => rfl, Std.Refl.refl, fun _ _ => rfl⟩
    · rcases fault with _ | _ | _ | _ <;>
        exact ⟨_, writtenContent _ data offset, fun _ => rfl, length_writtenContent_ge _ data offset, hnot⟩

theorem drives_fileRead (buffer : List UInt8) (offset : Nat) : (fileDevice R).Drives (fileRead buffer offset) := by
  apply Device.Drives.get
  · intro p fs
    rfl
  intro fs
  apply Device.Drives.ite
  · exact Device.Drives.throw_bind _
  apply drives_access
  rintro (_ | _ | bytes | bytes)
  case none =>
    dsimp only
    split
    · exact ⟨_, id, fun _ => rfl, Std.Refl.refl, fun _ _ => rfl⟩
    split
    · exact ⟨_, id, fun _ => rfl, Std.Refl.refl, fun _ _ => rfl⟩
    · exact ⟨_, id, fun _ => rfl, Std.Refl.refl, fun _ _ => rfl⟩
  case some.seek | some.transfer | some.flush => exact ⟨_, id, fun _ => rfl, Std.Refl.refl, fun _ _ => rfl⟩

theorem drives_onFile {x : EStateM Fault FileState α} (h : (fileDevice R).Drives x) :
    (managerDevice R).Drives (onFile x) :=
  h.zoom

theorem drives_onFileManager {x : EStateM Fault FileManager α} (h : (managerDevice R).Drives x) :
    Driven R (onFileManager x) := h.zoom

theorem drives_writeHeader : Driven Longer (onFileManager fileManagerWriteHeader) := by
  apply drives_onFileManager
  apply Device.Drives.bind
  · apply Device.Drives.modify
    · exact fun _ => Device.leads_of_eq rfl rfl rfl
    · exact fun _ _ => rfl
  intro _
  apply Device.Drives.get
  · intro p fm
    rfl
  intro fm
  exact drives_onFile (drives_fileWrite _ _)

end Files

section Pages

variable {R : List UInt8 → List UInt8 → Prop} [Std.Refl R] [IsTrans (List UInt8) R] {α : Type} {page : PageAddr}

theorem drives_abortIfFail {res : Result α} {message : String} : Driven R (abortIfFail res message) := by
  cases res with
  | ok a => exact Device.Drives.pure a
  | error e => exact Device.Drives.throw _

theorem drives_memory {f : PageManager → PageManager}
    (hfile : ∀ s, (f s).fileManager.file = s.fileManager.file)
    (hf : ∀ p s, f ((storageDevice R).withPlan p s) = (storageDevice R).withPlan p (f s)) :
    Driven R (modify f) := by
  apply Device.Drives.modify
  · intro s
    apply Device.leads_of_eq
    · exact congrArg FileState.faults (hfile s)
    · exact congrArg FileState.accesses (hfile s)
    · exact congrArg FileState.content (hfile s)
  · exact hf

theorem drives_loadPage (a : PageAddr) : Driven R (loadPage a) := by
  apply Device.Drives.get
  · intro p s
    rfl
  intro s
  cases findPage s a with
  | none => exact Device.Drives.throw _
  | some page => exact Device.Drives.pure _

theorem drives_storePage (a : PageAddr) (page : Page) : Driven R (storePage a page) :=
  drives_memory (fun _ => rfl) fun _ _ => rfl

theorem drives_freePages : Driven R pageManagerFreePages := drives_memory (fun _ => rfl) fun _ _ => rfl

theorem drives_allocatePage (id : Int) : Driven R (pageManagerAllocatePage id) := by
  constructor
  case leads =>
    intro s
    rw [pageManagerAllocatePage]
    simp only [run_bind, run_get, andThen_ok, run_ite, run_throw, run_set, run_pure]
    split
    · exact Device.leads_of_eq rfl rfl rfl
    · exact Device.leads_of_eq rfl rfl rfl
  case replan =>
    intro s p _
    have hsize : pageManagerGetPageSize ((storageDevice R).withPlan p s) = pageManagerGetPageSize s := rfl
    rw [pageManagerAllocatePage]
    simp only [run_bind, run_get, andThen_ok, run_ite, run_throw, run_set, run_pure, hsize]
    split
    · rfl
    · rfl

theorem drives_getPageFromRam (pageId : Int) : Driven R (pageManagerGetPageFromRam pageId) := by
  apply Device.Drives.get
  · intro p s
    rfl
  intro s
  exact Device.Drives.lift _

theorem drives_readPage (id : Int) : Driven R (pageManagerReadPage id) := by
  apply Device.Drives.get
  · intro p s
    rfl
  intro s
  apply Device.Drives.ite
  · exact Device.Drives.throw_bind _
  apply (drives_getPageFromRam id).bind
  rintro (message | page)
  · apply (drives_allocatePage id).bind
    intro page
    apply (drives_loadPage page).bind
    intro raw
    apply (drives_onFileManager (drives_onFile (drives_fileRead (encodePage raw) _))).bind
    rintro ⟨res, bytes⟩
    apply (drives_storePage page _).bind
    intro _
    cases res with
    | error e => exact Device.Drives.pure _
    | ok u => exact Device.Drives.pure _
  · exact Device.Drives.pure _

theorem drives_setPagesCount (pagesCount : Nat) : Driven Longer (pageManagerSetPagesCount pagesCount) := by
  apply Device.Drives.bind
  · exact drives_memory (fun _ => rfl) fun _ _ => rfl
  · exact fun _ => drives_writeHeader

theorem drives_setCurrentFreePage (a : PageAddr) : Driven Longer (pageManagerSetCurrentFreePage a) := by
  apply (drives_loadPage a).bind
  intro raw
  apply Device.Drives.bind
  · exact drives_memory (fun _ => rfl) fun _ _ => rfl
  · exact fun _ => drives_writeHeader

theorem drives_writePageOnDisk (a : PageAddr) : Driven Longer (writePageOnDisk a) := by
  apply (drives_loadPage a).bind
  intro raw
  apply Device.Drives.get
  · intro p s
    rfl
  intro s
  apply (drives_onFileManager (drives_onFile (drives_fileWrite _ _))).bind
  exact fun _ => Device.Drives.pure _

theorem drives_pageManagerWritePageOnDisk (a : PageAddr) : Driven Longer (pageManagerWritePageOnDisk a) := by
  apply (drives_loadPage a).bind
  intro raw
  apply Device.Drives.get
  · intro p s
    rfl
  intro s
  apply (drives_onFileManager (drives_onFile (drives_fileWrite _ _))).bind
  exact fun _ => Device.Drives.pure _

theorem drives_pageNew : Driven Longer pageManagerPageNew := by
  apply Device.Drives.get
  · intro p s
    rfl
  intro s
  apply (drives_allocatePage _).bind
  intro page
  apply Device.Drives.get
  · intro p s
    rfl
  intro s
  apply (drives_setPagesCount _).bind
  rintro (message | _)
  · exact Device.Drives.pure _
  · exact (drives_pageManagerWritePageOnDisk page).bind fun _ => Device.Drives.pure _

theorem drives_getCurrentFreePage : Driven R pageManagerGetCurrentFreePage := by
  apply Device.Drives.get
  · intro p s
    rfl
  intro s
  cases s.currentFreePage with
  | some page => exact Device.Drives.pure _
  | none =>
      apply (drives_readPage _).bind
      intro res
      apply drives_abortIfFail.bind
      intro page
      apply Device.Drives.bind
      · exact drives_memory (fun _ => rfl) fun _ _ => rfl
      · exact fun _ => Device.Drives.pure _

theorem drives_getPageForData : Driven Longer pageManagerGetPageForData := by
  apply drives_getCurrentFreePage.bind
  intro currentFreePage
  apply (drives_loadPage currentFreePage).bind
  intro raw
  apply Device.Drives.ite
  · apply drives_pageNew.bind
    rintro ⟨_, newPage⟩
    exact (drives_setCurrentFreePage newPage).bind fun _ => Device.Drives.pure _
  · exact Device.Drives.pure _

end Pages

section Items

variable {R : List UInt8 → List UInt8 → Prop} [Std.Refl R] [IsTrans (List UInt8) R] {page currentPage : PageAddr}

theorem drives_getNewFreePage : Driven Longer pageManagerGetNewFreePage := by
  apply drives_pageNew.bind
  rintro ⟨res, freePage⟩
  apply drives_abortIfFail.bind
  intro _
  exact (drives_setCurrentFreePage freePage).bind fun _ => Device.Drives.pure _

theorem drives_addPartOfItem (page : PageAddr) (payload : ItemPayload) (continuesOnPage : Int) :
    Driven Longer (pageManagerAddPartOfItem page payload continuesOnPage) := by
  apply (drives_loadPage page).bind
  intro raw
  apply (Device.Drives.lift _).bind
  rintro ⟨raw, itemAddResult⟩
  apply (drives_storePage page raw).bind
  intro _
  apply Device.Drives.ite
  · exact Device.Drives.throw_bind _
  · exact (drives_writePageOnDisk page).bind fun _ => Device.Drives.pure _

theorem drives_putItemLoop (payload : ItemPayload) (fuel : Nat) (currentPage : Option PageAddr) (bytesWritten : Nat)
    (itemAddResult : Option ItemAddResult) :
    Driven Longer (putItemLoop payload fuel currentPage bytesWritten itemAddResult) := by
  induction fuel generalizing currentPage bytesWritten itemAddResult with
  | zero => exact Device.Drives.throw _
  | succ fuel ih =>
      apply Device.Drives.ite
      · exact Device.Drives.pure _
      cases currentPage with
      | none => exact Device.Drives.throw _
      | some currentPage =>
          apply (drives_loadPage currentPage).bind
          intro raw
          apply Device.Drives.ite
          · apply drives_getNewFreePage.bind
            intro res
            apply drives_abortIfFail.bind
            intro freePage
            apply (drives_addPartOfItem _ _ _).bind
            intro res
            apply drives_abortIfFail.bind
            exact fun _ => ih _ _ _
          · apply (drives_addPartOfItem _ _ _).bind
            intro res
            apply drives_abortIfFail.bind
            exact fun _ => ih _ _ _

theorem drives_putItem (page : PageAddr) (payload : ItemPayload) : Driven Longer (pageManagerPutItem page payload) := by
  apply Device.Drives.ite
  · exact Device.Drives.throw_bind _
  apply (drives_putItemLoop _ _ _ _ _).bind
  rintro ⟨_ | itemAddResult, bytesWritten⟩
  · exact Device.Drives.throw _
  apply Device.Drives.ite
  · exact Device.Drives.throw_bind _
  apply Device.Drives.ite
  · exact Device.Drives.throw_bind _
  · exact Device.Drives.pure _

theorem drives_nextPart (page currentPage : PageAddr) (currentPageIdx : Int) (itemId : ItemIndex) :
    Driven R (nextPart page currentPage currentPageIdx itemId) := by
  apply (drives_loadPage page).bind
  intro head
  apply Device.Drives.ite
  · apply (drives_readPage _).bind
    intro res
    apply drives_abortIfFail.bind
    intro currentPage
    exact (drives_loadPage currentPage).bind fun _ => Device.Drives.pure _
  · exact Device.Drives.pure _

theorem drives_calculateLargeItemSizeLoop (fuel : Nat) (currentPageIdx : Int) (itemId : ItemIndex) (size : Nat) :
    Driven R (calculateLargeItemSizeLoop page fuel currentPage currentPageIdx itemId size) := by
  induction fuel generalizing currentPage currentPageIdx itemId size with
  | zero => exact Device.Drives.throw _
  | succ fuel ih =>
      apply Device.Drives.ite
      · exact Device.Drives.pure _
      apply (drives_nextPart _ _ _ _).bind
      rintro ⟨currentPage, itemId⟩
      apply (drives_loadPage currentPage).bind
      intro raw
      apply (Device.Drives.lift _).bind
      intro res
      apply drives_abortIfFail.bind
      intro item
      apply (Device.Drives.lift _).bind
      exact fun _ => ih _ _ _

theorem drives_calculateLargeItemSize (page : PageAddr) (itemId : ItemIndex) :
    Driven R (pageManagerCalculateLargeItemSize page itemId) := by
  apply (drives_loadPage page).bind
  intro raw
  apply Device.Drives.get
  · intro p s
    rfl
  intro s
  exact drives_calculateLargeItemSizeLoop _ _ _ _

theorem drives_getItemLoop (fuel : Nat) (currentPageIdx : Int) (itemId : ItemIndex) (doubleLoopGuard : Nat)
    (buffer : List UInt8) :
    Driven R (getItemLoop page fuel currentPage currentPageIdx itemId doubleLoopGuard buffer) := by
  induction fuel generalizing currentPage currentPageIdx itemId doubleLoopGuard buffer with
  | zero => exact Device.Drives.throw _
  | succ fuel ih =>
      apply Device.Drives.ite
      · exact Device.Drives.pure _
      apply (drives_loadPage page).bind
      intro head
      apply (drives_nextPart _ _ _ _).bind
      rintro ⟨currentPage, itemId⟩
      apply Device.Drives.ite
      · exact Device.Drives.throw_bind _
      apply (drives_loadPage currentPage).bind
      intro raw
      apply (Device.Drives.lift _).bind
      intro res
      apply drives_abortIfFail.bind
      intro item
      apply (Device.Drives.lift _).bind
      exact fun _ => ih _ _ _ _

theorem drives_getItem (page : PageAddr) (itemId : ItemIndex) : Driven R (pageManagerGetItem page itemId) := by
  apply (drives_loadPage page).bind
  intro raw
  apply Device.Drives.get
  · intro p s
    rfl
  intro s
  exact (drives_getItemLoop _ _ _ _ _).bind fun _ => Device.Drives.pure _

theorem drives_deleteItemLoop (fuel : Nat) (currentPageIdx : Int) (item : Item) :
    Driven Longer (deleteItemLoop page fuel currentPage currentPageIdx item) := by
  induction fuel generalizing currentPage currentPageIdx item with
  | zero => exact Device.Drives.throw _
  | succ fuel ih =>
      apply Device.Drives.ite
      · exact Device.Drives.pure _
      have hpart (currentPage : PageAddr) (itemToDelete : Item) : Driven Longer (do
          let raw ← loadPage currentPage
          let deleted ← lift (pageDeleteItem raw itemToDelete)
          storePage currentPage deleted.1
          let res ← writePageOnDisk currentPage
          abortIfFail res "Failed to write page on disk"
          let continuation ← lift (pageGetItemContinuation deleted.1 deleted.2)
          deleteItemLoop page fuel currentPage continuation deleted.2) := by
        apply (drives_loadPage currentPage).bind
        intro raw
        apply (Device.Drives.lift _).bind
        rintro ⟨raw, itemToDelete⟩
        apply (drives_storePage currentPage raw).bind
        intro _
        apply (drives_writePageOnDisk currentPage).bind
        intro res
        apply drives_abortIfFail.bind
        intro _
        apply (Device.Drives.lift _).bind
        intro continuation
        exact ih continuation itemToDelete
      apply (drives_loadPage page).bind
      intro head
      dsimp only
      apply Device.Drives.ite
      · apply (drives_nextPart page currentPage currentPageIdx item.id).bind
        rintro ⟨nextPage, itemId⟩
        apply (drives_calculateLargeItemSize nextPage itemId).bind
        intro _
        apply (drives_getItem nextPage itemId).bind
        intro item
        exact (Device.Drives.pure _).bind fun part => hpart part.1 part.2
      · exact (Device.Drives.pure _).bind fun part => hpart part.1 part.2

theorem drives_deleteItem (page : PageAddr) (item : Item) : Driven Longer (pageManagerDeleteItem page item) := by
  apply (drives_loadPage page).bind
  intro raw
  apply Device.Drives.get
  · intro p s
    rfl
  intro s
  apply (drives_deleteItemLoop _ _ _).bind
  intro item
  apply Device.Drives.ite
  · exact Device.Drives.throw_bind _
  · exact Device.Drives.pure _

end Items

section Iterators

variable {R : List UInt8 → List UInt8 → Prop} [Std.Refl R] [IsTrans (List UInt8) R] {γ : Type}

theorem drives_pageIteratorNew : Driven R pageIteratorNew := by
  apply Device.Drives.get
  · intro p s
    rfl
  intro s
  apply Device.Drives.ite
  · exact Device.Drives.throw_bind _
  · exact (drives_readPage 0).bind fun _ => Device.Drives.pure _

theorem drives_pageIteratorHasNext (it : PageIterator) : Driven R (pageIteratorHasNext it) := by
  apply Device.Drives.get
  · intro p s
    rfl
  intro s
  exact Device.Drives.pure _

theorem drives_pageIteratorNext (it : PageIterator) : Driven R (pageIteratorNext it) := by
  apply (drives_pageIteratorHasNext it).bind
  intro hasNext
  apply Device.Drives.ite
  · exact Device.Drives.throw_bind _
  apply drives_freePages.bind
  intro _
  apply (drives_readPage it.nextPageId).bind
  rintro (_ | page)
  · exact Device.Drives.pure _
  · exact Device.Drives.pure _

theorem drives_itemIteratorNew : Driven R itemIteratorNew :=
  drives_pageIteratorNew.bind fun _ => Device.Drives.pure _

theorem drives_itemIteratorDestroy (it : ItemIterator) : Driven R (itemIteratorDestroy it) := by
  apply Device.Drives.ite
  · exact Device.Drives.throw_bind _
  · exact drives_freePages.bind fun _ => Device.Drives.pure _

theorem drives_hasNextLoop (fuel : Nat) (it : ItemIterator) : Driven R (hasNextLoop fuel it) := by
  induction fuel generalizing it with
  | zero => exact Device.Drives.throw _
  | succ fuel ih =>
      apply (drives_pageIteratorHasNext _).bind
      intro hasNext
      apply Device.Drives.ite
      · exact Device.Drives.pure _
      apply (drives_pageIteratorNext _).bind
      rintro ⟨res, pageIterator⟩
      apply drives_abortIfFail.bind
      intro _
      obtain ⟨nextPageId, _ | page⟩ := pageIterator
      · exact Device.Drives.throw _
      apply (drives_loadPage page).bind
      intro raw
      apply Device.Drives.ite
      · exact Device.Drives.pure _
      · exact ih _

theorem drives_itemIteratorHasNext (it : ItemIterator) : Driven R (itemIteratorHasNext it) := by
  apply Device.Drives.ite
  · exact Device.Drives.throw_bind _
  obtain ⟨⟨nextPageId, _ | page⟩, currentItemIndex, isReleased⟩ := it
  · exact Device.Drives.pure _
  apply (drives_loadPage page).bind
  intro raw
  apply Device.Drives.ite
  · exact Device.Drives.pure _
  apply Device.Drives.get
  · intro p s
    rfl
  intro s
  exact drives_hasNextLoop _ _

theorem drives_itemIteratorNext (it : ItemIterator) : Driven R (itemIteratorNext it) := by
  apply (drives_itemIteratorHasNext it).bind
  rintro ⟨hasNext, ⟨⟨nextPageId, _ | page⟩, currentItemIndex, isReleased⟩⟩
  · apply Device.Drives.ite
    · exact Device.Drives.throw_bind _
    · exact Device.Drives.throw _
  apply Device.Drives.ite
  · exact Device.Drives.throw_bind _
  apply (drives_loadPage page).bind
  intro raw
  apply Device.Drives.ite
  · exact Device.Drives.throw_bind _
  apply (drives_calculateLargeItemSize page _).bind
  intro payloadSize
  apply (drives_getItem page _).bind
  intro item
  apply Device.Drives.ite
  · exact Device.Drives.throw_bind _
  · exact Device.Drives.pure _

variable (body : γ → Item → Except Fault (ForInStep γ))

theorem drives_whileItemsLoop (fuel : Nat) (acc : γ) (it : ItemIterator) :
    Driven R (whileItemsLoop body fuel acc it) := by
  induction fuel generalizing acc it with
  | zero => exact Device.Drives.throw _
  | succ fuel ih =>
      apply (drives_itemIteratorHasNext it).bind
      rintro ⟨hasNext, it⟩
      apply Device.Drives.ite
      · exact Device.Drives.pure _
      apply (drives_itemIteratorNext it).bind
      rintro ⟨item, it⟩
      apply (Device.Drives.lift _).bind
      rintro (acc | acc)
      · exact Device.Drives.pure _
      · exact ih acc it

theorem drives_scanItems (acc : γ) : Driven R (scanItems body acc) := by
  apply drives_itemIteratorNew.bind
  intro it
  apply Device.Drives.get
  · intro p s
    rfl
  intro s
  exact drives_whileItemsLoop body _ acc it

end Iterators

end DocumentDb.Storage
