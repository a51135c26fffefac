import DocumentDb.Storage.WriteThrough

namespace DocumentDb.Storage

open Program

section Reading

variable {P : PageManager → Prop} {α γ : Type}

/-- Kept by the two functions through which everything that reads gets at the cache. -/
structure KeptByReads (P : PageManager → Prop) : Prop where
  readPage : ∀ id, Keeps P (pageManagerReadPage id)
  freePages : Keeps P pageManagerFreePages

theorem keeps_pageIteratorHasNext (it : PageIterator) : Keeps P (pageIteratorHasNext it) :=
  Keeps.get fun _ => Keeps.pure _

variable (h : KeptByReads P)

include h

theorem KeptByReads.nextPart (page currentPage : PageAddr) (currentPageIdx : Int) (itemId : ItemIndex) :
    Keeps P (nextPart page currentPage currentPageIdx itemId) := by
  refine Keeps.bind (keeps_loadPage page) ?_
  intro head
  apply Keeps.ite
  · apply (h.readPage currentPageIdx).bind
    intro res
    refine Keeps.bind (keeps_abortIfFail res _) ?_
    intro currentPage
    exact (keeps_loadPage currentPage).bind fun _ => Keeps.pure _
  · exact Keeps.pure _

theorem KeptByReads.calculateLargeItemSizeLoop (page : PageAddr) (fuel : Nat) (currentPage : PageAddr)
    (currentPageIdx : Int) (itemId : ItemIndex) (size : Nat) :
    Keeps P (calculateLargeItemSizeLoop page fuel currentPage currentPageIdx itemId size) := by
  induction fuel generalizing currentPage currentPageIdx itemId size with
  | zero => exact Keeps.throw _
  | succ fuel ih =>
      apply Keeps.ite
      · exact Keeps.pure _
      refine Keeps.bind (h.nextPart page currentPage currentPageIdx itemId) ?_
      rintro ⟨currentPage, itemId⟩
      refine Keeps.bind (keeps_loadPage currentPage) ?_
      intro raw
      refine Keeps.bind (Keeps.lift _) ?_
      intro res
      refine Keeps.bind (keeps_abortIfFail res _) ?_
      intro item
      refine Keeps.bind (Keeps.lift _) ?_
      intro continuation
      exact ih currentPage continuation item.id _

theorem KeptByReads.calculateLargeItemSize (page : PageAddr) (itemId : ItemIndex) :
    Keeps P (pageManagerCalculateLargeItemSize page itemId) := by
  refine Keeps.bind (keeps_loadPage page) ?_
  intro raw
  apply Keeps.get
  intro s
  exact h.calculateLargeItemSizeLoop page _ _ _ _ _

theorem KeptByReads.getItemLoop (page : PageAddr) (fuel : Nat) (currentPage : PageAddr) (currentPageIdx : Int)
    (itemId : ItemIndex) (doubleLoopGuard : Nat) (buffer : List UInt8) :
    Keeps P (getItemLoop page fuel currentPage currentPageIdx itemId doubleLoopGuard buffer) := by
  induction fuel generalizing currentPage currentPageIdx itemId doubleLoopGuard buffer with
  | zero => exact Keeps.throw _
  | succ fuel ih =>
      apply Keeps.ite
      · exact Keeps.pure _
      refine Keeps.bind (keeps_loadPage page) ?_
      intro head
      refine Keeps.bind (h.nextPart page currentPage currentPageIdx itemId) ?_
      rintro ⟨currentPage, itemId⟩
      apply Keeps.ite
      · exact Keeps.throw_bind _
      refine Keeps.bind (keeps_loadPage currentPage) ?_
      intro raw
      refine Keeps.bind (Keeps.lift _) ?_
      intro res
      refine Keeps.bind (keeps_abortIfFail res _) ?_
      intro item
      refine Keeps.bind (Keeps.lift _) ?_
      intro continuation
      exact ih currentPage continuation item.id _ _

theorem KeptByReads.getItem (page : PageAddr) (itemId : ItemIndex) : Keeps P (pageManagerGetItem page itemId) := by
  refine Keeps.bind (keeps_loadPage page) ?_
  intro raw
  apply Keeps.get
  intro s
  exact (h.getItemLoop page _ _ _ _ _ _).bind fun _ => Keeps.pure _

theorem KeptByReads.pageIteratorNew : Keeps P pageIteratorNew := by
  apply Keeps.get
  intro s
  apply Keeps.ite
  · exact Keeps.throw_bind _
  · exact (h.readPage 0).bind fun _ => Keeps.pure _

theorem KeptByReads.pageIteratorNext (it : PageIterator) : Keeps P (pageIteratorNext it) := by
  refine Keeps.bind (keeps_pageIteratorHasNext it) ?_
  intro hasNext
  apply Keeps.ite
  · exact Keeps.throw_bind _
  refine Keeps.bind h.freePages ?_
  intro _
  refine Keeps.bind (h.readPage it.nextPageId) ?_
  rintro (message | page)
  · exact Keeps.pure _
  · exact Keeps.pure _

theorem KeptByReads.itemIteratorNew : Keeps P pageManagerGetItems :=
  h.pageIteratorNew.bind fun _ => Keeps.pure _

theorem KeptByReads.hasNextLoop (fuel : Nat) (it : ItemIterator) : Keeps P (hasNextLoop fuel it) := by
  induction fuel generalizing it with
  | zero => exact Keeps.throw _
  | succ fuel ih =>
      refine Keeps.bind (keeps_pageIteratorHasNext it.pageIterator) ?_
      intro hasNext
      apply Keeps.ite
      · exact Keeps.pure _
      refine Keeps.bind (h.pageIteratorNext it.pageIterator) ?_
      rintro ⟨res, pageIterator⟩
      refine Keeps.bind (keeps_abortIfFail res _) ?_
      intro _
      dsimp only
      cases pageIterator.currentPage with
      | none => exact Keeps.throw _
      | some page =>
          refine Keeps.bind (keeps_loadPage page) ?_
          intro raw
          exact Keeps.ite (Keeps.pure _) (ih _)

theorem KeptByReads.itemIteratorHasNext (it : ItemIterator) : Keeps P (itemIteratorHasNext it) := by
  apply Keeps.ite
  · exact Keeps.throw_bind _
  cases it.pageIterator.currentPage with
  | none => exact Keeps.pure _
  | some page =>
      refine Keeps.bind (keeps_loadPage page) ?_
      intro raw
      apply Keeps.ite
      · exact Keeps.pure _
      apply Keeps.get
      intro s
      exact h.hasNextLoop _ it

theorem KeptByReads.itemIteratorNext (it : ItemIterator) : Keeps P (itemIteratorNext it) := by
  refine Keeps.bind (h.itemIteratorHasNext it) ?_
  rintro ⟨hasNext, it⟩
  apply Keeps.ite
  · exact Keeps.throw_bind _
  dsimp only
  cases it.pageIterator.currentPage with
  | none => exact Keeps.throw _
  | some page =>
      refine Keeps.bind (keeps_loadPage page) ?_
      intro raw
      apply Keeps.ite
      · exact Keeps.throw_bind _
      refine Keeps.bind (h.calculateLargeItemSize page _) ?_
      intro payloadSize
      refine Keeps.bind (h.getItem page _) ?_
      intro item
      exact Keeps.ite (Keeps.throw_bind _) (Keeps.pure _)

theorem KeptByReads.itemIteratorDestroy (it : ItemIterator) : Keeps P (itemIteratorDestroy it) := by
  apply Keeps.ite
  · exact Keeps.throw_bind _
  · exact h.freePages.bind fun _ => Keeps.pure _

theorem KeptByReads.whileItemsLoop (body : γ → Item → Except Fault (ForInStep γ)) (fuel : Nat) (acc : γ)
    (it : ItemIterator) : Keeps P (whileItemsLoop body fuel acc it) := by
  induction fuel generalizing acc it with
  | zero => exact Keeps.throw _
  | succ fuel ih =>
      refine Keeps.bind (h.itemIteratorHasNext it) ?_
      rintro ⟨hasNext, it⟩
      apply Keeps.ite
      · exact Keeps.pure _
      refine Keeps.bind (h.itemIteratorNext it) ?_
      rintro ⟨item, it⟩
      refine Keeps.bind (Keeps.lift _) ?_
      rintro (acc | acc)
      · exact Keeps.pure _
      · exact ih acc it

theorem KeptByReads.scanItems (body : γ → Item → Except Fault (ForInStep γ)) (acc : γ) :
    Keeps P (scanItems body acc) := by
  refine Keeps.bind h.itemIteratorNew ?_
  intro it
  apply Keeps.get
  intro s
  exact h.whileItemsLoop body _ acc it

end Reading

section Writing

variable {P : PageManager → Prop}

/-- Kept by the functions through which everything that writes gets at the cache and at the file. -/
structure KeptByWrites (P : PageManager → Prop) : Prop extends KeptByReads P where
  storePage : ∀ a page, Keeps P (storePage a page)
  writePageOnDisk : ∀ a, Keeps P (writePageOnDisk a)
  pageNew : Keeps P pageManagerPageNew
  setCurrentFreePage : ∀ a, Keeps P (pageManagerSetCurrentFreePage a)
  getCurrentFreePage : Keeps P pageManagerGetCurrentFreePage

variable (h : KeptByWrites P)

include h

theorem KeptByWrites.getPageForData : Keeps P pageManagerGetPageForData := by
  refine Keeps.bind h.getCurrentFreePage ?_
  intro currentFreePage
  refine Keeps.bind (keeps_loadPage currentFreePage) ?_
  intro raw
  apply Keeps.ite
  · apply h.pageNew.bind
    rintro ⟨_, newPage⟩
    exact (h.setCurrentFreePage newPage).bind fun _ => Keeps.pure _
  · exact Keeps.pure _

theorem KeptByWrites.getNewFreePage : Keeps P pageManagerGetNewFreePage := by
  refine Keeps.bind h.pageNew ?_
  rintro ⟨res, freePage⟩
  refine Keeps.bind (keeps_abortIfFail res _) ?_
  intro _
  exact (h.setCurrentFreePage freePage).bind fun _ => Keeps.pure _

theorem KeptByWrites.addPartOfItem (page : PageAddr) (payload : ItemPayload) (continuesOnPage : Int) :
    Keeps P (pageManagerAddPartOfItem page payload continuesOnPage) := by
  refine Keeps.bind (keeps_loadPage page) ?_
  intro raw
  refine Keeps.bind (Keeps.lift _) ?_
  rintro ⟨raw, itemAddResult⟩
  refine Keeps.bind (h.storePage page raw) ?_
  intro _
  apply Keeps.ite
  · exact Keeps.throw_bind _
  · exact (h.writePageOnDisk page).bind fun _ => Keeps.pure _

theorem KeptByWrites.putItemLoop (payload : ItemPayload) (fuel : Nat) (currentPage : Option PageAddr)
    (bytesWritten : Nat) (itemAddResult : Option ItemAddResult) :
    Keeps P (putItemLoop payload fuel currentPage bytesWritten itemAddResult) := by
  induction fuel generalizing currentPage bytesWritten itemAddResult with
  | zero => exact Keeps.throw _
  | succ fuel ih =>
      apply Keeps.ite
      · exact Keeps.pure _
      cases currentPage with
      | none => exact Keeps.throw _
      | some currentPage =>
          refine Keeps.bind (keeps_loadPage currentPage) ?_
          intro raw
          dsimp only
          apply Keeps.ite
          · apply h.getNewFreePage.bind
            intro res
            refine Keeps.bind (keeps_abortIfFail res _) ?_
            intro freePage
            refine Keeps.bind (h.addPartOfItem freePage _ _) ?_
            intro res
            exact (keeps_abortIfFail res _).bind fun _ => ih _ _ _
          · apply (h.addPartOfItem currentPage _ _).bind
            intro res
            exact (keeps_abortIfFail res _).bind fun _ => ih _ _ _

theorem KeptByWrites.putItem (page : PageAddr) (payload : ItemPayload) : Keeps P (pageManagerPutItem page payload) := by
  apply Keeps.ite
  · exact Keeps.throw_bind _
  refine Keeps.bind (h.putItemLoop payload _ _ _ _) ?_
  rintro ⟨_ | itemAddResult, bytesWritten⟩
  · exact Keeps.throw _
  · exact Keeps.ite (Keeps.throw_bind _) (Keeps.ite (Keeps.throw_bind _) (Keeps.pure _))

theorem KeptByWrites.deleteItemLoop (page : PageAddr) (fuel : Nat) (currentPage : PageAddr) (currentPageIdx : Int)
    (item : Item) : Keeps P (deleteItemLoop page fuel currentPage currentPageIdx item) := by
  induction fuel generalizing currentPage currentPageIdx item with
  | zero => exact Keeps.throw _
  | succ fuel ih =>
      apply Keeps.ite
      · exact Keeps.pure _
      have hpart (currentPage : PageAddr) (itemToDelete : Item) : Keeps P (do
          let raw ← loadPage currentPage
          let deleted ← lift (pageDeleteItem raw itemToDelete)
          Storage.storePage currentPage deleted.1
          let res ← Storage.writePageOnDisk currentPage
          abortIfFail res "Failed to write page on disk"
          let continuation ← lift (pageGetItemContinuation deleted.1 deleted.2)
          Storage.deleteItemLoop page fuel currentPage continuation deleted.2) := by
        refine Keeps.bind (keeps_loadPage currentPage) ?_
        intro raw
        refine Keeps.bind (Keeps.lift _) ?_
        rintro ⟨raw, itemToDelete⟩
        refine Keeps.bind (h.storePage currentPage raw) ?_
        intro _
        refine Keeps.bind (h.writePageOnDisk currentPage) ?_
        intro res
        refine Keeps.bind (keeps_abortIfFail res _) ?_
        intro _
        refine Keeps.bind (Keeps.lift _) ?_
        intro continuation
        exact ih currentPage continuation itemToDelete
      refine Keeps.bind (keeps_loadPage page) ?_
      intro head
      dsimp only
      apply Keeps.ite
      · apply (h.nextPart page currentPage currentPageIdx item.id).bind
        rintro ⟨nextPage, itemId⟩
        refine Keeps.bind (h.calculateLargeItemSize nextPage itemId) ?_
        intro _
        refine Keeps.bind (h.getItem nextPage itemId) ?_
        intro item
        exact (Keeps.pure _).bind fun part => hpart part.1 part.2
      · exact (Keeps.pure _).bind fun part => hpart part.1 part.2

theorem KeptByWrites.deleteItem (page : PageAddr) (item : Item) : Keeps P (pageManagerDeleteItem page item) := by
  refine Keeps.bind (keeps_loadPage page) ?_
  intro raw
  apply Keeps.get
  intro s
  refine Keeps.bind (h.deleteItemLoop page _ _ _ _) ?_
  intro item
  exact Keeps.ite (Keeps.throw_bind _) (Keeps.pure _)

/-- What the functions keep that every call is made of is kept by every call. -/
theorem KeptByWrites.call {s s' : Session} (hcall : Call s s') (hs : P s.manager) : P s'.manager := by
  cases hcall with
  | getPageForData hrun => exact h.getPageForData.ok hs hrun
  | putItem h0 hn hrun => exact (h.putItem _ _).ok hs hrun
  | deleteItem hrun => exact (h.deleteItem _ _).ok hs hrun
  | getItem hrun => exact (h.getItem _ _).ok hs hrun
  | freePages hrun => exact h.freePages.ok hs hrun
  | pageIteratorNew hrun => exact h.pageIteratorNew.ok hs hrun
  | pageIteratorHasNext _ hrun => exact (keeps_pageIteratorHasNext _).ok hs hrun
  | pageIteratorNext _ hrun => exact (h.pageIteratorNext _).ok hs hrun
  | pageIteratorDestroy _ hrun => exact h.freePages.ok hs hrun
  | itemIteratorNew hrun => exact h.itemIteratorNew.ok hs hrun
  | itemIteratorHasNext _ hrun => exact (h.itemIteratorHasNext _).ok hs hrun
  | itemIteratorNext _ hrun => exact (h.itemIteratorNext _).ok hs hrun
  | itemIteratorDestroy _ hrun => exact (h.itemIteratorDestroy _).ok hs hrun

end Writing

end DocumentDb.Storage
