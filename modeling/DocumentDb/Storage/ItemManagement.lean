import DocumentDb.Storage.PageManager

namespace DocumentDb.Storage

open Bytes Program

section Put

def pageManagerAddPartOfItem (page : PageAddr) (payload : ItemPayload) (continuesOnPage : Int) :
    PageManagerM (Result ItemAddResult) := do
  let raw ← loadPage page
  let (raw, itemAddResult) ← lift (pageAddItem raw payload continuesOnPage)
  storePage page raw
  if itemAddResult.metadataOffsetInPage < sizeofPageHeader then
    throw (.assertion "item_add_result->metadata_offset_in_page >= sizeof(PageHeader)")
  let res ← writePageOnDisk page
  return res.map fun _ => itemAddResult

def pageManagerGetNewFreePage : PageManagerM (Result PageAddr) := do
  let (res, freePage) ← pageManagerPageNew
  abortIfFail res "Failed to allocate one more page for large payload"
  let res ← pageManagerSetCurrentFreePage freePage
  return res.map fun _ => freePage

/-- The loop of `page_manager_put_item`. Its `else if` repeats the condition of
the `if`, so the branch that splits a payload over pages is never entered. -/
def putItemLoop (payload : ItemPayload) :
    Nat → Option PageAddr → Nat → Option ItemAddResult → PageManagerM (Option ItemAddResult × Nat)
  | 0, _, _, _ => throw .diverges
  | fuel + 1, currentPage, bytesWritten, itemAddResult => do
    if payload.length ≤ bytesWritten then
      return (itemAddResult, bytesWritten)
    match currentPage with
    | none => throw (.assertion "current_page != NULL")
    | some currentPage =>
      let raw ← loadPage currentPage
      let payloadSize := toUInt32 (toInt32 payload.length - toInt32 bytesWritten)
      let part := slice payload bytesWritten payloadSize
      if pageCanFitAnyPayload raw = false ∨ pageCanFitPayload raw payloadSize = false then
        let res ← pageManagerGetNewFreePage
        let freePage ← abortIfFail res
          "Failed to allocate one more page for payload that can't suite page"
        let res ← pageManagerAddPartOfItem freePage part nullPageIndex
        let tmpAddResult ← abortIfFail res "Failed to add item to page in memory"
        putItemLoop payload fuel (some freePage)
          (bytesWritten + tmpAddResult.writeStatus.bytesWritten) (some tmpAddResult)
      else
        let res ← pageManagerAddPartOfItem currentPage part nullPageIndex
        let tmpAddResult ← abortIfFail res "Failed to add item to page in memory"
        putItemLoop payload fuel none
          (bytesWritten + tmpAddResult.writeStatus.bytesWritten) (some tmpAddResult)

/-- Every round writes at least one byte. The function returns `OK` or does not
return. -/
def pageManagerPutItem (page : PageAddr) (payload : ItemPayload) : PageManagerM ItemAddResult := do
  if payload.length = 0 then
    throw (.assertion "payload.size > 0")
  match ← putItemLoop payload (payload.length + 1) (some page) 0 none with
  | (none, _) => throw (.undefined "item_add_result is not set")
  | (some itemAddResult, bytesWritten) =>
    if bytesWritten ≠ payload.length then
      throw (.assertion "bytes_written == payload.size")
    if itemAddResult.writeStatus.complete = false then
      throw (.assertion "item_add_result->write_status.complete == true")
    return { itemAddResult with writeStatus.bytesWritten := bytesWritten }

end Put

section Parts

/-- The page and the item of the next part of an item: the head is on the page
the call was given, every continuation is the first item of its page. -/
def nextPart (page currentPage : PageAddr) (currentPageIdx : Int) (itemId : ItemIndex) :
    PageManagerM (PageAddr × ItemIndex) := do
  let head ← loadPage page
  if currentPageIdx ≠ head.pageHeader.pageId then
    let res ← pageManagerReadPage currentPageIdx
    let currentPage ← abortIfFail res "Failed to get page from disk"
    let raw ← loadPage currentPage
    return (currentPage, ⟨raw.pageHeader.pageId, 0⟩)
  return (currentPage, itemId)

/-- The rounds of a walk over the parts of an item: one for each page of the
file, and the one that finds the end. -/
def partRounds (self : PageManager) : Nat := pageManagerGetPagesCount self + 1

def calculateLargeItemSizeLoop (page : PageAddr) :
    Nat → PageAddr → Int → ItemIndex → Nat → PageManagerM Nat
  | 0, _, _, _, _ => throw .diverges
  | fuel + 1, currentPage, currentPageIdx, itemId, size => do
    if currentPageIdx = nullPageIndex then
      return size
    let (currentPage, itemId) ← nextPart page currentPage currentPageIdx itemId
    let raw ← loadPage currentPage
    let res ← lift (pageGetItem raw itemId)
    let item ← abortIfFail res "Failed to read item from page in memory"
    let continuation ← lift (pageGetItemContinuation raw item)
    calculateLargeItemSizeLoop page fuel currentPage continuation item.id
      (toUInt32 ((size : Int) + item.payload.length))

def pageManagerCalculateLargeItemSize (page : PageAddr) (itemId : ItemIndex) :
    PageManagerM Nat := do
  let raw ← loadPage page
  calculateLargeItemSizeLoop page (partRounds (← get)) page raw.pageHeader.pageId itemId 0

def getItemLoop (page : PageAddr) :
    Nat → PageAddr → Int → ItemIndex → Nat → List UInt8 → PageManagerM (List UInt8)
  | 0, _, _, _, _, _ => throw .diverges
  | fuel + 1, currentPage, currentPageIdx, itemId, doubleLoopGuard, buffer => do
    if currentPageIdx = nullPageIndex then
      return buffer
    let head ← loadPage page
    let doubleLoopGuard :=
      if currentPageIdx = head.pageHeader.pageId then doubleLoopGuard + 1 else doubleLoopGuard
    let (currentPage, itemId) ← nextPart page currentPage currentPageIdx itemId
    if 1 < doubleLoopGuard then
      throw (.assertion "double_loop_guard <= 1")
    let raw ← loadPage currentPage
    let res ← lift (pageGetItem raw itemId)
    let item ← abortIfFail res "Failed to read item from page in memory"
    let continuation ← lift (pageGetItemContinuation raw item)
    getItemLoop page fuel currentPage continuation item.id doubleLoopGuard (buffer ++ item.payload)

/-- Every failing path of this function exits, so that its `Result` is `OK`. -/
def pageManagerGetItem (page : PageAddr) (itemId : ItemIndex) : PageManagerM Item := do
  let raw ← loadPage page
  let buffer ← getItemLoop page (partRounds (← get)) page raw.pageHeader.pageId itemId 0 []
  return createItem buffer itemId

def deleteItemLoop (page : PageAddr) : Nat → PageAddr → Int → Item → PageManagerM Item
  | 0, _, _, _ => throw .diverges
  | fuel + 1, currentPage, currentPageIdx, itemToDelete => do
    if currentPageIdx = nullPageIndex then
      return itemToDelete
    let head ← loadPage page
    let (currentPage, itemToDelete) ← do
      if currentPageIdx ≠ head.pageHeader.pageId then
        let (nextPage, itemId) ← nextPart page currentPage currentPageIdx itemToDelete.id
        let _ ← pageManagerCalculateLargeItemSize nextPage itemId
        let item ← pageManagerGetItem nextPage itemId
        pure (nextPage, item)
      else
        pure (currentPage, itemToDelete)
    let raw ← loadPage currentPage
    let (raw, itemToDelete) ← lift (pageDeleteItem raw itemToDelete)
    storePage currentPage raw
    let res ← writePageOnDisk currentPage
    abortIfFail res "Failed to write page on disk"
    let continuation ← lift (pageGetItemContinuation raw itemToDelete)
    deleteItemLoop page fuel currentPage continuation itemToDelete

def pageManagerDeleteItem (page : PageAddr) (item : Item) : PageManagerM Item := do
  let raw ← loadPage page
  let item ← deleteItemLoop page (partRounds (← get)) page raw.pageHeader.pageId item
  if item.isDeleted = false then
    throw (.assertion "item_to_delete->is_deleted == true")
  return item

end Parts

end DocumentDb.Storage
