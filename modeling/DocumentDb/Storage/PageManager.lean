import DocumentDb.Storage.Page
import DocumentDb.Storage.File

namespace DocumentDb.Storage

open Bytes Program

/-- The address of a page in memory. Addresses are not handed out twice, so
that a pointer to a released page is recognised when it is used. -/
abbrev PageAddr := Nat

structure AllocatedPage where
  addr : PageAddr
  rawPage : Page
  deriving DecidableEq, Repr

structure PageManager where
  fileManager : FileManager
  allocatedPages : List AllocatedPage
  allocatedPagesCount : Nat
  currentFreePage : Option PageAddr
  nextAddr : PageAddr

def minimumDataPartSizeBytes : Nat := 8

abbrev PageManagerM (α : Type) := EStateM Fault PageManager α

def onFileManager {α : Type} (x : EStateM Fault FileManager α) : PageManagerM α :=
  zoom PageManager.fileManager (fun fm self => { self with fileManager := fm }) x

section Cache

def findPage (self : PageManager) (addr : PageAddr) : Option Page :=
  (self.allocatedPages.find? fun p => p.addr == addr).map AllocatedPage.rawPage

def loadPage (addr : PageAddr) : PageManagerM Page := do
  match findPage (← get) addr with
  | some page => return page
  | none => throw (.undefined "page used after it was released")

def storePage (addr : PageAddr) (page : Page) : PageManagerM Unit :=
  modify fun self => { self with
    allocatedPages := self.allocatedPages.map fun p =>
      if p.addr == addr then { p with rawPage := page } else p }

end Cache

section Utils

def pageManagerGetPageSize (self : PageManager) : Nat :=
  self.fileManager.header.constants.pageSize

def pageManagerGetPagesCount (self : PageManager) : Nat :=
  self.fileManager.header.dynamic.pageCount

/-- The offset is computed in `size_t`. -/
def pageManagerGetPageOffset (self : PageManager) (pageId : Int) : Nat :=
  (((sizeofFileHeader : Int) + pageId * pageManagerGetPageSize self) % 2 ^ 64).toNat

def pageManagerGetLastPageId (self : PageManager) : Int :=
  toInt32 (toInt32 (pageManagerGetPagesCount self) - 1)

def pageManagerSetPagesCount (pagesCount : Nat) : PageManagerM (Result Unit) := do
  modify fun self => { self with fileManager.header.dynamic.pageCount := pagesCount }
  onFileManager fileManagerWriteHeader

def pageManagerSetCurrentFreePage (page : PageAddr) : PageManagerM (Result Unit) := do
  let raw ← loadPage page
  modify fun self => { self with
    fileManager.header.dynamic.currentFreePage := raw.pageHeader.pageId
    currentFreePage := some page }
  onFileManager fileManagerWriteHeader

end Utils

section Pages

/-- `page_new` writes a header into the new block, so the block has to hold one. -/
def pageManagerAllocatePage (id : Int) : PageManagerM PageAddr := do
  let self ← get
  if pageManagerGetPageSize self < sizeofPageHeader then
    throw (.undefined "page header written behind the end of the page")
  set { self with
    allocatedPages := ⟨self.nextAddr, pageNew id (pageManagerGetPageSize self)⟩ :: self.allocatedPages
    allocatedPagesCount := toUInt32 ((self.allocatedPagesCount : Int) + 1)
    nextAddr := self.nextAddr + 1 }
  return self.nextAddr

def pageManagerFreePages : PageManagerM Unit :=
  modify fun self => { self with
    allocatedPages := []
    allocatedPagesCount := 0
    currentFreePage := none }

def writePageOnDisk (page : PageAddr) : PageManagerM (Result Unit) := do
  let raw ← loadPage page
  let offset := pageManagerGetPageOffset (← get) raw.pageHeader.pageId
  let res ← onFileManager (fileManagerWrite (encodePage raw) offset)
  return returnIfFail res "Failed to write page header to file"

/-- Unlike `write_page_on_disk`, this function keeps the offset in `uint32_t`. -/
def pageManagerWritePageOnDisk (page : PageAddr) : PageManagerM (Result Unit) := do
  let raw ← loadPage page
  let offset := toUInt32 (pageManagerGetPageOffset (← get) raw.pageHeader.pageId)
  let res ← onFileManager (fileManagerWrite (encodePage raw) offset)
  return returnIfFail res "Failed to write page on disk"

/-- The new page is handed out also when it could not be written. -/
def pageManagerPageNew : PageManagerM (Result Unit × PageAddr) := do
  let nextId := toInt32 (pageManagerGetLastPageId (← get) + 1)
  let page ← pageManagerAllocatePage nextId
  let oldPagesCount := pageManagerGetPagesCount (← get)
  match ← pageManagerSetPagesCount (toUInt32 ((oldPagesCount : Int) + 1)) with
  | .error _ => return (.error "Failed increment pages count", page)
  | .ok () =>
    let res ← pageManagerWritePageOnDisk page
    return (returnIfFail res "Failed to write new page to file", page)

def getPageFromRamLoop (pageId : Int) : List AllocatedPage → Nat → Except Fault (Result PageAddr)
  | _, 0 => .ok (.error "Page not found in ram")
  | [], _ + 1 => .error (.exit "Page in memory is null")
  | page :: pages, count + 1 =>
    if page.rawPage.pageHeader.pageId = pageId then
      .ok (.ok page.addr)
    else
      getPageFromRamLoop pageId pages count

def pageManagerGetPageFromRam (pageId : Int) : PageManagerM (Result PageAddr) := do
  let self ← get
  lift (getPageFromRamLoop pageId self.allocatedPages self.allocatedPagesCount)

def pageManagerReadPage (id : Int) : PageManagerM (Result PageAddr) := do
  let self ← get
  if toInt32 (pageManagerGetPagesCount self) ≤ id then
    throw (.exit "Page doesn't exist")
  match ← pageManagerGetPageFromRam id with
  | .ok page => return .ok page
  | .error _ =>
    let offset := pageManagerGetPageOffset self id
    let page ← pageManagerAllocatePage id
    let raw ← loadPage page
    let (res, bytes) ← onFileManager (fileManagerRead (encodePage raw) offset)
    storePage page (decodePage bytes)
    match res with
    | .error _ => return .error "[read_page] Failed to read page header from file"
    | .ok () => return .ok page

def pageManagerGetCurrentFreePage : PageManagerM PageAddr := do
  let self ← get
  match self.currentFreePage with
  | some page => return page
  | none =>
    let res ← pageManagerReadPage self.fileManager.header.dynamic.currentFreePage
    let page ← abortIfFail res "Failed to read current free page from disk"
    modify fun self => { self with currentFreePage := some page }
    return page

/-- What `page_manager_page_new` and `page_manager_set_current_free_page` report
is not looked at. -/
def pageManagerGetPageForData : PageManagerM PageAddr := do
  let currentFreePage ← pageManagerGetCurrentFreePage
  let raw ← loadPage currentFreePage
  if pageGetPayloadAvailableSpace raw < minimumDataPartSizeBytes then
    let (_, newPage) ← pageManagerPageNew
    let _ ← pageManagerSetCurrentFreePage newPage
    return newPage
  return currentFreePage

def pageManagerNew (file : FileState) : PageManager where
  fileManager := ⟨file, ⟨⟨0, 0⟩, ⟨0, 0, 0⟩⟩⟩
  allocatedPages := []
  allocatedPagesCount := 0
  currentFreePage := none
  nextAddr := 0

def pageManagerInit (pageSize : Nat) (fileSignature : Int) : PageManagerM (Result Unit) := do
  match ← onFileManager (fileManagerInit ⟨fileSignature, toUInt32 pageSize⟩) with
  | .error _ => return .error "Failed to read file header"
  | .ok () =>
    let self ← get
    let currentFreePage ← do
      if pageManagerGetPagesCount self = 0 then
        let (_, page) ← pageManagerPageNew
        pure (some page)
      else
        match ← pageManagerReadPage self.fileManager.header.dynamic.currentFreePage with
        | .ok page => pure (some page)
        | .error _ => pure none
    if currentFreePage = none then
      throw (.assertion "current_free_page != NULL")
    modify fun self => { self with currentFreePage := currentFreePage }
    return .ok ()

end Pages

end DocumentDb.Storage
