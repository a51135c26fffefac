import DocumentDb.Storage.ItemManagement

namespace DocumentDb.Storage

open Program

structure PageIterator where
  nextPageId : Int
  currentPage : Option PageAddr
  deriving DecidableEq, Repr

/-- `isReleased` records that the memory of the iterator has been given back. -/
structure ItemIterator where
  pageIterator : PageIterator
  currentItemIndex : Int
  isReleased : Bool
  deriving DecidableEq, Repr

section Pages

/-- The first page is read without looking at the outcome; a page that could
not be read leaves the iterator without a current page. -/
def pageIteratorNew : PageManagerM PageIterator := do
  if pageManagerGetPagesCount (← get) = 0 then
    throw (.assertion "page_manager_get_pages_count(self) > 0")
  let res ← pageManagerReadPage 0
  return { nextPageId := 1, currentPage := res.toOption }

def pageIteratorDestroy (_self : PageIterator) : PageManagerM Unit := pageManagerFreePages

def pageIteratorHasNext (self : PageIterator) : PageManagerM Bool := do
  let pagesCount := pageManagerGetPagesCount (← get)
  return decide (self.nextPageId < Bytes.toInt32 pagesCount)

def pageIteratorNext (self : PageIterator) : PageManagerM (Result Unit × PageIterator) := do
  if (← pageIteratorHasNext self) = false then
    throw (.exit "No more pages in iterator")
  pageManagerFreePages
  match ← pageManagerReadPage self.nextPageId with
  | .error _ => return (.error "Failed to get page by id", self)
  | .ok page => return (.ok (), { nextPageId := self.nextPageId + 1, currentPage := some page })

end Pages

section Items

def itemIteratorNew : PageManagerM ItemIterator := do
  let pageIterator ← pageIteratorNew
  return { pageIterator := pageIterator, currentItemIndex := -1, isReleased := false }

def itemIteratorDestroy (self : ItemIterator) : PageManagerM ItemIterator := do
  if self.isReleased then
    throw (.undefined "item iterator released twice")
  pageIteratorDestroy self.pageIterator
  return { self with isReleased := true }

/-- The loop of `item_iterator_has_next` over the following pages. -/
def hasNextLoop : Nat → ItemIterator → PageManagerM (Bool × ItemIterator)
  | 0, _ => throw .diverges
  | fuel + 1, self => do
    if (← pageIteratorHasNext self.pageIterator) = false then
      return (false, self)
    let (res, pageIterator) ← pageIteratorNext self.pageIterator
    abortIfFail res "Failed to get next page"
    let self := { self with pageIterator := pageIterator }
    match pageIterator.currentPage with
    | none => throw (.undefined "null page")
    | some page =>
      let raw ← loadPage page
      if 0 < raw.pageHeader.itemsCount then
        return (true, { self with currentItemIndex := -1 })
      hasNextLoop fuel self

/-- Every round of the loop moves to the next page, so there are at most as many
as pages. -/
def itemIteratorHasNext (self : ItemIterator) : PageManagerM (Bool × ItemIterator) := do
  if self.isReleased then
    throw (.undefined "item iterator used after it was released")
  match self.pageIterator.currentPage with
  | none => return (false, self)
  | some page =>
    let raw ← loadPage page
    if self.currentItemIndex + 1 < raw.pageHeader.nextItemId.itemId then
      return (true, self)
    hasNextLoop (pageManagerGetPagesCount (← get) + 1) self

/-- The function returns `OK` or does not return: the functions it calls exit
when they fail. -/
def itemIteratorNext (self : ItemIterator) : PageManagerM (Item × ItemIterator) := do
  let (hasNext, self) ← itemIteratorHasNext self
  if hasNext = false then
    throw (.exit "No more items in iterator")
  match self.pageIterator.currentPage with
  | none => throw (.undefined "null page")
  | some page =>
    let raw ← loadPage page
    let newItemIndex := self.currentItemIndex + 1
    let self := { self with currentItemIndex := newItemIndex }
    let newItem : ItemIndex := ⟨raw.pageHeader.pageId, newItemIndex⟩
    if raw.pageHeader.nextItemId.itemId < newItem.itemId then
      throw (.exit "It should not be possible because has_next sets current_page or returns false")
    let payloadSize ← pageManagerCalculateLargeItemSize page newItem
    let item ← pageManagerGetItem page newItem
    if item.payload.length ≠ payloadSize then
      throw (.assertion "result->payload.size == payload_size")
    return (item, self)

def pageManagerGetItems : PageManagerM ItemIterator := itemIteratorNew

variable {γ : Type}

/-- The loops `while (item_iterator_has_next(it)) { item_iterator_next(it, &item); ... }`.
The body works on an accumulator and says whether the loop is left early. -/
def whileItemsLoop (body : γ → Item → Except Fault (ForInStep γ)) :
    Nat → γ → ItemIterator → PageManagerM (γ × ItemIterator)
  | 0, _, _ => throw .diverges
  | fuel + 1, acc, it => do
    let (hasNext, it) ← itemIteratorHasNext it
    if hasNext = false then
      return (acc, it)
    let (item, it) ← itemIteratorNext it
    match ← lift (body acc item) with
    | .done acc => return (acc, it)
    | .yield acc => whileItemsLoop body fuel acc it

/-- No page has more items than bytes. -/
def whileItems (body : γ → Item → Except Fault (ForInStep γ)) (acc : γ) (it : ItemIterator) :
    PageManagerM (γ × ItemIterator) := do
  let self ← get
  whileItemsLoop body (pageManagerGetPagesCount self * pageManagerGetPageSize self + 1) acc it

def scanItems (body : γ → Item → Except Fault (ForInStep γ)) (acc : γ) : PageManagerM (γ × ItemIterator) := do
  let it ← pageManagerGetItems
  whileItems body acc it

/-- The body of a loop that is left at the first item with an answer. -/
def search {β : Type} (p : Item → Except Fault (Option β)) (_ : Option β) (item : Item) :
    Except Fault (ForInStep (Option β)) := do
  match ← p item with
  | some b => return .done (some b)
  | none => return .yield none

def each (f : γ → Item → Except Fault γ) (acc : γ) (item : Item) : Except Fault (ForInStep γ) := do
  return .yield (← f acc item)

end Items

end DocumentDb.Storage
