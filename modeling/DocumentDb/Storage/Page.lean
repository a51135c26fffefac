import DocumentDb.Lib.Bytes
import DocumentDb.Util.Result

namespace DocumentDb.Storage

open Bytes

structure ItemIndex where
  pageId : Int
  itemId : Int
  deriving DecidableEq, Repr

def nullPageIndex : Int := -1

structure PageHeader where
  pageId : Int
  pageSize : Nat
  nextItemId : ItemIndex
  itemsCount : Nat
  freeSpaceStartOffset : Nat
  freeSpaceEndOffset : Nat
  deriving DecidableEq, Repr

/-- The header and the flexible array behind it. `sizeof(PageHeader)` bytes of
the page belong to the header, so the array is that much shorter than the page. -/
structure Page where
  pageHeader : PageHeader
  pagePayload : List UInt8
  deriving DecidableEq, Repr

structure ItemMetadata where
  itemId : ItemIndex
  dataOffset : Nat
  size : Nat
  isDeleted : Bool
  continuesOnPage : Int
  deriving DecidableEq, Repr

abbrev ItemPayload := List UInt8

structure Item where
  id : ItemIndex
  isDeleted : Bool
  payload : ItemPayload
  deriving DecidableEq, Repr

structure ItemWriteStatus where
  complete : Bool
  bytesWritten : Nat
  deriving DecidableEq, Repr

structure ItemAddResult where
  metadataOffsetInPage : Nat
  metadata : ItemMetadata
  writeStatus : ItemWriteStatus
  deriving DecidableEq, Repr

def sizeofPageHeader : Nat := 28

def sizeofItemMetadata : Nat := 21

section Memory

def encodeItemIndex (self : ItemIndex) : List UInt8 :=
  encodeInt32 self.pageId ++ encodeInt32 self.itemId

def encodePageHeader (self : PageHeader) : List UInt8 :=
  encodeInt32 self.pageId ++ (encodeUInt32 self.pageSize ++ (encodeItemIndex self.nextItemId ++
    (encodeUInt32 self.itemsCount ++
      (encodeUInt32 self.freeSpaceStartOffset ++ encodeUInt32 self.freeSpaceEndOffset))))

def decodePageHeader (bs : List UInt8) : PageHeader where
  pageId := decodeInt32 (slice bs 0 4)
  pageSize := decodeLE (slice bs 4 4)
  nextItemId := ⟨decodeInt32 (slice bs 8 4), decodeInt32 (slice bs 12 4)⟩
  itemsCount := decodeLE (slice bs 16 4)
  freeSpaceStartOffset := decodeLE (slice bs 20 4)
  freeSpaceEndOffset := decodeLE (slice bs 24 4)

def encodePage (self : Page) : List UInt8 :=
  encodePageHeader self.pageHeader ++ self.pagePayload

def decodePage (bs : List UInt8) : Page where
  pageHeader := decodePageHeader (bs.take sizeofPageHeader)
  pagePayload := bs.drop sizeofPageHeader

def encodeItemMetadata (self : ItemMetadata) : List UInt8 :=
  encodeItemIndex self.itemId ++ (encodeUInt32 self.dataOffset ++ (encodeUInt32 self.size ++
    ((if self.isDeleted then 1 else 0) :: encodeInt32 self.continuesOnPage)))

def decodeItemMetadata (bs : List UInt8) : ItemMetadata where
  itemId := ⟨decodeInt32 (slice bs 0 4), decodeInt32 (slice bs 4 4)⟩
  dataOffset := decodeLE (slice bs 8 4)
  size := decodeLE (slice bs 12 4)
  isDeleted := slice bs 16 1 != [0]
  continuesOnPage := decodeInt32 (slice bs 17 4)

end Memory

section Util

def pageGetFreeSpaceLeft (self : Page) : Nat :=
  toUInt32 ((self.pageHeader.freeSpaceEndOffset : Int) - self.pageHeader.freeSpaceStartOffset)

/-- The difference is taken in `int32_t` too. -/
def pageGetPayloadAvailableSpace (self : Page) : Int :=
  max (toInt32 (toInt32 (pageGetFreeSpaceLeft self) - sizeofItemMetadata)) 0

def pageCanFitPayload (self : Page) (payloadSize : Nat) : Bool :=
  decide (toInt32 payloadSize ≤ pageGetPayloadAvailableSpace self)

def pageCanFitAnyPayload (self : Page) : Bool :=
  decide (0 < pageGetPayloadAvailableSpace self)

/-- The offset in `page_payload` that `get_metadata` computes in `uint32_t`. -/
def metadataOffset (itemId : Int) : Nat := toUInt32 (sizeofItemMetadata * itemId)

def getMetadata (self : Page) (itemId : ItemIndex) : Except Fault ItemMetadata :=
  if itemId.itemId < 0 then
    .error (.assertion "item_id.item_id >= 0")
  else if self.pagePayload.length < metadataOffset itemId.itemId + sizeofItemMetadata then
    .error (.undefined "item metadata outside the page")
  else
    .ok (decodeItemMetadata
      (slice self.pagePayload (metadataOffset itemId.itemId) sizeofItemMetadata))

/-- Write through the pointer that `get_metadata` returns. -/
def setMetadata (self : Page) (itemId : ItemIndex) (metadata : ItemMetadata) : Except Fault Page :=
  if itemId.itemId < 0 then
    .error (.assertion "item_id.item_id >= 0")
  else if self.pagePayload.length < metadataOffset itemId.itemId + sizeofItemMetadata then
    .error (.undefined "item metadata outside the page")
  else
    .ok { self with
      pagePayload := patch self.pagePayload (metadataOffset itemId.itemId)
        (encodeItemMetadata metadata) }

def pageGetItemContinuation (self : Page) (item : Item) : Except Fault Int := do
  let metadata ← getMetadata self item.id
  return metadata.continuesOnPage

/-- Where `get_item_data_addr` points, counted from the start of `page_payload`.
An item that would lie over the header or behind the page is out of bounds. -/
def getItemDataAddr (self : Page) (dataOffset size : Nat) : Except Fault Nat :=
  if sizeofPageHeader ≤ dataOffset ∧ dataOffset + size ≤ sizeofPageHeader + self.pagePayload.length then
    .ok (dataOffset - sizeofPageHeader)
  else
    .error (.undefined "item data outside the page payload")

def createItem (payload : ItemPayload) (itemId : ItemIndex) : Item where
  isDeleted := false
  id := itemId
  payload := payload

end Util

section Operations

def pageNew (pageId : Int) (pageSize : Nat) : Page where
  pageHeader := {
    pageId := pageId
    itemsCount := 0
    nextItemId := ⟨0, 0⟩
    freeSpaceStartOffset := sizeofPageHeader
    freeSpaceEndOffset := pageSize
    pageSize := pageSize }
  pagePayload := List.replicate (pageSize - sizeofPageHeader) 0

def pageGetItem (self : Page) (itemId : ItemIndex) : Except Fault (Result Item) := do
  if self.pageHeader.nextItemId.itemId ≤ itemId.itemId then
    return .error "Item id is out of range"
  let metadata ← getMetadata self itemId
  if metadata.isDeleted then
    throw (.assertion "metadata->is_deleted == false")
  let addr ← getItemDataAddr self metadata.dataOffset metadata.size
  return .ok (createItem (slice self.pagePayload addr metadata.size) itemId)

def pagePutItemMetadataInPage (self : Page) (source : ItemMetadata) : Except Fault Page :=
  setMetadata self source.itemId source

def pagePutItemDataInPage (self : Page) (payload : ItemPayload) (dataOffset : Nat) :
    Except Fault Page := do
  let addr ← getItemDataAddr self dataOffset payload.length
  return { self with pagePayload := patch self.pagePayload addr payload }

def pageAddItemUpdateHeader (self : Page) (payload : ItemPayload) (continuesOnPage : Int) :
    Except Fault (Page × ItemAddResult) := do
  let header := self.pageHeader
  let dataOffset := toUInt32 ((header.freeSpaceEndOffset : Int) - payload.length)
  let itemId : ItemIndex := { header.nextItemId with pageId := header.pageId }
  let metadata : ItemMetadata := {
    itemId := itemId
    dataOffset := dataOffset
    size := payload.length
    isDeleted := false
    continuesOnPage := continuesOnPage }
  let itemAddResult : ItemAddResult := {
    metadataOffsetInPage := header.freeSpaceStartOffset
    metadata := metadata
    writeStatus := ⟨continuesOnPage == nullPageIndex, payload.length⟩ }
  let self := { self with
    pageHeader := { header with
      freeSpaceStartOffset := toUInt32 ((header.freeSpaceStartOffset : Int) + sizeofItemMetadata)
      freeSpaceEndOffset := dataOffset
      nextItemId := ⟨header.pageId, toInt32 (header.nextItemId.itemId + 1)⟩
      itemsCount := toUInt32 ((header.itemsCount : Int) + 1) } }
  let self ← pagePutItemMetadataInPage self metadata
  let self ← pagePutItemDataInPage self payload dataOffset
  return (self, itemAddResult)

def pageAddItem (self : Page) (payload : ItemPayload) (continuesOnPage : Int) :
    Except Fault (Page × ItemAddResult) :=
  if pageGetPayloadAvailableSpace self < toInt32 payload.length then
    .error (.exit "Can't add item to this page. Not enough space for metadata")
  else
    pageAddItemUpdateHeader self payload continuesOnPage

def pageDeleteItem (self : Page) (item : Item) : Except Fault (Page × Item) := do
  let header := self.pageHeader
  if item.isDeleted then
    throw (.assertion "!item->is_deleted")
  if header.nextItemId.itemId ≤ item.id.itemId then
    throw (.assertion "item->id.item_id < self->page_header.next_item_id.item_id")
  if header.itemsCount = 0 then
    throw (.assertion "self->page_header.items_count > 0")
  let metadata ← getMetadata self item.id
  let self ← setMetadata self item.id { metadata with isDeleted := true }
  let header := { header with itemsCount := header.itemsCount - 1 }
  let item := { item with isDeleted := true }
  -- The room of the last item is given back; an inner item is only marked.
  if item.id.itemId = header.nextItemId.itemId - 1 then
    let header := { header with
      freeSpaceStartOffset := toUInt32 ((header.freeSpaceStartOffset : Int) - sizeofItemMetadata)
      freeSpaceEndOffset := toUInt32 ((header.freeSpaceEndOffset : Int) + metadata.size)
      nextItemId := { header.nextItemId with itemId := header.nextItemId.itemId - 1 } }
    return ({ self with pageHeader := header }, item)
  return ({ self with pageHeader := header }, item)

end Operations

end DocumentDb.Storage
