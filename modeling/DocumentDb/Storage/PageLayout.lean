import DocumentDb.Storage.PageCodec

namespace DocumentDb.Storage

open Bytes

/-- What a slot of a page holds, with the mark an inner item gets when it is deleted. -/
structure Slot where
  data : List UInt8
  deleted : Bool
  deriving DecidableEq, Repr

/-- The number of bytes the items of some slots take, deleted ones included. -/
def dataSize (slots : List Slot) : Nat := (slots.map fun slot => slot.data.length).sum

def liveCount (slots : List Slot) : Nat := slots.countP fun slot => !slot.deleted

def usedSpace (slots : List Slot) : Nat :=
  sizeofPageHeader + sizeofItemMetadata * slots.length + dataSize slots

/-- Data lies in the reverse order of the slots, from the end of the page. -/
def dataOffset (pageSize : Nat) (slots : List Slot) (i : Nat) : Nat :=
  pageSize - dataSize (slots.take (i + 1))

def slotMetadata (pageSize : Nat) (pageId : Int) (slots : List Slot) (i : Nat) (slot : Slot) :
    ItemMetadata where
  itemId := ⟨pageId, i⟩
  dataOffset := dataOffset pageSize slots i
  size := slot.data.length
  isDeleted := slot.deleted
  continuesOnPage := nullPageIndex

/-- The page is laid out for exactly these slots: the metadata grows up from the
header, the data grows down from the end of the page. -/
structure HasSlots (size : Nat) (id : Int) (slots : List Slot) (page : Page) : Prop where
  pageId : page.pageHeader.pageId = id
  pageSize : page.pageHeader.pageSize = size
  nextItemId : page.pageHeader.nextItemId.itemId = slots.length
  nextPageId : IsInt32 page.pageHeader.nextItemId.pageId
  itemsCount : page.pageHeader.itemsCount < 2 ^ 32
  freeSpaceStart : page.pageHeader.freeSpaceStartOffset =
    sizeofPageHeader + sizeofItemMetadata * slots.length
  freeSpaceEnd : page.pageHeader.freeSpaceEndOffset + dataSize slots = size
  room : usedSpace slots ≤ size
  payload : page.pagePayload.length + sizeofPageHeader = size
  metadata : ∀ i slot, slots[i]? = some slot →
    slice page.pagePayload (sizeofItemMetadata * i) sizeofItemMetadata =
      encodeItemMetadata (slotMetadata size id slots i slot)
  data : ∀ i slot, slots[i]? = some slot →
    slice page.pagePayload (dataOffset size slots i - sizeofPageHeader) slot.data.length = slot.data

def Counted (slots : List Slot) (page : Page) : Prop :=
  page.pageHeader.itemsCount = liveCount slots

section Sizes

@[simp] theorem dataSize_nil : dataSize [] = 0 := rfl

@[simp] theorem dataSize_append (xs ys : List Slot) : dataSize (xs ++ ys) = dataSize xs + dataSize ys := by
  simp [dataSize]

@[simp] theorem dataSize_singleton (slot : Slot) : dataSize [slot] = slot.data.length := by
  simp [dataSize]

@[simp] theorem liveCount_nil : liveCount [] = 0 := rfl

@[simp] theorem liveCount_append (xs ys : List Slot) : liveCount (xs ++ ys) = liveCount xs + liveCount ys := by
  simp [liveCount]

theorem take_succ_of_getElem? {α : Type} {xs : List α} {i : Nat} {x : α} (h : xs[i]? = some x) :
    xs.take (i + 1) = xs.take i ++ [x] := by
  rw [List.take_add_one, h]; rfl

theorem dataSize_take_succ {slots : List Slot} {i : Nat} {slot : Slot} (h : slots[i]? = some slot) :
    dataSize (slots.take (i + 1)) = dataSize (slots.take i) + slot.data.length := by
  rw [take_succ_of_getElem? h, dataSize_append, dataSize_singleton]

theorem dataSize_take_le (slots : List Slot) (i : Nat) : dataSize (slots.take i) ≤ dataSize slots := by
  conv_rhs => rw [← List.take_append_drop i slots, dataSize_append]
  omega

theorem lt_length_of_getElem? {α : Type} {xs : List α} {i : Nat} {x : α} (h : xs[i]? = some x) :
    i < xs.length := by
  obtain ⟨hi, _⟩ := List.getElem?_eq_some_iff.mp h
  exact hi

theorem concat_cases {α : Type} {xs : List α} {i : Nat} {x y : α} (h : (xs ++ [x])[i]? = some y) :
    xs[i]? = some y ∨ (i = xs.length ∧ y = x) := by
  rw [List.getElem?_append] at h
  split at h
  · exact .inl h
  · obtain ⟨hi, rfl⟩ := List.getElem?_eq_some_iff.mp h
    rw [List.length_singleton] at hi
    exact .inr ⟨by omega, List.getElem_singleton _⟩

theorem dataOffset_append {slots : List Slot} {i : Nat} (pageSize : Nat) (tail : List Slot)
    (h : i < slots.length) : dataOffset pageSize (slots ++ tail) i = dataOffset pageSize slots i := by
  rw [dataOffset, dataOffset, List.take_append_of_le_length (by omega)]

theorem dataOffset_last (pageSize : Nat) (slots : List Slot) (slot : Slot) :
    dataOffset pageSize (slots ++ [slot]) slots.length =
      pageSize - (dataSize slots + slot.data.length) := by
  rw [dataOffset, List.take_of_length_le (by simp), dataSize_append, dataSize_singleton]

theorem slotMetadata_append {slots : List Slot} {i : Nat} (pageSize : Nat) (pageId : Int)
    (tail : List Slot) (slot : Slot) (h : i < slots.length) :
    slotMetadata pageSize pageId (slots ++ tail) i slot =
      slotMetadata pageSize pageId slots i slot := by
  rw [slotMetadata, dataOffset_append pageSize tail h]; rfl

end Sizes

section Reading

variable {pageSize : Nat} {pageId : Int} {slots : List Slot} {page : Page}

theorem HasSlots.index_lt (h : HasSlots pageSize pageId slots page) {i : Nat}
    (hi : i ≤ slots.length) : sizeofItemMetadata * i + sizeofPageHeader ≤ pageSize := by
  have hr := h.room
  rw [usedSpace] at hr
  have hm : sizeofItemMetadata * i ≤ sizeofItemMetadata * slots.length := Nat.mul_le_mul_left _ hi
  omega

theorem metadataOffset_natCast {i : Nat} (h : sizeofItemMetadata * i < 2 ^ 32) :
    metadataOffset i = sizeofItemMetadata * i := by
  unfold metadataOffset toUInt32
  rw [sizeofItemMetadata] at h ⊢
  omega

theorem HasSlots.length_lt (h : HasSlots pageSize pageId slots page) (hp : pageSize < 2 ^ 32) :
    slots.length < 2 ^ 31 := by
  have hx := h.index_lt le_rfl
  rw [sizeofItemMetadata] at hx
  omega

theorem HasSlots.inRange (h : HasSlots pageSize pageId slots page) (hp : pageSize < 2 ^ 32)
    (hid : IsInt32 pageId) : page.pageHeader.InRange := by
  have hr := h.room
  have he := h.freeSpaceEnd
  have hs := h.freeSpaceStart
  rw [usedSpace] at hr
  constructor
  case pageId => rwa [h.pageId]
  case pageSize => rwa [h.pageSize]
  case nextPageId => exact h.nextPageId
  case nextItemId =>
    rw [h.nextItemId]
    exact isInt32_natCast (h.length_lt hp)
  case itemsCount => exact h.itemsCount
  case freeSpaceStart => omega
  case freeSpaceEnd => omega

theorem isInt32_nullPageIndex : IsInt32 nullPageIndex := ⟨by decide, by decide⟩

theorem HasSlots.metadata_inRange (h : HasSlots pageSize pageId slots page)
    (hp : pageSize < 2 ^ 32) (hid : IsInt32 pageId) {i : Nat} {slot : Slot}
    (hs : slots[i]? = some slot) : (slotMetadata pageSize pageId slots i slot).InRange := by
  have hi := lt_length_of_getElem? hs
  have hx := h.index_lt hi.le
  have hd := dataSize_take_le slots (i + 1)
  rw [dataSize_take_succ hs] at hd
  have he := h.freeSpaceEnd
  refine ⟨hid, isInt32_natCast ?_, ?_, ?_, isInt32_nullPageIndex⟩
  · rw [sizeofItemMetadata] at hx; omega
  · show pageSize - _ < _
    omega
  · show slot.data.length < _
    omega

theorem HasSlots.metadata_fits (h : HasSlots pageSize pageId slots page) {i : Nat}
    (hi : i < slots.length) :
    sizeofItemMetadata * i + sizeofItemMetadata ≤ page.pagePayload.length := by
  have hx := h.index_lt (show i + 1 ≤ slots.length from hi)
  have hl := h.payload
  rw [Nat.mul_add, Nat.mul_one] at hx
  omega

theorem HasSlots.data_fits (h : HasSlots pageSize pageId slots page) {i : Nat} {slot : Slot}
    (hs : slots[i]? = some slot) :
    page.pageHeader.freeSpaceEndOffset ≤ dataOffset pageSize slots i ∧
      dataOffset pageSize slots i + slot.data.length ≤ pageSize := by
  have hd := dataSize_take_le slots (i + 1)
  have hs' := dataSize_take_succ hs
  have he := h.freeSpaceEnd
  rw [dataOffset]
  omega

theorem HasSlots.getMetadata_eq (h : HasSlots pageSize pageId slots page) (hp : pageSize < 2 ^ 32)
    (hid : IsInt32 pageId) {i : Nat} {slot : Slot} (hs : slots[i]? = some slot) (onPage : Int) :
    getMetadata page ⟨onPage, i⟩ = .ok (slotMetadata pageSize pageId slots i slot) := by
  have hi := lt_length_of_getElem? hs
  have hm := h.metadata_fits hi
  have hl := h.payload
  have ho : metadataOffset i = sizeofItemMetadata * i := metadataOffset_natCast (by omega)
  rw [getMetadata]
  rw [if_neg (by simp), ho, if_neg (by omega), h.metadata i slot hs,
    decodeItemMetadata_encode (h.metadata_inRange hp hid hs)]

theorem HasSlots.continuation_eq (h : HasSlots pageSize pageId slots page)
    (hp : pageSize < 2 ^ 32) (hid : IsInt32 pageId) {item : Item} {i : Nat} {slot : Slot}
    (hs : slots[i]? = some slot) (hitem : item.id.itemId = i) :
    pageGetItemContinuation page item = .ok nullPageIndex := by
  have hg := h.getMetadata_eq hp hid hs item.id.pageId
  rw [← hitem] at hg
  rw [pageGetItemContinuation]
  rw [hg]
  rfl

theorem HasSlots.getItem_live (h : HasSlots pageSize pageId slots page) (hp : pageSize < 2 ^ 32)
    (hid : IsInt32 pageId) {i : Nat} {slot : Slot} (hs : slots[i]? = some slot)
    (hlive : slot.deleted = false) (onPage : Int) :
    pageGetItem page ⟨onPage, i⟩ = .ok (.ok (createItem slot.data ⟨onPage, i⟩)) := by
  have hi := lt_length_of_getElem? hs
  have hn := h.nextItemId
  obtain ⟨hlow, hhigh⟩ := h.data_fits hs
  have hstart := h.room
  have hend := h.freeSpaceEnd
  have hl := h.payload
  rw [usedSpace] at hstart
  have haddr : getItemDataAddr page (dataOffset pageSize slots i) slot.data.length =
      .ok (dataOffset pageSize slots i - sizeofPageHeader) := by
    rw [getItemDataAddr]
    rw [if_pos ⟨by omega, by omega⟩]
  rw [pageGetItem]
  rw [if_neg (by simp only; omega), h.getMetadata_eq hp hid hs]
  simp only [slotMetadata, bind, Except.bind, hlive, pure, Except.pure]
  simp only [haddr, h.data i slot hs, Bool.false_eq_true, if_false]

theorem HasSlots.getItem_deleted (h : HasSlots pageSize pageId slots page) (hp : pageSize < 2 ^ 32)
    (hid : IsInt32 pageId) {i : Nat} {slot : Slot} (hs : slots[i]? = some slot)
    (hdeleted : slot.deleted = true) (onPage : Int) :
    pageGetItem page ⟨onPage, i⟩ = .error (.assertion "metadata->is_deleted == false") := by
  have hi := lt_length_of_getElem? hs
  have hn := h.nextItemId
  rw [pageGetItem]
  rw [if_neg (by simp only; omega), h.getMetadata_eq hp hid hs]
  simp only [slotMetadata, bind, Except.bind, hdeleted, if_true]
  rfl

end Reading

section Writing

variable {pageSize : Nat} {pageId : Int} {slots : List Slot} {page : Page}

theorem setMetadata_eq {bytes : List UInt8} {i : Nat} (hl : bytes.length < 2 ^ 32)
    (hi : sizeofItemMetadata * i + sizeofItemMetadata ≤ bytes.length)
    (header : PageHeader) (onPage : Int) (metadata : ItemMetadata) :
    setMetadata ⟨header, bytes⟩ ⟨onPage, i⟩ metadata =
      .ok ⟨header, patch bytes (sizeofItemMetadata * i) (encodeItemMetadata metadata)⟩ := by
  have ho : metadataOffset i = sizeofItemMetadata * i := metadataOffset_natCast (by omega)
  rw [setMetadata]
  rw [if_neg (by simp), ho, if_neg (by simp only; omega)]

theorem putItemData_eq {bytes : List UInt8} {payload : ItemPayload} {offset : Nat}
    (hlow : sizeofPageHeader ≤ offset)
    (hhigh : offset + payload.length ≤ sizeofPageHeader + bytes.length) (header : PageHeader) :
    pagePutItemDataInPage ⟨header, bytes⟩ payload offset =
      .ok ⟨header, patch bytes (offset - sizeofPageHeader) payload⟩ := by
  rw [pagePutItemDataInPage, getItemDataAddr]
  rw [if_pos ⟨hlow, hhigh⟩]
  rfl

def Fits (pageSize : Nat) (slots : List Slot) (size : Nat) : Prop :=
  usedSpace slots + sizeofItemMetadata + size ≤ pageSize

instance (pageSize : Nat) (slots : List Slot) (size : Nat) : Decidable (Fits pageSize slots size) :=
  inferInstanceAs (Decidable (_ ≤ _))

def addedMetadata (pageSize : Nat) (pageId : Int) (slots : List Slot) (payload : ItemPayload) :
    ItemMetadata :=
  slotMetadata pageSize pageId (slots ++ [⟨payload, false⟩]) slots.length ⟨payload, false⟩

def addedPayload (pageSize : Nat) (pageId : Int) (slots : List Slot) (payload : ItemPayload)
    (bs : List UInt8) : List UInt8 :=
  patch (patch bs (sizeofItemMetadata * slots.length)
      (encodeItemMetadata (addedMetadata pageSize pageId slots payload)))
    (dataOffset pageSize (slots ++ [⟨payload, false⟩]) slots.length - sizeofPageHeader) payload

def addedPage (pageSize : Nat) (pageId : Int) (slots : List Slot) (payload : ItemPayload)
    (page : Page) : Page where
  pageHeader := {
    pageId := pageId
    pageSize := pageSize
    nextItemId := ⟨pageId, slots.length + 1⟩
    itemsCount := toUInt32 ((page.pageHeader.itemsCount : Int) + 1)
    freeSpaceStartOffset := sizeofPageHeader + sizeofItemMetadata * (slots.length + 1)
    freeSpaceEndOffset := dataOffset pageSize (slots ++ [⟨payload, false⟩]) slots.length }
  pagePayload := addedPayload pageSize pageId slots payload page.pagePayload

theorem HasSlots.addItem_eq (h : HasSlots pageSize pageId slots page) (hp : pageSize < 2 ^ 32)
    {payload : ItemPayload} (hfit : Fits pageSize slots payload.length) :
    pageAddItemUpdateHeader page payload nullPageIndex = .ok
      (addedPage pageSize pageId slots payload page,
        { metadataOffsetInPage := sizeofPageHeader + sizeofItemMetadata * slots.length
          metadata := addedMetadata pageSize pageId slots payload
          writeStatus := ⟨true, payload.length⟩ }) := by
  have hl := h.payload
  have he := h.freeSpaceEnd
  have hdata : payload.length ≤ page.pageHeader.freeSpaceEndOffset ∧
      page.pageHeader.freeSpaceEndOffset < 2 ^ 32 := by
    rw [Fits, usedSpace] at hfit; omega
  have hlen : sizeofPageHeader + sizeofItemMetadata * slots.length + sizeofItemMetadata < 2 ^ 32 ∧
      slots.length + 1 < 2 ^ 31 := by
    rw [Fits, usedSpace] at hfit
    rw [sizeofPageHeader, sizeofItemMetadata] at hfit ⊢
    omega
  have hmetadata : sizeofItemMetadata * slots.length + sizeofItemMetadata ≤ page.pagePayload.length := by
    rw [Fits, usedSpace] at hfit; omega
  have hlow : sizeofPageHeader ≤ page.pageHeader.freeSpaceEndOffset - payload.length := by
    rw [Fits, usedSpace] at hfit; omega
  have hhigh : page.pageHeader.freeSpaceEndOffset - payload.length + payload.length ≤
      sizeofPageHeader + page.pagePayload.length := by omega
  have hoffset : dataOffset pageSize (slots ++ [⟨payload, false⟩]) slots.length =
      page.pageHeader.freeSpaceEndOffset - payload.length := by
    rw [dataOffset_last]; simp only; omega
  have hmeta : addedMetadata pageSize pageId slots payload =
      ⟨⟨pageId, slots.length⟩, page.pageHeader.freeSpaceEndOffset - payload.length, payload.length,
        false, nullPageIndex⟩ := by
    rw [addedMetadata, slotMetadata, hoffset]
  have hsum : sizeofPageHeader + sizeofItemMetadata * slots.length + sizeofItemMetadata =
      sizeofPageHeader + sizeofItemMetadata * (slots.length + 1) := by
    rw [Nat.mul_add, Nat.mul_one, Nat.add_assoc]
  rw [pageAddItemUpdateHeader, pagePutItemMetadataInPage]
  simp only [h.pageId, h.nextItemId, h.freeSpaceStart, h.pageSize, toInt32_succ hlen.2,
    toUInt32_sub hdata.1 hdata.2, toUInt32_add hlen.1]
  rw [setMetadata_eq (show page.pagePayload.length < _ by omega) hmetadata]
  simp only [bind, Except.bind]
  rw [putItemData_eq hlow (by rwa [length_patch_of_le (by rwa [length_encodeItemMetadata])])]
  simp only [pure, Except.pure, addedPage, addedPayload, hoffset, hmeta, hsum, beq_self_eq_true]

theorem HasSlots.addedPage (h : HasSlots pageSize pageId slots page) (hid : IsInt32 pageId)
    {payload : ItemPayload} (hfit : Fits pageSize slots payload.length) :
    HasSlots pageSize pageId (slots ++ [⟨payload, false⟩])
      (addedPage pageSize pageId slots payload page) := by
  have hl := h.payload
  have he := h.freeSpaceEnd
  have hfit' := hfit
  rw [Fits, usedSpace] at hfit'
  have hlen : (encodeItemMetadata (addedMetadata pageSize pageId slots payload)).length =
      sizeofItemMetadata := length_encodeItemMetadata _
  have hoffset := dataOffset_last pageSize slots ⟨payload, false⟩
  simp only at hoffset
  -- the metadata ends before the data of the new item, and the older data lies behind it
  have hmid : sizeofItemMetadata * slots.length + sizeofItemMetadata ≤
      dataOffset pageSize (slots ++ [⟨payload, false⟩]) slots.length - sizeofPageHeader := by omega
  have hpatch : (patch page.pagePayload (sizeofItemMetadata * slots.length)
      (encodeItemMetadata (addedMetadata pageSize pageId slots payload))).length =
        page.pagePayload.length := length_patch_of_le (by omega)
  have hindex (i : Nat) (hi : i < slots.length) :
      sizeofItemMetadata * i + sizeofItemMetadata ≤ sizeofItemMetadata * slots.length := by
    rw [← Nat.mul_succ]
    exact Nat.mul_le_mul_left _ hi
  constructor
  case pageId => rfl
  case pageSize => rfl
  case nextItemId => simp [Storage.addedPage]
  case nextPageId => exact hid
  case itemsCount => exact toUInt32_lt _
  case freeSpaceStart => simp [Storage.addedPage]
  case freeSpaceEnd =>
    simp only [Storage.addedPage, hoffset, dataSize_append, dataSize_singleton]
    omega
  case room =>
    simp only [usedSpace, List.length_append, List.length_singleton, dataSize_append,
      dataSize_singleton, Nat.mul_add, Nat.mul_one]
    omega
  case payload =>
    simp only [Storage.addedPage, addedPayload]
    rw [length_patch_of_le (by omega)]
    omega
  case metadata =>
    intro i slot hs
    simp only [Storage.addedPage, addedPayload]
    rcases concat_cases hs with hs | ⟨rfl, rfl⟩
    · have hi := lt_length_of_getElem? hs
      have hx := hindex i hi
      rw [slice_patch_before _ _ (by omega) (by omega), slice_patch_before _ _ (by omega) (by omega),
        h.metadata i slot hs, slotMetadata_append _ _ _ _ hi]
    · rw [slice_patch_before _ _ (by omega) (by omega)]
      conv_lhs => arg 3; rw [← hlen]
      exact slice_patch_same _ _ _
  case data =>
    intro i slot hs
    simp only [Storage.addedPage, addedPayload]
    rcases concat_cases hs with hs | ⟨rfl, rfl⟩
    · obtain ⟨hlow, _⟩ := h.data_fits hs
      rw [dataOffset_append _ _ (lt_length_of_getElem? hs), slice_patch_after _ _ (by omega),
        slice_patch_after _ _ (by omega), h.data i slot hs]
    · exact slice_patch_same _ _ _

theorem HasSlots.addedPage_counted (h : HasSlots pageSize pageId slots page)
    (hp : pageSize < 2 ^ 32) (hc : Counted slots page) (payload : ItemPayload) :
    Counted (slots ++ [⟨payload, false⟩]) (Storage.addedPage pageSize pageId slots payload page) := by
  have hle : liveCount slots ≤ slots.length := List.countP_le_length
  have hlen := h.length_lt hp
  rw [Counted] at hc ⊢
  simp only [Storage.addedPage, hc]
  rw [toUInt32_succ (by omega), liveCount_append]
  rfl

/-- A page with more free bytes than an `int32_t` and the metadata can hold reports no room
at all: the amount is taken for a negative number. -/
def available (pageSize : Nat) (slots : List Slot) : Nat :=
  if pageSize - usedSpace slots < 2 ^ 31 + sizeofItemMetadata then
    pageSize - usedSpace slots - sizeofItemMetadata
  else 0

theorem HasSlots.freeSpaceLeft_eq (h : HasSlots pageSize pageId slots page)
    (hp : pageSize < 2 ^ 32) : pageGetFreeSpaceLeft page = pageSize - usedSpace slots := by
  have hr := h.room
  have he := h.freeSpaceEnd
  have hs := h.freeSpaceStart
  rw [usedSpace] at hr ⊢
  rw [pageGetFreeSpaceLeft]
  rw [toUInt32_sub (by omega) (by omega)]
  omega

theorem HasSlots.available_eq (h : HasSlots pageSize pageId slots page) (hp : pageSize < 2 ^ 32) :
    pageGetPayloadAvailableSpace page = available pageSize slots := by
  rw [pageGetPayloadAvailableSpace, available]
  rw [h.freeSpaceLeft_eq hp]
  have hdiff : toInt32 (toInt32 (pageSize - usedSpace slots : Nat) - sizeofItemMetadata) =
      toInt32 ((pageSize - usedSpace slots : Nat) - sizeofItemMetadata) := by
    unfold toInt32; omega
  rw [hdiff]
  have hsize : sizeofItemMetadata = 21 := rfl
  split
  · rw [toInt32_of_range (by omega) (by omega)]
    omega
  · have hneg : toInt32 ((pageSize - usedSpace slots : Nat) - sizeofItemMetadata) < 0 := by
      unfold toInt32; omega
    exact max_eq_right hneg.le

theorem fits_of_le_available {n : Nat} (h0 : 0 < n) (h : n ≤ available pageSize slots) :
    Fits pageSize slots n := by
  rw [available] at h
  rw [Fits]
  split at h <;> omega

theorem le_available_of_fits {n : Nat} (hp : pageSize < 2 ^ 31) (h : Fits pageSize slots n) :
    n ≤ available pageSize slots := by
  rw [Fits] at h
  rw [available]
  rw [if_pos (by omega)]
  omega

theorem HasSlots.canFitPayload_iff (h : HasSlots pageSize pageId slots page) (hp : pageSize < 2 ^ 32)
    {n : Nat} (hn : n < 2 ^ 31) : pageCanFitPayload page n = true ↔ n ≤ available pageSize slots := by
  rw [pageCanFitPayload]
  rw [h.available_eq hp, toInt32_natCast hn, decide_eq_true_iff, Nat.cast_le]

theorem HasSlots.canFitAnyPayload_iff (h : HasSlots pageSize pageId slots page)
    (hp : pageSize < 2 ^ 32) : pageCanFitAnyPayload page = true ↔ 0 < available pageSize slots := by
  rw [pageCanFitAnyPayload]
  rw [h.available_eq hp, decide_eq_true_iff, Nat.cast_pos]

theorem HasSlots.pageAddItem_eq (h : HasSlots pageSize pageId slots page) (hp : pageSize < 2 ^ 32)
    {payload : ItemPayload} (h0 : 0 < payload.length) (hn : payload.length < 2 ^ 31)
    (hroom : payload.length ≤ available pageSize slots) :
    pageAddItem page payload nullPageIndex = .ok
      (Storage.addedPage pageSize pageId slots payload page,
        { metadataOffsetInPage := sizeofPageHeader + sizeofItemMetadata * slots.length
          metadata := addedMetadata pageSize pageId slots payload
          writeStatus := ⟨true, payload.length⟩ }) := by
  rw [pageAddItem]
  rw [h.available_eq hp, toInt32_natCast hn, if_neg (by omega),
    h.addItem_eq hp (fits_of_le_available h0 hroom)]

theorem HasSlots.pageAddItem_full (h : HasSlots pageSize pageId slots page) (hp : pageSize < 2 ^ 32)
    {payload : ItemPayload} (hn : payload.length < 2 ^ 31)
    (hroom : available pageSize slots < payload.length) (continuesOnPage : Int) :
    pageAddItem page payload continuesOnPage =
      .error (.exit "Can't add item to this page. Not enough space for metadata") := by
  rw [pageAddItem]
  rw [h.available_eq hp, toInt32_natCast hn, if_pos (by omega)]

end Writing

section Deleting

variable {pageSize : Nat} {pageId : Int} {slots : List Slot} {page : Page}

def Slot.mark (slot : Slot) : Slot := { slot with deleted := true }

/-- The last slot is given back and any other one is marked. -/
def deleteSlot (slots : List Slot) (i : Nat) : List Slot :=
  if i + 1 = slots.length then slots.dropLast else slots.modify i Slot.mark

theorem mem_modify_cases {α : Type} {xs : List α} {f : α → α} {k : Nat} {x : α} (h : x ∈ xs.modify k f) :
    x ∈ xs ∨ ∃ y, xs[k]? = some y ∧ x = f y := by
  induction xs generalizing k with
  | nil =>
      rw [List.modify_nil] at h
      exact .inl h
  | cons z xs ih =>
      cases k with
      | zero =>
          rw [List.modify_zero_cons] at h
          rcases List.mem_cons.mp h with rfl | h
          · exact .inr ⟨z, rfl, rfl⟩
          · exact .inl (List.mem_cons_of_mem z h)
      | succ k =>
          rw [List.modify_succ_cons] at h
          rcases List.mem_cons.mp h with rfl | h
          · exact .inl List.mem_cons_self
          · rcases ih h with h | h
            · exact .inl (List.mem_cons_of_mem z h)
            · exact .inr h

theorem mem_deleteSlot {slots : List Slot} {i : Nat} {slot : Slot} (h : slot ∈ deleteSlot slots i) :
    ∃ old ∈ slots, slot = old ∨ slot = old.mark := by
  rw [deleteSlot] at h
  split at h
  · exact ⟨slot, List.dropLast_subset _ h, .inl rfl⟩
  · rcases mem_modify_cases h with h | ⟨old, hold, rfl⟩
    · exact ⟨slot, h, .inl rfl⟩
    · exact ⟨old, List.mem_of_getElem? hold, .inr rfl⟩

theorem dataSize_take_modify (slots : List Slot) (i j : Nat) :
    dataSize ((slots.modify i Slot.mark).take j) = dataSize (slots.take j) := by
  have hmap : (slots.modify i Slot.mark).map (fun slot => slot.data.length) =
      slots.map fun slot => slot.data.length := by
    apply List.ext_getElem?
    intro k
    rw [List.getElem?_map, List.getElem?_map, List.getElem?_modify]
    cases slots[k]? with
    | none => rfl
    | some slot => by_cases hk : i = k <;> simp [hk, Slot.mark]
  rw [dataSize, dataSize, List.map_take, List.map_take, hmap]

theorem liveCount_modify {i : Nat} {slot : Slot} (hs : slots[i]? = some slot)
    (hlive : slot.deleted = false) :
    liveCount (slots.modify i Slot.mark) + 1 = liveCount slots := by
  have hi := lt_length_of_getElem? hs
  have hsplit : slots = slots.take i ++ slot :: slots.drop (i + 1) := by
    conv_lhs => rw [← List.take_append_drop i slots, List.drop_eq_getElem?_toList_append, hs]
    rfl
  have hmark : slots.modify i Slot.mark = slots.take i ++ slot.mark :: slots.drop (i + 1) := by
    rw [List.modify_eq_take_cons_drop hi]
    obtain ⟨_, rfl⟩ := List.getElem?_eq_some_iff.mp hs
    rfl
  rw [hmark]
  conv_rhs => rw [hsplit]
  simp [liveCount, Slot.mark, hlive]
  omega

@[simp] theorem slotMetadata_modify (slots : List Slot) (i j : Nat) (slot : Slot) :
    slotMetadata pageSize pageId (slots.modify i Slot.mark) j slot =
      slotMetadata pageSize pageId slots j slot := by
  rw [slotMetadata, slotMetadata, dataOffset, dataOffset, dataSize_take_modify]

def markedPage (pageSize : Nat) (pageId : Int) (slots : List Slot) (i : Nat) (slot : Slot)
    (page : Page) : Page where
  pageHeader := { page.pageHeader with itemsCount := page.pageHeader.itemsCount - 1 }
  pagePayload := patch page.pagePayload (sizeofItemMetadata * i)
    (encodeItemMetadata (slotMetadata pageSize pageId slots i slot.mark))

def poppedPage (size : Nat) (page : Page) : Page :=
  { page with
    pageHeader.freeSpaceStartOffset := page.pageHeader.freeSpaceStartOffset - sizeofItemMetadata
    pageHeader.freeSpaceEndOffset := page.pageHeader.freeSpaceEndOffset + size
    pageHeader.nextItemId.itemId := page.pageHeader.nextItemId.itemId - 1 }

def deletedPage (pageSize : Nat) (pageId : Int) (slots : List Slot) (i : Nat) (slot : Slot)
    (page : Page) : Page :=
  if i + 1 = slots.length then
    poppedPage slot.data.length (markedPage pageSize pageId slots i slot page)
  else
    markedPage pageSize pageId slots i slot page

theorem HasSlots.markedPage (h : HasSlots pageSize pageId slots page) {i : Nat} {slot : Slot}
    (hs : slots[i]? = some slot) :
    HasSlots pageSize pageId (slots.modify i Slot.mark)
      (markedPage pageSize pageId slots i slot page) := by
  have hi := lt_length_of_getElem? hs
  have hl := h.payload
  have hfits := h.metadata_fits hi
  have hsize : dataSize (slots.modify i Slot.mark) = dataSize slots := by
    simpa only [List.take_of_length_le, List.length_modify, le_refl] using
      dataSize_take_modify slots i slots.length
  have hlen : (encodeItemMetadata (slotMetadata pageSize pageId slots i slot.mark)).length =
      sizeofItemMetadata := length_encodeItemMetadata _
  -- every slot keeps its data
  have hslots (j : Nat) (slot' : Slot) (hs' : (slots.modify i Slot.mark)[j]? = some slot') :
      (i = j ∧ slot' = slot.mark) ∨ (i ≠ j ∧ slots[j]? = some slot') := by
    rw [List.getElem?_modify] at hs'
    by_cases hij : i = j
    · subst hij
      rw [hs] at hs'
      exact .inl ⟨rfl, by simpa using hs'.symm⟩
    · exact .inr ⟨hij, by simpa [hij] using hs'⟩
  constructor
  case pageId => exact h.pageId
  case pageSize => exact h.pageSize
  case nextItemId => simpa only [Storage.markedPage, List.length_modify] using h.nextItemId
  case nextPageId => exact h.nextPageId
  case itemsCount =>
    have hcount := h.itemsCount
    simp only [Storage.markedPage]
    omega
  case freeSpaceStart => simpa only [Storage.markedPage, List.length_modify] using h.freeSpaceStart
  case freeSpaceEnd => simpa only [Storage.markedPage, hsize] using h.freeSpaceEnd
  case room => simpa only [usedSpace, hsize, List.length_modify] using h.room
  case payload =>
    simp only [Storage.markedPage]
    rw [length_patch_of_le (by omega)]
    exact hl
  case metadata =>
    intro j slot' hs'
    simp only [Storage.markedPage, slotMetadata_modify]
    rcases hslots j slot' hs' with ⟨rfl, rfl⟩ | ⟨hij, hs'⟩
    · conv_lhs => arg 3; rw [← hlen]
      exact slice_patch_same _ _ _
    · have hj := h.metadata_fits (lt_length_of_getElem? hs')
      rcases Nat.lt_or_gt_of_ne hij with hlt | hgt
      · have hm := Nat.mul_le_mul_left sizeofItemMetadata (show i + 1 ≤ j from hlt)
        rw [slice_patch_after _ _ (by rw [Nat.mul_add] at hm; omega), h.metadata j slot' hs']
      · have hm := Nat.mul_le_mul_left sizeofItemMetadata (show j + 1 ≤ i from hgt)
        rw [Nat.mul_add] at hm
        rw [slice_patch_before _ _ (by omega) (by omega), h.metadata j slot' hs']
  case data =>
    have hkeep (j : Nat) (slot' : Slot) (hs' : slots[j]? = some slot') :
        slice (Storage.markedPage pageSize pageId slots i slot page).pagePayload
          (dataOffset pageSize slots j - sizeofPageHeader) slot'.data.length = slot'.data := by
      obtain ⟨hlow, _⟩ := h.data_fits hs'
      have hroom := h.room
      have hend := h.freeSpaceEnd
      have hx := Nat.mul_le_mul_left sizeofItemMetadata (show i + 1 ≤ slots.length from hi)
      rw [Nat.mul_add] at hx
      rw [usedSpace] at hroom
      simp only [Storage.markedPage]
      rw [slice_patch_after _ _ (by omega), h.data j slot' hs']
    intro j slot' hs'
    rw [dataOffset, dataSize_take_modify, ← dataOffset]
    rcases hslots j slot' hs' with ⟨rfl, rfl⟩ | ⟨_, hs'⟩
    · exact hkeep i slot hs
    · exact hkeep j slot' hs'

theorem HasSlots.poppedPage {last : Slot} (h : HasSlots pageSize pageId (slots ++ [last]) page) :
    HasSlots pageSize pageId slots (poppedPage last.data.length page) := by
  have hroom := h.room
  have hstart := h.freeSpaceStart
  have hend := h.freeSpaceEnd
  have hnext := h.nextItemId
  simp only [usedSpace, List.length_append, List.length_singleton, dataSize_append,
    dataSize_singleton, Nat.mul_add, Nat.mul_one] at hroom hstart hend hnext
  have hslots (j : Nat) (slot : Slot) (hs : slots[j]? = some slot) :
      (slots ++ [last])[j]? = some slot := by
    rw [List.getElem?_append_left (lt_length_of_getElem? hs), hs]
  constructor
  case pageId => exact h.pageId
  case pageSize => exact h.pageSize
  case nextItemId =>
    simp only [Storage.poppedPage]
    omega
  case nextPageId => exact h.nextPageId
  case itemsCount => exact h.itemsCount
  case freeSpaceStart =>
    simp only [Storage.poppedPage]
    omega
  case freeSpaceEnd =>
    simp only [Storage.poppedPage]
    omega
  case room =>
    rw [usedSpace]
    omega
  case payload => exact h.payload
  case metadata =>
    intro j slot hs
    rw [← slotMetadata_append _ _ [last] _ (lt_length_of_getElem? hs)]
    exact h.metadata j slot (hslots j slot hs)
  case data =>
    intro j slot hs
    rw [← dataOffset_append _ [last] (lt_length_of_getElem? hs)]
    exact h.data j slot (hslots j slot hs)

theorem modify_mark_last {i : Nat} {slot : Slot} (hs : slots[i]? = some slot)
    (hlast : i + 1 = slots.length) : slots.modify i Slot.mark = slots.dropLast ++ [slot.mark] := by
  rw [List.modify_eq_take_cons_drop (lt_length_of_getElem? hs), List.dropLast_eq_take,
    List.drop_of_length_le (by omega), ← hlast]
  obtain ⟨_, rfl⟩ := List.getElem?_eq_some_iff.mp hs
  rfl

theorem HasSlots.deletedPage (h : HasSlots pageSize pageId slots page) {i : Nat} {slot : Slot}
    (hs : slots[i]? = some slot) :
    HasSlots pageSize pageId (deleteSlot slots i)
      (deletedPage pageSize pageId slots i slot page) := by
  have hmarked := h.markedPage hs
  rw [deleteSlot, Storage.deletedPage]
  by_cases hlast : i + 1 = slots.length
  · rw [if_pos hlast, if_pos hlast]
    rw [modify_mark_last hs hlast] at hmarked
    exact hmarked.poppedPage
  · rw [if_neg hlast, if_neg hlast]
    exact hmarked

theorem liveCount_deleteSlot {i : Nat} {slot : Slot} (hs : slots[i]? = some slot)
    (hlive : slot.deleted = false) : liveCount (deleteSlot slots i) + 1 = liveCount slots := by
  rw [deleteSlot]
  by_cases hlast : i + 1 = slots.length
  · rw [if_pos hlast, ← liveCount_modify hs hlive, modify_mark_last hs hlast, liveCount_append]
    rfl
  · rw [if_neg hlast, liveCount_modify hs hlive]

theorem deletedPage_counted (hc : Counted slots page) {i : Nat} {slot : Slot}
    (hs : slots[i]? = some slot) (hlive : slot.deleted = false) :
    Counted (deleteSlot slots i) (deletedPage pageSize pageId slots i slot page) := by
  have hcount := liveCount_deleteSlot hs hlive
  have hheader : (deletedPage pageSize pageId slots i slot page).pageHeader.itemsCount =
      page.pageHeader.itemsCount - 1 := by
    rw [deletedPage]
    split <;> rfl
  rw [Counted] at hc ⊢
  omega

theorem HasSlots.pageDeleteItem_eq (h : HasSlots pageSize pageId slots page)
    (hp : pageSize < 2 ^ 32) (hid : IsInt32 pageId) {i : Nat} {slot : Slot}
    (hs : slots[i]? = some slot) (hcount : 0 < page.pageHeader.itemsCount) {item : Item}
    (hitem : item.id.itemId = i) (hfresh : item.isDeleted = false) :
    pageDeleteItem page item = .ok
      (Storage.deletedPage pageSize pageId slots i slot page, { item with isDeleted := true }) := by
  obtain ⟨⟨onPage, itemId⟩, isDeleted, payload⟩ := item
  simp only at hitem hfresh
  subst hitem hfresh
  have hi := lt_length_of_getElem? hs
  have hl := h.payload
  have hroom := h.room
  have hend := h.freeSpaceEnd
  have hstart := h.freeSpaceStart
  have hnext := h.nextItemId
  have hsize := dataSize_take_le slots (i + 1)
  rw [dataSize_take_succ hs] at hsize
  have hset := setMetadata_eq (i := i) (show page.pagePayload.length < _ by omega)
    (h.metadata_fits hi) page.pageHeader onPage (slotMetadata pageSize pageId slots i slot.mark)
  rw [usedSpace] at hroom
  have hsub : sizeofItemMetadata ≤ page.pageHeader.freeSpaceStartOffset ∧
      page.pageHeader.freeSpaceStartOffset < 2 ^ 32 := by
    have hm := Nat.mul_le_mul_left sizeofItemMetadata (show 1 ≤ slots.length by omega)
    omega
  have hadd : page.pageHeader.freeSpaceEndOffset + slot.data.length < 2 ^ 32 := by omega
  rw [pageDeleteItem]
  simp only [h.getMetadata_eq hp hid hs, bind, Except.bind, pure, Except.pure, hnext, Nat.cast_le,
    Bool.false_eq_true, if_false, if_neg hi.not_ge, if_neg hcount.ne']
  have hmark : ({ slotMetadata pageSize pageId slots i slot with isDeleted := true } : ItemMetadata) =
      slotMetadata pageSize pageId slots i slot.mark := rfl
  rw [hmark, hset]
  simp only [Storage.deletedPage]
  by_cases hlast : i + 1 = slots.length
  · rw [if_pos (by omega), if_pos hlast]
    simp only [Storage.poppedPage, Storage.markedPage, slotMetadata, toUInt32_sub hsub.1 hsub.2,
      toUInt32_add hadd, hnext]
  · rw [if_neg (by omega), if_neg hlast]
    rfl

/-- The metadata of a deleted item stays readable, also when its slot is gone. -/
theorem HasSlots.deletedPage_continuation (h : HasSlots pageSize pageId slots page)
    (hp : pageSize < 2 ^ 32) (hid : IsInt32 pageId) {i : Nat} {slot : Slot}
    (hs : slots[i]? = some slot) {item : Item} (hitem : item.id.itemId = i) :
    pageGetItemContinuation (Storage.deletedPage pageSize pageId slots i slot page) item =
      .ok nullPageIndex := by
  have hmark : (slots.modify i Slot.mark)[i]? = some slot.mark := by
    rw [List.getElem?_modify_eq, hs]
    rfl
  have hcont := (h.markedPage hs).continuation_eq hp hid hmark hitem
  have hpayload : (Storage.deletedPage pageSize pageId slots i slot page).pagePayload =
      (Storage.markedPage pageSize pageId slots i slot page).pagePayload := by
    rw [Storage.deletedPage]
    split <;> rfl
  rw [pageGetItemContinuation, getMetadata] at hcont ⊢
  rwa [hpayload]

end Deleting

section Inversion

variable {page : Page} {item : Item}

/-- `page_delete_item` returns for an item in the range of the page only. -/
theorem pageDeleteItem_ok {res : Page × Item} (h : pageDeleteItem page item = .ok res) :
    item.isDeleted = false ∧ 0 ≤ item.id.itemId ∧
      item.id.itemId < page.pageHeader.nextItemId.itemId ∧ 0 < page.pageHeader.itemsCount := by
  rw [pageDeleteItem] at h
  by_cases h1 : item.isDeleted = true
  · simp [h1, bind, Except.bind, throw, throwThe, MonadExceptOf.throw] at h
  by_cases h2 : page.pageHeader.nextItemId.itemId ≤ item.id.itemId
  · simp [h1, h2, bind, Except.bind, throw, throwThe, MonadExceptOf.throw] at h
  by_cases h3 : page.pageHeader.itemsCount = 0
  · simp [h1, h2, h3, bind, Except.bind, throw, throwThe, MonadExceptOf.throw] at h
  by_cases h4 : item.id.itemId < 0
  · simp [h1, h2, h3, h4, bind, Except.bind, getMetadata] at h
  exact ⟨by simpa using h1, by omega, by omega, by omega⟩

theorem pageGetItem_ok {itemId : ItemIndex} (h : pageGetItem page itemId = .ok (.ok item)) :
    0 ≤ itemId.itemId ∧ itemId.itemId < page.pageHeader.nextItemId.itemId ∧ item.id = itemId := by
  rw [pageGetItem] at h
  by_cases h1 : page.pageHeader.nextItemId.itemId ≤ itemId.itemId
  · simp [h1, pure, Except.pure] at h
  by_cases h2 : itemId.itemId < 0
  · simp [h1, h2, bind, Except.bind, getMetadata] at h
  refine ⟨by omega, by omega, ?_⟩
  rw [if_neg h1] at h
  simp only [bind, Except.bind, pure, Except.pure] at h
  split at h
  · cases h
  · split at h
    · cases h
    · split at h
      · cases h
      · cases h
        rfl

end Inversion

theorem pageNew_hasSlots {pageSize : Nat} {pageId : Int} (h : sizeofPageHeader ≤ pageSize) :
    HasSlots pageSize pageId [] (pageNew pageId pageSize) := by
  constructor <;> simp [pageNew, usedSpace, h, IsInt32]

theorem pageNew_counted (pageId : Int) (pageSize : Nat) : Counted [] (pageNew pageId pageSize) := rfl

end DocumentDb.Storage
