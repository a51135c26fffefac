import DocumentDb.Storage.PageLayout
import DocumentDb.Storage.File

namespace DocumentDb.Storage

open Bytes

structure StoredPage where
  page : Page
  slots : List Slot

/-- What a file of the page manager holds when no write is under way. Page `k`
lies in block `k` behind the file header. -/
@[ext] structure Disk where
  signature : Int
  pageSize : Nat
  freePage : Int
  pages : List StoredPage
  isInt32_signature : IsInt32 signature
  isInt32_freePage : IsInt32 freePage
  sizeofPageHeader_le : sizeofPageHeader ≤ pageSize
  pageSize_lt : pageSize < 2 ^ 32
  small : sizeofFileHeader + pages.length * pageSize < 2 ^ 32
  layout : ∀ (k : Nat) (p : StoredPage), pages[k]? = some p → HasSlots pageSize k p.slots p.page

namespace Disk

variable {disk : Disk} {k : Nat} {p : StoredPage}

def header (disk : Disk) : FileHeader where
  constants := ⟨disk.signature, disk.pageSize⟩
  dynamic := ⟨sizeofFileHeader + disk.pages.length * disk.pageSize, disk.freePage, disk.pages.length⟩

def body (disk : Disk) : List UInt8 := disk.pages.flatMap fun p => encodePage p.page

def bytes (disk : Disk) : List UInt8 := encodeFileHeader disk.header ++ disk.body

def slots (disk : Disk) : List (List Slot) := disk.pages.map StoredPage.slots

theorem length_pages_lt (disk : Disk) : disk.pages.length < 2 ^ 31 - 1 := by
  have h := disk.small
  have hm := Nat.mul_le_mul_left disk.pages.length disk.sizeofPageHeader_le
  rw [sizeofPageHeader] at hm
  omega

theorem lt_length (h : disk.pages[k]? = some p) : k < disk.pages.length :=
  lt_length_of_getElem? h

theorem isInt32_pageId (h : disk.pages[k]? = some p) : IsInt32 k := by
  have hk := lt_length h
  have hl := disk.length_pages_lt
  exact isInt32_natCast (by omega)

theorem inRange (h : disk.pages[k]? = some p) : p.page.pageHeader.InRange :=
  (disk.layout k p h).inRange disk.pageSize_lt (isInt32_pageId h)

theorem pageId_eq (h : disk.pages[k]? = some p) : p.page.pageHeader.pageId = k :=
  (disk.layout k p h).pageId

theorem length_encodePage (h : disk.pages[k]? = some p) :
    (encodePage p.page).length = disk.pageSize := by
  have hl := (disk.layout k p h).payload
  rw [Storage.length_encodePage]
  omega

theorem length_encodePage_of_mem (disk : Disk) :
    ∀ p ∈ disk.pages, (encodePage p.page).length = disk.pageSize := by
  intro p hp
  obtain ⟨k, hk⟩ := List.getElem?_of_mem hp
  exact length_encodePage hk

@[simp] theorem length_encodeFileHeader (header : FileHeader) :
    (encodeFileHeader header).length = sizeofFileHeader := by
  simp [encodeFileHeader, sizeofFileHeader]

theorem length_bytes (disk : Disk) :
    disk.bytes.length = sizeofFileHeader + disk.pages.length * disk.pageSize := by
  rw [bytes, List.length_append, length_encodeFileHeader, body,
    length_flatMap_blocks disk.length_encodePage_of_mem]

theorem decode_header (disk : Disk) :
    decodeFileHeader (slice disk.bytes 0 sizeofFileHeader) = disk.header := by
  have hslice : slice disk.bytes 0 sizeofFileHeader = encodeFileHeader disk.header := by
    rw [bytes, slice_append_left _ _ (by simp), ← length_encodeFileHeader disk.header,
      slice_zero_length]
  have hn := disk.length_pages_lt
  have hs := disk.isInt32_signature.decode_encode
  have hf := disk.isInt32_freePage.decode_encode
  have hp := decodeLE_encodeUInt32 disk.pageSize_lt
  have hz := decodeLE_encodeUInt32 disk.small
  have hc := decodeLE_encodeUInt32 (show disk.pages.length < 2 ^ 32 by omega)
  rw [hslice]
  simp only [decodeFileHeader, encodeFileHeader, header, slice]
  simp [List.drop_append, List.drop_of_length_le, List.take_of_length_le, hs, hf, hp, hz, hc]

theorem slice_bytes (h : disk.pages[k]? = some p) :
    slice disk.bytes (sizeofFileHeader + k * disk.pageSize) disk.pageSize = encodePage p.page := by
  rw [bytes, slice_append_right _ _ _ (by simp), length_encodeFileHeader, Nat.add_sub_cancel_left]
  exact slice_flatMap_blocks disk.length_encodePage_of_mem h

theorem offset_le (h : disk.pages[k]? = some p) :
    sizeofFileHeader + k * disk.pageSize + disk.pageSize ≤ disk.bytes.length := by
  have hm := Nat.mul_le_mul_right disk.pageSize (show k + 1 ≤ disk.pages.length from lt_length h)
  rw [length_bytes]
  rw [Nat.succ_mul] at hm
  omega

section Changes

def setFreePage (disk : Disk) (freePage : Int) (h : IsInt32 freePage) : Disk :=
  { disk with
    freePage := freePage
    isInt32_freePage := h }

def setPage (disk : Disk) (k : Nat) (p : StoredPage) (h : HasSlots disk.pageSize k p.slots p.page) :
    Disk :=
  { disk with
    pages := disk.pages.set k p
    small := by simpa only [List.length_set] using disk.small
    layout := by
      intro j q hq
      rw [List.getElem?_set] at hq
      split at hq
      · split at hq
        · cases hq
          rename_i hkj _
          exact hkj ▸ h
        · cases hq
      · exact disk.layout j q hq }

/-- The file stays below `2 ^ 32` bytes with another page. -/
def HasRoom (disk : Disk) : Prop :=
  sizeofFileHeader + (disk.pages.length + 1) * disk.pageSize < 2 ^ 32

def addPage (disk : Disk) (p : StoredPage)
    (h : HasSlots disk.pageSize disk.pages.length p.slots p.page)
    (hroom : disk.HasRoom) : Disk :=
  { disk with
    pages := disk.pages ++ [p]
    small := by simpa [HasRoom] using hroom
    layout := by
      intro j q hq
      rw [List.getElem?_append] at hq
      split at hq
      · exact disk.layout j q hq
      · obtain ⟨hj, rfl⟩ := List.getElem?_eq_some_iff.mp hq
        rw [List.length_singleton] at hj
        obtain rfl : j = disk.pages.length := by omega
        simpa using h }

@[simp] theorem setFreePage_pages (freePage : Int) (h : IsInt32 freePage) :
    (disk.setFreePage freePage h).pages = disk.pages := rfl

@[simp] theorem setPage_pages (h : HasSlots disk.pageSize k p.slots p.page) :
    (disk.setPage k p h).pages = disk.pages.set k p := rfl

@[simp] theorem addPage_pages (h : HasSlots disk.pageSize disk.pages.length p.slots p.page)
    (hroom : disk.HasRoom) :
    (disk.addPage p h hroom).pages = disk.pages ++ [p] := rfl

theorem patch_header (disk : Disk) (header : FileHeader) :
    patch disk.bytes 0 (encodeFileHeader header) = encodeFileHeader header ++ disk.body := by
  rw [bytes, patch_append_left _ _ (by simp)]

theorem bytes_setPage (hk : k < disk.pages.length)
    (h : HasSlots disk.pageSize k p.slots p.page) :
    patch disk.bytes (sizeofFileHeader + k * disk.pageSize) (encodePage p.page) =
      (disk.setPage k p h).bytes := by
  have hlen : (encodePage p.page).length = disk.pageSize := by
    rw [Storage.length_encodePage, Nat.add_comm]
    exact h.payload
  have hbody : patch disk.body (k * disk.pageSize) (encodePage p.page) = (disk.setPage k p h).body := by
    rw [body, body, setPage_pages, ← patch_flatMap_blocks disk.length_encodePage_of_mem hk hlen]
  have hhead : (disk.setPage k p h).header = disk.header := by
    simp only [header, setPage, List.length_set]
  rw [bytes, ← length_encodeFileHeader disk.header, patch_append_right, hbody, bytes, hhead]

theorem bytes_addPage (h : HasSlots disk.pageSize disk.pages.length p.slots p.page)
    (hroom : disk.HasRoom) :
    patch (encodeFileHeader (disk.addPage p h hroom).header ++ disk.body)
        (sizeofFileHeader + disk.pages.length * disk.pageSize) (encodePage p.page) =
      (disk.addPage p h hroom).bytes := by
  have hbody : patch disk.body (disk.pages.length * disk.pageSize) (encodePage p.page) =
      (disk.addPage p h hroom).body := by
    rw [body, body, addPage_pages, ← patch_flatMap_end disk.length_encodePage_of_mem p]
  rw [← length_encodeFileHeader (disk.addPage p h hroom).header, patch_append_right, hbody, bytes]

end Changes

end Disk

end DocumentDb.Storage
