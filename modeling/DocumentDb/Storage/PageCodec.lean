import DocumentDb.Storage.Page

namespace DocumentDb.Storage

open Bytes

def IsInt32 (i : Int) : Prop := -2 ^ 31 ≤ i ∧ i < 2 ^ 31

theorem isInt32_toInt32 (i : Int) : IsInt32 (toInt32 i) := ⟨le_toInt32 i, toInt32_lt i⟩

theorem isInt32_natCast {n : Nat} (h : n < 2 ^ 31) : IsInt32 n := by
  unfold IsInt32; omega

theorem IsInt32.decode_encode {i : Int} (h : IsInt32 i) : decodeInt32 (encodeInt32 i) = i :=
  decodeInt32_encodeInt32 h.1 h.2

theorem isInt32_decodeInt32 (bs : List UInt8) : IsInt32 (decodeInt32 bs) := isInt32_toInt32 _

structure PageHeader.InRange (header : PageHeader) : Prop where
  pageId : IsInt32 header.pageId
  pageSize : header.pageSize < 2 ^ 32
  nextPageId : IsInt32 header.nextItemId.pageId
  nextItemId : IsInt32 header.nextItemId.itemId
  itemsCount : header.itemsCount < 2 ^ 32
  freeSpaceStart : header.freeSpaceStartOffset < 2 ^ 32
  freeSpaceEnd : header.freeSpaceEndOffset < 2 ^ 32

structure ItemMetadata.InRange (metadata : ItemMetadata) : Prop where
  pageId : IsInt32 metadata.itemId.pageId
  itemId : IsInt32 metadata.itemId.itemId
  dataOffset : metadata.dataOffset < 2 ^ 32
  size : metadata.size < 2 ^ 32
  continuesOnPage : IsInt32 metadata.continuesOnPage

theorem length_encodeItemMetadata (self : ItemMetadata) :
    (encodeItemMetadata self).length = sizeofItemMetadata := by
  simp [encodeItemMetadata, encodeItemIndex, sizeofItemMetadata]

theorem length_encodePageHeader (self : PageHeader) :
    (encodePageHeader self).length = sizeofPageHeader := by
  simp [encodePageHeader, encodeItemIndex, sizeofPageHeader]

theorem length_encodePage (self : Page) :
    (encodePage self).length = sizeofPageHeader + self.pagePayload.length := by
  rw [encodePage, List.length_append, length_encodePageHeader]

theorem length_encodePage_pos (page : Page) : 0 < (encodePage page).length := by
  rw [length_encodePage]
  exact Nat.add_pos_left (by decide) _

theorem decodeItemMetadata_encode {m : ItemMetadata} (h : m.InRange) :
    decodeItemMetadata (encodeItemMetadata m) = m := by
  obtain ⟨⟨pageId, itemId⟩, dataOffset, size, isDeleted, continuation⟩ := m
  have hp := h.pageId.decode_encode
  have hi := h.itemId.decode_encode
  have hc := h.continuesOnPage.decode_encode
  have ho := decodeLE_encodeUInt32 h.dataOffset
  have hs := decodeLE_encodeUInt32 h.size
  simp only at hp hi hc ho hs
  simp only [decodeItemMetadata, encodeItemMetadata, encodeItemIndex, slice]
  simp [List.drop_append, List.drop_of_length_le, List.take_of_length_le, hp, hi, hc, ho, hs]
  cases isDeleted <;> simp

theorem decodePageHeader_encode {header : PageHeader} (h : header.InRange) :
    decodePageHeader (encodePageHeader header) = header := by
  obtain ⟨pageId, pageSize, ⟨nextPage, nextItem⟩, count, start, stop⟩ := header
  have hp := h.pageId.decode_encode
  have hn := h.nextPageId.decode_encode
  have hi := h.nextItemId.decode_encode
  have hs := decodeLE_encodeUInt32 h.pageSize
  have hc := decodeLE_encodeUInt32 h.itemsCount
  have hb := decodeLE_encodeUInt32 h.freeSpaceStart
  have he := decodeLE_encodeUInt32 h.freeSpaceEnd
  simp only at hp hn hi hs hc hb he
  simp only [decodePageHeader, encodePageHeader, encodeItemIndex, slice]
  simp [List.drop_append, List.drop_of_length_le, List.take_of_length_le,
    hp, hn, hi, hs, hc, hb, he]

theorem encodePageHeader_decode {bs : List UInt8} (h : bs.length = sizeofPageHeader) :
    encodePageHeader (decodePageHeader bs) = bs := by
  have hl (off : Nat) (ho : off + 4 ≤ sizeofPageHeader) : (slice bs off 4).length = 4 :=
    length_slice_of_le (by omega)
  rw [sizeofPageHeader] at h hl
  simp only [encodePageHeader, decodePageHeader, encodeItemIndex,
    encodeInt32_decodeInt32 (hl 0 (by omega)), encodeUInt32_decodeLE (hl 4 (by omega)),
    encodeInt32_decodeInt32 (hl 8 (by omega)), encodeInt32_decodeInt32 (hl 12 (by omega)),
    encodeUInt32_decodeLE (hl 16 (by omega)), encodeUInt32_decodeLE (hl 20 (by omega)),
    encodeUInt32_decodeLE (hl 24 (by omega))]
  rw [slice_append_slice bs 20 4 4, slice_append_slice bs 16 4 8, slice_append_slice bs 8 4 4,
    slice_append_slice bs 8 8 12, slice_append_slice bs 4 4 20, slice_append_slice bs 0 4 24]
  simpa only [h] using slice_zero_length bs

theorem decodePage_encode {page : Page} (h : page.pageHeader.InRange) :
    decodePage (encodePage page) = page := by
  have ht : (encodePage page).take sizeofPageHeader = encodePageHeader page.pageHeader := by
    rw [encodePage, List.take_left' (length_encodePageHeader _)]
  have hd : (encodePage page).drop sizeofPageHeader = page.pagePayload := by
    rw [encodePage, List.drop_left' (length_encodePageHeader _)]
  rw [decodePage, ht, hd, decodePageHeader_encode h]

theorem encodePage_decode {bs : List UInt8} (h : sizeofPageHeader ≤ bs.length) :
    encodePage (decodePage bs) = bs := by
  have hl : (bs.take sizeofPageHeader).length = sizeofPageHeader := by
    rw [List.length_take]; omega
  simp only [encodePage, decodePage, encodePageHeader_decode hl, List.take_append_drop]

end DocumentDb.Storage
