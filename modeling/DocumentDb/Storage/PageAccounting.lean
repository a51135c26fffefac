import DocumentDb.Storage.Guards

namespace DocumentDb.Storage

open Bytes Program

section Metadata

variable {bs bs' new new' : List UInt8} {off j : Nat}

def ItemMetadata.continuedOn (self : ItemMetadata) (pageId : Int) : ItemMetadata :=
  { self with continuesOnPage := pageId }

/-- Only the last four bytes say where an item is continued. -/
theorem getElem?_encode_continuedOn (metadata : ItemMetadata) (pageId : Int) (h : j < 17) :
    (encodeItemMetadata (metadata.continuedOn pageId))[j]? = (encodeItemMetadata metadata)[j]? := by
  have hsplit (m : ItemMetadata) : encodeItemMetadata m =
      (encodeItemIndex m.itemId ++ encodeUInt32 m.dataOffset ++ encodeUInt32 m.size ++
        [if m.isDeleted then 1 else 0]) ++ encodeInt32 m.continuesOnPage := by
    simp [encodeItemMetadata]
  have hlen (m : ItemMetadata) : j < (encodeItemIndex m.itemId ++ encodeUInt32 m.dataOffset ++ encodeUInt32 m.size ++
      [if m.isDeleted then 1 else 0]).length := by
    simpa [encodeItemIndex] using h
  rw [hsplit, hsplit, List.getElem?_append_left (hlen _), List.getElem?_append_left (hlen _)]
  rfl

theorem decodeItemMetadata_congr (h : ∀ k < 17, bs[k]? = bs'[k]?) :
    decodeItemMetadata bs = (decodeItemMetadata bs').continuedOn (decodeInt32 (slice bs 17 4)) := by
  have hslice (off len : Nat) (hend : off + len ≤ 17) : slice bs off len = slice bs' off len :=
    slice_congr fun k hk => h _ (by omega)
  rw [decodeItemMetadata, decodeItemMetadata, ItemMetadata.continuedOn]
  rw [hslice 0 4 (by decide), hslice 4 4 (by decide), hslice 8 4 (by decide), hslice 12 4 (by decide),
    hslice 16 1 (by decide)]

theorem getElem?_patch_congr (hlen : bs.length = bs'.length) (hnew : new.length = new'.length)
    (hout : j < off ∨ off + new.length ≤ j → bs[j]? = bs'[j]?) (hin : ∀ k, j = off + k → new[k]? = new'[k]?) :
    (patch bs off new)[j]? = (patch bs' off new')[j]? := by
  rw [getElem?_patch, getElem?_patch, hlen, hnew]
  by_cases hlow : j < off
  · rw [if_pos hlow, if_pos hlow, hout (Or.inl hlow)]
  · rw [if_neg hlow, if_neg hlow]
    by_cases hhigh : j < off + new'.length
    · rw [if_pos hhigh, if_pos hhigh, hin (j - off) (by omega)]
    · rw [if_neg hhigh, if_neg hhigh, hout (Or.inr (by omega))]

end Metadata

section Similarity

variable {page page' new' : Page} {itemId : ItemIndex} {metadata : ItemMetadata} {payload : ItemPayload} {i n m : Nat}

/-- Two pages with the same accounts of their first `n` items. Only where these are continued and
what is behind their metadata may differ. -/
structure SameItems (n : Nat) (page page' : Page) : Prop where
  header : page.pageHeader = page'.pageHeader
  length : page.pagePayload.length = page'.pagePayload.length
  bytes : ∀ i < n, ∀ j < 17,
    page.pagePayload[sizeofItemMetadata * i + j]? = page'.pagePayload[sizeofItemMetadata * i + j]?

theorem SameItems.refl (n : Nat) (page : Page) : SameItems n page page := ⟨rfl, rfl, fun _ _ _ _ => rfl⟩

theorem SameItems.mono (h : SameItems n page page') (hle : m ≤ n) : SameItems m page page' :=
  ⟨h.header, h.length, fun i hi => h.bytes i (by omega)⟩

theorem SameItems.withHeader (h : SameItems n page page') (header : PageHeader) :
    SameItems n { page with pageHeader := header } { page' with pageHeader := header } :=
  ⟨rfl, h.length, h.bytes⟩

theorem SameItems.getMetadata (h : SameItems n page page') (hi : i < n) (hitem : itemId.itemId = i)
    (hsmall : sizeofItemMetadata * i < 2 ^ 32) (hget : getMetadata page' itemId = .ok metadata) :
    ∃ pageId, getMetadata page itemId = .ok (metadata.continuedOn pageId) := by
  rw [Storage.getMetadata] at hget ⊢
  rw [hitem, ← h.length, metadataOffset_natCast hsmall] at hget
  rw [hitem, metadataOffset_natCast hsmall]
  rw [if_neg (by omega)] at hget ⊢
  split at hget
  · cases hget
  · rename_i hfits
    cases hget
    rw [if_neg hfits]
    refine ⟨_, congrArg Except.ok (decodeItemMetadata_congr fun j hj => ?_)⟩
    rw [getElem?_slice, getElem?_slice, h.bytes i hi j hj]

theorem SameItems.setMetadata (h : SameItems n page page') (hitem : itemId.itemId = i)
    (hsmall : sizeofItemMetadata * i < 2 ^ 32) (hm : ∀ k < m, k < n ∨ k = i)
    (hset : setMetadata page' itemId metadata = .ok new') (pageId : Int) :
    ∃ new, setMetadata page itemId (metadata.continuedOn pageId) = .ok new ∧ SameItems m new new' := by
  rw [Storage.setMetadata] at hset ⊢
  rw [hitem, ← h.length, metadataOffset_natCast hsmall, if_neg (by omega)] at hset
  rw [hitem, metadataOffset_natCast hsmall, if_neg (by omega)]
  split at hset
  · cases hset
  rename_i hfits
  cases hset
  rw [if_neg hfits]
  have hlen : (encodeItemMetadata (metadata.continuedOn pageId)).length = (encodeItemMetadata metadata).length := by
    rw [length_encodeItemMetadata, length_encodeItemMetadata]
  refine ⟨_, rfl, h.header, ?_, ?_⟩
  · simp only [length_patch, hlen, h.length]
  · intro k hk j hj
    apply getElem?_patch_congr h.length hlen
    · intro hout
      rcases hm k hk with hlt | rfl
      · exact h.bytes k hlt j hj
      · rw [length_encodeItemMetadata, sizeofItemMetadata] at hout
        omega
    · intro l hl
      by_cases hbefore : l < 17
      · exact getElem?_encode_continuedOn metadata pageId hbefore
      · have hend : sizeofItemMetadata ≤ l := by
          rw [sizeofItemMetadata] at hl ⊢
          omega
        rw [List.getElem?_eq_none (by rwa [length_encodeItemMetadata]),
          List.getElem?_eq_none (by rwa [length_encodeItemMetadata])]

theorem SameItems.putItemData (h : SameItems n page page') {offset : Nat}
    (hput : pagePutItemDataInPage page' payload offset = .ok new') :
    ∃ new, pagePutItemDataInPage page payload offset = .ok new ∧ SameItems n new new' := by
  rw [pagePutItemDataInPage, getItemDataAddr] at hput ⊢
  rw [← h.length] at hput
  split at hput
  · rename_i hrange
    cases hput
    rw [if_pos hrange]
    refine ⟨_, rfl, h.header, ?_, ?_⟩
    · simp only [length_patch, h.length]
    · intro i hi j hj
      exact getElem?_patch_congr h.length rfl (fun _ => h.bytes i hi j hj) fun _ _ => rfl
  · cases hput

theorem SameItems.addItem (h : SameItems n page page') (hnext : page'.pageHeader.nextItemId.itemId = n)
    (hsmall : sizeofItemMetadata * n < 2 ^ 32) {pageId' : Int} {res' : ItemAddResult}
    (hadd : pageAddItem page' payload pageId' = .ok (new', res')) (pageId : Int) :
    ∃ new res, pageAddItem page payload pageId = .ok (new, res) ∧ SameItems (n + 1) new new' ∧
      res.metadata = res'.metadata.continuedOn pageId := by
  have hspace : pageGetPayloadAvailableSpace page = pageGetPayloadAvailableSpace page' := by
    rw [pageGetPayloadAvailableSpace, pageGetPayloadAvailableSpace, pageGetFreeSpaceLeft, pageGetFreeSpaceLeft,
      h.header]
  rw [pageAddItem] at hadd ⊢
  rw [hspace]
  split at hadd
  · cases hadd
  rename_i hguard
  rw [if_neg hguard]
  rw [pageAddItemUpdateHeader, pagePutItemMetadataInPage] at hadd ⊢
  rw [h.header]
  simp only [bind, Except.bind] at hadd ⊢
  split at hadd
  · cases hadd
  rename_i marked' hset'
  have hitem : ({ page'.pageHeader.nextItemId with pageId := page'.pageHeader.pageId } : ItemIndex).itemId = n := hnext
  obtain ⟨marked, hset, hmarked⟩ := (h.withHeader _).setMetadata (m := n + 1) hitem hsmall (fun k hk => by omega)
    hset' pageId
  split at hadd
  · cases hadd
  rename_i filled' hput'
  obtain ⟨filled, hput, hfilled⟩ := hmarked.putItemData hput'
  cases hadd
  dsimp only [ItemMetadata.continuedOn] at hset
  simp only [hset, hput]
  exact ⟨_, _, rfl, hfilled, rfl⟩

theorem SameItems.deleteItem (h : SameItems n page page') {item item' : Item} (hi : i < n) (hitem : item.id.itemId = i)
    (hsmall : sizeofItemMetadata * i < 2 ^ 32) (hdelete : pageDeleteItem page' item = .ok (new', item')) :
    ∃ new, pageDeleteItem page item = .ok (new, item') ∧ SameItems n new new' := by
  obtain ⟨hfresh, _, hrange, hcount⟩ := pageDeleteItem_ok hdelete
  rw [pageDeleteItem] at hdelete ⊢
  rw [h.header]
  simp only [hfresh, Bool.false_eq_true, if_false, if_neg hrange.not_ge, if_neg hcount.ne', bind, Except.bind] at hdelete ⊢
  split at hdelete
  · cases hdelete
  rename_i metadata hget'
  obtain ⟨pageId, hget⟩ := h.getMetadata hi hitem hsmall hget'
  split at hdelete
  · cases hdelete
  rename_i marked' hset'
  obtain ⟨marked, hset, hmarked⟩ := h.setMetadata (m := n) hitem hsmall (fun k hk => Or.inl hk) hset' pageId
  rw [ItemMetadata.continuedOn] at hget hset
  simp only [hget, hset]
  split at hdelete
  · rename_i hlast
    cases hdelete
    rw [if_pos hlast]
    exact ⟨_, rfl, hmarked.withHeader _⟩
  · rename_i hinner
    cases hdelete
    rw [if_neg hinner]
    exact ⟨_, rfl, hmarked.withHeader _⟩

end Similarity

section Accounts

variable {pageSize : Nat} {pageId : Int} {slots : List Slot} {page : Page} {payload : ItemPayload} {item : Item}
  {i : Nat} {slot : Slot}

/-- The page keeps the accounts of these slots, whatever pages their items are continued on. -/
def AccountsFor (pageSize : Nat) (pageId : Int) (slots : List Slot) (page : Page) : Prop :=
  ∃ page', HasSlots pageSize pageId slots page' ∧ Counted slots page' ∧ SameItems slots.length page page'

theorem HasSlots.metadata_small (h : HasSlots pageSize pageId slots page) (hp : pageSize < 2 ^ 32)
    (hi : i ≤ slots.length) :
    sizeofItemMetadata * i < 2 ^ 32 := by
  have hx := h.index_lt hi
  omega

theorem pageNew_accountsFor (hheader : sizeofPageHeader ≤ pageSize) (pageId : Int) :
    AccountsFor pageSize pageId [] (pageNew pageId pageSize) :=
  ⟨_, pageNew_hasSlots hheader, pageNew_counted pageId pageSize, SameItems.refl _ _⟩

/-- An item that passes the guard of its page is added behind the slots. -/
theorem AccountsFor.addItem (h : AccountsFor pageSize pageId slots page) (hid : IsInt32 pageId)
    (hp : pageSize < 2 ^ 32) (h0 : 0 < payload.length) (hn : payload.length < 2 ^ 31)
    (hfit : pageCanFitPayload page payload.length = true) (continuesOnPage : Int) :
    ∃ new res, pageAddItem page payload continuesOnPage = .ok (new, res) ∧
      res.metadata.itemId = ⟨pageId, slots.length⟩ ∧ AccountsFor pageSize pageId (slots ++ [⟨payload, false⟩]) new := by
  obtain ⟨page', hslots, hcount, hsame⟩ := h
  have hfit' : pageCanFitPayload page' payload.length = true := by
    rw [← hfit, pageCanFitPayload, pageCanFitPayload, pageGetPayloadAvailableSpace, pageGetPayloadAvailableSpace,
      pageGetFreeSpaceLeft, pageGetFreeSpaceLeft, hsame.header]
  have hroom := (hslots.canFitPayload_iff hp hn).mp hfit'
  have hadd := hslots.pageAddItem_eq hp h0 hn hroom
  obtain ⟨new, res, hrun, hnew, hmetadata⟩ :=
    hsame.addItem hslots.nextItemId (hslots.metadata_small hp le_rfl) hadd continuesOnPage
  refine ⟨new, res, hrun, ?_, _, hslots.addedPage hid (fits_of_le_available h0 hroom),
    hslots.addedPage_counted hp hcount payload, ?_⟩
  · rw [hmetadata]
    rfl
  · rw [List.length_append]
    exact hnew

/-- An item in a live slot can be deleted. -/
theorem AccountsFor.deleteItem (h : AccountsFor pageSize pageId slots page) (hid : IsInt32 pageId)
    (hp : pageSize < 2 ^ 32) (hs : slots[i]? = some slot) (hlive : slot.deleted = false)
    (hitem : item.id.itemId = i) (hfresh : item.isDeleted = false) :
    ∃ new, pageDeleteItem page item = .ok (new, { item with isDeleted := true }) ∧
      AccountsFor pageSize pageId (deleteSlot slots i) new := by
  obtain ⟨page', hslots, hcount, hsame⟩ := h
  have hi := lt_length_of_getElem? hs
  have hlives := liveCount_deleteSlot hs hlive
  have hdelete := hslots.pageDeleteItem_eq hp hid hs (by rw [hcount]; omega) hitem hfresh
  obtain ⟨new, hrun, hnew⟩ := hsame.deleteItem hi hitem (hslots.metadata_small hp hi.le) hdelete
  refine ⟨new, hrun, _, hslots.deletedPage hs, deletedPage_counted hcount hs hlive, hnew.mono ?_⟩
  rw [deleteSlot]
  split
  · rw [List.length_dropLast]
    exact Nat.sub_le _ _
  · rw [List.length_modify]

theorem AccountsFor.getMetadata (h : AccountsFor pageSize pageId slots page) (hid : IsInt32 pageId)
    (hp : pageSize < 2 ^ 32) (hs : slots[i]? = some slot) (onPage : Int) :
    ∃ continuation, getMetadata page ⟨onPage, i⟩ =
      .ok ((slotMetadata pageSize pageId slots i slot).continuedOn continuation) := by
  obtain ⟨page', hslots, _, hsame⟩ := h
  have hi := lt_length_of_getElem? hs
  exact hsame.getMetadata hi rfl (hslots.metadata_small hp hi.le) (hslots.getMetadata_eq hp hid hs onPage)

theorem AccountsFor.live_slot (h : AccountsFor pageSize pageId slots page) (hid : IsInt32 pageId)
    (hp : pageSize < 2 ^ 32) {itemId : ItemIndex} {metadata : ItemMetadata}
    (hget : Storage.getMetadata page itemId = .ok metadata) (hlive : metadata.isDeleted = false)
    (hnext : itemId.itemId < page.pageHeader.nextItemId.itemId) :
    ∃ (i : Nat) (slot : Slot), itemId.itemId = i ∧ slots[i]? = some slot ∧ slot.deleted = false := by
  obtain ⟨onPage, itemId⟩ := itemId
  have hlow : 0 ≤ itemId := by
    by_contra hneg
    rw [Storage.getMetadata, if_pos (by simp only; omega)] at hget
    cases hget
  obtain ⟨i, rfl⟩ := Int.eq_ofNat_of_zero_le hlow
  obtain ⟨page', hslots, _, hsame⟩ := id h
  rw [hsame.header, hslots.nextItemId] at hnext
  have hi : i < slots.length := by
    simp only at hnext
    omega
  have hs := List.getElem?_eq_getElem hi
  obtain ⟨continuation, hslot⟩ := h.getMetadata hid hp hs onPage
  rw [hslot] at hget
  cases hget
  exact ⟨i, slots[i], rfl, hs, hlive⟩

end Accounts

section Metadata

variable {pageSize : Nat} {pageId : Int} {slots : List Slot} {page : Page} {entries : List ItemMetadata}

def pageMetadata (page : Page) : Except Fault (List ItemMetadata) :=
  (List.range page.pageHeader.nextItemId.itemId.toNat).mapM fun i : Nat => getMetadata page ⟨page.pageHeader.pageId, i⟩

def DataDisjoint (m m' : ItemMetadata) : Prop :=
  m.dataOffset + m.size ≤ m'.dataOffset ∨ m'.dataOffset + m'.size ≤ m.dataOffset

/-- The header of a page agrees with the metadata of its slots. -/
structure Accounted (pageSize : Nat) (pageId : Int) (page : Page) (entries : List ItemMetadata) : Prop where
  nextItemId : page.pageHeader.nextItemId.itemId = entries.length
  itemIds : ∀ (i : Nat) (m : ItemMetadata), entries[i]? = some m → m.itemId = ⟨pageId, i⟩
  freeSpaceStart : page.pageHeader.freeSpaceStartOffset = sizeofPageHeader + sizeofItemMetadata * entries.length
  freeSpaceEnd : page.pageHeader.freeSpaceEndOffset + (entries.map ItemMetadata.size).sum = pageSize
  ordered : page.pageHeader.freeSpaceStartOffset ≤ page.pageHeader.freeSpaceEndOffset
  itemsCount : page.pageHeader.itemsCount = entries.countP fun m => !m.isDeleted
  inside : ∀ m ∈ entries, page.pageHeader.freeSpaceEndOffset ≤ m.dataOffset ∧ m.dataOffset + m.size ≤ pageSize
  disjoint : entries.Pairwise DataDisjoint

def EntryFor (pageSize : Nat) (pageId : Int) (slots : List Slot) (i : Nat) (m : ItemMetadata) : Prop :=
  ∃ slot continuation, slots[i]? = some slot ∧ m = (slotMetadata pageSize pageId slots i slot).continuedOn continuation

structure EntriesFor (pageSize : Nat) (pageId : Int) (slots : List Slot) (entries : List ItemMetadata) : Prop where
  length : entries.length = slots.length
  entry : ∀ (i : Nat) (m : ItemMetadata), entries[i]? = some m → EntryFor pageSize pageId slots i m

theorem AccountsFor.pageMetadata (h : AccountsFor pageSize pageId slots page) (hid : IsInt32 pageId)
    (hp : pageSize < 2 ^ 32) :
    ∃ entries, pageMetadata page = .ok entries ∧ EntriesFor pageSize pageId slots entries := by
  obtain ⟨page', hslots, _, hsame⟩ := id h
  have hlength : page.pageHeader.nextItemId.itemId.toNat = slots.length := by
    rw [hsame.header, hslots.nextItemId, Int.toNat_natCast]
  have hentry (i : Nat) (hi : i ∈ List.range slots.length) :
      ∃ m, Storage.getMetadata page ⟨page.pageHeader.pageId, i⟩ = .ok m ∧ EntryFor pageSize pageId slots i m := by
    have hs := List.getElem?_eq_getElem (List.mem_range.mp hi)
    obtain ⟨continuation, hget⟩ := h.getMetadata hid hp hs page.pageHeader.pageId
    exact ⟨_, hget, _, continuation, hs, rfl⟩
  obtain ⟨entries, hread, hall⟩ := Program.mapM_exists hentry
  have hlen : entries.length = slots.length := by rw [← hall.length_eq, List.length_range]
  refine ⟨entries, ?_, hlen, ?_⟩
  · rw [Storage.pageMetadata, hlength]
    exact hread
  · intro i m hm
    obtain ⟨hi, rfl⟩ := List.getElem?_eq_some_iff.mp hm
    have hget := hall.get (show i < (List.range slots.length).length by rw [List.length_range, ← hlen]; exact hi) hi
    simpa using hget

theorem dataSize_take_mono (slots : List Slot) {i j : Nat} (h : i ≤ j) :
    dataSize (slots.take i) ≤ dataSize (slots.take j) := by
  have hle := dataSize_take_le (slots.take j) i
  rwa [List.take_take, Nat.min_eq_left h] at hle

theorem EntriesFor.map_eq {β : Type} (h : EntriesFor pageSize pageId slots entries) {f : ItemMetadata → β}
    {g : Slot → β}
    (hfg : ∀ i slot continuation, f ((slotMetadata pageSize pageId slots i slot).continuedOn continuation) = g slot) :
    entries.map f = slots.map g := by
  apply List.ext_getElem?
  intro i
  rw [List.getElem?_map, List.getElem?_map]
  cases hm : entries[i]? with
  | none =>
      rw [List.getElem?_eq_none_iff, h.length] at hm
      rw [List.getElem?_eq_none hm]
      rfl
  | some m =>
      obtain ⟨slot, continuation, hs, rfl⟩ := h.entry i m hm
      rw [hs, Option.map_some, Option.map_some, hfg]

theorem EntriesFor.sum_size (h : EntriesFor pageSize pageId slots entries) :
    (entries.map ItemMetadata.size).sum = dataSize slots := by
  rw [dataSize]
  exact congrArg List.sum (h.map_eq fun _ _ _ => rfl)

theorem EntriesFor.countP_live (h : EntriesFor pageSize pageId slots entries) :
    (entries.countP fun m => !m.isDeleted) = liveCount slots := by
  have hmap : entries.map ItemMetadata.isDeleted = slots.map Slot.deleted := h.map_eq fun _ _ _ => rfl
  have hcount := congrArg (List.countP fun deleted => !deleted) hmap
  rw [List.countP_map, List.countP_map] at hcount
  exact hcount

theorem AccountsFor.accounted (h : AccountsFor pageSize pageId slots page)
    (hentries : EntriesFor pageSize pageId slots entries) :
    Accounted pageSize pageId page entries := by
  obtain ⟨page', hslots, hcount, hsame⟩ := h
  have hroom := hslots.room
  have hstart := hslots.freeSpaceStart
  have hend := hslots.freeSpaceEnd
  rw [usedSpace] at hroom
  constructor
  case nextItemId => rw [hsame.header, hslots.nextItemId, hentries.length]
  case itemIds =>
    intro i m hm
    obtain ⟨slot, _, _, rfl⟩ := hentries.entry i m hm
    rfl
  case freeSpaceStart => rw [hsame.header, hstart, hentries.length]
  case freeSpaceEnd => rw [hsame.header, hentries.sum_size, hend]
  case ordered =>
    rw [hsame.header]
    omega
  case itemsCount => rw [hsame.header, hentries.countP_live, hcount]
  case inside =>
    intro m hm
    obtain ⟨i, hi⟩ := List.getElem?_of_mem hm
    obtain ⟨slot, _, hs, rfl⟩ := hentries.entry i m hi
    rw [hsame.header]
    exact hslots.data_fits hs
  case disjoint =>
    rw [List.pairwise_iff_getElem]
    intro i j hi hj hij
    obtain ⟨slot, _, hs, hm⟩ := hentries.entry i _ (List.getElem?_eq_getElem hi)
    obtain ⟨slot', _, hs', hm'⟩ := hentries.entry j _ (List.getElem?_eq_getElem hj)
    have hmono := dataSize_take_mono slots (show i + 1 ≤ j from hij)
    have hlast := dataSize_take_succ hs'
    have hle := dataSize_take_le slots (j + 1)
    right
    rw [hm, hm']
    simp only [slotMetadata, ItemMetadata.continuedOn, dataOffset]
    omega

end Metadata

section Runs

variable {pageSize : Nat} {pageId : Int} {slots : List Slot} {page new : Page} {ids : List ItemIndex}
  {items : List Item}
  {parts : List (ItemPayload × Int)}

/-- The item is not deleted, and neither is the slot that its id names. -/
def IsLive (page : Page) (item : Item) : Prop :=
  item.isDeleted = false ∧ item.id.itemId < page.pageHeader.nextItemId.itemId ∧
    ∃ metadata, getMetadata page item.id = .ok metadata ∧ metadata.isDeleted = false

/-- The pages that `page_new` makes, with payloads added that pass the size guard and live items
deleted, in any order. -/
inductive AccountRun (pageSize : Nat) (pageId : Int) : Page → Prop
  | new : AccountRun pageSize pageId (pageNew pageId pageSize)
  | add {page payload res} (continuesOnPage : Int) : AccountRun pageSize pageId page → 0 < payload.length →
      payload.length < 2 ^ 31 → pageCanFitPayload page payload.length = true →
      pageAddItem page payload continuesOnPage = .ok res → AccountRun pageSize pageId res.1
  | delete {page item res} : AccountRun pageSize pageId page → IsLive page item →
      pageDeleteItem page item = .ok res → AccountRun pageSize pageId res.1

theorem AccountsFor.deleteItem_live (h : AccountsFor pageSize pageId slots page) (hid : IsInt32 pageId)
    (hp : pageSize < 2 ^ 32) {item : Item} (hlive : IsLive page item) :
    ∃ new i, pageDeleteItem page item = .ok (new, { item with isDeleted := true }) ∧
      AccountsFor pageSize pageId (deleteSlot slots i) new := by
  obtain ⟨hfresh, hnext, metadata, hget, hslot⟩ := hlive
  obtain ⟨i, slot, hi, hs, hlive⟩ := h.live_slot hid hp hget hslot hnext
  obtain ⟨new, hrun, hnew⟩ := h.deleteItem hid hp hs hlive hi hfresh
  exact ⟨new, i, hrun, hnew⟩

theorem AccountRun.accountsFor (hid : IsInt32 pageId) (hheader : sizeofPageHeader ≤ pageSize) (hp : pageSize < 2 ^ 32)
    (h : AccountRun pageSize pageId page) : ∃ slots, AccountsFor pageSize pageId slots page := by
  induction h with
  | new => exact ⟨[], pageNew_accountsFor hheader pageId⟩
  | add continuesOnPage _ h0 hn hfit hadd ih =>
      obtain ⟨slots, hslots⟩ := ih
      obtain ⟨new, res, hrun, _, hnew⟩ := hslots.addItem hid hp h0 hn hfit continuesOnPage
      rw [hadd] at hrun
      cases hrun
      exact ⟨_, hnew⟩
  | delete _ hlive hdelete ih =>
      obtain ⟨slots, hslots⟩ := ih
      obtain ⟨new, i, hrun, hnew⟩ := hslots.deleteItem_live hid hp hlive
      rw [hdelete] at hrun
      cases hrun
      exact ⟨_, hnew⟩

def addItems (page : Page) : List (ItemPayload × Int) → Except Fault (Page × List ItemIndex)
  | [] => .ok (page, [])
  | part :: parts => do
    let added ← pageAddItem page part.1 part.2
    let rest ← addItems added.1 parts
    return (rest.1, added.2.metadata.itemId :: rest.2)

def deleteItems (page : Page) : List Item → Except Fault Page
  | [] => .ok page
  | item :: items => do
    let deleted ← pageDeleteItem page item
    deleteItems deleted.1 items

theorem addItems_cons {part : ItemPayload × Int} (h : addItems page (part :: parts) = .ok (new, ids)) :
    ∃ next res ids', pageAddItem page part.1 part.2 = .ok (next, res) ∧ addItems next parts = .ok (new, ids') ∧
      ids = res.metadata.itemId :: ids' := by
  rw [addItems] at h
  cases hadd : pageAddItem page part.1 part.2 with
  | error e =>
      rw [hadd] at h
      cases h
  | ok added =>
      rw [hadd] at h
      change (addItems added.1 parts >>= fun rest => pure (rest.1, added.2.metadata.itemId :: rest.2)) = _ at h
      cases hrest : addItems added.1 parts with
      | error e =>
          rw [hrest] at h
          cases h
      | ok rest =>
          rw [hrest] at h
          cases h
          exact ⟨added.1, added.2, rest.2, rfl, hrest, rfl⟩

theorem deleteItems_append {last : Item} {old : Page} (h : deleteItems page items = .ok old) :
    deleteItems page (items ++ [last]) = deleteItems old [last] := by
  induction items generalizing page with
  | nil =>
      cases h
      rfl
  | cons item items ih =>
      rw [deleteItems] at h
      simp only [List.cons_append]
      rw [deleteItems]
      cases hrun : pageDeleteItem page item with
      | error e =>
          rw [hrun] at h
          cases h
      | ok res =>
          rw [hrun] at h
          exact ih h

/-- Items that are added and then deleted in the reverse order leave the accounts as they were. -/
theorem AccountsFor.delete_added (hid : IsInt32 pageId) (hp : pageSize < 2 ^ 32)
    (h : AccountsFor pageSize pageId slots page) (hadd : addItems page parts = .ok (new, ids))
    (hparts : ∀ part ∈ parts, 0 < part.1.length ∧ part.1.length < 2 ^ 31) (hids : items.map Item.id = ids.reverse)
    (hfresh : ∀ item ∈ items, item.isDeleted = false) :
    ∃ old, deleteItems new items = .ok old ∧ AccountsFor pageSize pageId slots old := by
  induction parts generalizing slots page ids items with
  | nil =>
      cases hadd
      rw [List.reverse_nil, List.map_eq_nil_iff] at hids
      subst hids
      exact ⟨_, rfl, h⟩
  | cons part parts ih =>
      obtain ⟨next, res, ids', hpage, hrest, rfl⟩ := addItems_cons hadd
      obtain ⟨payload, continuesOnPage⟩ := part
      obtain ⟨⟨h0, hn⟩, hparts⟩ := List.forall_mem_cons.mp hparts
      have hfit : pageCanFitPayload page payload.length = true := by
        by_contra hfull
        rw [(pageAddItem_noSpace_iff page payload continuesOnPage).mpr (by simpa using hfull)] at hpage
        cases hpage
      obtain ⟨next', res', hpage', hitem, hnext⟩ := h.addItem hid hp h0 hn hfit continuesOnPage
      rw [hpage] at hpage'
      cases hpage'
      -- the first item that was added is the last one to be deleted
      rw [List.reverse_cons] at hids
      obtain ⟨later, first, rfl, hlater, hfirst⟩ := List.map_eq_append_iff.mp hids
      obtain ⟨last, rfl, hlast⟩ := List.map_eq_singleton_iff.mp hfirst
      obtain ⟨old, hdelete, hold⟩ := ih hnext hrest hparts hlater fun item hitem => hfresh item (by simp [hitem])
      have hslot : (slots ++ [(⟨payload, false⟩ : Slot)])[slots.length]? = some ⟨payload, false⟩ := by simp
      have hpop : deleteSlot (slots ++ [⟨payload, false⟩]) slots.length = slots := by
        rw [deleteSlot, if_pos (by simp), List.dropLast_concat]
      obtain ⟨page', hrun, hpage'⟩ := hold.deleteItem hid hp hslot rfl (by rw [hlast, hitem]) (hfresh last (by simp))
      rw [hpop] at hpage'
      refine ⟨page', ?_, hpage'⟩
      rw [deleteItems_append hdelete, deleteItems, hrun]
      rfl

end Runs

section Result

variable {pageSize : Nat} {pageId : Int} {slots : List Slot} {page old : Page}

structure SameCounters (page old : Page) : Prop where
  freeSpaceStart : old.pageHeader.freeSpaceStartOffset = page.pageHeader.freeSpaceStartOffset
  freeSpaceEnd : old.pageHeader.freeSpaceEndOffset = page.pageHeader.freeSpaceEndOffset
  nextItemId : old.pageHeader.nextItemId.itemId = page.pageHeader.nextItemId.itemId
  itemsCount : old.pageHeader.itemsCount = page.pageHeader.itemsCount

theorem AccountsFor.sameCounters (h : AccountsFor pageSize pageId slots page)
    (hold : AccountsFor pageSize pageId slots old) : SameCounters page old := by
  obtain ⟨page', hslots, hcount, hsame⟩ := h
  obtain ⟨old', hslots', hcount', hsame'⟩ := hold
  have hend := hslots.freeSpaceEnd
  have hend' := hslots'.freeSpaceEnd
  constructor
  case freeSpaceStart => rw [hsame.header, hsame'.header, hslots.freeSpaceStart, hslots'.freeSpaceStart]
  case freeSpaceEnd =>
    rw [hsame.header, hsame'.header]
    omega
  case nextItemId => rw [hsame.header, hsame'.header, hslots.nextItemId, hslots'.nextItemId]
  case itemsCount => rw [hsame.header, hsame'.header, hcount, hcount']

/-- On every page of a run the accounts are exact, what passes the guard can be added and live
items can be deleted, and deleting added items in the reverse order undoes their insertion. -/
theorem accountRun_accounted (hid : IsInt32 pageId) (hheader : sizeofPageHeader ≤ pageSize) (hp : pageSize < 2 ^ 31)
    (h : AccountRun pageSize pageId page) :
    page.pageHeader.pageId = pageId ∧
    (∃ entries, pageMetadata page = .ok entries ∧ Accounted pageSize pageId page entries) ∧
    (∀ (payload : ItemPayload) (continuesOnPage : Int), 0 < payload.length → payload.length < 2 ^ 31 →
      pageCanFitPayload page payload.length = true → ∃ res, pageAddItem page payload continuesOnPage = .ok res) ∧
    (∀ item, IsLive page item → ∃ res, pageDeleteItem page item = .ok res) ∧
    ∀ parts new ids items, addItems page parts = .ok (new, ids) →
      (∀ part ∈ parts, 0 < part.1.length ∧ part.1.length < 2 ^ 31) → items.map Item.id = ids.reverse →
      (∀ item ∈ items, item.isDeleted = false) → ∃ old, deleteItems new items = .ok old ∧ SameCounters page old := by
  have hp' : pageSize < 2 ^ 32 := by omega
  obtain ⟨slots, hslots⟩ := h.accountsFor hid hheader hp'
  refine ⟨?_, ?_, ?_, ?_, ?_⟩
  · obtain ⟨page', hslots, _, hsame⟩ := hslots
    rw [hsame.header, hslots.pageId]
  · obtain ⟨entries, hread, hentries⟩ := hslots.pageMetadata hid hp'
    exact ⟨entries, hread, hslots.accounted hentries⟩
  · intro payload continuesOnPage h0 hn hfit
    obtain ⟨new, res, hrun, _⟩ := hslots.addItem hid hp' h0 hn hfit continuesOnPage
    exact ⟨_, hrun⟩
  · intro item hlive
    obtain ⟨new, _, hrun, _⟩ := hslots.deleteItem_live hid hp' hlive
    exact ⟨_, hrun⟩
  · intro parts new ids items hadd hparts hids hfresh
    obtain ⟨old, hdelete, hold⟩ := hslots.delete_added hid hp' hadd hparts hids hfresh
    exact ⟨old, hdelete, hslots.sameCounters hold⟩

/-- Of two payloads the first has been deleted, and its slot is still there. -/
theorem accountRun_accounted_128 : ∃ page, AccountRun 128 3 page ∧ page.pageHeader.itemsCount = 1 ∧
    page.pageHeader.nextItemId.itemId = 2 ∧ ∃ entries, pageMetadata page = .ok entries ∧ Accounted 128 3 page entries := by
  have hfacts : (busyPages.map fun (first, second, last) =>
      (pageCanFitPayload first 2, second.pageHeader.nextItemId.itemId,
        (getMetadata second ⟨3, 0⟩).map ItemMetadata.isDeleted,
        last.pageHeader.itemsCount, last.pageHeader.nextItemId.itemId)) = .ok (true, 2, .ok false, 1, 2) := by
    decide +kernel
  obtain ⟨⟨first, second, last⟩, hpages, hfacts⟩ := partial_map_eq_ok hfacts
  simp only [Prod.mk.injEq] at hfacts
  obtain ⟨hfit, hnext, hget, hcount, hslots⟩ := hfacts
  obtain ⟨metadata, hget, hfresh⟩ := partial_map_eq_ok hget
  obtain ⟨_, _, _, hfirst, hsecond, hlast⟩ := busyPages_eq_ok hpages
  have hone := AccountRun.new.add nullPageIndex (by decide) (by decide) (by decide +kernel) hfirst
  have htwo := hone.add nullPageIndex (show 0 < [2, 3].length by decide) (by decide) hfit hsecond
  have hlive : IsLive second (createItem [1] ⟨3, 0⟩) := by
    refine ⟨rfl, ?_, metadata, hget, hfresh⟩
    rw [hnext]
    decide
  have hrun := htwo.delete hlive hlast
  exact ⟨last, hrun, hcount, hslots, (accountRun_accounted ⟨by decide, by decide⟩ (by decide) (by decide) hrun).2.1⟩

end Result

end DocumentDb.Storage
