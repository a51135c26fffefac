import DocumentDb.Storage.WriteThrough

namespace DocumentDb.Storage

open Bytes Program

section Slots

def lastSlots (store : List (List Slot)) : List Slot := (store[store.length - 1]?).getD []

def HasPlace (pageSize : Nat) (store : List (List Slot)) (size : Nat) : Prop :=
  minimumDataPartSizeBytes ≤ available pageSize (lastSlots store) ∧ size ≤ available pageSize (lastSlots store)

instance (pageSize : Nat) (store : List (List Slot)) (size : Nat) : Decidable (HasPlace pageSize store size) :=
  inferInstanceAs (Decidable (_ ∧ _))

/-- The slots after a payload has been put: it goes to the last page or to a new one. -/
def putSlots (pageSize : Nat) (store : List (List Slot)) (payload : ItemPayload) : List (List Slot) :=
  if HasPlace pageSize store payload.length then
    store.set (store.length - 1) (lastSlots store ++ [⟨payload, false⟩])
  else
    store ++ [[⟨payload, false⟩]]

def putId (pageSize : Nat) (store : List (List Slot)) (size : Nat) : ItemIndex :=
  if HasPlace pageSize store size then ⟨(store.length - 1 : Nat), (lastSlots store).length⟩
  else ⟨store.length, 0⟩

def deleteAt (store : List (List Slot)) (k i : Nat) : List (List Slot) :=
  store.modify k fun slots => deleteSlot slots i

def slotAt (store : List (List Slot)) (id : ItemIndex) : Option Slot :=
  match id.pageId, id.itemId with
  | .ofNat k, .ofNat i => store[k]?.bind fun slots => slots[i]?
  | _, _ => none

def liveBytes (store : List (List Slot)) (id : ItemIndex) : Option ItemPayload :=
  (slotAt store id).bind fun slot => if slot.deleted then none else some slot.data

section Lookup

variable {store : List (List Slot)} {k i : Nat} {slots : List Slot} {slot : Slot}

theorem slotAt_natCast (store : List (List Slot)) (k i : Nat) :
    slotAt store ⟨k, i⟩ = store[k]?.bind fun slots => slots[i]? := rfl

theorem slotAt_eq (hk : store[k]? = some slots) (i : Nat) : slotAt store ⟨k, i⟩ = slots[i]? := by
  rw [slotAt_natCast, hk]
  rfl

theorem slotAt_some {id : ItemIndex} (h : slotAt store id = some slot) :
    ∃ (k i : Nat) (slots : List Slot), id = ⟨k, i⟩ ∧ store[k]? = some slots ∧ slots[i]? = some slot := by
  obtain ⟨pageId, itemId⟩ := id
  cases pageId with
  | negSucc n => simp [slotAt] at h
  | ofNat k =>
      cases itemId with
      | negSucc n => simp [slotAt] at h
      | ofNat i =>
          obtain ⟨slots, hk, hi⟩ := Option.bind_eq_some_iff.mp h
          exact ⟨k, i, slots, rfl, hk, hi⟩

theorem liveBytes_some {id : ItemIndex} {bytes : ItemPayload} (h : liveBytes store id = some bytes) :
    ∃ (k i : Nat) (slots : List Slot) (slot : Slot), id = ⟨k, i⟩ ∧ store[k]? = some slots ∧
      slots[i]? = some slot ∧ slot.deleted = false ∧ slot.data = bytes := by
  obtain ⟨slot, hslot, hlive⟩ := Option.bind_eq_some_iff.mp h
  obtain ⟨k, i, slots, hid, hk, hi⟩ := slotAt_some hslot
  cases hdeleted : slot.deleted with
  | true => simp [hdeleted] at hlive
  | false => exact ⟨k, i, slots, slot, hid, hk, hi, hdeleted, by simpa [hdeleted] using hlive⟩

theorem liveBytes_eq (hk : store[k]? = some slots) (hi : slots[i]? = some slot)
    (hlive : slot.deleted = false) : liveBytes store ⟨k, i⟩ = some slot.data := by
  rw [liveBytes, slotAt_eq hk, hi]
  simp [hlive]

theorem liveBytes_congr {store' : List (List Slot)} {id : ItemIndex}
    (h : slotAt store' id = slotAt store id) : liveBytes store' id = liveBytes store id := by
  rw [liveBytes, liveBytes, h]

theorem slotAt_ext {store' : List (List Slot)} {except : ItemIndex}
    (h : ∀ k i : Nat, (⟨k, i⟩ : ItemIndex) ≠ except →
      (store'[k]?.bind fun slots => slots[i]?) = store[k]?.bind fun slots => slots[i]?)
    {id : ItemIndex} (hid : id ≠ except) : slotAt store' id = slotAt store id := by
  obtain ⟨pageId, itemId⟩ := id
  cases pageId with
  | negSucc n => rfl
  | ofNat k =>
      cases itemId with
      | negSucc n => rfl
      | ofNat i => exact h k i hid

theorem lastSlots_getElem? (hne : store ≠ []) : store[store.length - 1]? = some (lastSlots store) := by
  have hlt : store.length - 1 < store.length := by
    have := List.length_pos_iff.mpr hne
    omega
  rw [lastSlots, List.getElem?_eq_getElem hlt]
  rfl

theorem slotAt_putId (hne : store ≠ []) (pageSize size : Nat) :
    slotAt store (putId pageSize store size) = none := by
  rw [putId]
  split
  · rw [slotAt_eq (lastSlots_getElem? hne)]
    simp
  · rw [show (⟨(store.length : Int), 0⟩ : ItemIndex) = ⟨(store.length : Nat), (0 : Nat)⟩ from rfl,
      slotAt_natCast]
    simp

theorem slotAt_putSlots (hne : store ≠ []) (pageSize : Nat) (payload : ItemPayload) :
    slotAt (putSlots pageSize store payload) (putId pageSize store payload.length) =
      some ⟨payload, false⟩ := by
  have hlast := lastSlots_getElem? hne
  have hlt := lt_length_of_getElem? hlast
  rw [putId, putSlots]
  split
  · rw [slotAt_natCast, List.getElem?_set_self hlt]
    simp
  · rw [show (⟨(store.length : Int), 0⟩ : ItemIndex) = ⟨(store.length : Nat), (0 : Nat)⟩ from rfl,
      slotAt_natCast]
    simp

theorem slotAt_putSlots_ne (hne : store ≠ []) (pageSize : Nat) (payload : ItemPayload) {id : ItemIndex}
    (hid : id ≠ putId pageSize store payload.length) :
    slotAt (putSlots pageSize store payload) id = slotAt store id := by
  refine slotAt_ext (fun k i hki => ?_) hid
  have hlast := lastSlots_getElem? hne
  have hlt := lt_length_of_getElem? hlast
  rw [putId] at hki
  rw [putSlots]
  split at hki
  · rename_i hplace
    rw [if_pos hplace]
    by_cases hk : k = store.length - 1
    · subst hk
      rw [List.getElem?_set_self hlt, hlast]
      simp only [Option.bind_some]
      rcases Nat.lt_trichotomy i (lastSlots store).length with hi | hi | hi
      · rw [List.getElem?_append_left hi]
      · exact absurd (by rw [hi]) hki
      · rw [List.getElem?_eq_none (by simp; omega), List.getElem?_eq_none (by omega)]
    · rw [List.getElem?_set_ne (Ne.symm hk)]
  · rename_i hplace
    rw [if_neg hplace]
    rcases Nat.lt_trichotomy k store.length with hk | hk | hk
    · rw [List.getElem?_append_left hk]
    · subst hk
      have hi : i ≠ 0 := by
        rintro rfl
        exact hki rfl
      simp [hi]
    · rw [List.getElem?_eq_none (by simp; omega), List.getElem?_eq_none (by omega)]

theorem liveBytes_putSlots (hne : store ≠ []) (pageSize : Nat) (payload : ItemPayload) :
    liveBytes (putSlots pageSize store payload) =
      Function.update (liveBytes store) (putId pageSize store payload.length) (some payload) := by
  funext id
  by_cases hid : id = putId pageSize store payload.length
  · subst hid
    rw [Function.update_self, liveBytes, slotAt_putSlots hne]
    rfl
  · rw [Function.update_of_ne hid, liveBytes_congr (slotAt_putSlots_ne hne pageSize payload hid)]

theorem liveBytes_deleteAt (store : List (List Slot)) (k i : Nat) :
    liveBytes (deleteAt store k i) = Function.update (liveBytes store) ⟨k, i⟩ none := by
  funext id
  by_cases hid : id = ⟨k, i⟩
  · subst hid
    rw [Function.update_self, liveBytes, slotAt_natCast, deleteAt, List.getElem?_modify_eq]
    cases store[k]? with
    | none => rfl
    | some slots =>
        simp only [Option.map_eq_map, Option.map_some, Option.bind_some, deleteSlot]
        split
        · rw [List.getElem?_eq_none (by rw [List.length_dropLast]; omega)]
          rfl
        · rw [List.getElem?_modify_eq]
          cases slots[i]? <;> rfl
  · rw [Function.update_of_ne hid]
    refine liveBytes_congr (slotAt_ext (fun k' i' hne => ?_) hid)
    rw [deleteAt]
    by_cases hk : k = k'
    · subst hk
      have hi : i ≠ i' := by
        rintro rfl
        exact hne rfl
      rw [List.getElem?_modify_eq]
      cases store[k]? with
      | none => rfl
      | some slots =>
          simp only [Option.map_eq_map, Option.map_some, Option.bind_some, deleteSlot]
          split
          · rename_i hlast
            rcases Nat.lt_or_ge i' (slots.length - 1) with hlt | hge
            · rw [List.getElem?_dropLast, if_pos hlt]
            · rw [List.getElem?_eq_none (by rw [List.length_dropLast]; omega),
                List.getElem?_eq_none (by omega)]
          · rw [List.getElem?_modify_ne _ _ hi]
    · rw [List.getElem?_modify_ne _ _ hk]

end Lookup

end Slots

section Stores

variable {self t : PageManager} {signature : Int} {pageSize : Nat} {store : List (List Slot)}
  {payload : ItemPayload}

def Stores (signature : Int) (pageSize : Nat) (store : List (List Slot)) (self : PageManager) : Prop :=
  ∃ disk, Coherent self disk ∧ Settled disk ∧ AllCounted disk ∧ disk.pageSize = pageSize ∧
    disk.signature = signature ∧ disk.slots = store

theorem slots_setPage {disk : Disk} {k : Nat} {p : StoredPage} (h : HasSlots disk.pageSize k p.slots p.page) :
    (disk.setPage k p h).slots = disk.slots.set k p.slots := by
  rw [Disk.slots, Disk.setPage_pages, List.map_set]
  rfl

theorem slots_grow {disk : Disk} (hroom : disk.HasRoom) : (disk.grow hroom).slots = disk.slots ++ [[]] := by
  rw [Disk.slots, Disk.grow_pages, List.map_append]
  rfl

theorem AllCounted.setPage {disk : Disk} {k : Nat} {p : StoredPage} (hc : AllCounted disk)
    (h : HasSlots disk.pageSize k p.slots p.page) (hp : Counted p.slots p.page) :
    AllCounted (disk.setPage k p h) := EachPage.setPage hc h hp

theorem AllCounted.grow {disk : Disk} (hc : AllCounted disk) (hroom : disk.HasRoom) :
    AllCounted (disk.grow hroom) := EachPage.grow hc (pageNew_counted _ _) hroom

theorem slots_getElem? {disk : Disk} {k : Nat} {p : StoredPage} (hk : disk.pages[k]? = some p) :
    disk.slots[k]? = some p.slots := by
  rw [Disk.slots, List.getElem?_map, hk]
  rfl

theorem length_slots (disk : Disk) : disk.slots.length = disk.pages.length := List.length_map _

theorem lastSlots_eq {disk : Disk} {p : StoredPage} (hk : disk.pages[disk.pages.length - 1]? = some p) :
    lastSlots disk.slots = p.slots := by
  rw [lastSlots, length_slots, slots_getElem? hk]
  rfl

def putData (payload : ItemPayload) : PageManagerM ItemAddResult := do
  let page ← pageManagerGetPageForData
  pageManagerPutItem page payload

theorem stores_add {disk : Disk} {k : Nat} {p : StoredPage} (hk : disk.pages[k]? = some p)
    (hs : Settled disk) (hc : AllCounted disk)
    (hlayout : HasSlots disk.pageSize k (p.add disk.pageSize k payload).slots
      (p.add disk.pageSize k payload).page)
    (ht : Coherent t (disk.setPage k (p.add disk.pageSize k payload) hlayout)) :
    Stores disk.signature disk.pageSize (disk.slots.set k (p.slots ++ [⟨payload, false⟩])) t :=
  ⟨_, ht, hs.setPage _, hc.setPage _
    ((disk.layout k p hk).addedPage_counted disk.pageSize_lt (hc k p hk) payload), rfl, rfl, slots_setPage _⟩

theorem Stores.put_last (h : Stores signature pageSize store self) (h0 : 0 < payload.length)
    (hn : payload.length < 2 ^ 31) (hplace : HasPlace pageSize store payload.length) :
    ∃ res t, putData payload self = .ok res t ∧
      res.metadata.itemId = putId pageSize store payload.length ∧
      Stores signature pageSize (putSlots pageSize store payload) t := by
  obtain ⟨disk, hd, hs, hc, rfl, rfl, rfl⟩ := h
  obtain ⟨p, hp⟩ := hs.last
  have hlast := lastSlots_eq hp
  rw [putId, putSlots, if_pos hplace, if_pos hplace, hlast, length_slots]
  obtain ⟨hmin, hsize⟩ := hplace
  rw [hlast] at hmin hsize
  obtain ⟨a, u, hget, hu, ha, _⟩ := (hd.getPageForData hs hp).1 hmin
  obtain ⟨t, hput, ht⟩ := hu.putItem_here hp ha h0 hn hsize
  refine ⟨addResult disk.pageSize (disk.pages.length - 1) p payload, t, ?_, addResult_itemId _ _ p payload,
    stores_add hp hs hc _ ht⟩
  rw [putData]
  simp only [run_bind, hget, andThen_ok]
  exact hput

theorem Coherent.putData_new {disk : Disk} {p : StoredPage} (h : Coherent self disk) (hs : Settled disk)
    (hp : disk.pages[disk.pages.length - 1]? = some p) (h0 : 0 < payload.length)
    (hn : payload.length < 2 ^ 31)
    (hplace : ¬(minimumDataPartSizeBytes ≤ available disk.pageSize p.slots ∧
      payload.length ≤ available disk.pageSize p.slots)) :
    (∀ hroom : disk.HasRoom,
      (∀ hfits : payload.length ≤ available disk.pageSize [], ∃ t,
        putData payload self =
          .ok (addResult disk.pageSize disk.pages.length (nextPage disk) payload) t ∧
        Coherent t ((disk.grow hroom).setPage disk.pages.length
          ((nextPage disk).add disk.pageSize disk.pages.length payload)
          (StoredPage.add_hasSlots (Disk.grow_last hroom) (fits_of_le_available h0 hfits)))) ∧
      (available disk.pageSize [] < payload.length →
        (∃ e t, putData payload self = .error e t) ∨ AtLeast (2 ^ 32) (final (putData payload self)))) ∧
    (¬disk.HasRoom → AtLeast (2 ^ 32) (final (putData payload self))) := by
  obtain ⟨hstay, hgrow⟩ := h.getPageForData hs hp
  rcases le_or_gt minimumDataPartSizeBytes (available disk.pageSize p.slots) with hmin | hmin
  · -- the last page is too small for the payload
    have hfull : available disk.pageSize p.slots < payload.length := by
      by_contra hsize
      exact hplace ⟨hmin, Nat.le_of_not_lt hsize⟩
    obtain ⟨a, u, hget, hu, ha, _⟩ := hstay hmin
    obtain ⟨hnew, hover⟩ := hu.putItem_new hp ha h0 hn hfull
    have hrun : putData payload self = pageManagerPutItem a payload u := by
      rw [putData]
      simp only [run_bind, hget, andThen_ok]
    rw [hrun]
    exact ⟨fun hroom => ⟨(hnew hroom).1, fun hbig => Or.inl ((hnew hroom).2 hbig)⟩, hover⟩
  · -- the last page has been found full before the payload is looked at
    obtain ⟨hok, hover⟩ := hgrow hmin
    refine ⟨fun hroom => ?_, fun hfull => ?_⟩
    · obtain ⟨a, u, hget, hu, ha, _⟩ := hok hroom
      have hrun : putData payload self = pageManagerPutItem a payload u := by
        rw [putData]
        simp only [run_bind, hget, andThen_ok]
      rw [hrun]
      refine ⟨fun hfits => hu.putItem_here (Disk.grow_last hroom) ha h0 hn hfits, fun hbig => ?_⟩
      obtain ⟨hnew, hfull⟩ := hu.putItem_new (Disk.grow_last hroom) ha h0 hn hbig
      by_cases hagain : (disk.grow hroom).HasRoom
      · exact Or.inl ((hnew hagain).2 hbig)
      · exact Or.inr (hfull hagain)
    · rw [putData]
      rw [run_bind]
      exact Keeps.andThen (hover hfull) fun _ => keeps_putItem h0 hn _

theorem available_nil {n : Nat} (hfit : n + sizeofPageHeader + sizeofItemMetadata ≤ pageSize)
    (hp : pageSize < 2 ^ 31) : n ≤ available pageSize [] := by
  refine le_available_of_fits hp ?_
  rw [Fits, usedSpace]
  simp only [List.length_nil, dataSize_nil]
  omega

theorem fits_nil {n : Nat} (h0 : 0 < n) (h : n ≤ available pageSize []) :
    n + sizeofPageHeader + sizeofItemMetadata ≤ pageSize := by
  have hfits := fits_of_le_available h0 h
  rw [Fits, usedSpace] at hfits
  simp only [List.length_nil, dataSize_nil] at hfits
  omega

theorem Stores.put_new (h : Stores signature pageSize store self) (h0 : 0 < payload.length)
    (hfit : payload.length + sizeofPageHeader + sizeofItemMetadata ≤ pageSize) (hn : payload.length < 2 ^ 31)
    (hplace : ¬HasPlace pageSize store payload.length)
    (hroom : sizeofFileHeader + (store.length + 1) * pageSize < 2 ^ 32) :
    ∃ res t, putData payload self = .ok res t ∧
      res.metadata.itemId = putId pageSize store payload.length ∧
      Stores signature pageSize (putSlots pageSize store payload) t := by
  obtain ⟨disk, hd, hs, hc, rfl, rfl, rfl⟩ := h
  obtain ⟨p, hp⟩ := hs.last
  have hpos := hs.pages_pos
  rw [putId, putSlots, if_neg hplace, if_neg hplace]
  rw [HasPlace, lastSlots_eq hp] at hplace
  rw [length_slots] at hroom
  change disk.HasRoom at hroom
  have hempty : payload.length ≤ available disk.pageSize [] := by
    rw [Disk.HasRoom] at hroom
    have htwo := Nat.mul_le_mul_right disk.pageSize (show 2 ≤ disk.pages.length + 1 by omega)
    exact available_nil hfit (by omega)
  have hslots : (disk.grow hroom).slots.set disk.pages.length
      ((nextPage disk).slots ++ [⟨payload, false⟩]) = disk.slots ++ [[⟨payload, false⟩]] := by
    rw [slots_grow, ← length_slots, List.set_append_right _ _ le_rfl]
    simp [nextPage]
  obtain ⟨t, hrun, ht⟩ := ((hd.putData_new hs hp h0 hn hplace).1 hroom).1 hempty
  refine ⟨_, t, hrun, by rw [addResult_itemId, length_slots]; rfl, ?_⟩
  rw [← hslots]
  exact stores_add (Disk.grow_last hroom) (Disk.grow_settled hroom) (hc.grow hroom) _ ht

/-- A new page is only needed when the file has room for it, or it gets too long. -/
theorem Stores.room_of_below (h : Stores signature pageSize store self) (h0 : 0 < payload.length)
    (hn : payload.length < 2 ^ 31) (hplace : ¬HasPlace pageSize store payload.length)
    (hbelow : FileBelow (final (putData payload self))) :
    sizeofFileHeader + (store.length + 1) * pageSize < 2 ^ 32 := by
  obtain ⟨disk, hd, hs, hc, rfl, rfl, rfl⟩ := h
  obtain ⟨p, hp⟩ := hs.last
  rw [HasPlace, lastSlots_eq hp] at hplace
  by_contra hfull
  rw [length_slots] at hfull
  exact hbelow.not_atLeast ((hd.putData_new hs hp h0 hn hplace).2 hfull)

/-- Putting an item in a file with room for another page. -/
theorem Stores.put_of_room (h : Stores signature pageSize store self) (h0 : 0 < payload.length)
    (hfit : payload.length + sizeofPageHeader + sizeofItemMetadata ≤ pageSize) (hn : payload.length < 2 ^ 31)
    (hroom : ¬HasPlace pageSize store payload.length → sizeofFileHeader + (store.length + 1) * pageSize < 2 ^ 32) :
    ∃ res t, putData payload self = .ok res t ∧
      res.metadata.itemId = putId pageSize store payload.length ∧
      Stores signature pageSize (putSlots pageSize store payload) t := by
  by_cases hplace : HasPlace pageSize store payload.length
  · exact h.put_last h0 hn hplace
  · exact h.put_new h0 hfit hn hplace (hroom hplace)

theorem Stores.put (h : Stores signature pageSize store self) (h0 : 0 < payload.length)
    (hfit : payload.length + sizeofPageHeader + sizeofItemMetadata ≤ pageSize) (hn : payload.length < 2 ^ 31)
    (hbelow : FileBelow (final (putData payload self))) :
    ∃ res t, putData payload self = .ok res t ∧
      res.metadata.itemId = putId pageSize store payload.length ∧
      Stores signature pageSize (putSlots pageSize store payload) t := by
  by_cases hplace : HasPlace pageSize store payload.length
  · exact h.put_last h0 hn hplace
  · exact h.put_new h0 hfit hn hplace (h.room_of_below h0 hn hplace hbelow)

theorem Stores.put_fits {res : ItemAddResult} (h : Stores signature pageSize store self)
    (h0 : 0 < payload.length) (hn : payload.length < 2 ^ 31) (hrun : putData payload self = .ok res t)
    (hbelow : FileBelow t) : payload.length + sizeofPageHeader + sizeofItemMetadata ≤ pageSize := by
  by_cases hplace : HasPlace pageSize store payload.length
  · have hfits := fits_of_le_available h0 hplace.2
    rw [Fits] at hfits
    have hused : sizeofPageHeader ≤ usedSpace (lastSlots store) := by
      rw [usedSpace]
      omega
    omega
  · have hroom := h.room_of_below h0 hn hplace (by rw [hrun]; exact hbelow)
    obtain ⟨disk, hd, hs, hc, rfl, rfl, rfl⟩ := h
    obtain ⟨p, hp⟩ := hs.last
    rw [HasPlace, lastSlots_eq hp] at hplace
    rw [length_slots] at hroom
    rcases le_or_gt payload.length (available disk.pageSize []) with hle | hlt
    · exact fits_nil h0 hle
    · rcases ((hd.putData_new hs hp h0 hn hplace).1 hroom).2 hlt with ⟨e, u, herror⟩ | hbig
      · rw [hrun] at herror
        cases herror
      · rw [hrun] at hbig
        exact absurd hbig hbelow.not_atLeast

end Stores

section Access

variable {self t : PageManager} {signature : Int} {pageSize : Nat} {store : List (List Slot)}
  {a : PageAddr} {id : ItemIndex} {bytes : ItemPayload}

theorem Stores.numbers_lt (h : Stores signature pageSize store self) {k : Nat} {slots : List Slot}
    (hk : store[k]? = some slots) : k < 2 ^ 31 ∧ slots.length < 2 ^ 31 := by
  obtain ⟨disk, _, _, _, _, _, rfl⟩ := h
  rw [Disk.slots, List.getElem?_map] at hk
  obtain ⟨p, hp, rfl⟩ := Option.map_eq_some_iff.mp hk
  have hpages := disk.length_pages_lt
  have hlt := (List.getElem?_eq_some_iff.mp hp).1
  have hroom := (disk.layout k p hp).room
  have hsize := disk.pageSize_lt
  rw [usedSpace, sizeofItemMetadata] at hroom
  omega

theorem Stores.freePages (h : Stores signature pageSize store self) :
    ∃ t, pageManagerFreePages self = .ok () t ∧ Stores signature pageSize store t := by
  obtain ⟨disk, hd, hs, hc, hsize, hsig, hstore⟩ := h
  obtain ⟨t, hfree, ht⟩ := hd.freePages
  exact ⟨t, hfree, disk, ht, hs, hc, hsize, hsig, hstore⟩

theorem Stores.readPage (h : Stores signature pageSize store self) {k : Nat} (hk : k < store.length) :
    ∃ a t, pageManagerReadPage k self = .ok (.ok a) t ∧ Stores signature pageSize store t ∧
      PointsTo t a k := by
  obtain ⟨disk, hd, hs, hc, hsize, hsig, rfl⟩ := h
  rw [length_slots] at hk
  obtain ⟨a, t, hread, ht, ha, _⟩ := hd.readPage (List.getElem?_eq_getElem hk)
  exact ⟨a, t, hread, ⟨disk, ht, hs, hc, hsize, hsig, rfl⟩, _, ha,
    Disk.pageId_eq (List.getElem?_eq_getElem hk)⟩

theorem Stores.readPage_ok (h : Stores signature pageSize store self) {k : Nat} {res : Result PageAddr}
    (hread : pageManagerReadPage k self = .ok res t) : Stores signature pageSize store t := by
  by_cases hk : k < store.length
  · obtain ⟨a, u, hrun, hu, _⟩ := h.readPage hk
    rw [hrun] at hread
    cases hread
    exact hu
  · obtain ⟨disk, hd, _, _, _, _, rfl⟩ := h
    rw [length_slots] at hk
    have hn := disk.length_pages_lt
    have hguard : toInt32 (disk.pages.length : Nat) ≤ (k : Int) := by
      rw [toInt32_natCast (by omega)]
      omega
    rw [pageManagerReadPage] at hread
    simp only [run_bind, andThen_ok, run_get, hd.opened.pagesCount_eq, if_pos hguard, run_throw,
      andThen_error, reduceCtorEq] at hread

/-- What a pointer into the cache and a live id name on the disk. -/
theorem Coherent.locate {disk : Disk} (h : Coherent self disk) (ha : PointsTo self a id.pageId)
    (hlive : liveBytes disk.slots id = some bytes) :
    ∃ (k i : Nat) (p : StoredPage) (slot : Slot), id = ⟨k, i⟩ ∧ disk.pages[k]? = some p ∧
      findPage self a = some p.page ∧ p.slots[i]? = some slot ∧ slot.deleted = false ∧
      slot.data = bytes := by
  obtain ⟨k, i, slots, slot, rfl, hk, hi, hdeleted, hdata⟩ := liveBytes_some hlive
  rw [Disk.slots, List.getElem?_map] at hk
  obtain ⟨p, hp, rfl⟩ := Option.map_eq_some_iff.mp hk
  obtain ⟨page, hfind, hid⟩ := ha
  obtain ⟨j, q, hj, rfl, hq⟩ := h.cached_page hfind
  obtain rfl : j = k := by
    simp only [hq] at hid
    omega
  rw [hp] at hj
  cases hj
  exact ⟨j, i, p, slot, rfl, hp, hfind, hi, hdeleted, hdata⟩

/-- `page_manager_get_item` returns the bytes of a live id and changes nothing. -/
theorem Stores.get (h : Stores signature pageSize store self) (ha : PointsTo self a id.pageId)
    (hlive : liveBytes store id = some bytes) :
    pageManagerGetItem a id self = .ok (createItem bytes id) self := by
  obtain ⟨disk, hd, _, _, _, _, rfl⟩ := h
  obtain ⟨k, i, p, slot, rfl, hp, hfind, hi, hdeleted, rfl⟩ := hd.locate ha hlive
  exact hd.opened.getItem_live hp hfind hi hdeleted k

theorem Stores.get_ok (h : Stores signature pageSize store self) (ha : PointsTo self a id.pageId)
    {item : Item} (hget : pageManagerGetItem a id self = .ok item t) :
    t = self ∧ liveBytes store id = some item.payload := by
  obtain ⟨disk, hd, _, _, _, _, rfl⟩ := h
  obtain ⟨page, hfind, hid⟩ := ha
  obtain ⟨k, p, hp, rfl, hk⟩ := hd.cached_page hfind
  obtain ⟨rfl, i, slot, hi, hslot, hlive, rfl⟩ := hd.getItem_ok hp hfind hget
  refine ⟨rfl, ?_⟩
  obtain ⟨pageId, itemId⟩ := id
  simp only at hid hi
  subst hi
  rw [← hid, hk]
  exact liveBytes_eq (slots_getElem? hp) hslot hlive

theorem Stores.delete {k i : Nat} {item : Item} (h : Stores signature pageSize store self)
    (ha : PointsTo self a k) (hitem : item.id = ⟨k, i⟩) (hfresh : item.isDeleted = false)
    (hlive : liveBytes store ⟨k, i⟩ = some bytes) :
    ∃ t, pageManagerDeleteItem a item self = .ok { item with isDeleted := true } t ∧
      Stores signature pageSize (deleteAt store k i) t := by
  obtain ⟨disk, hd, hs, hc, hsize, hsig, rfl⟩ := h
  obtain ⟨k', i', p, slot, hid, hp, hfind, hi, hdeleted, rfl⟩ := hd.locate ha hlive
  obtain ⟨rfl, rfl⟩ : k = k' ∧ i = i' := by simpa using hid
  have hcounted := hc k p hp
  have hcount : 0 < p.page.pageHeader.itemsCount := by
    rw [hcounted]
    exact List.countP_pos_iff.mpr ⟨slot, List.mem_of_getElem? hi, by simp [hdeleted]⟩
  obtain ⟨t, hrun, ht⟩ := hd.deleteItem hp hfind hi hcount (by rw [hitem]) hfresh
  refine ⟨t, hrun, _, ht, hs.setPage _, hc.setPage _ (deletedPage_counted hcounted hi hdeleted), hsize, hsig,
    ?_⟩
  rw [slots_setPage]
  refine List.ext_getElem? fun j => ?_
  rw [deleteAt, List.getElem?_set, List.getElem?_modify]
  by_cases hj : k = j
  · subst hj
    rw [if_pos rfl, if_pos (by rw [length_slots]; exact Disk.lt_length hp), slots_getElem? hp]
    simp [StoredPage.delete]
  · rw [if_neg hj]
    simp [hj]

end Access

section Opening

variable {self t : PageManager} {signature : Int} {pageSize : Nat} {store : List (List Slot)}

theorem stores_init (hsig : IsInt32 signature) (hmax : pageSize < 2 ^ 32) {res : Result Unit}
    (hinit : pageManagerInit pageSize signature (pageManagerNew (fileOpen none noFaults)) = .ok res t)
    (hbelow : FileBelow t) : res = .ok () ∧ Stores signature pageSize [[]] t := by
  have hmin : sizeofPageHeader ≤ pageSize := pageManagerInit_ok_le hmax hinit
  obtain ⟨hnew, hover⟩ := pageManagerInit_new hsig hmin hmax
  by_cases hroom : sizeofFileHeader + pageSize < 2 ^ 32
  · obtain ⟨u, hrun, hu⟩ := hnew hroom
    rw [hrun] at hinit
    cases hinit
    refine ⟨rfl, _, hu, freshDisk_settled hsig hmin hroom, ?_, rfl, rfl, rfl⟩
    intro k p hk
    obtain ⟨_, rfl⟩ := List.getElem?_eq_some_iff.mp hk
    have hone : (freshDisk signature pageSize hsig hmin hroom).pages =
        [nextPage (emptyDisk signature pageSize hsig hmin hmax)] := rfl
    simp only [hone, List.getElem_singleton]
    exact pageNew_counted _ _
  · have hbig := hover hroom
    rw [hinit] at hbig
    exact absurd hbig hbelow.not_atLeast

theorem Stores.reopen (h : Stores signature pageSize store self) (pageSize' : Nat) :
    ∃ t, pageManagerInit pageSize' signature
        (pageManagerNew (fileOpen (some self.fileManager.file.content) noFaults)) = .ok (.ok ()) t ∧
      Stores signature pageSize store t := by
  obtain ⟨disk, hd, hs, hc, hsize, hsig, hstore⟩ := h
  obtain ⟨t, a, page, hinit, ht, _⟩ := pageManagerInit_existing hs pageSize'
  rw [hsig, ← hd.opened.content] at hinit
  exact ⟨t, hinit, disk, ht, hs, hc, hsize, hsig, hstore⟩

end Opening

end DocumentDb.Storage
