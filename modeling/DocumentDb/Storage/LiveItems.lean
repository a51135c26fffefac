import DocumentDb.Storage.MapRefinement
import Mathlib.Data.List.Sort

namespace DocumentDb.Storage

open Bytes Program

section Order

def Before (a b : ItemIndex) : Prop := a.pageId < b.pageId ∨ a.pageId = b.pageId ∧ a.itemId < b.itemId

instance (a b : ItemIndex) : Decidable (Before a b) := inferInstanceAs (Decidable (_ ∨ _))

theorem Before.trans {a b c : ItemIndex} (h : Before a b) (h' : Before b c) : Before a c := by
  rw [Before] at *
  omega

theorem Before.irrefl (a : ItemIndex) : ¬Before a a := by
  rw [Before]
  omega

theorem Before.ne {a b : ItemIndex} (h : Before a b) : a ≠ b := by
  rintro rfl
  exact Before.irrefl a h

def ItemBefore (a b : Item) : Prop := Before a.id b.id

instance : Std.Irrefl ItemBefore := ⟨fun a => Before.irrefl a.id⟩

instance : Std.Antisymm ItemBefore := ⟨fun a _ h h' => absurd (h.trans h') (Before.irrefl a.id)⟩

end Order

section Items

def pagesVisits : Nat → List (List Slot) → List (ItemIndex × Slot)
  | _, [] => []
  | k, slots :: pages => slotVisits k 0 slots ++ pagesVisits (k + 1) pages

def liveItem (v : ItemIndex × Slot) : Option Item :=
  if v.2.deleted then none else some (createItem v.2.data v.1)

def liveItems (store : List (List Slot)) : List Item := (pagesVisits 0 store).filterMap liveItem

variable {store : List (List Slot)} {slots : List Slot} {v : ItemIndex × Slot} {k i : Nat} {item : Item}

theorem liveItem_eq_some : liveItem v = some item ↔ v.2.deleted = false ∧ createItem v.2.data v.1 = item := by
  rw [liveItem]
  cases v.2.deleted <;> simp

theorem mem_slotVisits :
    v ∈ slotVisits k i slots ↔ ∃ j slot, slots[j]? = some slot ∧ v = (⟨k, (i + j : Nat)⟩, slot) := by
  induction slots generalizing i with
  | nil => simp [slotVisits]
  | cons slot slots ih =>
      rw [slotVisits, List.mem_cons, ih]
      constructor
      · rintro (rfl | ⟨j, slot', hj, rfl⟩)
        · exact ⟨0, slot, rfl, rfl⟩
        · exact ⟨j + 1, slot', hj, by rw [Nat.add_right_comm, Nat.add_assoc]⟩
      · rintro ⟨_ | j, slot', hj, rfl⟩
        · exact Or.inl (by cases hj; rfl)
        · exact Or.inr ⟨j, slot', hj, by rw [Nat.add_right_comm, Nat.add_assoc]⟩

theorem mem_pagesVisits : v ∈ pagesVisits k store ↔
    ∃ (j : Nat) (slots : List Slot) (i : Nat) (slot : Slot), store[j]? = some slots ∧ slots[i]? = some slot ∧
      v = (⟨(k + j : Nat), i⟩, slot) := by
  induction store generalizing k with
  | nil => simp [pagesVisits]
  | cons slots pages ih =>
      rw [pagesVisits, List.mem_append, mem_slotVisits, ih]
      constructor
      · rintro (⟨i, slot, hi, rfl⟩ | ⟨j, slots', i, slot, hj, hi, rfl⟩)
        · exact ⟨0, slots, i, slot, rfl, hi, by rw [Nat.zero_add, Nat.add_zero]⟩
        · exact ⟨j + 1, slots', i, slot, hj, hi, by rw [Nat.add_right_comm, Nat.add_assoc]⟩
      · rintro ⟨_ | j, slots', i, slot, hj, hi, rfl⟩
        · cases hj
          exact Or.inl ⟨i, slot, hi, by rw [Nat.zero_add, Nat.add_zero]⟩
        · exact Or.inr ⟨j, slots', i, slot, hj, hi, by rw [Nat.add_right_comm, Nat.add_assoc]⟩

theorem mem_liveItems :
    item ∈ liveItems store ↔ liveBytes store item.id = some item.payload ∧ item.isDeleted = false := by
  rw [liveItems, List.mem_filterMap]
  constructor
  · rintro ⟨v, hv, hitem⟩
    obtain ⟨hlive, rfl⟩ := liveItem_eq_some.mp hitem
    obtain ⟨k, slots, i, slot, hk, hi, rfl⟩ := mem_pagesVisits.mp hv
    rw [Nat.zero_add]
    exact ⟨liveBytes_eq hk hi hlive, rfl⟩
  · rintro ⟨hbytes, hfresh⟩
    obtain ⟨k, i, slots, slot, hid, hk, hi, hlive, hdata⟩ := liveBytes_some hbytes
    refine ⟨(⟨k, i⟩, slot), mem_pagesVisits.mpr ⟨k, slots, i, slot, hk, hi, by rw [Nat.zero_add]⟩,
      liveItem_eq_some.mpr ⟨hlive, ?_⟩⟩
    obtain ⟨id, isDeleted, payload⟩ := item
    simp only at hid hdata hfresh
    subst hid hdata hfresh
    rfl

theorem pairwise_slotVisits (k i : Nat) (slots : List Slot) :
    (slotVisits k i slots).Pairwise fun v w => Before v.1 w.1 := by
  induction slots generalizing i with
  | nil => exact List.Pairwise.nil
  | cons slot slots ih =>
      refine List.pairwise_cons.mpr ⟨fun w hw => ?_, ih (i + 1)⟩
      obtain ⟨j, _, _, rfl⟩ := mem_slotVisits.mp hw
      exact Or.inr ⟨rfl, by simp only; omega⟩

theorem pairwise_pagesVisits (k : Nat) (store : List (List Slot)) :
    (pagesVisits k store).Pairwise fun v w => Before v.1 w.1 := by
  induction store generalizing k with
  | nil => exact List.Pairwise.nil
  | cons slots pages ih =>
      refine List.pairwise_append.mpr ⟨pairwise_slotVisits k 0 slots, ih (k + 1), fun v hv w hw => ?_⟩
      obtain ⟨_, _, _, rfl⟩ := mem_slotVisits.mp hv
      obtain ⟨j, _, _, _, _, _, rfl⟩ := mem_pagesVisits.mp hw
      exact Or.inl (by simp only; omega)

theorem pairwise_liveItems (store : List (List Slot)) : (liveItems store).Pairwise ItemBefore := by
  refine (pairwise_pagesVisits 0 store).filterMap liveItem fun v w hvw a ha b hb => ?_
  obtain ⟨_, rfl⟩ := liveItem_eq_some.mp ha
  obtain ⟨_, rfl⟩ := liveItem_eq_some.mp hb
  exact hvw

end Items

section Updates

variable {store : List (List Slot)} {item : Item}

theorem before_putId (pageSize size : Nat) (hitem : item ∈ liveItems store) :
    Before item.id (putId pageSize store size) := by
  obtain ⟨k, i, slots, slot, hid, hk, hi, _⟩ := liveBytes_some (mem_liveItems.mp hitem).1
  have hklt := lt_length_of_getElem? hk
  have hilt := lt_length_of_getElem? hi
  rw [hid]
  rw [putId, Before]
  split
  · rcases Nat.lt_or_eq_of_le (show k ≤ store.length - 1 by omega) with hlt | rfl
    · exact Or.inl (by simp only; omega)
    · refine Or.inr ⟨rfl, ?_⟩
      rw [lastSlots, hk, Option.getD_some]
      simp only
      omega
  · exact Or.inl (by simp only; omega)

theorem liveItems_putSlots (hne : store ≠ []) (pageSize : Nat) (payload : ItemPayload) :
    liveItems (putSlots pageSize store payload) =
      liveItems store ++ [createItem payload (putId pageSize store payload.length)] := by
  refine (pairwise_liveItems _).eq_of_mem_iff ?_ fun item => ?_
  · refine List.pairwise_append.mpr ⟨pairwise_liveItems _, List.pairwise_singleton _ _, ?_⟩
    intro a ha b hb
    rw [List.mem_singleton] at hb
    subst hb
    exact before_putId pageSize payload.length ha
  · rw [List.mem_append, List.mem_singleton, mem_liveItems, mem_liveItems, liveBytes_putSlots hne]
    obtain ⟨id, isDeleted, bytes⟩ := item
    simp only [createItem, Item.mk.injEq]
    by_cases hid : id = putId pageSize store payload.length
    · have hfree : liveBytes store id = none := by
        rw [hid, liveBytes, slotAt_putId hne]
        rfl
      rw [hid, Function.update_self, ← hid, hfree]
      constructor
      · rintro ⟨hbytes, hfresh⟩
        cases hbytes
        exact Or.inr ⟨rfl, hfresh, rfl⟩
      · rintro (⟨⟨⟩, _⟩ | ⟨_, rfl, rfl⟩)
        exact ⟨rfl, rfl⟩
    · rw [Function.update_of_ne hid]
      simp [hid]

theorem liveItems_deleteAt (store : List (List Slot)) (k i : Nat) :
    liveItems (deleteAt store k i) = (liveItems store).filter fun item => item.id ≠ ⟨k, i⟩ := by
  refine (pairwise_liveItems _).eq_of_mem_iff ((pairwise_liveItems _).filter _) fun item => ?_
  rw [List.mem_filter, mem_liveItems, mem_liveItems, liveBytes_deleteAt]
  by_cases hid : item.id = ⟨k, i⟩
  · simp [hid]
  · rw [Function.update_of_ne hid]
    simp [hid]

end Updates

section Stored

variable {self : PageManager} {signature : Int} {pageSize : Nat} {store : List (List Slot)}

def pageItems (page : Page) : List Item :=
  (List.range page.pageHeader.nextItemId.itemId.toNat).filterMap fun i =>
    match pageGetItem page ⟨page.pageHeader.pageId, (i : Nat)⟩ with
    | .ok (.ok item) => some item
    | _ => none

def storedItems (pm : PageManager) : List Item :=
  (List.range (pageManagerGetPagesCount pm)).flatMap fun k => pageItems (decodePage (pageOnDisk pm k))

theorem slotVisits_eq_range (k i : Nat) (slots : List Slot) :
    (slotVisits k i slots).filterMap liveItem =
      (List.range slots.length).filterMap fun j =>
        slots[j]?.bind fun slot => liveItem (⟨k, (i + j : Nat)⟩, slot) := by
  induction slots generalizing i with
  | nil => rfl
  | cons slot slots ih =>
      rw [slotVisits, List.length_cons, List.range_succ_eq_map, List.filterMap_cons, List.filterMap_cons,
        List.filterMap_map, ih]
      have htail : ((fun j : Nat => (slot :: slots)[j]?.bind fun slot => liveItem (⟨k, (i + j : Nat)⟩, slot)) ∘
          Nat.succ) = fun j : Nat => slots[j]?.bind fun slot => liveItem (⟨k, (i + 1 + j : Nat)⟩, slot) := by
        funext j
        simp [Nat.add_assoc, Nat.add_comm 1 j]
      rw [htail]
      rfl

theorem HasSlots.pageItems_eq {k : Nat} {slots : List Slot} {page : Page}
    (h : HasSlots pageSize k slots page) (hp : pageSize < 2 ^ 32) (hid : IsInt32 k) :
    pageItems page = (slotVisits k 0 slots).filterMap liveItem := by
  rw [slotVisits_eq_range, pageItems, h.nextItemId, h.pageId, Int.toNat_natCast]
  refine List.filterMap_congr fun i hi => ?_
  obtain ⟨slot, hs⟩ : ∃ slot, slots[i]? = some slot :=
    ⟨_, List.getElem?_eq_getElem (List.mem_range.mp hi)⟩
  rw [hs, Option.bind_some, Nat.zero_add]
  cases hdeleted : slot.deleted with
  | true =>
      rw [h.getItem_deleted hp hid hs hdeleted, liveItem, if_pos hdeleted]
  | false =>
      rw [h.getItem_live hp hid hs hdeleted, liveItem, if_neg (by simp [hdeleted])]

theorem pagesVisits_eq_range (k : Nat) (store : List (List Slot)) :
    pagesVisits k store =
      (List.range store.length).flatMap fun j => slotVisits (k + j) 0 (store[j]?.getD []) := by
  induction store generalizing k with
  | nil => rfl
  | cons slots pages ih =>
      rw [pagesVisits, List.length_cons, List.range_succ_eq_map, List.flatMap_cons, List.flatMap_map, ih]
      simp [Nat.add_assoc, Nat.add_comm 1]

theorem Opened.storedItems_eq {disk : Disk} (h : Opened self.fileManager disk) :
    storedItems self = liveItems disk.slots := by
  rw [storedItems, liveItems, pagesVisits_eq_range, h.pagesCount_eq, length_slots,
    List.filterMap_flatMap]
  refine List.flatMap_congr fun k hk => ?_
  have hp := List.getElem?_eq_getElem (List.mem_range.mp hk)
  rw [h.pageOnDisk_eq hp, decodePage_encode (Disk.inRange hp), slots_getElem? hp, Option.getD_some,
    Nat.zero_add]
  exact (disk.layout k _ hp).pageItems_eq disk.pageSize_lt (isInt32_natCast
    (by have := disk.length_pages_lt; have := List.mem_range.mp hk; omega))

theorem Stores.storedItems_eq (h : Stores signature pageSize store self) : storedItems self = liveItems store := by
  obtain ⟨disk, hd, _, _, _, _, rfl⟩ := h
  exact hd.opened.storedItems_eq

end Stored

end DocumentDb.Storage
