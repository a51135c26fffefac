import DocumentDb.Storage.ItemOperations
import DocumentDb.Storage.Iterator

namespace DocumentDb.Storage

open Bytes Program

section Visits

def slotVisits (k : Nat) : Nat → List Slot → List (ItemIndex × Slot)
  | _, [] => []
  | i, slot :: slots => (⟨k, i⟩, slot) :: slotVisits k (i + 1) slots

/-- The pages behind the first one are skipped when all their items are deleted. -/
def laterVisits : Nat → List (List Slot) → List (ItemIndex × Slot)
  | _, [] => []
  | k, slots :: pages => (if 0 < liveCount slots then slotVisits k 0 slots else []) ++ laterVisits (k + 1) pages

/-- The slots that a scan meets. Of the first page it takes every slot. -/
def visits : List (List Slot) → List (ItemIndex × Slot)
  | [] => []
  | slots :: pages => slotVisits 0 0 slots ++ laterVisits 1 pages

variable {γ : Type}

/-- A scan in terms of the slots it meets, with the id at which it is left early. -/
def runVisits (body : γ → Item → Except Fault (ForInStep γ)) :
    γ → List (ItemIndex × Slot) → Except Fault (γ × Option ItemIndex)
  | acc, [] => .ok (acc, none)
  | acc, (id, slot) :: rest =>
    if slot.deleted then
      .error (.assertion "metadata->is_deleted == false")
    else
      match body acc (createItem slot.data id) with
      | .error e => .error e
      | .ok (.done acc) => .ok (acc, some id)
      | .ok (.yield acc) => runVisits body acc rest

theorem length_slotVisits (k i : Nat) (slots : List Slot) : (slotVisits k i slots).length = slots.length := by
  induction slots generalizing i with
  | nil => rfl
  | cons slot slots ih => rw [slotVisits, List.length_cons, ih, List.length_cons]

theorem slotVisits_drop {k i : Nat} {slots : List Slot} {slot : Slot} (hs : slots[i]? = some slot) :
    slotVisits k i (slots.drop i) = (⟨k, i⟩, slot) :: slotVisits k (i + 1) (slots.drop (i + 1)) := by
  rw [List.drop_eq_getElem?_toList_append, hs]
  rfl

theorem length_laterVisits_le {pageSize : Nat} {pages : List (List Slot)}
    (h : ∀ slots ∈ pages, slots.length ≤ pageSize) (k : Nat) :
    (laterVisits k pages).length ≤ pages.length * pageSize := by
  induction pages generalizing k with
  | nil => simp [laterVisits]
  | cons slots pages ih =>
      have hhead := h slots List.mem_cons_self
      have htail := ih (fun s hs => h s (List.mem_cons_of_mem _ hs)) (k + 1)
      rw [laterVisits, List.length_append, List.length_cons, Nat.succ_mul]
      split
      · rw [length_slotVisits]
        omega
      · simp only [List.length_nil]
        omega

end Visits

section HasNext

variable {self t : PageManager} {disk : Disk} {a b : PageAddr} {k i : Nat} {p : StoredPage} {slot : Slot}
  {it : ItemIterator} {c : Prop}

def AllCounted (disk : Disk) : Prop :=
  ∀ (k : Nat) (p : StoredPage), disk.pages[k]? = some p → Counted p.slots p.page

structure At (pm : PageManager) (disk : Disk) (it : ItemIterator) (k i : Nat) (p : StoredPage) : Prop where
  page : disk.pages[k]? = some p
  cached : ∃ a, it.pageIterator = ⟨k + 1, some a⟩ ∧ findPage pm a = some p.page
  index : it.currentItemIndex = (i : Int) - 1
  index_le : i ≤ p.slots.length
  alive : it.isReleased = false

def restVisits (disk : Disk) (k i : Nat) (p : StoredPage) : List (ItemIndex × Slot) :=
  slotVisits k i (p.slots.drop i) ++ laterVisits (k + 1) (disk.slots.drop (k + 1))

theorem Opened.pageIteratorHasNext_eq (h : Opened self.fileManager disk) (k : Nat) (a : Option PageAddr) :
    pageIteratorHasNext ⟨k, a⟩ self = .ok (decide (k < disk.pages.length)) self := by
  have hn := disk.length_pages_lt
  rw [pageIteratorHasNext]
  simp only [run_bind, andThen_ok, run_get, h.pagesCount_eq, run_pure, toInt32_natCast
    (show disk.pages.length < 2 ^ 31 by omega), Nat.cast_lt]

theorem Opened.pageIteratorNext_eq (h : Opened self.fileManager disk) (hk : disk.pages[k]? = some p)
    (a : Option PageAddr) :
    ∃ b t, pageIteratorNext ⟨k, a⟩ self = .ok (.ok (), ⟨k + 1, some b⟩) t ∧ Coherent t disk ∧
      findPage t b = some p.page := by
  have hlt := Disk.lt_length hk
  obtain ⟨s, hfree, hs⟩ := h.freePages
  obtain ⟨b, t, hread, ht, hb, _⟩ := hs.readPage hk
  refine ⟨b, t, ?_, ht, hb⟩
  rw [pageIteratorNext]
  simp only [run_bind, andThen_ok, h.pageIteratorHasNext_eq, hlt, decide_true, reduceCtorEq, if_false, hfree, hread,
    run_pure]

theorem disk_slots_drop (hk : disk.pages[k]? = some p) :
    disk.slots.drop k = p.slots :: disk.slots.drop (k + 1) := by
  have hs : disk.slots[k]? = some p.slots := by
    rw [Disk.slots, List.getElem?_map, hk]
    rfl
  rw [List.drop_eq_getElem?_toList_append, hs]
  rfl

/-- What `item_iterator_has_next` returns when `rest` is still to be visited. The cache agrees with the file
afterwards if `c` says that it did before. -/
def Answers (disk : Disk) (c : Prop) (rest : List (ItemIndex × Slot)) (x : PageManagerM (Bool × ItemIterator))
    (self : PageManager) : Prop :=
  ∃ it t, x self = .ok (decide (rest ≠ []), it) t ∧ Opened t.fileManager disk ∧ (c → Coherent t disk) ∧
    it.isReleased = false ∧
    (rest ≠ [] → ∃ j i p, At t disk it j i p ∧ i < p.slots.length ∧ restVisits disk j i p = rest)

theorem Opened.hasNextLoop_eq (h : Opened self.fileManager disk) (hagrees : c → Coherent self disk)
    (hc : AllCounted disk) {fuel : Nat}
    (hk : k ≤ disk.pages.length) (hfuel : disk.pages.length < fuel + k) (hit : it.pageIterator.nextPageId = k)
    (halive : it.isReleased = false) :
    Answers disk c (laterVisits k (disk.slots.drop k)) (hasNextLoop fuel it) self := by
  induction fuel generalizing k it self with
  | zero => omega
  | succ fuel ih =>
      obtain ⟨⟨next, a⟩, index, released⟩ := it
      simp only at hit halive
      subst hit halive
      by_cases hlt : k < disk.pages.length
      · have hpage := List.getElem?_eq_getElem hlt
        obtain ⟨b, t, hnext, ht, hb⟩ := h.pageIteratorNext_eq hpage a
        have hcount := hc k _ hpage
        rw [Counted] at hcount
        have hrun : hasNextLoop (fuel + 1) ⟨⟨k, a⟩, index, false⟩ self =
            (if 0 < liveCount disk.pages[k].slots then
              .ok (true, ⟨⟨k + 1, some b⟩, -1, false⟩) t
            else hasNextLoop fuel ⟨⟨k + 1, some b⟩, index, false⟩ t) := by
          rw [hasNextLoop]
          simp only [run_bind, h.pageIteratorHasNext_eq, hlt, decide_true, reduceCtorEq, if_false, hnext,
            andThen_ok, run_abortIfFail_ok, run_loadPage hb, hcount, run_ite, run_pure]
        rw [Answers]
        rw [hrun, disk_slots_drop hpage, laterVisits]
        by_cases hlive : 0 < liveCount disk.pages[k].slots
        · have hpos : 0 < disk.pages[k].slots.length :=
            hlive.trans_le List.countP_le_length
          have hvisit : slotVisits k 0 disk.pages[k].slots ++
              laterVisits (k + 1) (disk.slots.drop (k + 1)) ≠ [] := by
            rw [← List.length_pos_iff, List.length_append, length_slotVisits]
            omega
          rw [if_pos hlive, if_pos hlive]
          exact ⟨_, t, by rw [decide_eq_true hvisit], ht.opened, fun _ => ht, rfl, fun _ => ⟨k, 0, disk.pages[k],
            ⟨hpage, ⟨b, rfl, hb⟩, rfl, Nat.zero_le _, rfl⟩, hpos, rfl⟩⟩
        · rw [if_neg hlive, if_neg hlive, List.nil_append]
          exact ih ht.opened (fun _ => ht) hlt (by omega) rfl rfl
      · have hdrop : disk.slots.drop k = [] := by
          rw [List.drop_eq_nil_iff, Disk.slots, List.length_map]
          omega
        refine ⟨⟨⟨k, a⟩, index, false⟩, self, ?_, h, hagrees, rfl, fun hne => absurd (by rw [hdrop]; rfl) hne⟩
        rw [hasNextLoop]
        simp only [run_bind, h.pageIteratorHasNext_eq, hlt, decide_false, andThen_ok, if_true, run_pure,
          hdrop, laterVisits, ne_eq, not_true]

theorem At.hasNext_eq {i : Nat} (hat : At self disk it k i p) (h : Opened self.fileManager disk)
    (hagrees : c → Coherent self disk) (hc : AllCounted disk) :
    (i < p.slots.length → itemIteratorHasNext it self = .ok (true, it) self) ∧
      Answers disk c (restVisits disk k i p) (itemIteratorHasNext it) self := by
  obtain ⟨a, hpageIt, ha⟩ := hat.cached
  have hnext := (disk.layout k p hat.page).nextItemId
  have hlt := Disk.lt_length hat.page
  have hrun : itemIteratorHasNext it self =
      (if i < p.slots.length then .ok (true, it) self else hasNextLoop (disk.pages.length + 1) it self) := by
    rw [itemIteratorHasNext]
    rw [hat.alive, hpageIt]
    simp only [reduceCtorEq, if_false, run_bind, run_loadPage ha, andThen_ok, hat.index, hnext, run_get,
      h.pagesCount_eq, run_ite, run_pure, sub_add_cancel, Nat.cast_lt]
  constructor
  · intro hi
    rw [hrun, if_pos hi]
  · rw [Answers]
    rw [hrun]
    by_cases hi : i < p.slots.length
    · have hne : restVisits disk k i p ≠ [] := by
        rw [restVisits, ← List.length_pos_iff, List.length_append, length_slotVisits, List.length_drop]
        omega
      rw [if_pos hi]
      exact ⟨it, self, by rw [decide_eq_true hne], h, hagrees, hat.alive, fun _ => ⟨k, i, p, hat, hi, rfl⟩⟩
    · have hrest : restVisits disk k i p = laterVisits (k + 1) (disk.slots.drop (k + 1)) := by
        rw [restVisits, List.drop_of_length_le (by omega)]
        rfl
      rw [if_neg hi, hrest]
      exact h.hasNextLoop_eq hagrees hc hlt (by omega) (by rw [hpageIt]; rfl) hat.alive

theorem restVisits_cons {i : Nat} (hs : p.slots[i]? = some slot) (disk : Disk) (k : Nat) :
    restVisits disk k i p = (⟨k, i⟩, slot) :: restVisits disk k (i + 1) p := by
  rw [restVisits, slotVisits_drop hs]
  rfl

theorem At.next {i : Nat} (hat : At self disk it k i p) (hi : i < p.slots.length) :
    At self disk { it with currentItemIndex := i } k (i + 1) p :=
  ⟨hat.page, hat.cached, by simp, hi, hat.alive⟩

/-- `item_iterator_next` returns a live slot and moves behind it. -/
theorem At.next_live {i : Nat} (hat : At self disk it k i p) (h : Opened self.fileManager disk)
    (hc : AllCounted disk) (hs : p.slots[i]? = some slot) (hlive : slot.deleted = false) :
    itemIteratorNext it self =
      .ok (createItem slot.data ⟨k, i⟩, { it with currentItemIndex := i }) self := by
  obtain ⟨a, hpageIt, ha⟩ := hat.cached
  have hi := lt_length_of_getElem? hs
  have hlayout := disk.layout k p hat.page
  have hguard : ¬(p.slots.length : Int) < i := by omega
  have hsize := h.calculateLargeItemSize_live hat.page ha hs hlive k
  have hget := h.getItem_live hat.page ha hs hlive k
  rw [itemIteratorNext]
  simp only [run_bind, (hat.hasNext_eq h False.elim hc).1 hi, andThen_ok, reduceCtorEq, if_false, hpageIt,
    run_loadPage ha, hat.index, sub_add_cancel, hlayout.pageId, hlayout.nextItemId, if_neg hguard,
    hsize, hget]
  rw [if_neg (by simp [createItem]), run_pure]

/-- A slot that is marked as deleted stops the scan. -/
theorem At.next_deleted {i : Nat} (hat : At self disk it k i p) (h : Opened self.fileManager disk)
    (hc : AllCounted disk) (hs : p.slots[i]? = some slot) (hdeleted : slot.deleted = true) :
    itemIteratorNext it self = .error (.assertion "metadata->is_deleted == false") self := by
  obtain ⟨a, hpageIt, ha⟩ := hat.cached
  have hi := lt_length_of_getElem? hs
  have hlayout := disk.layout k p hat.page
  have hguard : ¬(p.slots.length : Int) < i := by omega
  have hsize := h.calculateLargeItemSize_deleted hat.page ha hs hdeleted k
  rw [itemIteratorNext]
  simp only [run_bind, (hat.hasNext_eq h False.elim hc).1 hi, andThen_ok, reduceCtorEq, if_false, hpageIt,
    run_loadPage ha, hat.index, sub_add_cancel, hlayout.pageId, hlayout.nextItemId, if_neg hguard,
    hsize, andThen_error]

end HasNext

section Scanning

variable {self t : PageManager} {disk : Disk} {k i : Nat} {p : StoredPage} {it : ItemIterator} {γ : Type}
  {c : Prop}

def OnPage (pm : PageManager) (it : ItemIterator) (pageId : Int) : Prop :=
  ∃ a, it.pageIterator.currentPage = some a ∧ PointsTo pm a pageId

/-- A loop over an iterator ends as the scan of the slots says. When it is left
early, the iterator is still on the page of the item. -/
def Ends (disk : Disk) (c : Prop) (r : Except Fault (γ × Option ItemIndex)) (x : PageManagerM (γ × ItemIterator))
    (self : PageManager) : Prop :=
  match r with
  | .ok (acc, stop) => ∃ it t, x self = .ok (acc, it) t ∧ (c → Coherent t disk) ∧ it.isReleased = false ∧
      ∀ id, stop = some id → OnPage t it id.pageId
  | .error e => ∃ t, x self = .error e t

theorem At.whileItemsLoop_eq (body : γ → Item → Except Fault (ForInStep γ)) {fuel : Nat} {acc : γ}
    (hat : At self disk it k i p) (h : Opened self.fileManager disk) (hagrees : c → Coherent self disk)
    (hc : AllCounted disk) (hfuel : (restVisits disk k i p).length < fuel) :
    Ends disk c (runVisits body acc (restVisits disk k i p)) (whileItemsLoop body fuel acc it) self := by
  induction fuel generalizing self it k i p acc with
  | zero => omega
  | succ fuel ih =>
      obtain ⟨it', t, hnext, ht, hcoherent, halive, hrest⟩ := (hat.hasNext_eq h hagrees hc).2
      unfold Ends whileItemsLoop
      simp only [run_bind, hnext, andThen_ok]
      by_cases hne : restVisits disk k i p = []
      · rw [hne, runVisits]
        exact ⟨it', t, by simp only [ne_eq, not_true, decide_false, if_true, run_pure], hcoherent, halive,
          by simp⟩
      · obtain ⟨j, i', p', hat', hi', hrest⟩ := hrest hne
        have hs := List.getElem?_eq_getElem hi'
        rw [← hrest, restVisits_cons hs, runVisits]
        rw [← hrest, restVisits_cons hs, List.length_cons] at hfuel
        simp only [ne_eq, reduceCtorEq, not_false_eq_true, decide_true, if_false]
        by_cases hdeleted : p'.slots[i'].deleted = true
        · rw [if_pos hdeleted]
          exact ⟨t, by simp only [run_bind, hat'.next_deleted ht hc hs hdeleted, andThen_error]⟩
        · have hlive : p'.slots[i'].deleted = false := by simpa using hdeleted
          rw [if_neg hdeleted]
          simp only [run_bind, hat'.next_live ht hc hs hlive, andThen_ok]
          cases hbody : body acc (createItem p'.slots[i'].data ⟨j, i'⟩) with
          | error e => exact ⟨t, by simp only [run_lift_error, andThen_error]⟩
          | ok r =>
              cases r with
              | done acc' =>
                  obtain ⟨a, hpageIt, ha⟩ := hat'.cached
                  refine ⟨{ it' with currentItemIndex := i' }, t,
                    by simp only [run_lift_ok, andThen_ok, run_pure], hcoherent, hat'.alive, ?_⟩
                  rintro id ⟨⟩
                  exact ⟨a, by rw [hpageIt], _, ha, Disk.pageId_eq hat'.page⟩
              | yield acc' =>
                  simp only [run_lift_ok, andThen_ok]
                  exact ih (hat'.next hi') ht hcoherent (by omega)

/-- A scan starts before the first slot of the first page. -/
theorem Coherent.getItems (h : Coherent self disk) (hp : disk.pages[0]? = some p) :
    ∃ it t, pageManagerGetItems self = .ok it t ∧ Coherent t disk ∧ At t disk it 0 0 p := by
  have hlt := Disk.lt_length hp
  obtain ⟨a, t, hread, ht, ha, _⟩ := h.readPage hp
  refine ⟨⟨⟨1, some a⟩, -1, false⟩, t, ?_, ht, hp, ⟨a, rfl, ha⟩, rfl, Nat.zero_le _, rfl⟩
  rw [pageManagerGetItems, itemIteratorNew, pageIteratorNew]
  simp only [run_bind, run_get, andThen_ok, h.opened.pagesCount_eq, hlt.ne', if_false]
  rw [show (0 : Int) = (0 : Nat) from rfl, hread]
  simp only [andThen_ok, run_pure, Except.toOption]

theorem restVisits_first (hp : disk.pages[0]? = some p) : restVisits disk 0 0 p = visits disk.slots := by
  have hdrop := disk_slots_drop hp
  rw [List.drop_zero] at hdrop
  rw [hdrop]
  rfl

theorem length_visits_le (disk : Disk) :
    (visits disk.slots).length ≤ disk.pages.length * disk.pageSize := by
  have hpage : ∀ slots ∈ disk.slots, slots.length ≤ disk.pageSize := by
    intro slots hslots
    obtain ⟨p, hp, rfl⟩ := List.mem_map.mp hslots
    obtain ⟨k, hk⟩ := List.getElem?_of_mem hp
    have hx := (disk.layout k p hk).index_lt le_rfl
    rw [sizeofItemMetadata] at hx
    omega
  have hlen : disk.slots.length = disk.pages.length := List.length_map _
  rw [← hlen]
  cases hslots : disk.slots with
  | nil => simp [visits]
  | cons slots pages =>
      rw [hslots] at hpage
      have htail := length_laterVisits_le (fun s hs => hpage s (List.mem_cons_of_mem _ hs)) 1
      have hhead := hpage slots List.mem_cons_self
      rw [visits, List.length_append, length_slotVisits, List.length_cons, Nat.succ_mul]
      omega

/-- A whole scan of the store. -/
theorem At.whileItems_eq (body : γ → Item → Except Fault (ForInStep γ)) (acc : γ)
    (hat : At self disk it 0 0 p) (h : Opened self.fileManager disk) (hagrees : c → Coherent self disk)
    (hc : AllCounted disk) :
    Ends disk c (runVisits body acc (visits disk.slots)) (whileItems body acc it) self := by
  have hle := length_visits_le disk
  have hloop : Ends disk c (runVisits body acc (restVisits disk 0 0 p))
      (whileItemsLoop body (disk.pages.length * disk.pageSize + 1) acc it) self :=
    hat.whileItemsLoop_eq body h hagrees hc (by rw [restVisits_first hat.page]; omega)
  rw [restVisits_first hat.page] at hloop
  unfold Ends whileItems at *
  simpa only [run_bind, run_get, andThen_ok, h.pagesCount_eq, h.pageSize_eq] using hloop

end Scanning

end DocumentDb.Storage
