import DocumentDb.Storage.Store

namespace DocumentDb.Storage

open Bytes Program

/-- A run of the page manager from a new file, with the map from ids to bytes
that its puts and deletes describe. Pages are read and dropped in between, and
the file may be opened again. -/
inductive MapRun (pageSize : Nat) (signature : Int) :
    PageManager → (ItemIndex → Option ItemPayload) → Prop
  | init {res t} : pageManagerInit pageSize signature (pageManagerNew (fileOpen none noFaults)) = .ok res t →
      FileBelow t → MapRun pageSize signature t fun _ => none
  | put {s m payload res t} : MapRun pageSize signature s m → 0 < payload.length →
      payload.length + sizeofPageHeader + sizeofItemMetadata ≤ pageSize →
      putData payload s = .ok res t → FileBelow t →
      MapRun pageSize signature t (Function.update m res.metadata.itemId (some payload))
  | get {s m a id item t} : MapRun pageSize signature s m → m id ≠ none → PointsTo s a id.pageId →
      pageManagerGetItem a id s = .ok item t → MapRun pageSize signature t m
  | delete {s m a item item' t} : MapRun pageSize signature s m → m item.id ≠ none →
      item.isDeleted = false → PointsTo s a item.id.pageId →
      pageManagerDeleteItem a item s = .ok item' t →
      MapRun pageSize signature t (Function.update m item.id none)
  | readPage {s m res t} (k : Nat) : MapRun pageSize signature s m →
      pageManagerReadPage k s = .ok res t → MapRun pageSize signature t m
  | freePages {s m t} : MapRun pageSize signature s m → pageManagerFreePages s = .ok () t →
      MapRun pageSize signature t m
  | reopen {s m res t} (pageSize' : Nat) : MapRun pageSize signature s m →
      pageManagerInit pageSize' signature
        (pageManagerNew (fileOpen (some s.fileManager.file.content) noFaults)) = .ok res t →
      MapRun pageSize signature t m

variable {pageSize : Nat} {signature : Int} {s t : PageManager} {m : ItemIndex → Option ItemPayload}
  {store : List (List Slot)} {payload : ItemPayload}

theorem Stores.ne_nil (h : Stores signature pageSize store s) : store ≠ [] := by
  obtain ⟨disk, _, hs, _, _, _, rfl⟩ := h
  rw [← List.length_pos_iff, length_slots]
  exact hs.pages_pos

theorem liveBytes_fresh : liveBytes [[]] = fun _ => none := by
  funext id
  cases h : liveBytes [[]] id with
  | none => rfl
  | some bytes =>
      obtain ⟨k, i, slots, slot, rfl, hk, hi, _⟩ := liveBytes_some h
      obtain rfl : slots = [] := by
        have := List.mem_of_getElem? hk
        simpa using this
      simp at hi

theorem Stores.put_update (h : Stores signature pageSize store s) (hmax : pageSize < 2 ^ 31) (h0 : 0 < payload.length)
    (hfit : payload.length + sizeofPageHeader + sizeofItemMetadata ≤ pageSize) {res : ItemAddResult}
    (hput : putData payload s = .ok res t) (hbelow : FileBelow t) :
    ∃ store', Stores signature pageSize store' t ∧
      liveBytes store' = Function.update (liveBytes store) res.metadata.itemId (some payload) := by
  obtain ⟨res', u, hrun, hid, hu⟩ := h.put h0 hfit (by omega) (by rw [hput]; exact hbelow)
  rw [hput] at hrun
  cases hrun
  exact ⟨_, hu, by rw [liveBytes_putSlots h.ne_nil, hid]⟩

theorem Stores.delete_update (h : Stores signature pageSize store s) {a : PageAddr} {item item' : Item}
    (hlive : liveBytes store item.id ≠ none) (hfresh : item.isDeleted = false) (ha : PointsTo s a item.id.pageId)
    (hdelete : pageManagerDeleteItem a item s = .ok item' t) :
    ∃ store', Stores signature pageSize store' t ∧ liveBytes store' = Function.update (liveBytes store) item.id none := by
  obtain ⟨bytes, hbytes⟩ := Option.ne_none_iff_exists'.mp hlive
  obtain ⟨k, i, _, _, hid, _⟩ := liveBytes_some hbytes
  rw [hid] at hbytes ha
  obtain ⟨u, hrun, hu⟩ := h.delete ha hid hfresh hbytes
  rw [hdelete] at hrun
  cases hrun
  exact ⟨_, hu, by rw [liveBytes_deleteAt, hid]⟩

theorem Stores.freePages_ok (h : Stores signature pageSize store s) (hfree : pageManagerFreePages s = .ok () t) :
    Stores signature pageSize store t := by
  obtain ⟨u, hrun, hu⟩ := h.freePages
  rw [hfree] at hrun
  cases hrun
  exact hu

theorem Stores.reopen_ok (h : Stores signature pageSize store s) {pageSize' : Nat} {res : Result Unit}
    (hinit : pageManagerInit pageSize' signature
      (pageManagerNew (fileOpen (some s.fileManager.file.content) noFaults)) = .ok res t) :
    Stores signature pageSize store t := by
  obtain ⟨u, hrun, hu⟩ := h.reopen pageSize'
  rw [hinit] at hrun
  cases hrun
  exact hu

theorem MapRun.stores (hsig : IsInt32 signature) (hmax : pageSize < 2 ^ 31)
    (h : MapRun pageSize signature s m) :
    ∃ store, Stores signature pageSize store s ∧ liveBytes store = m := by
  induction h with
  | init hinit hbelow =>
      exact ⟨_, (stores_init hsig (by omega) hinit hbelow).2, liveBytes_fresh⟩
  | put _ h0 hfit hput hbelow ih =>
      obtain ⟨store, hs, rfl⟩ := ih
      exact hs.put_update hmax h0 hfit hput hbelow
  | get _ _ ha hget ih =>
      obtain ⟨store, hs, hm⟩ := ih
      obtain ⟨rfl, _⟩ := hs.get_ok ha hget
      exact ⟨store, hs, hm⟩
  | delete _ hlive hfresh ha hdelete ih =>
      obtain ⟨store, hs, rfl⟩ := ih
      exact hs.delete_update hlive hfresh ha hdelete
  | readPage k _ hread ih =>
      obtain ⟨store, hs, hm⟩ := ih
      exact ⟨store, hs.readPage_ok hread, hm⟩
  | freePages _ hfree ih =>
      obtain ⟨store, hs, hm⟩ := ih
      exact ⟨store, hs.freePages_ok hfree, hm⟩
  | reopen pageSize' _ hinit ih =>
      obtain ⟨store, hs, hm⟩ := ih
      exact ⟨store, hs.reopen_ok hinit, hm⟩

theorem putData_writeStatus {res : ItemAddResult} (h0 : 0 < payload.length) (hn : payload.length < 2 ^ 31)
    (hput : putData payload s = .ok res t) : res.writeStatus = ⟨true, payload.length⟩ := by
  obtain ⟨page, s1, _, hput⟩ := bind_eq_ok.mp hput
  rw [pageManagerPutItem_eq h0 (by omega)] at hput
  obtain ⟨target, s2, _, hput⟩ := bind_eq_ok.mp hput
  exact putWhole_writeStatus hput

/-- The page manager is a finite map. Puts of payloads that fit a page and
deletes of live items do not stop the program; a put takes an id that is not
live; a get returns the bytes of a live id and returns for no other id. -/
theorem mapRun_refines (hsig : IsInt32 signature) (hmax : pageSize < 2 ^ 31)
    (h : MapRun pageSize signature s m) :
    (∀ payload : ItemPayload, 0 < payload.length →
      payload.length + sizeofPageHeader + sizeofItemMetadata ≤ pageSize →
      FileBelow (final (putData payload s)) →
      ∃ res t, putData payload s = .ok res t ∧ m res.metadata.itemId = none ∧
        res.writeStatus = ⟨true, payload.length⟩ ∧
        MapRun pageSize signature t (Function.update m res.metadata.itemId (some payload))) ∧
    (∀ id bytes a, m id = some bytes → PointsTo s a id.pageId →
      pageManagerGetItem a id s = .ok (createItem bytes id) s) ∧
    (∀ id item a t, PointsTo s a id.pageId → pageManagerGetItem a id s = .ok item t → m id ≠ none) ∧
    (∀ item a, m item.id ≠ none → item.isDeleted = false → PointsTo s a item.id.pageId →
      ∃ t, pageManagerDeleteItem a item s = .ok { item with isDeleted := true } t ∧
        MapRun pageSize signature t (Function.update m item.id none)) ∧
    (∀ id, m id ≠ none → ∃ a t, pageManagerReadPage id.pageId s = .ok (.ok a) t ∧
      PointsTo t a id.pageId ∧ MapRun pageSize signature t m) := by
  obtain ⟨store, hs, rfl⟩ := h.stores hsig hmax
  refine ⟨?put, ?get, ?dead, ?delete, ?read⟩
  case put =>
    intro payload h0 hfit hbelow
    obtain ⟨res, t, hrun, hid, _⟩ := hs.put h0 hfit (by omega) hbelow
    rw [hrun] at hbelow
    refine ⟨res, t, hrun, ?_, putData_writeStatus h0 (by omega) hrun, .put h h0 hfit hrun hbelow⟩
    rw [hid, liveBytes, slotAt_putId hs.ne_nil]
    rfl
  case get => exact fun id bytes a hlive ha => hs.get ha hlive
  case dead =>
    intro id item a t ha hget
    simp [(hs.get_ok ha hget).2]
  case delete =>
    intro item a hlive hfresh ha
    obtain ⟨bytes, hbytes⟩ := Option.ne_none_iff_exists'.mp hlive
    obtain ⟨k, i, _, _, hid, _⟩ := liveBytes_some hbytes
    rw [hid] at hbytes
    obtain ⟨t, hrun, _⟩ := hs.delete (hid ▸ ha) hid hfresh hbytes
    exact ⟨t, hrun, .delete h hlive hfresh ha hrun⟩
  case read =>
    intro id hlive
    obtain ⟨bytes, hbytes⟩ := Option.ne_none_iff_exists'.mp hlive
    obtain ⟨k, i, slots, slot, rfl, hk, _⟩ := liveBytes_some hbytes
    obtain ⟨a, t, hread, _, ha⟩ := hs.readPage (lt_length_of_getElem? hk)
    exact ⟨a, t, hread, ha, .readPage k h hread⟩

def twoItems : PageManagerM (ItemIndex × ItemIndex × Result PageAddr) := do
  let _ ← short (pageManagerInit 64 7)
  let first ← short (putData (List.replicate 15 1))
  let second ← short (putData [2])
  let read ← pageManagerReadPage 0
  return (first.metadata.itemId, second.metadata.itemId, read)

def twoBytes : ItemIndex → Option ItemPayload :=
  Function.update (Function.update (fun _ => none) ⟨0, 0⟩ (some (List.replicate 15 1))) ⟨1, 0⟩ (some [2])

/-- The first of two items is looked up and deleted. -/
theorem mapRun_refines_64 :
    ∃ s a, MapRun 64 7 s twoBytes ∧
      pageManagerGetItem a ⟨0, 0⟩ s = .ok (createItem (List.replicate 15 1) ⟨0, 0⟩) s ∧
      ∃ item t, pageManagerDeleteItem a (createItem (List.replicate 15 1) ⟨0, 0⟩) s = .ok item t ∧
        MapRun 64 7 t (Function.update twoBytes ⟨0, 0⟩ none) := by
  have hanswers : returned ((do
      let (first, second, read) ← twoItems
      let pm ← get
      return (first, second, (read.toOption.bind (findPage pm)).map fun page : Page => page.pageHeader.pageId))
      (pageManagerNew (fileOpen none noFaults))) = .ok (⟨0, 0⟩, ⟨1, 0⟩, some 0) := by
    decide +kernel
  obtain ⟨_, hrun⟩ := returned_eq_ok hanswers
  obtain ⟨⟨_, _, read⟩, s, hcalls, hrun⟩ := bind_eq_ok.mp hrun
  obtain ⟨_, _, hget, hanswer⟩ := bind_eq_ok.mp hrun
  cases hget
  simp only [run_pure, EStateM.Result.ok.injEq, Prod.mk.injEq, Option.map_eq_some_iff, Option.bind_eq_some_iff] at hanswer
  obtain ⟨⟨hone, htwo, page, ⟨a, _, hpage⟩, hid⟩, _⟩ := hanswer
  obtain ⟨_, _, hinit, hcalls⟩ := bind_eq_ok.mp hcalls
  obtain ⟨first, _, hfirst, hcalls⟩ := bind_eq_ok.mp hcalls
  obtain ⟨second, _, hsecond, hcalls⟩ := bind_eq_ok.mp hcalls
  obtain ⟨_, _, hread, hcalls⟩ := bind_eq_ok.mp hcalls
  cases hcalls
  have hempty := MapRun.init (short_eq_ok hinit).1 (short_eq_ok hinit).2
  have hput := (hempty.put (by decide) (by decide) (short_eq_ok hfirst).1 (short_eq_ok hfirst).2).put (by decide)
    (by decide) (short_eq_ok hsecond).1 (short_eq_ok hsecond).2
  have hrun : MapRun 64 7 s twoBytes := by
    rw [twoBytes, ← hone, ← htwo]
    exact hput.readPage 0 hread
  have hpoints : PointsTo s a 0 := ⟨page, hpage, hid⟩
  obtain ⟨_, hget, _, hdelete, _⟩ := mapRun_refines ⟨by decide, by decide⟩ (by decide) hrun
  obtain ⟨t, ht, hdeleted⟩ := hdelete (createItem (List.replicate 15 1) ⟨0, 0⟩) a (by decide) rfl hpoints
  exact ⟨s, a, hrun, hget ⟨0, 0⟩ _ a (by decide) hpoints, _, t, ht, hdeleted⟩

end DocumentDb.Storage
