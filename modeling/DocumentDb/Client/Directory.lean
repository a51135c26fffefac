import DocumentDb.Client.DirectoryScan
import DocumentDb.Server.TextTrees

namespace DocumentDb.Client

open Storage Program Bytes Documents Rpc Server Arrays Trees

section FillWithData

def takenLines (count : Int) (lines : Block (List UInt8)) : Except Fault (List (List UInt8)) :=
  if lines.writes.all fun w => w.1 < lines.size then
    (List.range count.toNat).mapM fun i => derefArg (lines.get? i)
  else .error (.undefined "line behind the array")

def parsedFile (initFile : List UInt8) : Except Fault (List (List UInt8)) :=
  match readAndSplitByNewlineNodes initFile (.new 0) with
  | .ok count lines => takenLines count lines
  | .error e _ => .error e

def fillWithData (initFile : List UInt8) : DocumentM (List RpcNode) := do
  let lines ← lift (parsedFile initFile)
  fillDbFromLines lines

end FillWithData

section Reading

variable {lines : List (List UInt8)} {line : List UInt8}

structure Writable (line : List UInt8) : Prop where
  ne_nil : line ≠ []
  no_newline : 10 ∉ line
  no_zero : 0 ∉ line

def fileOf (lines : List (List UInt8)) : List UInt8 := lines.flatMap fun line => line ++ bytesOf "\n"

theorem fileOf_cons (line : List UInt8) (lines : List (List UInt8)) :
    fileOf (line :: lines) = line ++ 10 :: fileOf lines := by
  rw [fileOf, List.flatMap_cons, List.append_assoc]
  rfl

theorem nonEmptyLines_fileOf (h : ∀ line ∈ lines, Writable line) : nonEmptyLines (fileOf lines) = lines := by
  induction lines with
  | nil => rfl
  | cons line lines ih =>
      obtain ⟨hline, hlines⟩ := List.forall_mem_cons.mp h
      rw [fileOf_cons, nonEmptyLines_append, nonEmptyLines_line hline.ne_nil hline.no_newline, ih hlines]
      rfl

theorem count_fileOf (h : ∀ line ∈ lines, Writable line) : (fileOf lines).count 10 = lines.length := by
  induction lines with
  | nil => rfl
  | cons line lines ih =>
      obtain ⟨hline, hlines⟩ := List.forall_mem_cons.mp h
      rw [fileOf_cons, List.count_append, List.count_cons_self, ih hlines,
        List.count_eq_zero_of_not_mem hline.no_newline, List.length_cons, Nat.zero_add]

theorem zero_notMem_fileOf (h : ∀ line ∈ lines, Writable line) : 0 ∉ fileOf lines := by
  induction lines with
  | nil => exact List.not_mem_nil
  | cons line lines ih =>
      obtain ⟨hline, hlines⟩ := List.forall_mem_cons.mp h
      rw [fileOf_cons, List.mem_append, List.mem_cons]
      rintro (hmem | hmem | hmem)
      · exact hline.no_zero hmem
      · cases hmem
      · exact ih hlines hmem

theorem parsedFile_fileOf (h : ∀ line ∈ lines, Writable line) (hcount : lines.length < 2 ^ 31) :
    parsedFile (fileOf lines) = .ok lines := by
  have hnewlines := count_fileOf h
  have hread : readAndSplitByNewlineNodes (fileOf lines) (.new 0) =
      .ok (lines.length : Int) ((Block.new lines.length).fill 0 lines) := by
    rw [readAndSplitByNewlineNodes, countLines_eq_ok.mpr ⟨hnewlines ▸ hcount, rfl⟩,
      cString_eq_self (zero_notMem_fileOf h), hnewlines]
    simp only [run_bind, run_lift_ok, andThen_ok, run_set, Int.toNat_natCast]
    rw [storeLines_eq (Nat.lt_succ_self _) (by rw [nonEmptyLines_fileOf h, Nat.zero_add]; exact hcount),
      nonEmptyLines_fileOf h]
    rfl
  have hwithin : ((Block.new lines.length).fill 0 lines).Within := by
    rw [within_fill_iff]
    exact ⟨within_new _, fun _ => (Nat.zero_add _).le⟩
  rw [parsedFile, hread]
  dsimp only
  rw [takenLines, if_pos (List.all_eq_true.mpr fun w hw => decide_eq_true (hwithin w hw)), Int.toNat_natCast,
    mapM_eq_ok,
    List.forall₂_iff_get]
  refine ⟨List.length_range, fun i hi hi' => ?_⟩
  rw [List.get_eq_getElem, List.getElem_range, get?_fill_new, List.getElem?_eq_getElem hi']
  rfl

end Reading

section Rows

variable {login : List UInt8} {path : DirEntry} {scan : Scan} {rows : List (Row EntryInfo)} {row : Row EntryInfo}

/-- A text that a row may have in the file. -/
structure Plain (info : EntryInfo) : Prop where
  no_newline : 10 ∉ info.text
  no_zero : 0 ∉ info.text
  short : info.text.length < 256

def entryOf (row : Row EntryInfo) : ParsedEntry := ⟨row.id, row.parentId, row.label.text⟩

theorem text_ne_nil (info : EntryInfo) : info.text ≠ [] := by
  rw [EntryInfo.text]
  exact List.append_ne_nil_of_right_ne_nil _ (List.cons_ne_nil _ _)

theorem notMem_intText {b : UInt8} (hdigit : isDigit b = false) (hb : b ≠ 45) (z : Int) : b ∉ intText z := by
  intro hmem
  rcases intText_bytes z b hmem with h | h
  · rw [hdigit] at h
    cases h
  · exact hb h

theorem initLine_row (hplain : Plain row.label) (hid : -1 ≤ row.id ∧ row.id < 2 ^ 31)
    (hparent : -1 ≤ row.parentId ∧ row.parentId < 2 ^ 31) : InitLine (rowText row) (entryOf row) :=
  ⟨⟨intText row.id, intText row.parentId, rfl, ⟨isField_intText _, atoi_intText hid.1 hid.2⟩,
    isField_intText _, atoi_intText hparent.1 hparent.2⟩, text_ne_nil _, hplain.short, hplain.no_zero⟩

theorem writable_row (hplain : Plain row.label) : Writable (rowText row) := by
  refine ⟨?_, ?_, ?_⟩
  · rw [rowText]
    exact List.append_ne_nil_of_right_ne_nil _ (List.cons_ne_nil _ _)
  · rw [rowText]
    simp only [List.mem_append, List.mem_cons, not_or]
    exact ⟨notMem_intText (by decide) (by decide) _, by decide, notMem_intText (by decide) (by decide) _, by decide,
      hplain.no_newline⟩
  · rw [rowText]
    simp only [List.mem_append, List.mem_cons, not_or]
    exact ⟨notMem_intText (by decide) (by decide) _, by decide, notMem_intText (by decide) (by decide) _, by decide,
      hplain.no_zero⟩

theorem initFile_rows (login : List UInt8) (path : DirEntry) (scan : Scan) :
    initFile login path scan =
      fileOf (((directoryTree login path scan).number (-1) 0).toList.map rowText) := by
  rw [← getFileInfo_rows, fileOf, initFile, List.map_map, List.flatMap_map]
  rfl

theorem row_bounds {α : Type} {a : α} {below : Trees α} {row : Row α} {i : Nat}
    (hrow : ((Trees.node a below .nil).number (-1) 0).toList[i]? = some row) :
    row.id = i ∧ (i = 0 → row.parentId = -1) ∧ (0 < i → 0 ≤ row.parentId ∧ row.parentId ≤ (i : Int) - 1) := by
  have hid := id_number hrow
  rw [Nat.zero_add] at hid
  rw [number, Trees.toList, number, Trees.toList, List.append_nil] at hrow
  cases i with
  | zero =>
      cases hrow
      exact ⟨rfl, fun _ => rfl, fun hpos => absurd hpos (Nat.lt_irrefl 0)⟩
  | succ i =>
      rw [List.getElem?_cons_succ] at hrow
      obtain ⟨_, _, hparent⟩ := mem_number (List.mem_of_getElem? hrow)
      refine ⟨hid, fun hzero => absurd hzero (Nat.succ_ne_zero i), fun _ => ?_⟩
      push_cast at *
      omega

theorem numbered_directory (login : List UInt8) (path : DirEntry) (scan : Scan) :
    Numbered (((directoryTree login path scan).number (-1) 0).toList.map entryOf) := by
  intro i entry hentry
  rw [List.getElem?_map] at hentry
  obtain ⟨row, hrow, rfl⟩ := Option.map_eq_some_iff.mp hentry
  exact row_bounds hrow

theorem plain_rows (hplain : ∀ info ∈ (directoryTree login path scan).toList, Plain info) :
    ∀ row ∈ ((directoryTree login path scan).number (-1) 0).toList, Plain row.label := by
  intro row hrow
  obtain ⟨info, hinfo, rfl⟩ := (rel_number (-1) 0 (directoryTree login path scan)).exists_of_mem hrow
  exact hplain _ hinfo

theorem initLines_directory (hplain : ∀ info ∈ (directoryTree login path scan).toList, Plain info)
    (hcount : (directoryTree login path scan).toList.length < 2 ^ 31) :
    List.Forall₂ InitLine (((directoryTree login path scan).number (-1) 0).toList.map rowText)
      (((directoryTree login path scan).number (-1) 0).toList.map entryOf) := by
  rw [List.forall₂_map_left_iff, List.forall₂_map_right_iff, List.forall₂_same]
  intro row hrow
  obtain ⟨i, hi⟩ := List.mem_iff_getElem?.mp hrow
  have hlt := (List.getElem?_eq_some_iff.mp hi).1
  rw [length_number] at hlt
  obtain ⟨hid, hfirst, hlater⟩ := row_bounds hi
  refine initLine_row (plain_rows hplain row hrow) (by omega) ?_
  rcases Nat.eq_zero_or_pos i with hzero | hpos
  · rw [hfirst hzero]
    decide
  · have := hlater hpos
    omega

theorem parsedFile_directory (hplain : ∀ info ∈ (directoryTree login path scan).toList, Plain info)
    (hcount : (directoryTree login path scan).toList.length < 2 ^ 31) :
    parsedFile (fileOf (((directoryTree login path scan).number (-1) 0).toList.map rowText)) =
      .ok (((directoryTree login path scan).number (-1) 0).toList.map rowText) := by
  apply parsedFile_fileOf
  · rw [List.forall_mem_map]
    exact fun row hrow => writable_row (plain_rows hplain row hrow)
  · rw [List.length_map, length_number]
    exact hcount

end Rows

section Filling

variable {pageSize : Nat} {doc : Document} {store : List (List Slot)} {lines : List (List UInt8)}
  {entries : List ParsedEntry}

theorem length_lt_of_pages {n : Nat} (hfit : sizeofPageHeader + (sizeofItemMetadata + sizeofNode) ≤ pageSize)
    (hfile : sizeofFileHeader + pagesFor pageSize n * pageSize < 2 ^ 32) : n < 2 ^ 31 := by
  have hpage : (sizeofItemMetadata + sizeofNode) * nodesPerPage pageSize ≤ pageSize :=
    (Nat.mul_div_le _ _).trans (Nat.sub_le _ _)
  have hpos : 0 < nodesPerPage pageSize := Nat.div_pos (by omega) (by decide)
  have hn : n ≤ nodesPerPage pageSize * pagesFor pageSize n := by
    have hmod := Nat.lt_mul_div_succ (n + nodesPerPage pageSize - 1) hpos
    rw [Nat.mul_succ] at hmod
    have hmax : (n + nodesPerPage pageSize - 1) / nodesPerPage pageSize ≤ pagesFor pageSize n := le_max_right _ _
    have hmul := Nat.mul_le_mul_left (nodesPerPage pageSize) hmax
    omega
  have hall : 298 * n ≤ pagesFor pageSize n * pageSize := by
    calc 298 * n ≤ 298 * (nodesPerPage pageSize * pagesFor pageSize n) := Nat.mul_le_mul_left _ hn
      _ = pagesFor pageSize n * (298 * nodesPerPage pageSize) := by ring
      _ ≤ pagesFor pageSize n * pageSize := Nat.mul_le_mul_left _ hpage
  omega

theorem fillDbFromLines_run (h : Packed pageSize [[]] doc) (hsize : pageSize < 2 ^ 31)
    (hfit : sizeofPageHeader + (sizeofItemMetadata + sizeofNode) ≤ pageSize)
    (hlines : List.Forall₂ InitLine lines entries) (hne : lines ≠ []) (hnumbered : Numbered entries)
    (hfile : sizeofFileHeader + pagesFor pageSize lines.length * pageSize < 2 ^ 32) :
    ∃ added t store, fillDbFromLines lines doc = .ok added t ∧ Packed pageSize store t ∧
      Mapped entries added (nodesOf store) := by
  have hparse : lines.mapM parseEntry = .ok entries := mapM_eq_ok.mpr (hlines.imp fun _ _ hline => hline.parseEntry_eq)
  have hcount := hlines.length_eq
  cases hlines with
  | nil => exact absurd rfl hne
  | @cons line root lines entries hline hrest =>
      obtain ⟨hid, hparent, _⟩ := hnumbered 0 root rfl
      obtain ⟨request, hrequest, hnull, hvalue, htype, hstring⟩ := exists_createRoot hline
      have hroom := (filled_fresh pageSize).room h.holds.nodes hsize hfit (Nat.zero_lt_succ lines.length) hfile
      obtain ⟨s, stored, response, hrun, hs, hnodes, hresponse⟩ := clientAddNode_packed h hvalue
        (node_fits_of_more (k := 0) (by rw [Nat.zero_add, Nat.mul_one]; exact hfit)) hroom
        (fun _ => by simp [nodesOf_fresh]) fun hnot => absurd hnull hnot
      have hmapped : Mapped [root] [response] (nodesOf (putSlots pageSize [[]] (encodeNode stored))) := by
        rw [hnodes, nodesOf_fresh, hnull]
        exact mapped_nil.concat hresponse ⟨htype, hstring⟩ (fun _ => rfl) fun hnot => absurd rfl hnot
      have hall : ∀ entry ∈ entries, ∃ line, InitLine line entry := by
        intro entry hentry
        obtain ⟨line, _, hline⟩ := forall₂_exists hrest.flip entry hentry
        exact ⟨line, hline⟩
      have hfilled : Filled pageSize [root].length (putSlots pageSize [[]] (encodeNode stored)) :=
        (filled_fresh pageSize).put h.holds.nodes hsize hfit stored
      obtain ⟨added, t, store, hchildren, ht, hall⟩ := fillChildren_run hs hfilled hmapped hsize hfit
        (show ([root] ++ entries).length = (line :: lines).length from hcount.symm) hfile hall
        (List.cons_ne_nil _ _) hnumbered
      refine ⟨added, t, store, ?_, ht, hall⟩
      rw [fillDbFromLines]
      simp only [run_bind, hparse, run_lift_ok, andThen_ok, hparent rfl, hid, Nat.cast_zero, ne_eq,
        not_true_eq_false, if_false, hrequest, hrun]
      exact hchildren

end Filling

section Standing

variable {α : Type} {a : α} {below : Trees α} {rows : List (Row α)} {row row' : Row α} {nodes : List Node}
  {node node' : Node} {entries : List ParsedEntry} {added : List RpcNode}

/-- Nodes that stand for rows, each below the node that stands for the parent of its row. -/
structure Stand (rows : List (Row α)) (nodes : List Node) : Prop where
  length : rows.length = nodes.length
  distinct : (nodes.map Node.id).Nodup
  ne_null : ∀ node ∈ nodes, node.id ≠ nullNodeId
  parents : ∀ (i : Nat) row node, rows[i]? = some row → nodes[i]? = some node →
    (i = 0 → node.parentId = nullNodeId) ∧
      (0 < i → ∃ parent, nodes[row.parentId.toNat]? = some parent ∧ node.parentId = parent.id)

def MadeOf (rows : List (Row α)) (nodes : List Node) (row : Row α) (node : Node) : Prop :=
  ∃ i : Nat, rows[i]? = some row ∧ nodes[i]? = some node

theorem forall₂_madeOf (h : rows.length = nodes.length) : List.Forall₂ (MadeOf rows nodes) rows nodes := by
  refine List.forall₂_iff_get.mpr ⟨h, fun i hi hi' => ⟨i, ?_, ?_⟩⟩
  · exact List.getElem?_eq_getElem hi
  · exact List.getElem?_eq_getElem hi'

theorem madeOf_unique (h : MadeOf ((Trees.node a below .nil).number (-1) 0).toList nodes row node)
    (h' : MadeOf ((Trees.node a below .nil).number (-1) 0).toList nodes row node') : node = node' := by
  obtain ⟨i, hi, hnode⟩ := h
  obtain ⟨j, hj, hnode'⟩ := h'
  have hsame : i = j := by
    have hid := (row_bounds hi).1
    have hid' := (row_bounds hj).1
    omega
  subst hsame
  rw [hnode] at hnode'
  exact Option.some.inj hnode'

theorem Stand.madeOf_parent (h : Stand ((Trees.node a below .nil).number (-1) 0).toList nodes)
    (hab : MadeOf ((Trees.node a below .nil).number (-1) 0).toList nodes row node)
    (hcd : MadeOf ((Trees.node a below .nil).number (-1) 0).toList nodes row' node') :
    row'.parentId = row.id ↔ node'.parentId = node.id := by
  obtain ⟨i, hi, hi'⟩ := hab
  obtain ⟨j, hj, hj'⟩ := hcd
  obtain ⟨hid, _, _⟩ := row_bounds hi
  obtain ⟨_, hfirst, hlater⟩ := row_bounds hj
  obtain ⟨hroot, hbelow⟩ := h.parents j row' node' hj hj'
  rcases Nat.eq_zero_or_pos j with hzero | hpos
  · rw [hfirst hzero, hroot hzero, hid]
    refine iff_of_false (by omega) ?_
    exact (h.ne_null node (List.mem_of_getElem? hi')).symm
  · obtain ⟨hle, _⟩ := hlater hpos
    obtain ⟨parent, hparent, heq⟩ := hbelow hpos
    rw [heq, hid]
    constructor
    · intro hsame
      rw [hsame, Int.toNat_natCast, hi'] at hparent
      cases hparent
      rfl
    · intro hsame
      have hlt : row'.parentId.toNat < (nodes.map Node.id).length := by
        rw [List.length_map]
        exact (List.getElem?_eq_some_iff.mp hparent).1
      have hindex : row'.parentId.toNat = i := by
        refine (List.getElem?_inj hlt h.distinct).mp ?_
        rw [List.getElem?_map, List.getElem?_map, hparent, hi', Option.map_some, Option.map_some, hsame]
      omega

theorem Stand.pictures (h : Stand ((Trees.node a below .nil).number (-1) 0).toList nodes) :
    ∃ u, Pictures Node.id Node.parentId nodes (children Node.parentId nodes nullNodeId) u ∧ u.toList = nodes ∧
      Rel (fun node row => MadeOf ((Trees.node a below .nil).number (-1) 0).toList nodes row node) u
        ((Trees.node a below .nil).number (-1) 0) := by
  have hnodes := forall₂_madeOf h.length
  have hroots : List.Forall₂ (MadeOf ((Trees.node a below .nil).number (-1) 0).toList nodes)
      (children Row.parentId ((Trees.node a below .nil).number (-1) 0).toList (-1))
      (children Node.parentId nodes nullNodeId) := by
    refine List.rel_filter (fun row node hmade => ?_) hnodes
    obtain ⟨i, hi, hnode⟩ := hmade
    obtain ⟨_, hfirst, hlater⟩ := row_bounds hi
    obtain ⟨hroot, hbelow⟩ := h.parents i row node hi hnode
    simp only [decide_eq_true_eq]
    rcases Nat.eq_zero_or_pos i with hzero | hpos
    · exact iff_of_true (hfirst hzero) (hroot hzero)
    · obtain ⟨parent, hparent, heq⟩ := hbelow hpos
      refine iff_of_false (by have := hlater hpos; omega) ?_
      rw [heq]
      exact h.ne_null parent (List.mem_of_getElem? hparent)
  obtain ⟨u, hpictures, hrel⟩ := (pictures_number (Trees.node a below .nil)).transport hnodes
    (fun _ _ _ _ hab hcd => h.madeOf_parent hab hcd) hroots
  refine ⟨u, hpictures, ?_, hrel.flip⟩
  have hsame : List.Forall₂ Eq u.toList nodes := by
    refine forall₂_along (fun node node' row hmade hmade' => ?_) hrel.toList.flip hnodes.flip
    exact madeOf_unique hmade hmade'
  rwa [List.forall₂_eq_eq_eq] at hsame

theorem Mapped.stand (h : Mapped entries added nodes)
    (hrows : List.Forall₂ (fun (row : Row α) entry => entry.parentId = row.parentId) rows entries)
    (hdistinct : (nodes.map Node.id).Nodup) (hnull : ∀ node ∈ nodes, node.id ≠ nullNodeId) : Stand rows nodes := by
  refine ⟨hrows.length_eq.trans h.length_nodes.symm, hdistinct, hnull, fun i row node hrow hnode => ?_⟩
  obtain ⟨hlt, hgetRow⟩ := List.getElem?_eq_some_iff.mp hrow
  have hlt' : i < entries.length := hrows.length_eq ▸ hlt
  have hparent := (List.forall₂_iff_get.mp hrows).2 i hlt hlt'
  rw [List.get_eq_getElem, List.get_eq_getElem, hgetRow] at hparent
  rw [← hparent]
  exact h.parents i _ node (List.getElem?_eq_getElem hlt') hnode

end Standing

section Directories

variable {pageSize : Nat} {doc : Document} {store : List (List Slot)} {login : List UInt8} {path : DirEntry}
  {scan : Scan} {added : List RpcNode} {u : Unit}

def textEntry (row : Row (List UInt8)) : ParsedEntry := ⟨row.id, row.parentId, row.label⟩

theorem entries_texts (t : Trees EntryInfo) :
    (t.number (-1) 0).toList.map entryOf = ((t.map EntryInfo.text).number (-1) 0).toList.map textEntry := by
  rw [toList_number_map, List.map_map]
  rfl

theorem Mapped.madeOf_holdsText {rows : List (Row (List UInt8))} {nodes : List Node} {row : Row (List UInt8)}
    {node : Node} (h : Mapped (rows.map textEntry) added nodes) (hmade : MadeOf rows nodes row node) :
    HoldsText node row.label := by
  obtain ⟨i, hi, hnode⟩ := hmade
  obtain ⟨hlt, rfl⟩ := List.getElem?_eq_some_iff.mp hi
  obtain ⟨hlt', rfl⟩ := List.getElem?_eq_some_iff.mp hnode
  have hvalue := (List.forall₂_iff_get.mp h.values).2 i (by rw [List.length_map]; exact hlt) hlt'
  simp only [List.get_eq_getElem, List.getElem_map] at hvalue
  exact hvalue

def ShowsInOrder (nodes : List Node) (t : Trees (List UInt8)) : Prop :=
  ∃ u : Trees Node, Pictures Node.id Node.parentId nodes (children Node.parentId nodes nullNodeId) u ∧
    u.toList = nodes ∧ Rel HoldsText u t

theorem ShowsInOrder.shows {nodes : List Node} {t : Trees (List UInt8)} (h : ShowsInOrder nodes t) : Shows nodes t := by
  obtain ⟨u, hpictures, horder, hrel⟩ := h
  exact ⟨u, hpictures, .of_eq horder, hrel⟩

theorem entries_rows {rows : List (Row (List UInt8))} :
    List.Forall₂ (fun (row : Row (List UInt8)) entry => entry.parentId = row.parentId) rows (rows.map textEntry) := by
  rw [List.forall₂_map_right_iff, List.forall₂_same]
  exact fun row _ => rfl

theorem Mapped.showsInOrder {nodes : List Node} {text : List UInt8} {below : Trees (List UInt8)}
    (h : Mapped (((Trees.node text below .nil).number (-1) 0).toList.map textEntry) added nodes)
    (hdistinct : (nodes.map Node.id).Nodup) (hnull : ∀ node ∈ nodes, node.id ≠ nullNodeId) :
    ShowsInOrder nodes (.node text below .nil) := by
  obtain ⟨u, hpictures, horder, hrel⟩ := (h.stand entries_rows hdistinct hnull).pictures
  refine ⟨u, hpictures, horder, hrel.trans (fun node row text hmade hlabel => ?_) (rel_number (-1) 0 _)⟩
  rw [← hlabel]
  exact h.madeOf_holdsText hmade

/-- A document that is filled with the file of a directory holds the tree of the directory. -/
theorem fillWithData_directory (hsize : pageSize < 2 ^ 31)
    (hfit : sizeofPageHeader + (sizeofItemMetadata + sizeofNode) ≤ pageSize)
    (hinit : serverInitDocument pageSize (documentNew (fileOpen none noFaults)) = .ok u doc)
    (hplain : ∀ info ∈ (directoryTree login path scan).toList, Plain info)
    (hfile : sizeofFileHeader + pagesFor pageSize (directoryTree login path scan).toList.length * pageSize < 2 ^ 32) :
    ∃ added t, fillWithData (initFile login path scan) doc = .ok added t ∧
      ShowsInOrder (liveNodes t) ((directoryTree login path scan).map EntryInfo.text) := by
  have hcount := length_lt_of_pages hfit hfile
  have hone : 1 * pageSize ≤ pagesFor pageSize (directoryTree login path scan).toList.length * pageSize :=
    Nat.mul_le_mul_right _ (le_max_left _ _)
  have hdoc := packed_of_init (show sizeofFileHeader + pageSize < 2 ^ 32 by omega) hinit
  have hrows := length_number (-1) 0 (directoryTree login path scan)
  obtain ⟨added, t, store, hrun, ht, hmapped⟩ := fillDbFromLines_run hdoc hsize hfit
    (initLines_directory hplain hcount) (by simp [directoryTree, number, Trees.toList])
    (numbered_directory login path scan) (by rw [List.length_map, hrows]; exact hfile)
  refine ⟨added, t, ?_, ?_⟩
  swap
  · rw [entries_texts] at hmapped
    rw [ht.holds.liveNodes_eq]
    refine hmapped.showsInOrder ?_ fun node hnode => id_ne_null hnode
    exact List.pairwise_map.mpr ((pairwise_nodesOf store).imp fun hbefore => hbefore.ne)
  rw [fillWithData, initFile_rows]
  simp only [run_bind, parsedFile_directory hplain hcount, run_lift_ok, andThen_ok, hrun]

def folder : DirEntry := ⟨bytesOf "src", bytesOf "now", none⟩

def folderScan : Scan := .file ⟨bytesOf "a.c", bytesOf "now", some (bytesOf "text/x-csrc")⟩ .done

theorem plain_folder : ∀ info ∈ (directoryTree (bytesOf "krot") folder folderScan).toList, Plain info := by
  simp only [directoryTree, folderScan, Scan.trees, Trees.toList, List.forall_mem_cons, List.append_nil]
  exact ⟨⟨by decide, by decide, by decide⟩, ⟨by decide, by decide, by decide⟩, List.forall_mem_nil _⟩

theorem fillWithData_directory_folder :
    ∃ doc added t, fillWithData (initFile (bytesOf "krot") folder folderScan) doc = .ok added t ∧
      ShowsInOrder (liveNodes t) (.node (bytesOf "src krot now inode.directory")
        (.node (bytesOf "a.c krot now text.x-csrc") .nil .nil) .nil) := by
  obtain ⟨doc, hinit, _⟩ := serverInitDocument_new (show sizeofPageHeader ≤ 4096 by decide) (by decide)
  obtain ⟨added, t, hrun, hshows⟩ := fillWithData_directory (by decide) (by decide) hinit plain_folder (by decide)
  exact ⟨doc, added, t, hrun, hshows⟩

end Directories

end DocumentDb.Client
