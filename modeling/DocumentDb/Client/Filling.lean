import DocumentDb.Client.Requests

namespace DocumentDb.Client

open Storage Program Bytes Documents Rpc Server

section Lines

variable {line : List UInt8} {entry : ParsedEntry}

/-- A line of an init file: two numbers and a text, with blanks between them. -/
structure InitLine (line : List UInt8) (entry : ParsedEntry) : Prop where
  text : ∃ id parentId, line = id ++ 32 :: (parentId ++ 32 :: entry.fileInfoContent) ∧
    (IsField id ∧ atoi id = .ok entry.id) ∧ IsField parentId ∧ atoi parentId = .ok entry.parentId
  ne_nil : entry.fileInfoContent ≠ []
  short : entry.fileInfoContent.length < 256
  no_zero : 0 ∉ entry.fileInfoContent

theorem InitLine.parseEntry_eq (h : InitLine line entry) : parseEntry line = .ok entry := by
  obtain ⟨⟨id, parentId, rfl, ⟨hid, hidValue⟩, hparentId, hparentValue⟩, hne, _⟩ := h
  have hblank : (32 : UInt8) ∈ bytesOf " " := by decide
  have hcontent : strtok entry.fileInfoContent [] = (some entry.fileInfoContent, []) :=
    strtok_last hne fun b _ => List.not_mem_nil
  rw [parseEntry]
  simp only [strtok_append hid.ne_nil hid.notMem_blanks hblank,
    strtok_append hparentId.ne_nil hparentId.notMem_blanks hblank, hcontent, derefArg, bind,
    Except.bind, hidValue, hparentValue]
  rfl

theorem InitLine.exists_value (h : InitLine line entry) :
    ∃ value, nodeValueStringNew entry.fileInfoContent = .ok value ∧ value.type = .string ∧
      value.stringValue = .ok entry.fileInfoContent := by
  have hself := cString_eq_self h.no_zero
  have hvalue : ∃ value, nodeValueStringNew entry.fileInfoContent = .ok value := by
    rw [nodeValueStringNew, hself, if_neg (Nat.not_le.mpr h.short)]
    exact ⟨_, rfl⟩
  obtain ⟨value, hvalue⟩ := hvalue
  obtain ⟨_, htype, hstring, _⟩ := nodeValueStringNew_ok hvalue
  rw [hself] at hstring
  exact ⟨value, hvalue, htype, hstring⟩

/-- The entries are numbered, and the parents of all but the first are entries before
them. -/
def Numbered (entries : List ParsedEntry) : Prop :=
  ∀ (i : Nat) entry, entries[i]? = some entry → entry.id = (i : Int) ∧ (i = 0 → entry.parentId = -1) ∧
    (0 < i → 0 ≤ entry.parentId ∧ entry.parentId ≤ (i : Int) - 1)

end Lines

section Mapping

variable {entries : List ParsedEntry} {entry : ParsedEntry} {addedNodes : List RpcNode} {nodes : List Node}
  {message : RpcNode} {node : Node}

/-- The nodes are those of the entries, in their order, and their ids are known from the
responses. -/
structure Mapped (entries : List ParsedEntry) (addedNodes : List RpcNode) (nodes : List Node) : Prop where
  ids : List.Forall₂ (fun message node => convertFromRpcNodeId message.id = .ok node.id) addedNodes nodes
  values : List.Forall₂ (fun entry node => node.value.type = .string ∧
    node.value.stringValue = .ok entry.fileInfoContent) entries nodes
  parents : ∀ i entry node, entries[i]? = some entry → nodes[i]? = some node →
    (i = 0 → node.parentId = nullNodeId) ∧
      (0 < i → ∃ parent, nodes[entry.parentId.toNat]? = some parent ∧ node.parentId = parent.id)

theorem Mapped.length_nodes (h : Mapped entries addedNodes nodes) : nodes.length = entries.length :=
  h.values.length_eq.symm

theorem Mapped.length_added (h : Mapped entries addedNodes nodes) : addedNodes.length = entries.length :=
  h.ids.length_eq.trans h.length_nodes

theorem Mapped.exists_at (h : Mapped entries addedNodes nodes) {i : Nat} (hi : i < entries.length) :
    ∃ message node, addedNodes[i]? = some message ∧ nodes[i]? = some node ∧
      convertFromRpcNodeId message.id = .ok node.id := by
  have hadded : i < addedNodes.length := by rw [h.length_added]; exact hi
  have hnodes : i < nodes.length := by rw [h.length_nodes]; exact hi
  exact ⟨_, _, List.getElem?_eq_getElem hadded, List.getElem?_eq_getElem hnodes,
    (List.forall₂_iff_get.mp h.ids).2 i hadded hnodes⟩

theorem mapped_nil : Mapped [] [] [] := ⟨.nil, .nil, fun _ _ _ h => by cases h⟩

theorem Mapped.concat (h : Mapped entries addedNodes nodes)
    (hid : convertFromRpcNodeId message.id = .ok node.id)
    (hvalue : node.value.type = .string ∧ node.value.stringValue = .ok entry.fileInfoContent)
    (hroot : entries = [] → node.parentId = nullNodeId)
    (hparent : entries ≠ [] → ∃ parent, nodes[entry.parentId.toNat]? = some parent ∧ node.parentId = parent.id) :
    Mapped (entries ++ [entry]) (addedNodes ++ [message]) (nodes ++ [node]) := by
  refine ⟨List.rel_append h.ids (.cons hid .nil), List.rel_append h.values (.cons hvalue .nil),
    fun i entry' node' hentry hnode => ?_⟩
  have hlength := h.length_nodes
  have hkeep : ∀ k parent, nodes[k]? = some parent → (nodes ++ [node])[k]? = some parent := fun k parent hk => by
    rw [List.getElem?_append_left (List.getElem?_eq_some_iff.mp hk).1]
    exact hk
  rcases Nat.lt_or_ge i entries.length with hlt | hge
  · rw [List.getElem?_append_left hlt] at hentry
    rw [List.getElem?_append_left (by omega)] at hnode
    obtain ⟨hfirst, hlater⟩ := h.parents i entry' node' hentry hnode
    refine ⟨hfirst, fun hi => ?_⟩
    obtain ⟨parent, hmem, heq⟩ := hlater hi
    exact ⟨parent, hkeep _ _ hmem, heq⟩
  · have hi : i = entries.length := by
      have := (List.getElem?_eq_some_iff.mp hentry).1
      rw [List.length_append, List.length_singleton] at this
      omega
    subst hi
    rw [List.getElem?_concat_length, Option.some.injEq] at hentry
    rw [← hlength, List.getElem?_concat_length, Option.some.injEq] at hnode
    subst hentry hnode
    refine ⟨fun hnone => hroot (List.eq_nil_of_length_eq_zero hnone), fun hi => ?_⟩
    obtain ⟨parent, hmem, heq⟩ := hparent (List.ne_nil_of_length_pos hi)
    exact ⟨parent, hkeep _ _ hmem, heq⟩

end Mapping

section Running

variable {pageSize total : Nat} {store : List (List Slot)} {doc : Document} {done remaining : List ParsedEntry}
  {addedNodes : List RpcNode} {entry : ParsedEntry} {line : List UInt8}

theorem exists_createRoot (h : InitLine line entry) :
    ∃ request, createRoot entry.fileInfoContent = .ok request ∧ request.parent = nullNodeId ∧
      nodeValueStringNew entry.fileInfoContent = .ok request.value ∧ request.value.type = .string ∧
      request.value.stringValue = .ok entry.fileInfoContent := by
  obtain ⟨value, hvalue, htype, hstring⟩ := h.exists_value
  refine ⟨⟨nullNodeId, value, isInt32_nullNodeId_pageId, isInt32_nullNodeId_itemId⟩, ?_, rfl, hvalue, htype, hstring⟩
  rw [createRoot, hvalue]
  rfl

theorem addEntry_run (h : Packed pageSize store doc) (hfilled : Filled pageSize done.length store)
    (hmapped : Mapped done addedNodes (nodesOf store)) (hsize : pageSize < 2 ^ 31)
    (hfit : sizeofPageHeader + (sizeofItemMetadata + sizeofNode) ≤ pageSize) (htotal : done.length < total)
    (hfile : sizeofFileHeader + pagesFor pageSize total * pageSize < 2 ^ 32) (hline : InitLine line entry)
    (hparent : 0 ≤ entry.parentId ∧ entry.parentId < done.length) :
    ∃ parent request response t store', addedNode addedNodes total entry.parentId = .ok parent ∧
      createBelow parent.id (.ok entry.fileInfoContent) = .ok request ∧
      clientAddNode request doc = .ok response t ∧ Packed pageSize store' t ∧
      Filled pageSize (done.length + 1) store' ∧
      Mapped (done ++ [entry]) (addedNodes ++ [response]) (nodesOf store') := by
  obtain ⟨value, hvalue, htype, hstring⟩ := hline.exists_value
  obtain ⟨message, node, hmessage, hnode, hid⟩ :=
    hmapped.exists_at (show entry.parentId.toNat < done.length by omega)
  have hlive := List.mem_of_getElem? hnode
  obtain ⟨request, hrequest, hparentId, hrequestValue⟩ := createBelow_eq hid hvalue
  rw [← hrequestValue] at hvalue htype hstring
  have hnull : request.parent ≠ nullNodeId := by
    rw [hparentId]
    exact id_ne_null hlive
  obtain ⟨t, stored, response, hrun, ht, hnodes, hresponse⟩ := clientAddNode_packed h hvalue
    (node_fits_of_more (k := 0) (by rw [Nat.zero_add, Nat.mul_one]; exact hfit))
    (hfilled.room h.holds.nodes hsize hfit htotal hfile)
    (fun heq => absurd heq hnull) fun _ => ⟨node, hlive, hparentId.symm⟩
  refine ⟨message, request, response, t, _, ?_, hrequest, hrun, ht, hfilled.put h.holds.nodes hsize hfit stored, ?_⟩
  · rw [addedNode, if_pos ⟨hparent.1, by omega⟩, hmessage]
    rfl
  · rw [hnodes]
    exact hmapped.concat hresponse ⟨htype, hstring⟩ (fun hnone => by simp [hnone] at hparent; omega)
      fun _ => ⟨node, hnode, hparentId⟩

theorem fillChildren_run (h : Packed pageSize store doc) (hfilled : Filled pageSize done.length store)
    (hmapped : Mapped done addedNodes (nodesOf store)) (hsize : pageSize < 2 ^ 31)
    (hfit : sizeofPageHeader + (sizeofItemMetadata + sizeofNode) ≤ pageSize)
    (htotal : (done ++ remaining).length = total)
    (hfile : sizeofFileHeader + pagesFor pageSize total * pageSize < 2 ^ 32)
    (hlines : ∀ entry ∈ remaining, ∃ line, InitLine line entry) (hdone : done ≠ [])
    (hnumbered : Numbered (done ++ remaining)) :
    ∃ added t store', fillChildren total remaining addedNodes doc = .ok added t ∧ Packed pageSize store' t ∧
      Mapped (done ++ remaining) added (nodesOf store') := by
  induction remaining generalizing store doc done addedNodes with
  | nil => exact ⟨addedNodes, doc, store, run_pure _ _, h, by rw [List.append_nil]; exact hmapped⟩
  | cons entry remaining ih =>
      obtain ⟨⟨line, hline⟩, hlines⟩ := List.forall_mem_cons.mp hlines
      have hposition : (done ++ entry :: remaining)[done.length]? = some entry := by simp
      obtain ⟨_, _, hparent⟩ := hnumbered done.length entry hposition
      have hpos := List.length_pos_of_ne_nil hdone
      have hparent := hparent hpos
      rw [List.length_append, List.length_cons] at htotal
      obtain ⟨parent, request, response, s, store1, hadded, hrequest, hrun, hs, hfilled1, hmapped1⟩ :=
        addEntry_run h hfilled hmapped hsize hfit (show done.length < total by omega) hfile hline (by omega)
      have hsplit : done ++ entry :: remaining = done ++ [entry] ++ remaining := by simp
      rw [hsplit] at hnumbered ⊢
      obtain ⟨added, t, store2, hrest, ht, hmapped2⟩ := ih hs (by simpa using hfilled1) hmapped1
        (by simp; omega) hlines (by simp) hnumbered
      refine ⟨added, t, store2, ?_, ht, hmapped2⟩
      rw [fillChildren]
      simp only [run_bind, hadded, hrequest, run_lift_ok, andThen_ok, hrun]
      exact hrest

/-- The nodes of a file are an image of its lines: one live node for each line, with the
id that the server has answered, the content of the line, and below the node of the line's
parent. -/
structure Isomorphic (entries : List ParsedEntry) (addedNodes : List RpcNode) (nodes : List Node) : Prop where
  count : nodes.length = entries.length
  distinct : (nodes.map Node.id).Nodup
  node : ∀ i entry, entries[i]? = some entry → ∃ message node, addedNodes[i]? = some message ∧
    nodes[i]? = some node ∧ convertFromRpcNodeId message.id = .ok node.id ∧
    node.value.type = .string ∧ node.value.stringValue = .ok entry.fileInfoContent ∧
    (i = 0 → node.parentId = nullNodeId) ∧
    (0 < i → ∃ parent, addedNodes[entry.parentId.toNat]? = some parent ∧
      convertFromRpcNodeId parent.id = .ok node.parentId)

theorem Mapped.isomorphic {entries : List ParsedEntry} {addedNodes : List RpcNode}
    (h : Mapped entries addedNodes (nodesOf store)) : Isomorphic entries addedNodes (nodesOf store) := by
  refine ⟨h.length_nodes, ?_, fun i entry hentry => ?_⟩
  · exact List.pairwise_map.mpr ((pairwise_nodesOf store).imp fun hbefore => hbefore.ne)
  · have hi := (List.getElem?_eq_some_iff.mp hentry).1
    obtain ⟨message, node, hmessage, hnode, hid⟩ := h.exists_at hi
    obtain ⟨hi', hentry'⟩ := List.getElem?_eq_some_iff.mp hentry
    obtain ⟨hj, hnode'⟩ := List.getElem?_eq_some_iff.mp hnode
    have hvalue := (List.forall₂_iff_get.mp h.values).2 i hi' hj
    simp only [List.get_eq_getElem, hentry', hnode'] at hvalue
    obtain ⟨hroot, hparent⟩ := h.parents i entry node hentry hnode
    refine ⟨message, node, hmessage, hnode, hid, hvalue.1, hvalue.2, hroot, fun hpos => ?_⟩
    obtain ⟨parent, hmem, heq⟩ := hparent hpos
    obtain ⟨message', parent', hmessage', hparent', hid'⟩ :=
      h.exists_at (show entry.parentId.toNat < entries.length from
        h.length_nodes ▸ (List.getElem?_eq_some_iff.mp hmem).1)
    rw [hmem] at hparent'
    cases hparent'
    exact ⟨message', hmessage', heq ▸ hid'⟩

end Running

section Filling

variable {pageSize : Nat} {doc : Document} {lines : List (List UInt8)} {entries : List ParsedEntry} {u : Unit}

theorem packed_of_init (hsmall : sizeofFileHeader + pageSize < 2 ^ 32)
    (hinit : serverInitDocument pageSize (documentNew (fileOpen none noFaults)) = .ok u doc) :
    Packed pageSize [[]] doc := by
  have hsize : toUInt32 pageSize = pageSize := toUInt32_of_lt (by omega)
  rw [serverInitDocument] at hinit
  obtain ⟨res, s, hrun, habort⟩ := bind_eq_ok.mp hinit
  obtain ⟨_, rfl⟩ := abortIfFail_eq_ok.mp habort
  have hs := (documentInit_new_ok (by rw [hsize]; exact hsmall) hrun).2
  rw [hsize] at hs
  exact ⟨hs, allLive_fresh⟩

/-- Filling a new document with the lines of a file ends with their image. -/
theorem fillDbFromLines_isomorphic (hsize : pageSize < 2 ^ 31)
    (hfit : sizeofPageHeader + (sizeofItemMetadata + sizeofNode) ≤ pageSize)
    (hinit : serverInitDocument pageSize (documentNew (fileOpen none noFaults)) = .ok u doc)
    (hlines : List.Forall₂ InitLine lines entries) (hne : lines ≠ []) (hnumbered : Numbered entries)
    (hfile : sizeofFileHeader + pagesFor pageSize lines.length * pageSize < 2 ^ 32) :
    ∃ addedNodes t, fillDbFromLines lines doc = .ok addedNodes t ∧
      Isomorphic entries addedNodes (liveNodes t) := by
  have hone : 1 * pageSize ≤ pagesFor pageSize lines.length * pageSize :=
    Nat.mul_le_mul_right _ (le_max_left _ _)
  have hdoc := packed_of_init (show sizeofFileHeader + pageSize < 2 ^ 32 by omega) hinit
  have hparse : lines.mapM parseEntry = .ok entries := mapM_eq_ok.mpr (hlines.imp fun _ _ h => h.parseEntry_eq)
  have hcount := hlines.length_eq
  cases hlines with
  | nil => exact absurd rfl hne
  | @cons line root lines entries hline hrest =>
      obtain ⟨hid, hparent, _⟩ := hnumbered 0 root rfl
      obtain ⟨request, hrequest, hnull, hvalue, htype, hstring⟩ := exists_createRoot hline
      obtain ⟨s, stored, response, hrun, hs, hnodes, hresponse⟩ := clientAddNode_packed hdoc hvalue
        (node_fits_of_more (k := 0) (by rw [Nat.zero_add, Nat.mul_one]; exact hfit))
        ((filled_fresh pageSize).room hdoc.holds.nodes hsize hfit (Nat.zero_lt_succ lines.length) hfile)
        (fun _ => by simp [nodesOf_fresh]) fun hnot => absurd hnull hnot
      rw [nodesOf_fresh, hnull] at hnodes
      have hmapped : Mapped [root] [response] (nodesOf (putSlots pageSize [[]] (encodeNode stored))) := by
        rw [hnodes]
        exact mapped_nil.concat hresponse ⟨htype, hstring⟩ (fun _ => rfl) fun hnot => absurd rfl hnot
      have hall : ∀ entry ∈ entries, ∃ line, InitLine line entry := fun entry hentry => by
        obtain ⟨line, _, hline⟩ := forall₂_exists hrest.flip entry hentry
        exact ⟨line, hline⟩
      have hfilled : Filled pageSize [root].length (putSlots pageSize [[]] (encodeNode stored)) :=
        (filled_fresh pageSize).put hdoc.holds.nodes hsize hfit stored
      obtain ⟨added, t, store, hchildren, ht, hmapped'⟩ := fillChildren_run hs hfilled hmapped hsize hfit
        (show ([root] ++ entries).length = (line :: lines).length from hcount.symm) hfile hall (by simp) hnumbered
      refine ⟨added, t, ?_, by rw [ht.holds.liveNodes_eq]; exact hmapped'.isomorphic⟩
      rw [fillDbFromLines]
      simp only [run_bind, hparse, run_lift_ok, andThen_ok, hparent rfl, hid, Nat.cast_zero, ne_eq,
        not_true_eq_false, if_false, hrequest, hrun]
      exact hchildren

theorem fillDbFromLines_isomorphic_pair :
    ∃ doc addedNodes t, fillDbFromLines [bytesOf "0 -1 root", bytesOf "1 0 x"] doc = .ok addedNodes t ∧
      Isomorphic [⟨0, -1, bytesOf "root"⟩, ⟨1, 0, bytesOf "x"⟩] addedNodes (liveNodes t) := by
  obtain ⟨doc, hinit, _⟩ := serverInitDocument_new (show sizeofPageHeader ≤ 4096 by decide) (by decide)
  have hroot : InitLine (bytesOf "0 -1 root") ⟨0, -1, bytesOf "root"⟩ :=
    ⟨⟨bytesOf "0", bytesOf "-1", by decide, ⟨⟨by decide, by decide, by decide⟩, by decide⟩,
      ⟨by decide, by decide, by decide⟩, by decide⟩, by decide, by decide, by decide⟩
  have hx : InitLine (bytesOf "1 0 x") ⟨1, 0, bytesOf "x"⟩ :=
    ⟨⟨bytesOf "1", bytesOf "0", by decide, ⟨⟨by decide, by decide, by decide⟩, by decide⟩,
      ⟨by decide, by decide, by decide⟩, by decide⟩, by decide, by decide, by decide⟩
  have hnumbered : Numbered [⟨0, -1, bytesOf "root"⟩, ⟨1, 0, bytesOf "x"⟩] := by
    rintro (_ | _ | i) entry hentry
    · cases hentry
      simp
    · cases hentry
      simp
    · cases hentry
  obtain ⟨addedNodes, t, hrun, hall⟩ := fillDbFromLines_isomorphic (by decide) (by decide) hinit
    (.cons hroot (.cons hx .nil)) (by simp) hnumbered (by decide)
  exact ⟨doc, addedNodes, t, hrun, hall⟩

end Filling

end DocumentDb.Client
