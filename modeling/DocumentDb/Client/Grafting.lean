import DocumentDb.Client.Commands
import DocumentDb.Client.Directory
import DocumentDb.Server.Driving

namespace DocumentDb.Client

open Storage Program Bytes Documents Rpc Server Trees

section Driving

variable {α : Type} {x : DocumentM α} {doc t : Document} {a : α}

theorem FileBelow.before (hx : Driven Longer x) (hrun : x doc = .ok a t) (h : FileBelow t.pageManager) :
    FileBelow doc.pageManager := by
  have honward := (hx.leads doc).onward
  rw [hrun] at honward
  exact Nat.lt_of_le_of_lt honward h

theorem drives_clientAddNode (request : CreateNodeRequest) : Driven Longer (clientAddNode request) := by
  apply (Device.Drives.lift _).bind
  intro query
  apply (drives_createNode query).bind
  intro answer
  exact Device.Drives.lift _

theorem drives_fillChildren (count : Nat) (entries : List ParsedEntry) (addedNodes : List RpcNode) :
    Driven Longer (fillChildren count entries addedNodes) := by
  induction entries generalizing addedNodes with
  | nil => exact Device.Drives.pure _
  | cons entry entries ih =>
      apply (Device.Drives.lift _).bind
      intro parent
      apply (Device.Drives.lift _).bind
      intro request
      apply (drives_clientAddNode request).bind
      intro node
      exact ih _

end Driving

section Answers

variable {pageSize : Nat} {doc s : Document} {request : CreateNodeRequest} {answer response : RpcNode}
  {text : List UInt8} {nodes : List Node}

theorem convertersCopyNode_id (h : convertersCopyNode answer = .ok response) : response.id = answer.id := by
  obtain ⟨id, parentId, value⟩ := answer
  rw [convertersCopyNode] at h
  cases id with
  | none => cases h
  | some id =>
      cases parentId with
      | none => cases h
      | some parentId =>
          cases value with
          | none => cases h
          | some value =>
              cases h
              rfl

theorem handleCreateResponse_id (h : handleCreateResponse answer = .ok response) : response.id = answer.id := by
  rw [handleCreateResponse] at h
  obtain ⟨copied, hcopy, hrest⟩ := partial_bind_eq_ok.mp h
  obtain ⟨nodeId, _, hrest⟩ := partial_bind_eq_ok.mp hrest
  have hsame : copied = response := by
    split at hrest
    · obtain ⟨value, _, hrest⟩ := partial_bind_eq_ok.mp hrest
      split at hrest
      · cases hrest
      · exact Except.ok.inj hrest
    · exact Except.ok.inj hrest
  rw [← hsame]
  exact convertersCopyNode_id hcopy

structure AnsweredBy (response : RpcNode) (request : CreateNodeRequest) (text : List UInt8) (node : Node) : Prop where
  id : convertFromRpcNodeId response.id = .ok node.id
  parent : node.parentId = request.parent
  text : HoldsText node (cString text)

theorem AnsweredBy.holdsText {node : Node} (h : AnsweredBy response request text node) (hzero : 0 ∉ text) :
    HoldsText node text := by
  have htext := h.text
  rwa [cString_eq_self hzero] at htext

theorem clientAddNode_granted (h : ServerReachable pageSize doc) (hvalue : nodeValueStringNew text = .ok request.value)
    (hgranted : Granted request (liveNodes doc)) (hrun : clientAddNode request doc = .ok response s)
    (hbelow : FileBelow s.pageManager) :
    ServerReachable pageSize s ∧ ∃ node, liveNodes s = liveNodes doc ++ [node] ∧
      AnsweredBy response request text node ∧ ∀ other ∈ liveNodes doc, Before other.id node.id := by
  obtain ⟨query, answer, hsend, hcreate, hresponse⟩ := clientAddNode_ok hrun
  obtain ⟨store, hstore, _⟩ := h.document.tree
  obtain ⟨nodeRequest, node, store', hreceive, hanswer, ht, hparent, hnodeValue, hnodes⟩ :=
    handleCreateNodeRequest_nodes hstore hcreate hbelow
  have hsame := parent_of_sent hsend hreceive
  rw [hstore.liveNodes_eq] at hgranted
  rw [hstore.liveNodes_eq, ht.liveNodes_eq]
  refine ⟨h.createNode hcreate hbelow, node, ?_⟩
  rcases hnodes with ⟨_, _, hroot, hnone⟩ | ⟨hadded, _, _, hbefore⟩
  · exfalso
    by_cases hnull : request.parent = nullNodeId
    · obtain ⟨root, hlive, hid⟩ := hroot (hsame.trans hnull)
      exact hgranted.1 hnull root hlive hid
    · obtain ⟨parent, hlive, hid⟩ := hgranted.2 hnull
      refine hnone ?_ parent hlive ?_
      · rw [hsame]
        exact hnull
      · rw [hsame]
        exact hid
  · have hlive : node ∈ nodesOf store' := by
      rw [hadded]
      exact List.mem_append_right _ List.mem_cons_self
    refine ⟨hadded, ⟨?_, hparent.trans hsame, ?_⟩, hbefore⟩
    · rw [handleCreateResponse_id hresponse]
      exact convertFromRpcNodeId_of_ok hanswer (idsFit ht hlive)
    · rw [HoldsText, hnodeValue, value_of_sent hvalue hsend hreceive]
      exact ⟨(nodeValueStringNew_ok hvalue).2.1, (nodeValueStringNew_ok hvalue).2.2.1⟩

theorem clientAddNode_refused (h : ServerReachable pageSize doc) (hrefused : ¬Granted request (liveNodes doc))
    (hrun : clientAddNode request doc = .ok response s) (hbelow : FileBelow s.pageManager) :
    ServerReachable pageSize s ∧ liveNodes s = liveNodes doc ∧ convertFromRpcNodeId response.id = .ok rootNodeId := by
  obtain ⟨query, answer, hsend, hcreate, hresponse⟩ := clientAddNode_ok hrun
  obtain ⟨store, hstore, _⟩ := h.document.tree
  obtain ⟨nodeRequest, node, store', hreceive, hanswer, ht, _, _, hnodes⟩ :=
    handleCreateNodeRequest_nodes hstore hcreate hbelow
  have hsame := parent_of_sent hsend hreceive
  rw [hstore.liveNodes_eq] at hrefused
  rw [hstore.liveNodes_eq, ht.liveNodes_eq]
  refine ⟨h.createNode hcreate hbelow, ?_⟩
  rcases hnodes with ⟨hkept, hid, _, _⟩ | ⟨_, hroot, hchild, _⟩
  · refine ⟨hkept, ?_⟩
    rw [handleCreateResponse_id hresponse, (convertToRpcNode_ok hanswer).1, hid]
    exact convertFromRpcNodeId_convertNodeIdToRpc isInt32_rootNodeId_pageId isInt32_rootNodeId_itemId
  · rw [hsame] at hroot hchild
    exact absurd ⟨hroot, hchild⟩ hrefused

def Anchored (nodes : List Node) : Prop := ∃ node ∈ nodes, node.id = rootNodeId

instance (nodes : List Node) : Decidable (Anchored nodes) := inferInstanceAs (Decidable (∃ node ∈ nodes, _))

theorem granted_root (hnull : request.parent = nullNodeId) : Granted request nodes ↔ ¬Anchored nodes := by
  constructor
  · rintro hgranted ⟨node, hnode, hid⟩
    exact hgranted.1 hnull node hnode hid
  · intro hnot
    exact ⟨fun _ node hnode hid => hnot ⟨node, hnode, hid⟩, fun hchild => absurd hnull hchild⟩

theorem granted_child (hchild : request.parent ≠ nullNodeId) :
    Granted request nodes ↔ ∃ parent ∈ nodes, parent.id = request.parent := by
  constructor
  · intro hgranted
    exact hgranted.2 hchild
  · intro hparent
    exact ⟨fun hnull => absurd hnull hchild, fun _ => hparent⟩

theorem Anchored.first (h : ServerReachable pageSize doc) (hanchored : Anchored (liveNodes doc)) :
    ∃ first rest, liveNodes doc = first :: rest ∧ first.id = rootNodeId ∧ first.parentId = nullNodeId := by
  obtain ⟨root, hroot, hid⟩ := hanchored
  have hgrown := h.grown
  obtain ⟨store, hstore, _⟩ := h.document.tree
  rw [hstore.liveNodes_eq] at hgrown hroot ⊢
  have hleast : ∀ node ∈ nodesOf store, ¬Before node.id rootNodeId := by
    intro node hnode
    obtain ⟨item, hitem, rfl⟩ := List.mem_map.mp hnode
    obtain ⟨k, i, _, _, hitemId, _⟩ := liveBytes_some (mem_liveItems.mp hitem).1
    rw [nodeOfItem_id, hitemId, Before]
    rintro (hpage | ⟨_, hslot⟩)
    · exact absurd hpage (Int.not_lt.mpr (Int.natCast_nonneg k))
    · exact absurd hslot (Int.not_lt.mpr (Int.natCast_nonneg i))
  have hparent : root.parentId = nullNodeId := by
    rcases hgrown.rooted root hroot with hnull | ⟨parent, hlive, _, hbefore⟩
    · exact hnull
    · rw [hid] at hbefore
      exact absurd hbefore (hleast parent hlive)
  cases hnodes : nodesOf store with
  | nil =>
      rw [hnodes] at hroot
      cases hroot
  | cons first rest =>
      have hincreasing := hgrown.increasing
      rw [hnodes] at hincreasing hroot hleast
      rcases List.mem_cons.mp hroot with rfl | hlater
      · exact ⟨root, rest, rfl, hid, hparent⟩
      · have hbefore := List.rel_of_pairwise_cons hincreasing hlater
        rw [hid] at hbefore
        exact absurd hbefore (hleast first List.mem_cons_self)

end Answers

section Growing

variable {pageSize count : Nat} {doc s : Document} {done remaining : List ParsedEntry} {entry : ParsedEntry}
  {added addedNodes : List RpcNode} {message response : RpcNode} {request : CreateNodeRequest} {images : List Node}

theorem Numbered.parent_lt (h : Numbered (done ++ entry :: remaining)) (hdone : done ≠ []) :
    0 ≤ entry.parentId ∧ entry.parentId < done.length := by
  obtain ⟨_, _, hparent⟩ := h done.length entry (by simp)
  have hbounds := hparent (List.length_pos_of_ne_nil hdone)
  omega

theorem Mapped.exists_parent (h : Mapped done addedNodes images)
    (hparent : 0 ≤ entry.parentId ∧ entry.parentId < done.length)
    (hmessage : addedNode addedNodes count entry.parentId = .ok message)
    (hid : convertFromRpcNodeId message.id = .ok request.parent) :
    ∃ parent, images[entry.parentId.toNat]? = some parent ∧ parent.id = request.parent := by
  obtain ⟨message', parent, hget, himage, hid'⟩ := h.exists_at (show entry.parentId.toNat < done.length by omega)
  rw [addedNode] at hmessage
  split at hmessage
  · rw [hget] at hmessage
    cases hmessage
    exact ⟨parent, himage, Except.ok.inj (hid'.symm.trans hid)⟩
  · cases hmessage

theorem addEntry_ok (h : ServerReachable pageSize doc) (hmapped : Mapped done addedNodes images)
    (himages : images ⊆ liveNodes doc) (hparent : 0 ≤ entry.parentId ∧ entry.parentId < done.length)
    (hzero : 0 ∉ entry.fileInfoContent) (hmessage : addedNode addedNodes count entry.parentId = .ok message)
    (hid : convertFromRpcNodeId message.id = .ok request.parent)
    (hvalue : nodeValueStringNew entry.fileInfoContent = .ok request.value)
    (hadd : clientAddNode request doc = .ok response s) (hbelow : FileBelow s.pageManager) :
    ServerReachable pageSize s ∧ ∃ node, liveNodes s = liveNodes doc ++ [node] ∧ images ++ [node] ⊆ liveNodes s ∧
      Mapped (done ++ [entry]) (addedNodes ++ [response]) (images ++ [node]) := by
  obtain ⟨parent, himage, hsame⟩ := hmapped.exists_parent hparent hmessage hid
  have hlive := himages (List.mem_of_getElem? himage)
  have hchild : request.parent ≠ nullNodeId := by
    rw [← hsame]
    exact h.grown.ne_null parent hlive
  obtain ⟨hs, node, hnodes, hanswered, _⟩ := clientAddNode_granted h hvalue
    ((granted_child hchild).mpr ⟨parent, hlive, hsame⟩) hadd hbelow
  refine ⟨hs, node, hnodes, ?_, ?_⟩
  · rw [hnodes]
    exact List.append_subset.mpr ⟨fun image himage => List.mem_append_left _ (himages himage),
      List.subset_append_right _ _⟩
  · have htext := hanswered.holdsText hzero
    have habove := hanswered.parent.trans hsame.symm
    refine hmapped.concat hanswered.id htext (fun hnil => ?_) fun _ => ⟨parent, himage, habove⟩
    rw [hnil, List.length_nil] at hparent
    omega

theorem fillChildren_ok (h : ServerReachable pageSize doc) (hmapped : Mapped done addedNodes images)
    (himages : images ⊆ liveNodes doc) (hdone : done ≠ []) (hnumbered : Numbered (done ++ remaining))
    (hzero : ∀ entry ∈ remaining, 0 ∉ entry.fileInfoContent)
    (hrun : fillChildren count remaining addedNodes doc = .ok added s) (hbelow : FileBelow s.pageManager) :
    ServerReachable pageSize s ∧ ∃ news, liveNodes s = liveNodes doc ++ news ∧
      Mapped (done ++ remaining) added (images ++ news) := by
  induction remaining generalizing doc done addedNodes images with
  | nil =>
      cases hrun
      refine ⟨h, [], (List.append_nil _).symm, ?_⟩
      rw [List.append_nil, List.append_nil]
      exact hmapped
  | cons entry remaining ih =>
      obtain ⟨hentry, hzero⟩ := List.forall_mem_cons.mp hzero
      have hparent := hnumbered.parent_lt hdone
      rw [fillChildren] at hrun
      obtain ⟨message, _, hlift, hrest⟩ := bind_eq_ok.mp hrun
      obtain ⟨hmessage, rfl⟩ := lift_eq_ok.mp hlift
      obtain ⟨request, _, hlift, hrest⟩ := bind_eq_ok.mp hrest
      obtain ⟨hrequest, rfl⟩ := lift_eq_ok.mp hlift
      obtain ⟨response, t, hadd, hnext⟩ := bind_eq_ok.mp hrest
      have ht := FileBelow.before (drives_fillChildren count remaining _) hnext hbelow
      obtain ⟨hid, text, htext, hvalue⟩ := createBelow_ok hrequest
      cases htext
      obtain ⟨ht, node, hnodes, hkept, hmapped⟩ :=
        addEntry_ok h hmapped himages hparent hentry hmessage hid hvalue hadd ht
      rw [List.append_cons] at hnumbered ⊢
      obtain ⟨hs, news, hall, hlast⟩ :=
        ih ht hmapped hkept (List.append_ne_nil_of_right_ne_nil _ (List.cons_ne_nil _ _))
        hnumbered hzero hnext
      refine ⟨hs, node :: news, ?_, ?_⟩
      · rw [hall, hnodes, List.append_assoc]
        rfl
      · rw [List.append_cons images]
        exact hlast

variable {lines : List (List UInt8)} {root : ParsedEntry} {entries : List ParsedEntry} {text : List UInt8}
  {t : Trees (List UInt8)}

theorem fillDbFromLines_ok (hparse : lines.mapM parseEntry = .ok (root :: entries))
    (hrun : fillDbFromLines lines doc = .ok added s) :
    ∃ request response t, createRoot root.fileInfoContent = .ok request ∧ clientAddNode request doc = .ok response t ∧
      fillChildren lines.length entries [response] t = .ok added s := by
  rw [fillDbFromLines] at hrun
  simp only [run_bind, hparse, run_lift_ok, andThen_ok] at hrun
  split at hrun
  · cases hrun
  split at hrun
  · cases hrun
  obtain ⟨request, _, hlift, hrest⟩ := bind_eq_ok.mp hrun
  obtain ⟨hrequest, rfl⟩ := lift_eq_ok.mp hlift
  obtain ⟨response, t, hadd, hrest⟩ := bind_eq_ok.mp hrest
  exact ⟨request, response, t, hrequest, hadd, hrest⟩

theorem createRoot_ok (h : createRoot text = .ok request) :
    request.parent = nullNodeId ∧ nodeValueStringNew text = .ok request.value := by
  rw [createRoot] at h
  obtain ⟨value, hvalue, hpure⟩ := partial_bind_eq_ok.mp h
  cases hpure
  exact ⟨rfl, hvalue⟩

def ParsedEntry.withText (entry : ParsedEntry) (text : List UInt8) : ParsedEntry := ⟨entry.id, entry.parentId, text⟩

theorem Numbered.withText (h : Numbered (root :: entries)) (text : List UInt8) :
    Numbered (root.withText text :: entries) := by
  intro i entry hentry
  cases i with
  | zero =>
      cases hentry
      exact h 0 root rfl
  | succ i => exact h (i + 1) entry hentry

/-- What the first entry becomes: a new node, or the node with the id of the first root where that is there. -/
inductive FirstImage (nodes : List Node) (root : ParsedEntry) : List UInt8 → Node → List Node → Prop
  | granted {image} : ¬Anchored nodes → FirstImage nodes root root.fileInfoContent image (nodes ++ [image])
  | refused {image rest text} : Anchored nodes → nodes = image :: rest → FirstImage nodes root text image nodes

theorem FirstImage.mem {nodes nodes' : List Node} {image : Node} (h : FirstImage nodes root text image nodes') :
    [image] ⊆ nodes' := by
  cases h with
  | granted _ => exact List.subset_append_right _ _
  | refused _ hnodes =>
      rw [hnodes]
      exact List.cons_subset_cons _ (List.nil_subset _)

theorem FirstImage.length_le {nodes nodes' : List Node} {image : Node} (h : FirstImage nodes root text image nodes') :
    nodes'.length ≤ nodes.length + 1 := by
  cases h with
  | granted _ => rw [List.length_append, List.length_singleton]
  | refused _ _ => exact Nat.le_succ _

theorem addFirst_ok (h : ServerReachable pageSize doc) (hshows : Shows (liveNodes doc) t)
    (hnull : request.parent = nullNodeId) (hvalue : nodeValueStringNew root.fileInfoContent = .ok request.value)
    (hzero : 0 ∉ root.fileInfoContent) (hadd : clientAddNode request doc = .ok response s)
    (hbelow : FileBelow s.pageManager) :
    ServerReachable pageSize s ∧ ∃ text image, FirstImage (liveNodes doc) root text image (liveNodes s) ∧
      Mapped [root.withText text] [response] [image] := by
  by_cases hanchored : Anchored (liveNodes doc)
  · obtain ⟨first, rest, hnodes, hid, hparent⟩ := hanchored.first h
    have hrefused : ¬Granted request (liveNodes doc) := fun hgranted => (granted_root hnull).mp hgranted hanchored
    obtain ⟨hs, hkept, hanswered⟩ := clientAddNode_refused h hrefused hadd hbelow
    obtain ⟨text, _, htext⟩ := hshows.exists_text (show first ∈ liveNodes doc by
      rw [hnodes]
      exact List.mem_cons_self)
    rw [hkept]
    rw [← hid] at hanswered
    exact ⟨hs, text, first, .refused hanchored hnodes,
      mapped_nil.concat hanswered htext (fun _ => hparent) fun hnot => absurd rfl hnot⟩
  · obtain ⟨hs, node, hnodes, hanswered, _⟩ := clientAddNode_granted h hvalue ((granted_root hnull).mpr hanchored) hadd
      hbelow
    have htext := hanswered.holdsText hzero
    rw [hnodes]
    exact ⟨hs, root.fileInfoContent, node, .granted hanchored,
      mapped_nil.concat hanswered.id htext (fun _ => hanswered.parent.trans hnull) fun hnot => absurd rfl hnot⟩

theorem fillDbFromLines_mapped (h : ServerReachable pageSize doc) (hshows : Shows (liveNodes doc) t)
    (hparse : lines.mapM parseEntry = .ok (root :: entries)) (hnumbered : Numbered (root :: entries))
    (hzero : ∀ entry ∈ root :: entries, 0 ∉ entry.fileInfoContent)
    (hrun : fillDbFromLines lines doc = .ok added s) (hbelow : FileBelow s.pageManager) :
    ServerReachable pageSize s ∧ ∃ text image nodes news, FirstImage (liveNodes doc) root text image nodes ∧
      liveNodes s = nodes ++ news ∧ Mapped (root.withText text :: entries) added (image :: news) := by
  obtain ⟨hroot, hentries⟩ := List.forall_mem_cons.mp hzero
  obtain ⟨request, response, u, hrequest, hadd, hnext⟩ := fillDbFromLines_ok hparse hrun
  obtain ⟨hnull, hvalue⟩ := createRoot_ok hrequest
  have hu := FileBelow.before (drives_fillChildren _ entries _) hnext hbelow
  obtain ⟨hu, text, image, himage, hmapped⟩ := addFirst_ok h hshows hnull hvalue hroot hadd hu
  obtain ⟨hs, news, hall, hlast⟩ :=
    fillChildren_ok hu hmapped himage.mem (List.cons_ne_nil _ _) (hnumbered.withText text)
    hentries hnext hbelow
  exact ⟨hs, text, image, liveNodes u, news, himage, hall, hlast⟩

end Growing

section Joins

variable {nodes news rest : List Node} {first : Node} {top : NodeId} {t below : Trees (List UInt8)}
  {text : List UInt8} {entries : List ParsedEntry} {added : List RpcNode}

theorem Mapped.parents_among (h : Mapped entries added nodes) :
    ∀ node ∈ nodes, node.parentId = nullNodeId ∨ ∃ parent ∈ nodes, parent.id = node.parentId := by
  intro node hnode
  obtain ⟨i, hi⟩ := List.mem_iff_getElem?.mp hnode
  have hlt := (List.getElem?_eq_some_iff.mp hi).1
  rw [h.length_nodes] at hlt
  obtain ⟨hfirst, hlater⟩ := h.parents i _ node (List.getElem?_eq_getElem hlt) hi
  rcases Nat.eq_zero_or_pos i with hzero | hpos
  · exact Or.inl (hfirst hzero)
  · obtain ⟨parent, hparent, heq⟩ := hlater hpos
    exact Or.inr ⟨parent, List.mem_of_getElem? hparent, heq.symm⟩

theorem Mapped.parents_below (h : Mapped entries added (first :: news)) :
    ∀ node ∈ news, node.parentId = first.id ∨ ∃ parent ∈ news, parent.id = node.parentId := by
  intro node hnode
  obtain ⟨i, hi⟩ := List.mem_iff_getElem?.mp hnode
  have hlt : i + 1 < entries.length := by
    rw [← h.length_nodes, List.length_cons]
    exact Nat.succ_lt_succ (List.getElem?_eq_some_iff.mp hi).1
  obtain ⟨_, hlater⟩ := h.parents (i + 1) _ node (List.getElem?_eq_getElem hlt) hi
  obtain ⟨parent, hparent, heq⟩ := hlater (Nat.succ_pos i)
  rcases List.mem_cons.mp (List.mem_of_getElem? hparent) with rfl | hlive
  · exact Or.inl heq
  · exact Or.inr ⟨parent, hlive, heq.symm⟩

theorem apart_of_grown (h : Grown (nodes ++ news))
    (hparents : ∀ n ∈ news, n.parentId = top ∨ ∃ m ∈ news, m.id = n.parentId) : Apart nodes news top := by
  refine ⟨fun a ha b hb => ?_, fun b hb => h.ne_null b (List.mem_append_right _ hb), hparents⟩
  exact ((List.pairwise_append.mp h.increasing).2.2 a ha b hb).ne

theorem shows_appended (h : Shows nodes t) (hgrown : Grown nodes) (hall : Grown (nodes ++ news))
    (hmapped : Mapped (((Trees.node text below .nil).number (-1) 0).toList.map textEntry) added news) :
    Shows (nodes ++ news) (t.append (.node text below .nil)) := by
  have hdistinct : (news.map Node.id).Nodup :=
    List.pairwise_map.mpr ((List.pairwise_append.mp hall.increasing).2.1.imp fun hbefore => hbefore.ne)
  obtain ⟨v, hpictures, horder, hrel⟩ := hmapped.showsInOrder hdistinct fun node hnode =>
    hall.ne_null node (List.mem_append_right _ hnode)
  exact h.append hgrown (apart_of_grown hall hmapped.parents_among) hpictures horder hrel

theorem shows_grafted (h : Shows (first :: rest) t) (hgrown : Grown (first :: rest))
    (hall : Grown (first :: rest ++ news)) (hroot : first.parentId = nullNodeId)
    (hmapped : Mapped (((Trees.node text below .nil).number (-1) 0).toList.map textEntry) added (first :: news)) :
    Shows (first :: rest ++ news) (t.graft below) := by
  have hsub : (first :: news).Sublist (first :: rest ++ news) := (List.sublist_append_right rest news).cons_cons first
  have hdistinct : ((first :: news).map Node.id).Nodup :=
    List.pairwise_map.mpr ((hall.increasing.sublist hsub).imp fun hbefore => hbefore.ne)
  have hne : ∀ node ∈ first :: news, node.id ≠ nullNodeId := fun node hnode => hall.ne_null node (hsub.subset hnode)
  obtain ⟨u, hpictures, horder, hrel⟩ := hmapped.showsInOrder hdistinct hne
  cases hrel with
  | @node a _ v _ rest' _ _ hbelow hnil =>
      cases hnil
      rw [Trees.toList, Trees.toList, List.append_nil] at horder
      obtain ⟨rfl, hnews⟩ := List.cons.inj horder
      have hchildren : ∀ k, k ≠ nullNodeId →
          children Node.parentId (a :: news) k = children Node.parentId news k := by
        intro k hk
        rw [children, List.filter_cons_of_neg]
        · rfl
        · rw [hroot, decide_eq_true_eq]
          exact hk.symm
      have hnull := hne a List.mem_cons_self
      generalize children Node.parentId (a :: news) nullNodeId = roots at hpictures
      cases hpictures with
      | node hunder _ =>
          rw [hchildren _ hnull] at hunder
          have hapart := apart_of_grown hall hmapped.parents_below
          refine h.graft hgrown hroot hapart (hunder.among fun b hb => ?_) hnews hbelow
          rw [hnews] at hb
          exact (hchildren _ (hne b (List.mem_cons_of_mem _ hb))).symm

end Joins

section Returning

variable {pageSize n total : Nat} {doc : Document} {request : CreateNodeRequest} {text : List UInt8}
  {done remaining : List ParsedEntry} {entry : ParsedEntry} {addedNodes : List RpcNode} {images : List Node}
  {lines : List (List UInt8)} {root : ParsedEntry} {entries : List ParsedEntry}

theorem clientAddNode_returns (hd : Dense pageSize doc) (hvalue : nodeValueStringNew text = .ok request.value)
    (hsize : pageSize < 2 ^ 31) (hfit : sizeofPageHeader + (sizeofItemMetadata + sizeofNode) ≤ pageSize)
    (hlt : (liveNodes doc).length < total) (hroom : HasRoom pageSize total) :
    ∃ response s, clientAddNode request doc = .ok response s ∧ Dense pageSize s ∧ FileBelow s.pageManager := by
  obtain ⟨store, hp, hfilled⟩ := hd
  rw [hp.holds.liveNodes_eq] at hlt
  by_cases hgranted : Granted request (nodesOf store)
  · obtain ⟨s, stored, response, hrun, hs, hnodes, _⟩ := clientAddNode_packed hp hvalue
      (node_fits_of_more (k := 0) (by rw [Nat.zero_add, Nat.mul_one]; exact hfit))
      (hfilled.room hp.holds.nodes hsize hfit hlt hroom) hgranted.1 hgranted.2
    refine ⟨response, s, hrun, ⟨_, hs, ?_⟩, hs.holds.below⟩
    rw [hnodes, List.length_append, List.length_singleton]
    exact hfilled.put hp.holds.nodes hsize hfit stored
  · have hroot : request.parent = nullNodeId → ∃ node ∈ nodesOf store, node.id = rootNodeId := by
      intro hnull
      rw [granted_root hnull, not_not] at hgranted
      exact hgranted
    have hchild : request.parent ≠ nullNodeId → ∀ node ∈ nodesOf store, node.id ≠ request.parent := by
      intro hne node hnode hid
      exact hgranted ((granted_child hne).mpr ⟨node, hnode, hid⟩)
    obtain ⟨message, hto, hfrom⟩ := Convertible.to_rpc ⟨⟨.string, .stringValue text⟩, hvalue⟩
    obtain ⟨s, error, hadd, hs⟩ := hp.holds.addNode_refused hp.allLive.clean request zeroNode hroot hchild
    have hids : IdsFit (requested request zeroNode) :=
      ⟨isInt32_rootNodeId_pageId, isInt32_rootNodeId_itemId, request.isInt32_pageId, request.isInt32_itemId⟩
    obtain ⟨response, hresponse, hsent⟩ := Convertible.toRpcNode (show Convertible (requested request zeroNode).value
      from ⟨message, hfrom⟩) hids
    have hcreate := handleCreateNodeRequest_eq (convertFromRpcCreateNodeRequest_eq
      (convertFromRpcNodeId_convertNodeIdToRpc request.isInt32_pageId request.isInt32_itemId) hfrom) hadd hresponse
    have htaken := handleCreateResponse_string hresponse hsent (nodeValueStringNew_ok hvalue).2.1
    refine ⟨response, s, ?_, ⟨store, ⟨hs, hp.allLive⟩, hfilled⟩, hs.below⟩
    rw [clientAddNode]
    simp only [run_bind, convertToRpcCreateNodeRequest_eq hto, run_lift_ok, andThen_ok, hcreate, htaken]

theorem fillChildren_returns (h : ServerReachable pageSize doc) (hd : Dense pageSize doc)
    (hmapped : Mapped done addedNodes images) (himages : images ⊆ liveNodes doc) (hdone : done ≠ [])
    (hnumbered : Numbered (done ++ remaining)) (hlines : ∀ entry ∈ remaining, ∃ line, InitLine line entry)
    (hsize : pageSize < 2 ^ 31) (hfit : sizeofPageHeader + (sizeofItemMetadata + sizeofNode) ≤ pageSize)
    (hcount : (done ++ remaining).length = n) (hle : (liveNodes doc).length + remaining.length ≤ total)
    (hroom : HasRoom pageSize total) :
    ∃ added s, fillChildren n remaining addedNodes doc = .ok added s ∧ FileBelow s.pageManager := by
  induction remaining generalizing doc done addedNodes images with
  | nil =>
      obtain ⟨store, hp, _⟩ := hd
      exact ⟨addedNodes, doc, run_pure _ _, hp.holds.below⟩
  | cons entry remaining ih =>
      obtain ⟨⟨line, hline⟩, hlines⟩ := List.forall_mem_cons.mp hlines
      obtain ⟨value, hvalue, _⟩ := hline.exists_value
      have hparent := hnumbered.parent_lt hdone
      obtain ⟨message, image, hget, himage, hid⟩ := hmapped.exists_at (show entry.parentId.toNat < done.length by omega)
      have hmessage : addedNode addedNodes n entry.parentId = .ok message := by
        have hlt : entry.parentId < (n : Int) := by
          rw [← hcount, List.length_append]
          omega
        rw [addedNode, if_pos ⟨hparent.1, hlt⟩, hget]
        rfl
      obtain ⟨request, hrequest, hrequestParent, hrequestValue⟩ := createBelow_eq hid hvalue
      rw [← hrequestParent] at hid
      rw [← hrequestValue] at hvalue
      rw [List.length_cons] at hle
      obtain ⟨response, t, hadd, hdt, hbelow⟩ := clientAddNode_returns hd hvalue hsize hfit (by omega) hroom
      obtain ⟨ht, node, hnodes, hkept, hmapped⟩ :=
        addEntry_ok h hmapped himages hparent hline.no_zero hmessage hid hvalue
        hadd hbelow
      rw [List.append_cons] at hnumbered hcount
      obtain ⟨added, s, hrest, hs⟩ := ih ht hdt hmapped hkept
        (List.append_ne_nil_of_right_ne_nil _ (List.cons_ne_nil _ _)) hnumbered hlines hcount (by
          rw [hnodes, List.length_append, List.length_singleton]
          omega)
      refine ⟨added, s, ?_, hs⟩
      rw [fillChildren]
      simp only [run_bind, hmessage, hrequest, run_lift_ok, andThen_ok, hadd]
      exact hrest

theorem fillDbFromLines_returns {t : Trees (List UInt8)} (h : ServerReachable pageSize doc) (hd : Dense pageSize doc)
    (hshows : Shows (liveNodes doc) t) (hlines : List.Forall₂ InitLine lines entries) (hne : lines ≠ [])
    (hnumbered : Numbered entries) (hsize : pageSize < 2 ^ 31)
    (hfit : sizeofPageHeader + (sizeofItemMetadata + sizeofNode) ≤ pageSize)
    (hroom : HasRoom pageSize ((liveNodes doc).length + lines.length)) :
    ∃ added s, fillDbFromLines lines doc = .ok added s ∧ FileBelow s.pageManager := by
  have hparse : lines.mapM parseEntry = .ok entries := mapM_eq_ok.mpr (hlines.imp fun _ _ hline => hline.parseEntry_eq)
  cases hlines with
  | nil => exact absurd rfl hne
  | @cons line root lines entries hline hrest =>
      obtain ⟨hid, hparent, _⟩ := hnumbered 0 root rfl
      obtain ⟨request, hrequest, hnull, hvalue, _⟩ := exists_createRoot hline
      have hcount := hrest.length_eq
      have hall : ∀ entry ∈ entries, ∃ line, InitLine line entry := by
        intro entry hentry
        obtain ⟨line, _, hline⟩ := forall₂_exists hrest.flip entry hentry
        exact ⟨line, hline⟩
      rw [List.length_cons] at hroom
      obtain ⟨response, s, hadd, hds, hbelow⟩ := clientAddNode_returns hd hvalue hsize hfit (by omega) hroom
      obtain ⟨hs, text, image, himage, hmapped⟩ := addFirst_ok h hshows hnull hvalue hline.no_zero hadd hbelow
      have hle := himage.length_le
      obtain ⟨added, u, hrun, hu⟩ := fillChildren_returns hs hds hmapped himage.mem (List.cons_ne_nil _ _)
        (hnumbered.withText text) hall hsize hfit (congrArg Nat.succ hcount.symm) (by omega) hroom
      refine ⟨added, u, ?_, hu⟩
      rw [fillDbFromLines]
      simp only [run_bind, hparse, run_lift_ok, andThen_ok, hparent rfl, hid, Nat.cast_zero, ne_eq,
        not_true_eq_false, if_false, hrequest, hadd]
      exact hrun

end Returning

section Directories

variable {pageSize : Nat} {doc s : Document} {login : List UInt8} {path : DirEntry} {scan : Scan}
  {t : Trees (List UInt8)} {added : List RpcNode}

/-- What a file that is read makes of the trees of a document: the file's tree is one more, but where
there is a node with the id of the first root, what is below the root of the file's tree goes below the
first root. -/
def joined (anchored : Bool) (t file : Trees (List UInt8)) : Trees (List UInt8) :=
  if anchored then t.graft file.belowFirst else t.append file

theorem entries_directory (login : List UInt8) (path : DirEntry) (scan : Scan) :
    ∃ text below, (directoryTree login path scan).map EntryInfo.text = .node text below .nil ∧
      ((directoryTree login path scan).number (-1) 0).toList.map entryOf =
        ((Trees.node text below .nil).number (-1) 0).toList.map textEntry := by
  refine ⟨_, _, rfl, ?_⟩
  exact entries_texts _

theorem fillWithData_shows (h : ServerReachable pageSize doc) (hshows : Shows (liveNodes doc) t)
    (hplain : ∀ info ∈ (directoryTree login path scan).toList, Plain info)
    (hcount : (directoryTree login path scan).toList.length < 2 ^ 31)
    (hrun : fillWithData (initFile login path scan) doc = .ok added s) (hbelow : FileBelow s.pageManager) :
    ServerReachable pageSize s ∧
      Shows (liveNodes s) (joined (Anchored (liveNodes doc)) t ((directoryTree login path scan).map EntryInfo.text)) ∧
      ∃ news, liveNodes s = liveNodes doc ++ news := by
  have hlines := initLines_directory hplain hcount
  have hparse := mapM_eq_ok.mpr (hlines.imp fun _ _ hline => hline.parseEntry_eq)
  have hnumbered := numbered_directory login path scan
  have hzero : ∀ entry ∈ ((directoryTree login path scan).number (-1) 0).toList.map entryOf,
      0 ∉ entry.fileInfoContent := by
    intro entry hentry
    obtain ⟨line, _, hline⟩ := forall₂_exists hlines.flip entry hentry
    exact hline.no_zero
  rw [fillWithData, initFile_rows, parsedFile_directory hplain hcount] at hrun
  simp only [run_bind, run_lift_ok, andThen_ok] at hrun
  obtain ⟨content, below, htexts, hentries⟩ := entries_directory login path scan
  rw [hentries] at hparse hnumbered hzero
  rw [number, Trees.toList, List.map_cons] at hparse hnumbered hzero
  obtain ⟨hs, text, image, nodes, news, himage, hall, hmapped⟩ := fillDbFromLines_mapped h hshows hparse hnumbered hzero
    hrun hbelow
  refine ⟨hs, ?_⟩
  have hgrown := hs.grown
  rw [hall] at hgrown ⊢
  rw [htexts, joined]
  cases himage with
  | granted hfree =>
      rw [if_neg (by simpa using hfree)]
      rw [List.append_assoc] at hgrown ⊢
      exact ⟨shows_appended hshows h.grown hgrown hmapped, _, rfl⟩
  | refused hanchored hnodes =>
      rw [if_pos (by simpa using hanchored)]
      have hgrown' := h.grown
      rw [hnodes] at hshows hgrown hgrown' ⊢
      obtain ⟨hroot, _⟩ := hmapped.parents 0 _ image rfl rfl
      exact ⟨shows_grafted hshows hgrown' hgrown (hroot rfl) hmapped, news, rfl⟩

theorem fillWithData_returns (h : ServerReachable pageSize doc) (hd : Dense pageSize doc)
    (hshows : Shows (liveNodes doc) t) (hplain : ∀ info ∈ (directoryTree login path scan).toList, Plain info)
    (hcount : (directoryTree login path scan).toList.length < 2 ^ 31) (hsize : pageSize < 2 ^ 31)
    (hfit : sizeofPageHeader + (sizeofItemMetadata + sizeofNode) ≤ pageSize)
    (hroom : HasRoom pageSize ((liveNodes doc).length + (directoryTree login path scan).toList.length)) :
    ∃ added s, fillWithData (initFile login path scan) doc = .ok added s ∧ FileBelow s.pageManager := by
  rw [← length_number (-1) 0] at hroom
  rw [fillWithData, initFile_rows, parsedFile_directory hplain hcount]
  simp only [run_bind, run_lift_ok, andThen_ok]
  refine fillDbFromLines_returns h hd hshows (initLines_directory hplain hcount) ?_ (numbered_directory login path scan)
    hsize hfit ?_
  · simp [directoryTree, number, Trees.toList]
  · rw [List.length_map]
    exact hroom

/-- The file of a directory can be read into every document, and joins the trees that are there. -/
theorem fillWithData_joins (h : ServerReachable pageSize doc) (hshows : Shows (liveNodes doc) t)
    (hplain : ∀ info ∈ (directoryTree login path scan).toList, Plain info)
    (hcount : (directoryTree login path scan).toList.length < 2 ^ 31) :
    (∀ added s, fillWithData (initFile login path scan) doc = .ok added s → FileBelow s.pageManager →
      Shows (liveNodes s) (joined (Anchored (liveNodes doc)) t ((directoryTree login path scan).map EntryInfo.text))) ∧
    (Dense pageSize doc → pageSize < 2 ^ 31 → sizeofPageHeader + (sizeofItemMetadata + sizeofNode) ≤ pageSize →
      HasRoom pageSize ((liveNodes doc).length + (directoryTree login path scan).toList.length) →
      ∃ added s, fillWithData (initFile login path scan) doc = .ok added s ∧ FileBelow s.pageManager) := by
  constructor
  · intro added s hrun hbelow
    exact (fillWithData_shows h hshows hplain hcount hrun hbelow).2.1
  · intro hd hsize hfit hroom
    exact fillWithData_returns h hd hshows hplain hcount hsize hfit hroom

/-- A folder with one file is read into a document with a root: the file goes below this root, and the
folder is not there. -/
theorem fillWithData_joins_folder :
    ∃ doc added s, Shows (liveNodes doc) (.node (bytesOf "root - - -") .nil .nil) ∧
      fillWithData (initFile (bytesOf "krot") folder folderScan) doc = .ok added s ∧
      Shows (liveNodes s) (.node (bytesOf "root - - -")
        (.node (bytesOf "a.c krot now text.x-csrc") .nil .nil) .nil) := by
  obtain ⟨doc, hr, hd, ⟨root, hroot, hid⟩, hshows⟩ :=
    exists_denseRoot (.named (bytesOf "root") ⟨by decide, by decide, by decide⟩) (by decide)
  obtain ⟨hjoins, hreturns⟩ := fillWithData_joins hr hshows plain_folder (by decide)
  obtain ⟨added, s, hrun, hbelow⟩ :=
    hreturns hd (by decide) (by decide) (by rw [hroot, List.length_singleton, HasRoom]; decide)
  have hanchored : Anchored (liveNodes doc) := by
    rw [hroot]
    exact ⟨root, List.mem_cons_self, hid⟩
  have hjoined := hjoins added s hrun hbelow
  rw [joined, if_pos (by simpa using hanchored)] at hjoined
  exact ⟨doc, added, s, hshows, hrun, hjoined⟩

end Directories

end DocumentDb.Client
