import DocumentDb.Server.Records
import DocumentDb.Lib.Trees

namespace DocumentDb.Server

open Storage Program Bytes Documents Rpc Forest Trees

section Texts

variable {node : Node} {text : List UInt8}

def HoldsText (node : Node) (text : List UInt8) : Prop :=
  node.value.type = .string ∧ node.value.stringValue = .ok text

/-- A field of a text, if it has it, is the argument. -/
def fieldTest (attr : FileInfoAttributes) (argument text : List UInt8) : Bool :=
  match (parseFileInfo text).field attr with
  | some field => strEq field argument
  | none => false

def passes (filter : RpcFilter) (text : List UInt8) : Bool :=
  if filter.type = .all then true
  else
    match filter.name, filter.argument with
    | some name, .stringArgument argument =>
      match fileInfoAttributeFromString name with
      | .ok attr => fieldTest attr argument text
      | .error _ => strEq text argument
    | _, _ => false

theorem fieldTest_nil (attr : FileInfoAttributes) (argument : List UInt8) : fieldTest attr argument [] = false := by
  cases attr <;> rfl

theorem HoldsText.evaluate_attribute (h : HoldsText node text) {name argument : List UInt8}
    {attr : FileInfoAttributes} (hattr : fileInfoAttributeFromString name = .ok attr) :
    (∃ b, fsNewAttributeCondition name (.ok argument) node = .ok b ∧ b = fieldTest attr argument text) ∨
      (∃ e, fsNewAttributeCondition name (.ok argument) node = .error e) ∧ fieldTest attr argument text = false := by
  rw [fsNewAttributeCondition]
  simp only [h.1, h.2, ne_eq, not_true_eq_false, if_false, bind, Except.bind]
  by_cases hnil : text.length = 0
  · obtain rfl := List.eq_nil_of_length_eq_zero hnil
    exact Or.inr ⟨⟨_, rfl⟩, fieldTest_nil attr argument⟩
  · simp only [if_neg hnil, hattr]
    rw [fileInfoAttributeMatches, fieldTest]
    cases (parseFileInfo text).field attr with
    | some field => exact Or.inl ⟨_, rfl, rfl⟩
    | none => exact Or.inr ⟨⟨_, rfl⟩, rfl⟩

theorem passes_string {filter : RpcFilter} {name argument : List UInt8} (hall : filter.type ≠ .all)
    (hname : filter.name = some name) (hargument : filter.argument = .stringArgument argument) :
    passes filter text = match fileInfoAttributeFromString name with
      | .ok attr => fieldTest attr argument text
      | .error _ => strEq text argument := by
  rw [passes, if_neg hall, hname, hargument]

theorem passes_other {filter : RpcFilter} (hall : filter.type ≠ .all)
    (hother : ∀ argument, filter.argument ≠ .stringArgument argument) : passes filter text = false := by
  rw [passes, if_neg hall]
  cases filter.name with
  | none => rfl
  | some name =>
      cases hargument : filter.argument with
      | stringArgument argument => exact absurd hargument (hother argument)
      | _ => rfl

theorem HoldsText.satisfies_eq (h : HoldsText node text) (filter : RpcFilter) :
    satisfies filter node = passes filter text := by
  rw [satisfies]
  by_cases hall : filter.type = .all
  · rw [evaluate, filterCondition, passes, if_pos hall, if_pos hall]
    rfl
  by_cases hstring : ∃ argument, filter.argument = .stringArgument argument
  swap
  · have hother : ∀ argument, filter.argument ≠ .stringArgument argument := fun argument hargument =>
      hstring ⟨argument, hargument⟩
    rw [passes_other hall hother]
    cases heval : evaluate filter node with
    | ok b => exact absurd heval (evaluate_other hall hother node b)
    | error e => rfl
  obtain ⟨argument, hargument⟩ := hstring
  cases hname : filter.name with
  | none => rw [evaluate, filterCondition, passes, if_neg hall, if_neg hall, hname]; rfl
  | some name =>
      rw [passes_string hall hname hargument, evaluate, filterCondition, if_neg hall, hname, hargument]
      simp only [stringArgument, bind, Except.bind]
      cases hattr : fileInfoAttributeFromString name with
      | ok attr =>
          rw [if_pos (containsFileInfoAttribute_of_ok hattr)]
          have hcases := @HoldsText.evaluate_attribute _ _ h name argument attr hattr
          rcases hcases with ⟨b, hb, rfl⟩ | ⟨⟨e, he⟩, hfalse⟩
          · simp only [pure, Except.pure, hb]
          · simp only [pure, Except.pure, he, hfalse]
      | error e =>
          have hnot : ¬containsFileInfoAttribute name = true := by
            rw [containsFileInfoAttribute_iff, hattr]
            rintro ⟨_, ⟨⟩⟩
          rw [if_neg hnot]
          simp only [pure, Except.pure, fsSingleArgumentCondition, h.1, h.2, ne_eq, not_true_eq_false, if_false,
            bind, Except.bind]

end Texts

section Shows

variable {nodes nodes' : List Node} {t : Trees (List UInt8)} {u : Trees Node} {filters : List RpcFilter}
  {first new : Node} {text : List UInt8} {parentId : NodeId}

/-- The nodes are seen as trees of texts, and all of them are in these. -/
def Shows (nodes : List Node) (t : Trees (List UInt8)) : Prop :=
  ∃ u : Trees Node, Pictures Node.id Node.parentId nodes (children Node.parentId nodes nullNodeId) u ∧
    u.toList.Perm nodes ∧ Rel HoldsText u t

/-- The ids go up, and every parent is a node before its children. -/
structure Grown (nodes : List Node) : Prop where
  increasing : nodes.Pairwise fun a b => Before a.id b.id
  ne_null : ∀ node ∈ nodes, node.id ≠ nullNodeId
  rooted : Rooted nodes

theorem grown_of_tree {pageSize : Nat} {doc : Document} (h : Documents.Tree pageSize doc) : Grown (liveNodes doc) := by
  obtain ⟨store, hs, hrooted⟩ := h
  rw [hs.liveNodes_eq]
  exact ⟨pairwise_nodesOf store, fun node hnode => id_ne_null hnode, hrooted⟩

theorem shows_nil : Shows [] .nil := ⟨.nil, .nil, .nil, .nil⟩

theorem Grown.nodup_ids (h : Grown nodes) (hperm : u.toList.Perm nodes) : (u.toList.map Node.id).Nodup := by
  rw [(hperm.map Node.id).nodup_iff]
  exact List.pairwise_map.mpr (h.increasing.imp fun hbefore => hbefore.ne)

theorem agree_passes (filters : List RpcFilter) :
    List.Forall₂ (Agree HoldsText) (filters.map satisfies) (filters.map passes) := by
  rw [List.forall₂_map_left_iff, List.forall₂_map_right_iff, List.forall₂_same]
  exact fun filter _ node text h => h.satisfies_eq filter

theorem childrenWith_eq (filter : RpcFilter) (parentId : NodeId) :
    childrenWith nodes filter parentId = (children Node.parentId nodes parentId).filter (satisfies filter) := by
  rw [childrenWith, children, List.filter_filter]
  exact List.filter_congr fun node _ => by rw [Bool.beq_eq_decide_eq]

/-- A chain of filters answers with what its path leads to. -/
theorem answer_eq_path (h : Pictures Node.id Node.parentId nodes (children Node.parentId nodes parentId) u) :
    answer nodes filters parentId = u.answer (filters.map satisfies) := by
  induction filters generalizing parentId u with
  | nil => cases u <;> rfl
  | cons filter filters ih =>
      cases filters with
      | nil =>
          rw [answer, childrenWith_eq, List.map_singleton, h.answer_last]
      | cons next filters =>
          rw [List.map_cons, List.map_cons]
          have hfind : (childrenWith nodes filter parentId).head? =
              (children Node.parentId nodes parentId).find? (satisfies filter) := by
            rw [childrenWith_eq, List.head?_filter]
          rcases h.answer_step (satisfies filter) (satisfies next) (filters.map satisfies) with
            ⟨hnone, hanswer⟩ | ⟨a, below, hfound, hbelow, hanswer⟩
          · rw [hnone, List.head?_eq_none_iff] at hfind
            rw [hanswer, answer, hfind]
            simp
          · rw [hfound, List.head?_eq_some_iff] at hfind
            obtain ⟨rest, hcons⟩ := hfind
            rw [hanswer, answer_step hcons]
            exact ih hbelow

theorem Shows.answer (h : Shows nodes t) (filters : List RpcFilter) :
    List.Forall₂ HoldsText (answer nodes filters nullNodeId) (t.answer (filters.map passes)) := by
  obtain ⟨u, hpictures, _, hrel⟩ := h
  rw [answer_eq_path hpictures]
  exact hrel.answer (agree_passes filters)

theorem Shows.mem_of_answer (h : Shows nodes t) {node : Node} (hnode : node ∈ Server.answer nodes filters nullNodeId) :
    node ∈ nodes := by
  obtain ⟨u, hpictures, hperm, _⟩ := h
  rw [answer_eq_path hpictures] at hnode
  exact hperm.mem_iff.mp (answer_subset _ _ hnode)

theorem Shows.exists_text {node : Node} (h : Shows nodes t) (hnode : node ∈ nodes) :
    ∃ text ∈ t.toList, HoldsText node text := by
  obtain ⟨u, _, hperm, hrel⟩ := h
  exact hrel.exists_of_mem (hperm.mem_iff.mpr hnode)

theorem Shows.length_eq (h : Shows nodes t) : nodes.length = t.toList.length := by
  obtain ⟨u, _, hperm, hrel⟩ := h
  exact hperm.length_eq.symm.trans hrel.toList.length_eq

theorem no_children (h : Grown nodes) (hnew : ∀ node ∈ nodes, Before node.id new.id)
    (hself : new.parentId ≠ new.id) (hnull : new.id ≠ nullNodeId) :
    children Node.parentId (nodes ++ [new]) new.id = [] := by
  refine List.filter_eq_nil_iff.mpr fun node hnode => ?_
  rw [decide_eq_true_eq]
  rcases List.mem_append.mp hnode with hmem | hmem
  · intro hparent
    rcases h.rooted node hmem with hroot | ⟨m, hm, hkey, _⟩
    · exact hnull (hparent ▸ hroot)
    · exact (hnew m hm).ne (hkey.trans hparent)
  · obtain rfl := List.mem_singleton.mp hmem
    exact hself

theorem Shows.insert (h : Shows nodes t) (hgrown : Grown nodes)
    (hfirst : first ∈ (Server.answer nodes filters nullNodeId).head?)
    (hnew : ∀ node ∈ nodes, Before node.id new.id) (hnull : new.id ≠ nullNodeId) (hparent : new.parentId = first.id)
    (htext : HoldsText new text) : Shows (nodes ++ [new]) (t.insert text (filters.map passes)) := by
  obtain ⟨u, hpictures, hperm, hrel⟩ := h
  rw [answer_eq_path hpictures] at hfirst
  have hlive := hperm.mem_iff.mp (answer_subset _ _ (List.mem_of_mem_head? hfirst))
  have hroots : children Node.parentId (nodes ++ [new]) nullNodeId = children Node.parentId nodes nullNodeId := by
    have hnot : new.parentId ≠ nullNodeId := by
      rw [hparent]
      exact hgrown.ne_null first hlive
    simp [children, hnot]
  have hinsert : u.insertAt Node.id first.id new = u.insert new (filters.map satisfies) :=
    insertAt_answer (hgrown.nodup_ids hperm) hfirst
  refine ⟨u.insert new (filters.map satisfies), ?_, ?_, hrel.insert (agree_passes filters) htext⟩
  · rw [hroots, ← hinsert, ← hparent]
    refine hpictures.insertAt (no_children hgrown hnew ?_ hnull)
    rw [hparent]
    exact (hnew first hlive).ne
  · have hsome : filters.map satisfies ≠ [] → u.answer (filters.map satisfies) ≠ [] := by
      intro _ hnil
      rw [hnil] at hfirst
      cases hfirst
    exact (insert_perm hsome).trans ((hperm.cons new).trans (List.perm_append_singleton new nodes).symm)

theorem Shows.concat (h : Shows nodes t) (hgrown : Grown nodes) (hnew : ∀ node ∈ nodes, Before node.id new.id)
    (hnull : new.id ≠ nullNodeId) (hparent : new.parentId = nullNodeId) (htext : HoldsText new text) :
    Shows (nodes ++ [new]) (t.concat text) := by
  obtain ⟨u, hpictures, hperm, hrel⟩ := h
  have hroots : children Node.parentId (nodes ++ [new]) nullNodeId =
      children Node.parentId nodes nullNodeId ++ [new] := by
    simp [children, hparent]
  have hnone := no_children hgrown hnew (by rw [hparent]; exact hnull.symm) hnull
  have hall := (concat_perm new u).trans ((hperm.cons new).trans (List.perm_append_singleton new nodes).symm)
  refine ⟨u.concat new, ?_, hall, hrel.concat htext⟩
  rw [hroots]
  have hsame : u.insertAt Node.id new.parentId new = u := by
    refine insertAt_of_notMem fun a ha => ?_
    rw [hparent]
    exact hgrown.ne_null a (hperm.mem_iff.mp ha)
  have hkept := hpictures.insertAt hnone
  rw [hsame] at hkept
  exact hkept.concat hnone

theorem Shows.insertBelow {top : Node} (h : Shows nodes t) (hgrown : Grown nodes)
    (hnew : ∀ node ∈ nodes, Before node.id new.id) (hnull : new.id ≠ nullNodeId) (htop : top ∈ nodes)
    (hparent : new.parentId = top.id) (htext : HoldsText new text) :
    ∃ t', Beneath text t t' ∧ Shows (nodes ++ [new]) t' := by
  obtain ⟨u, hpictures, hperm, hrel⟩ := h
  have hroots : children Node.parentId (nodes ++ [new]) nullNodeId = children Node.parentId nodes nullNodeId := by
    have hnot : new.parentId ≠ nullNodeId := by
      rw [hparent]
      exact hgrown.ne_null top htop
    simp [children, hnot]
  have hself : new.parentId ≠ new.id := by
    rw [hparent]
    exact (hnew top htop).ne
  have hmem := hperm.mem_iff.mpr htop
  obtain ⟨t', hbeneath, hrel'⟩ := hrel.insertAt (hgrown.nodup_ids hperm) hmem htext
  refine ⟨t', hbeneath, u.insertAt Node.id top.id new, ?_, ?_, hrel'⟩
  · rw [hroots, ← hparent]
    exact hpictures.insertAt (no_children hgrown hnew hself hnull)
  · exact (insertAt_perm (hgrown.nodup_ids hperm) hmem).trans
      ((hperm.cons new).trans (List.perm_append_singleton new nodes).symm)

theorem eq_of_mem_iff (h : nodes.Pairwise fun a b => Before a.id b.id)
    (h' : nodes'.Pairwise fun a b => Before a.id b.id) (hmem : ∀ node, node ∈ nodes ↔ node ∈ nodes') :
    nodes = nodes' := by
  have hnodup : ∀ {l : List Node}, (l.Pairwise fun a b => Before a.id b.id) → l.Nodup := fun hl =>
    hl.imp fun hbefore heq => hbefore.ne (congrArg Node.id heq)
  have hperm := (List.perm_ext_iff_of_nodup (hnodup h) (hnodup h')).mpr hmem
  refine List.Perm.eq_of_pairwise (fun a b _ _ hab hba => ?_) h h' hperm
  exact absurd (hab.trans hba) (Before.irrefl _)

section Removing

variable {gone : NodeId → Bool} {tops : List Node}

theorem gone_topmost (hgrown : Grown nodes) (htops : tops ⊆ nodes)
    (hgone : ∀ k, gone k = true ↔ ∃ c ∈ tops, Below nodes c.id k) {node : Node} (hnode : node ∈ nodes)
    (hparent : gone node.parentId = false) : gone node.id = true ↔ node ∈ tops := by
  rw [hgone]
  constructor
  · rintro ⟨c, hc, hbelow⟩
    have hkey : ∀ k, Below nodes c.id k → k = node.id → node ∈ tops := by
      intro k hk heq
      cases hk with
      | root => exact ids_injective hgrown.increasing (htops hc) hnode heq ▸ hc
      | @child m hm hunder =>
          obtain rfl := ids_injective hgrown.increasing hm hnode heq
          have hgoes := (hgone _).mpr ⟨c, hc, hunder⟩
          rw [hparent] at hgoes
          cases hgoes
    exact hkey _ hbelow rfl
  · intro hmem
    exact ⟨node, hmem, .root⟩

theorem gone_null (hgrown : Grown nodes) (htops : tops ⊆ nodes)
    (hgone : ∀ k, gone k = true ↔ ∃ c ∈ tops, Below nodes c.id k) : gone nullNodeId = false := by
  rw [Bool.eq_false_iff, ne_eq, hgone]
  rintro ⟨c, hc, hbelow⟩
  have hkey : ∀ k, Below nodes c.id k → k ≠ nullNodeId := by
    intro k hk
    cases hk with
    | root => exact hgrown.ne_null c (htops hc)
    | child hm _ => exact hgrown.ne_null _ hm
  exact hkey _ hbelow rfl

open Classical in
theorem exists_gone (hgrown : Grown nodes) (hincreasing : nodes'.Pairwise fun a b => Before a.id b.id)
    (hnodes : ∀ node, node ∈ nodes' ↔ node ∈ nodes ∧ ¬∃ c ∈ tops, Below nodes c.id node.id) :
    ∃ gone : NodeId → Bool, (∀ k, gone k = true ↔ ∃ c ∈ tops, Below nodes c.id k) ∧
      (nodes' = nodes.filter fun node => !gone node.id) ∧ ∀ n ∈ nodes, gone n.parentId = true → gone n.id = true := by
  obtain ⟨gone, hgone⟩ : ∃ gone : NodeId → Bool, ∀ k, gone k = true ↔ ∃ c ∈ tops, Below nodes c.id k :=
    ⟨fun k => decide (∃ c ∈ tops, Below nodes c.id k), fun k => decide_eq_true_iff⟩
  refine ⟨gone, hgone, ?_, ?_⟩
  · refine eq_of_mem_iff hincreasing (hgrown.increasing.filter _) fun node => ?_
    rw [hnodes, List.mem_filter, ← hgone, Bool.not_eq_true', Bool.not_eq_true]
  · intro n hn hparent
    obtain ⟨c, hc, hbelow⟩ := (hgone _).mp hparent
    exact (hgone _).mpr ⟨c, hc, .child hn hbelow⟩

end Removing

theorem prune_gone {gone : NodeId → Bool}
    (hpictures : Pictures Node.id Node.parentId nodes (children Node.parentId nodes nullNodeId) u)
    (hperm : u.toList.Perm nodes) (hgrown : Grown nodes)
    (hgone : ∀ k, gone k = true ↔ ∃ c ∈ Server.answer nodes filters nullNodeId, Below nodes c.id k) :
    (u.prune fun a => gone a.id) = u.remove (filters.map satisfies) := by
  have hanswer : Server.answer nodes filters nullNodeId = u.answer (filters.map satisfies) := answer_eq_path hpictures
  have htops : Server.answer nodes filters nullNodeId ⊆ nodes := by
    rw [hanswer]
    exact fun node hnode => hperm.mem_iff.mp (answer_subset _ _ hnode)
  have htop : (u.prune fun a => gone a.id) = u.prune fun a => decide (a ∈ u.answer (filters.map satisfies)) := by
    apply hpictures.prune_topmost
    · intro n hn p hp hparent
      rw [Bool.eq_iff_iff, decide_eq_true_eq, ← hanswer]
      exact gone_topmost hgrown htops hgone hn (by rw [← hparent]; exact hp)
    · intro n hn
      obtain ⟨hmem, hparent⟩ := List.mem_filter.mp hn
      rw [Bool.eq_iff_iff, decide_eq_true_eq, ← hanswer]
      refine gone_topmost hgrown htops hgone hmem ?_
      rw [of_decide_eq_true hparent]
      exact gone_null hgrown htops hgone
  rw [htop]
  refine prune_answer ?_ fun a _ => decide_eq_true_iff
  rw [List.map_id]
  exact (hgrown.nodup_ids hperm).of_map

theorem Shows.remove (h : Shows nodes t) (hgrown : Grown nodes)
    (hincreasing : nodes'.Pairwise fun a b => Before a.id b.id)
    (hnodes : ∀ node, node ∈ nodes' ↔ node ∈ nodes ∧
      ¬∃ c ∈ Server.answer nodes filters nullNodeId, Below nodes c.id node.id) :
    Shows nodes' (t.remove (filters.map passes)) := by
  obtain ⟨u, hpictures, hperm, hrel⟩ := h
  obtain ⟨gone, hgone, rfl, hdown⟩ := exists_gone hgrown hincreasing hnodes
  have hremove := prune_gone hpictures hperm hgrown hgone
  have hroots : (children Node.parentId nodes nullNodeId).filter (fun node => !gone node.id) =
      children Node.parentId (nodes.filter fun node => !gone node.id) nullNodeId := by
    rw [children, children, List.filter_filter, List.filter_filter]
    exact List.filter_congr fun n _ => Bool.and_comm ..
  refine ⟨u.remove (filters.map satisfies), ?_, ?_, hrel.remove (agree_passes filters)⟩
  · rw [← hremove, ← hroots]
    exact hpictures.prune gone
  · rw [← hremove, hpictures.toList_prune hdown]
    exact hperm.filter _

section Joining

variable {news : List Node} {v : Trees Node} {w : Trees (List UInt8)} {top : NodeId}

/-- New nodes that are below some node or below each other, apart from the old ones. -/
structure Apart (nodes news : List Node) (top : NodeId) : Prop where
  ids : ∀ a ∈ nodes, ∀ b ∈ news, a.id ≠ b.id
  ne_null : ∀ b ∈ news, b.id ≠ nullNodeId
  parents : ∀ n ∈ news, n.parentId = top ∨ ∃ m ∈ news, m.id = n.parentId

theorem children_append (nodes news : List Node) (k : NodeId) :
    children Node.parentId (nodes ++ news) k = children Node.parentId nodes k ++ children Node.parentId news k :=
  List.filter_append ..

theorem children_eq_nil {k : NodeId} (h : ∀ n ∈ nodes, n.parentId ≠ k) : children Node.parentId nodes k = [] :=
  List.filter_eq_nil_iff.mpr fun n hn => by simpa using h n hn

theorem Apart.old_children (h : Apart nodes news top) {node : Node} (hnode : node ∈ nodes) (htop : node.id ≠ top) :
    children Node.parentId (nodes ++ news) node.id = children Node.parentId nodes node.id := by
  have hnone : children Node.parentId news node.id = [] := by
    apply children_eq_nil
    intro n hn hparent
    rcases h.parents n hn with hroot | ⟨m, hm, hkey⟩
    · exact htop (hparent.symm.trans hroot)
    · exact h.ids node hnode m hm (hparent.symm.trans hkey.symm)
  rw [children_append, hnone, List.append_nil]

theorem Apart.new_children (h : Apart nodes news top) (hgrown : Grown nodes) (hnew : new ∈ news) :
    children Node.parentId (nodes ++ news) new.id = children Node.parentId news new.id := by
  have hnone : children Node.parentId nodes new.id = [] := by
    apply children_eq_nil
    intro n hn hparent
    rcases hgrown.rooted n hn with hroot | ⟨m, hm, hkey, _⟩
    · exact h.ne_null new hnew (hparent.symm.trans hroot)
    · exact h.ids m hm new hnew (hkey.trans hparent)
  rw [children_append, hnone, List.nil_append]

theorem Shows.append (h : Shows nodes t) (hgrown : Grown nodes) (hapart : Apart nodes news nullNodeId)
    (hpictures : Pictures Node.id Node.parentId news (children Node.parentId news nullNodeId) v)
    (horder : v.toList = news) (hrel : Rel HoldsText v w) : Shows (nodes ++ news) (t.append w) := by
  obtain ⟨u, hold, hperm, htexts⟩ := h
  refine ⟨u.append v, ?_, ?_, htexts.append hrel⟩
  · rw [children_append]
    apply Pictures.append
    · apply hold.among
      intro a ha
      have hmem := hperm.mem_iff.mp ha
      exact hapart.old_children hmem (hgrown.ne_null a hmem)
    · apply hpictures.among
      intro a ha
      exact hapart.new_children hgrown (horder ▸ ha)
  · rw [toList_append, horder]
    exact hperm.append_right news

theorem Shows.graft {rest : List Node} (h : Shows (first :: rest) t) (hgrown : Grown (first :: rest))
    (hroot : first.parentId = nullNodeId) (hapart : Apart (first :: rest) news first.id)
    (hpictures : Pictures Node.id Node.parentId news (children Node.parentId news first.id) v)
    (horder : v.toList = news) (hrel : Rel HoldsText v w) : Shows (first :: rest ++ news) (t.graft w) := by
  obtain ⟨u, hold, hperm, htexts⟩ := h
  have hroots : children Node.parentId (first :: rest ++ news) nullNodeId =
      first :: children Node.parentId rest nullNodeId := by
    have hnone : children Node.parentId news nullNodeId = [] := by
      apply children_eq_nil
      intro n hn hnull
      rcases hapart.parents n hn with htop | ⟨m, hm, hkey⟩
      · exact hgrown.ne_null first List.mem_cons_self (htop.symm.trans hnull)
      · exact hapart.ne_null m hm (hkey.trans hnull)
    rw [children_append, hnone, List.append_nil, children, List.filter_cons_of_pos (by simpa using hroot)]
    rfl
  have hfirst : children Node.parentId (first :: rest) nullNodeId =
      first :: children Node.parentId rest nullNodeId := by
    rw [children, List.filter_cons_of_pos (by simpa using hroot)]
    rfl
  rw [hfirst] at hold
  cases hold with
  | @node _ _ below beside hbelow hbeside =>
      cases htexts with
      | @node _ text _ below' _ beside' htext hbelow' hbeside' =>
          have hdistinct := distinct (hgrown.nodup_ids hperm)
          have hmem : ∀ a, a ∈ below.toList ∨ a ∈ beside.toList → a ∈ first :: rest := by
            intro a ha
            apply hperm.mem_iff.mp
            exact List.mem_cons_of_mem _ (List.mem_append.mpr ha)
          refine ⟨.node first (below.append v) beside, ?_, ?_, .node htext (hbelow'.append hrel) hbeside'⟩
          · rw [hroots]
            refine .node ?_ (hbeside.among fun a ha => ?_)
            · rw [children_append]
              apply Pictures.append
              · apply hbelow.among
                intro a ha
                exact hapart.old_children (hmem a (Or.inl ha)) (hdistinct.notBelow a ha)
              · apply hpictures.among
                intro a ha
                exact hapart.new_children hgrown (horder ▸ ha)
            · exact hapart.old_children (hmem a (Or.inr ha)) (hdistinct.notBeside a ha)
          · rw [Trees.toList, toList_append, horder]
            have hmoved : (first :: (below.toList ++ news ++ beside.toList)).Perm
                ((Trees.node first below beside).toList ++ news) := by
              rw [Trees.toList, List.cons_append]
              refine .cons first ?_
              rw [List.append_assoc, List.append_assoc]
              exact .append_left _ List.perm_append_comm
            exact hmoved.trans (hperm.append_right news)

end Joining

end Shows

section Requests

variable {pageSize : Nat} {doc s : Document} {t : Trees (List UInt8)} {request : RpcFilterChain} {node : Node}
  {text : List UInt8}

def Carries (message : RpcNode) (text : List UInt8) : Prop := message.value = some ⟨.string, .stringValue text⟩

theorem HoldsText.carries {message : RpcNode} (h : HoldsText node text) (hsent : convertToRpcNode node = .ok message) :
    Carries message text := by
  obtain ⟨_, _, value, hvalue, hconvert⟩ := convertToRpcNode_ok hsent
  rw [convertToRpcNodeValue, h.1, h.2] at hconvert
  simp only [bind, Except.bind, pure, Except.pure] at hconvert
  split at hconvert
  · cases hconvert
  · cases hconvert
    exact hvalue

theorem ServerReachable.grown (h : ServerReachable pageSize doc) :
    Grown (liveNodes doc) := grown_of_tree h.document.tree

/-- A request for nodes answers with the texts that its path leads to. -/
theorem Shows.getNodes {response : RpcNodes} (h : ServerReachable pageSize doc) (hshows : Shows (liveNodes doc) t)
    (hrun : handleGetNodesByFilterRequest request doc = .ok response s) :
    liveNodes s = liveNodes doc ∧ List.Forall₂ Carries response.nodes (t.answer (request.filters.map passes)) := by
  obtain ⟨store, hs, _⟩ := h.document.tree
  obtain ⟨ht, matchers, hmatchers, _, hconvert⟩ := getNodesByFilterRequest_ok hs hrun
  rw [selected_of_matchers hmatchers, ← hs.liveNodes_eq] at hconvert
  refine ⟨by rw [ht.liveNodes_eq, hs.liveNodes_eq], ?_⟩
  refine forall₂_along (fun message text node hmessage htext => ?_) (convertToRpcNodes_eq_ok.mp hconvert).flip
    (hshows.answer request.filters).flip
  exact HoldsText.carries htext hmessage

/-- A delete request takes the trees away that its path leads to, and counts them. -/
theorem Shows.deleteNodes {fuel : Nat} {tmpCounts : Nat → Int} {response : RpcDeletedNodes}
    (h : ServerReachable pageSize doc) (hshows : Shows (liveNodes doc) t)
    (hrun : handleDeleteNodesByFilterRequest fuel tmpCounts request doc = .ok response s) :
    Shows (liveNodes s) (t.remove (request.filters.map passes)) ∧
      response.count = (t.answer (request.filters.map passes)).length := by
  obtain ⟨hcount, hnodes⟩ := deleteNodesByFilter_remaining h.document hrun
  have hs := h.deleteNodesByFilter hrun
  exact ⟨hshows.remove h.grown hs.grown.increasing hnodes, by rw [hcount, (hshows.answer request.filters).length_eq]⟩

end Requests

end DocumentDb.Server
