import DocumentDb.Client.Commands

namespace DocumentDb.Client

open Storage Program Bytes Documents Rpc Server

section Answers

variable {nodes : List Node} {filter next : RpcFilter} {filters : List RpcFilter} {parentId : NodeId}
  {first new : Node} {gone : NodeId → Bool}

theorem exists_step (h : answer nodes (filter :: next :: filters) parentId ≠ []) :
    ∃ head rest, childrenWith nodes filter parentId = head :: rest := by
  cases hchildren : childrenWith nodes filter parentId with
  | nil =>
      refine absurd ?_ h
      rw [answer, hchildren]
      exact List.cons_ne_nil _ _
  | cons head rest => exact ⟨head, rest, rfl⟩

theorem first_answer_concat (h : first ∈ (answer nodes filters parentId).head?) :
    first ∈ (answer (nodes ++ [new]) filters parentId).head? := by
  have happend : ∀ filter parentId, childrenWith (nodes ++ [new]) filter parentId =
      childrenWith nodes filter parentId ++ childrenWith [new] filter parentId := fun _ _ => List.filter_append ..
  induction filters generalizing parentId with
  | nil => cases h
  | cons filter filters ih =>
      cases filters with
      | nil =>
          rw [answer] at h ⊢
          rw [happend]
          exact List.mem_head?_append_of_mem_head? h
      | cons next filters =>
          obtain ⟨head, rest, hchildren⟩ := exists_step (List.ne_nil_of_mem (List.mem_of_mem_head? h))
          rw [answer_step hchildren] at h
          rw [answer_step (by rw [happend, hchildren, List.cons_append])]
          exact ih h

theorem gone_of_child (hdown : ∀ n ∈ nodes, gone n.parentId = true → gone n.id = true) (hgone : gone parentId = true) :
    ∀ node ∈ childrenWith nodes filter parentId, gone node.id = true := by
  intro node hnode
  obtain ⟨hmem, htest⟩ := List.mem_filter.mp hnode
  rw [Bool.and_eq_true, beq_iff_eq] at htest
  apply hdown node hmem
  rw [htest.2]
  exact hgone

theorem gone_of_answer (hdown : ∀ n ∈ nodes, gone n.parentId = true → gone n.id = true) (hgone : gone parentId = true)
    (h : first ∈ answer nodes filters parentId) : gone first.id = true := by
  induction filters generalizing parentId with
  | nil => cases h
  | cons filter filters ih =>
      cases filters with
      | nil => exact gone_of_child hdown hgone first h
      | cons next filters =>
          obtain ⟨head, rest, hchildren⟩ := exists_step (List.ne_nil_of_mem h)
          rw [answer_step hchildren] at h
          apply ih _ h
          apply gone_of_child hdown hgone head
          rw [hchildren]
          exact List.mem_cons_self

theorem head?_filter {α : Type} {p : α → Bool} {a : α} {l : List α} (h : a ∈ l.head?) (hp : p a = true) :
    a ∈ (l.filter p).head? := by
  cases l with
  | nil => cases h
  | cons b l =>
      obtain rfl : b = a := Option.some.inj h
      rw [List.filter_cons_of_pos hp]
      exact h

theorem first_answer_filter (hdown : ∀ n ∈ nodes, gone n.parentId = true → gone n.id = true)
    (hstays : gone first.id = false) (h : first ∈ (answer nodes filters parentId).head?) :
    first ∈ (answer (nodes.filter fun n => !gone n.id) filters parentId).head? := by
  have hleft : ∀ filter parentId, childrenWith (nodes.filter fun n => !gone n.id) filter parentId =
      (childrenWith nodes filter parentId).filter fun n => !gone n.id := fun filter parentId => by
    rw [childrenWith, childrenWith, List.filter_filter, List.filter_filter]
    exact List.filter_congr fun n _ => Bool.and_comm ..
  induction filters generalizing parentId with
  | nil => cases h
  | cons filter filters ih =>
      cases filters with
      | nil =>
          rw [answer] at h ⊢
          rw [hleft]
          apply head?_filter h
          rw [hstays, Bool.not_false]
      | cons next filters =>
          obtain ⟨head, rest, hchildren⟩ := exists_step (List.ne_nil_of_mem (List.mem_of_mem_head? h))
          rw [answer_step hchildren] at h
          have hhead : gone head.id = false := by
            rw [Bool.eq_false_iff]
            intro hgone
            have hfirst := gone_of_answer hdown hgone (List.mem_of_mem_head? h)
            rw [hstays] at hfirst
            cases hfirst
          rw [answer_step (by rw [hleft, hchildren, List.filter_cons_of_pos (by rw [hhead, Bool.not_false])])]
          exact ih h

end Answers

section Clients

variable {ι : Type} [DecidableEq ι]

/-- The document, the queries that each client has still to make, and the create queries that
wait for their second call, with the node below which it goes. -/
structure World (ι : Type) where
  doc : Document
  todo : ι → List Query
  waiting : ι → Option (Query × RpcNode)

inductive Outcome
  | found (texts : List (List UInt8))
  | created (done : Bool)
  | deleted (count : Int)
  | nothing

/-- A call of a client. A query is noted, with what its client sees, at the call that makes it take
effect. -/
inductive Call (room : Nat → Nat) (i : ι) : World ι → Option (ι × Query × Outcome) → World ι → Prop
  | get {w q rest response s texts} : w.waiting i = none → w.todo i = q :: rest → q.func = .nop →
      getNodes room q w.doc = .ok response s → List.Forall₂ Carries response.nodes texts →
      Call room i w (some (i, q, .found texts)) ⟨s, Function.update w.todo i rest, w.waiting⟩
  | update {w q rest} : w.waiting i = none → w.todo i = q :: rest → q.func = .updateOp →
      Call room i w (some (i, q, .nothing)) ⟨w.doc, Function.update w.todo i rest, w.waiting⟩
  | delete {w q rest fuel tmpCounts response s} : w.waiting i = none → w.todo i = q :: rest → q.func = .deleteOp →
      deleteNodeSequence room fuel tmpCounts q w.doc = .ok response s →
      -- no query waits to go below a node that has gone
      (∀ j query message, w.waiting j = some (query, message) →
        ∃ node ∈ liveNodes s, convertFromRpcNodeId message.id = .ok node.id) →
      Call room i w (some (i, q, .deleted response.count)) ⟨s, Function.update w.todo i rest, w.waiting⟩
  | missing {w q rest chain found s} : w.waiting i = none → w.todo i = q :: rest → q.func = .createOp →
      convertNodesToFilterChainPathOnly q.nodes = .ok chain → clientGetNodeByFilter chain w.doc = .ok found s →
      found.nodes = [] →
      Call room i w (some (i, q, .created false)) ⟨s, Function.update w.todo i rest, w.waiting⟩
  | lookup {w q rest chain found message s} : w.waiting i = none → w.todo i = q :: rest → q.func = .createOp →
      convertNodesToFilterChainPathOnly q.nodes = .ok chain → clientGetNodeByFilter chain w.doc = .ok found s →
      message ∈ found.nodes.head? →
      Call room i w none ⟨s, Function.update w.todo i rest, Function.update w.waiting i (some (q, message))⟩
  | create {w q message s} : w.waiting i = some (q, message) → addBelowFirst q ⟨[message]⟩ w.doc = .ok () s →
      FileBelow s.pageManager →
      Call room i w (some (i, q, .created true)) ⟨s, w.todo, Function.update w.waiting i none⟩

inductive Calls (room : Nat → Nat) : World ι → List (ι × Query × Outcome) → World ι → Prop
  | refl {w} : Calls room w [] w
  | tail {w v u log entry i} : Calls room w log v → Call room i v entry u → Calls room w (log ++ entry.toList) u

def outcome (t : Trees (List UInt8)) (q : Query) : Outcome :=
  match q.func with
  | .nop => .found (t.answer (queryTests q.nodes))
  | .createOp => .created !(t.answer (pathTests q.nodes)).isEmpty
  | .deleteOp => .deleted (t.answer (queryTests q.nodes)).length
  | .updateOp => .nothing

inductive Sequential : Trees (List UInt8) → List (ι × Query × Outcome) → Trees (List UInt8) → Prop
  | nil {t} : Sequential t [] t
  | snoc {t u log i q} : Sequential t log u → Sequential t (log ++ [(i, q, outcome u q)]) (treeStep u q)

end Clients

section Steps

variable {ι : Type} [DecidableEq ι] {pageSize : Nat} {room : Nat → Nat} {t : Trees (List UInt8)} {w v : World ι}
  {log : List (ι × Query × Outcome)} {entry : Option (ι × Query × Outcome)} {q : Query} {message : RpcNode}
  {doc s : Document} {i j : ι}

/-- The message carries the first node that the path of a query leads to. -/
def Awaits (nodes : List Node) (q : Query) (message : RpcNode) : Prop :=
  q.func = .createOp ∧ ∃ chain, convertNodesToFilterChainPathOnly q.nodes = .ok chain ∧
    ∃ first ∈ (answer nodes chain.filters nullNodeId).head?, convertFromRpcNodeId message.id = .ok first.id

theorem Awaits.concat {nodes : List Node} {new : Node} (h : Awaits nodes q message) :
    Awaits (nodes ++ [new]) q message := by
  obtain ⟨hfunc, chain, hchain, first, hfirst, hid⟩ := h
  exact ⟨hfunc, chain, hchain, first, first_answer_concat hfirst, hid⟩

theorem Awaits.deleteNodes {request : RpcFilterChain} {fuel : Nat} {tmpCounts : Nat → Int} {response : RpcDeletedNodes}
    (h : ServerReachable pageSize doc) (hawaits : Awaits (liveNodes doc) q message)
    (hrun : handleDeleteNodesByFilterRequest fuel tmpCounts request doc = .ok response s)
    (hstays : ∃ node ∈ liveNodes s, convertFromRpcNodeId message.id = .ok node.id) :
    Awaits (liveNodes s) q message := by
  obtain ⟨hfunc, chain, hchain, first, hfirst, hid⟩ := hawaits
  obtain ⟨_, hnodes⟩ := deleteNodesByFilter_remaining h.document hrun
  obtain ⟨gone, _, hleft, hdown⟩ := exists_gone h.grown (h.deleteNodesByFilter hrun).grown.increasing hnodes
  obtain ⟨node, hnode, hsame⟩ := hstays
  rw [hleft] at hnode ⊢
  have hkept : gone first.id = false := by
    have hnot := (List.mem_filter.mp hnode).2
    rw [Except.ok.inj (hid.symm.trans hsame)]
    exact Bool.not_eq_true' _ ▸ hnot
  exact ⟨hfunc, chain, hchain, first, first_answer_filter hdown hkept hfirst, hid⟩

structure Seen (pageSize : Nat) (t : Trees (List UInt8)) (w : World ι) : Prop where
  reachable : ServerReachable pageSize w.doc
  shows : Shows (liveNodes w.doc) t
  awaits : ∀ i q message, w.waiting i = some (q, message) → Awaits (liveNodes w.doc) q message

theorem carries_unique {texts texts' : List (List UInt8)} {messages : List RpcNode}
    (h : List.Forall₂ Carries messages texts) (h' : List.Forall₂ Carries messages texts') : texts = texts' := by
  have hsame : List.Forall₂ Eq texts texts' := by
    refine forall₂_along (fun text text' message hcarries hcarries' => ?_) h.flip h'.flip
    have heq := Option.some.inj (hcarries.symm.trans hcarries')
    cases heq
    rfl
  rwa [List.forall₂_eq_eq_eq] at hsame

omit [DecidableEq ι] in
theorem Seen.lookedUp {filters : RpcFilterChain} {found : RpcNodes} (h : Seen pageSize t w)
    (hget : handleGetNodesByFilterRequest filters w.doc = .ok found s) (todo : ι → List Query) :
    Seen pageSize t ⟨s, todo, w.waiting⟩ ∧
      List.Forall₂ Carries found.nodes (t.answer (filters.filters.map passes)) := by
  obtain ⟨hr, hshows, hawaits⟩ := h
  obtain ⟨hsame, hcarries⟩ := hshows.getNodes hr hget
  refine ⟨⟨hr.getNodesByFilter hget, ?_, ?_⟩, hcarries⟩
  · rw [hsame]
    exact hshows
  · rw [hsame]
    exact hawaits

theorem forall_waiting_update {waiting : ι → Option (Query × RpcNode)} {new : Option (Query × RpcNode)}
    {P : Query → RpcNode → Prop} (h : ∀ j query reply, waiting j = some (query, reply) → P query reply)
    (hnew : ∀ query reply, new = some (query, reply) → P query reply) (j : ι) (query : Query) (reply : RpcNode)
    (hwaiting : Function.update waiting i new j = some (query, reply)) : P query reply := by
  by_cases hj : j = i
  · subst hj
    rw [Function.update_self] at hwaiting
    exact hnew query reply hwaiting
  · rw [Function.update_of_ne hj] at hwaiting
    exact h j query reply hwaiting

theorem outcome_created {nodes : List Node} {chain : RpcFilterChain} {first : Node} (hshows : Shows nodes t)
    (hfunc : q.func = .createOp) (hchain : convertNodesToFilterChainPathOnly q.nodes = .ok chain)
    (hfirst : first ∈ (answer nodes chain.filters nullNodeId).head?) : outcome t q = .created true := by
  have hanswer := (hshows.answer chain.filters).length_eq
  rw [tests_of_path hchain] at hanswer
  have hsome : t.answer (pathTests q.nodes) ≠ [] := by
    intro hnone
    rw [hnone, List.length_nil, List.length_eq_zero_iff] at hanswer
    rw [hanswer] at hfirst
    cases hfirst
  rw [outcome, hfunc]
  simp [hsome]

theorem Seen.created (h : Seen pageSize t w) (hwaiting : w.waiting i = some (q, message))
    (hadd : addBelowFirst q ⟨[message]⟩ w.doc = .ok () s) (hbelow : FileBelow s.pageManager) :
    outcome t q = .created true ∧ Seen pageSize (treeStep t q) ⟨s, w.todo, Function.update w.waiting i none⟩ := by
  obtain ⟨hr, hshows, hawaits⟩ := h
  obtain ⟨hfunc, chain, hchain, first, hfirst, hid⟩ := hawaits i q message hwaiting
  rcases addBelowFirst_ok hadd with ⟨hnil, _⟩ | ⟨_, request, query, created, hmessage, hrequest, hsend, hcreate⟩
  · cases hnil
  cases hmessage
  obtain ⟨hgrows, new, hadded⟩ := createNode_shows hr hshows hfirst hid hrequest hsend hcreate hbelow
  rw [tests_of_path hchain] at hgrows
  refine ⟨outcome_created hshows hfunc hchain hfirst, hr.createNode hcreate hbelow, ?_, ?_⟩
  · rw [treeStep, hfunc]
    exact hgrows
  · apply forall_waiting_update
    · intro j query reply hother
      dsimp only
      rw [hadded]
      exact (hawaits j query reply hother).concat
    · intro query reply hnone
      cases hnone

theorem Seen.call (h : Seen pageSize t w) (hcall : Call room i w entry v) :
    (entry = none ∧ Seen pageSize t v) ∨ ∃ q, entry = some (i, q, outcome t q) ∧
      Seen pageSize (treeStep t q) v := by
  cases hcall with
  | @get q rest response s texts _ _ hfunc hget htexts =>
      obtain ⟨chain, hchain, hlookup⟩ := getNodes_ok hget
      obtain ⟨hseen, hcarries⟩ := h.lookedUp hlookup (Function.update w.todo i rest)
      rw [tests_of_query hchain] at hcarries
      refine Or.inr ⟨q, ?_, ?_⟩
      · rw [outcome, hfunc, carries_unique htexts hcarries]
      · rw [treeStep, hfunc]
        exact hseen
  | @update q rest _ _ hfunc =>
      refine Or.inr ⟨q, ?_, ?_⟩
      · rw [outcome, hfunc]
      · rw [treeStep, hfunc]
        exact ⟨h.reachable, h.shows, h.awaits⟩
  | @delete q rest fuel tmpCounts response s _ _ hfunc hdelete hstays =>
      obtain ⟨hr, hshows, hawaits⟩ := h
      obtain ⟨chain, hchain, hremove⟩ := deleteNodeSequence_ok hdelete
      obtain ⟨hleft, hcount⟩ := hshows.deleteNodes hr hremove
      rw [tests_of_query hchain] at hleft hcount
      refine Or.inr ⟨q, ?_, hr.deleteNodesByFilter hremove, ?_, ?_⟩
      · rw [outcome, hfunc, hcount]
      · rw [treeStep, hfunc]
        exact hleft
      · intro j query message hwaiting
        exact (hawaits j query message hwaiting).deleteNodes hr hremove (hstays j query message hwaiting)
  | @missing q rest chain found s _ _ hfunc hchain hlookup hnil =>
      obtain ⟨hseen, hcarries⟩ := h.lookedUp (clientGetNodeByFilter_ok hlookup) (Function.update w.todo i rest)
      rw [hnil, tests_of_path hchain] at hcarries
      have hnone := List.forall₂_nil_left_iff.mp hcarries
      refine Or.inr ⟨q, ?_, ?_⟩
      · rw [outcome, hfunc, hnone]
        rfl
      · rw [treeStep, hfunc]
        dsimp only
        rw [Trees.insert_of_answer_nil (pathTests_ne_nil hchain) hnone]
        exact hseen
  | @lookup q rest chain found message s _ _ hfunc hchain hlookup hmessage =>
      have hget := clientGetNodeByFilter_ok hlookup
      obtain ⟨hseen, _⟩ := h.lookedUp hget (Function.update w.todo i rest)
      obtain ⟨hsame, _⟩ := h.shows.getNodes h.reachable hget
      obtain ⟨first, hfirst, hid⟩ := lookup_first h.reachable hget hmessage
      refine Or.inl ⟨rfl, hseen.reachable, hseen.shows, ?_⟩
      apply forall_waiting_update hseen.awaits
      intro query reply hnew
      cases hnew
      dsimp only
      rw [hsame]
      exact ⟨hfunc, chain, hchain, first, hfirst, hid⟩
  | @create q message s hwaiting hadd hbelow =>
      obtain ⟨houtcome, hseen⟩ := h.created hwaiting hadd hbelow
      exact Or.inr ⟨q, by rw [houtcome], hseen⟩

def made (i : ι) (log : List (ι × Query × Outcome)) : List Query :=
  (log.filter fun entry => entry.1 = i).map fun entry => entry.2.1

def World.left (w : World ι) (i : ι) : List Query := ((w.waiting i).map Prod.fst).toList ++ w.todo i

theorem made_append (i : ι) (log log' : List (ι × Query × Outcome)) :
    made i (log ++ log') = made i log ++ made i log' := by
  rw [made, List.filter_append, List.map_append]
  rfl

theorem left_update {rest : List Query} (doc : Document) (hidle : w.waiting i = none)
    (htodo : w.todo i = q :: rest) (o : Outcome) :
    w.left j = made j [(i, q, o)] ++ (World.mk doc (Function.update w.todo i rest) w.waiting).left j := by
  rw [made, World.left, World.left]
  dsimp only
  by_cases hj : j = i
  · subst hj
    rw [Function.update_self, hidle, htodo]
    simp
  · rw [Function.update_of_ne hj]
    simp [Ne.symm hj]

theorem Call.left (hcall : Call room i w entry v) (j : ι) : w.left j = made j entry.toList ++ v.left j := by
  cases hcall with
  | get hidle htodo => exact left_update _ hidle htodo _
  | update hidle htodo => exact left_update _ hidle htodo _
  | delete hidle htodo => exact left_update _ hidle htodo _
  | missing hidle htodo => exact left_update _ hidle htodo _
  | @lookup q rest chain found message s hidle htodo =>
      rw [World.left, World.left]
      dsimp only
      by_cases hj : j = i
      · subst hj
        rw [Function.update_self, Function.update_self, hidle, htodo]
        rfl
      · rw [Function.update_of_ne hj, Function.update_of_ne hj]
        rfl
  | @create q message s hwaiting =>
      rw [World.left, World.left, made]
      dsimp only
      by_cases hj : j = i
      · subst hj
        rw [Function.update_self, hwaiting]
        simp
      · rw [Function.update_of_ne hj]
        simp [Ne.symm hj]

theorem Calls.left (hcalls : Calls room w log v) (j : ι) : w.left j = made j log ++ v.left j := by
  induction hcalls with
  | refl => rfl
  | tail _ hcall ih => rw [ih, hcall.left j, made_append, List.append_assoc]

theorem Seen.calls (h : Seen pageSize t w) (hcalls : Calls room w log v) :
    ∃ u, Sequential t log u ∧ Seen pageSize u v := by
  induction hcalls with
  | refl => exact ⟨t, .nil, h⟩
  | tail _ hcall ih =>
      obtain ⟨u, hsequential, hseen⟩ := ih
      rcases hseen.call hcall with ⟨rfl, hsame⟩ | ⟨q, rfl, hnext⟩
      · rw [Option.toList_none, List.append_nil]
        exact ⟨u, hsequential, hsame⟩
      · exact ⟨treeStep u q, hsequential.snoc, hnext⟩

theorem calls_alone {rest : List Query} {fuel : Nat} {tmpCounts : Nat → Int} {u : Unit} (h : Seen pageSize t w)
    (hidle : ∀ j, w.waiting j = none) (htodo : w.todo i = q :: rest)
    (hrun : makeRequestBasedOnQuery room fuel tmpCounts q w.doc = .ok u s) (hbelow : FileBelow s.pageManager) :
    ∃ log, Calls room w log ⟨s, Function.update w.todo i rest, w.waiting⟩ := by
  rw [makeRequestBasedOnQuery] at hrun
  cases hfunc : q.func with
  | nop =>
      rw [hfunc] at hrun
      obtain ⟨response, s, hget, hpure⟩ := bind_eq_ok.mp hrun
      cases hpure
      obtain ⟨chain, _, hlookup⟩ := getNodes_ok hget
      exact ⟨_, .tail .refl (.get (hidle i) htodo hfunc hget (h.shows.getNodes h.reachable hlookup).2)⟩
  | updateOp =>
      rw [hfunc] at hrun
      cases hrun
      exact ⟨_, .tail .refl (.update (hidle i) htodo hfunc)⟩
  | deleteOp =>
      rw [hfunc] at hrun
      obtain ⟨response, s, hdelete, hpure⟩ := bind_eq_ok.mp hrun
      cases hpure
      refine ⟨_, .tail .refl (.delete (hidle i) htodo hfunc hdelete fun j query message hwaiting => ?_)⟩
      rw [hidle] at hwaiting
      cases hwaiting
  | createOp =>
      rw [hfunc] at hrun
      dsimp only at hrun
      rw [addNodesSequence_calls] at hrun
      obtain ⟨chain, _, hlift, hrest⟩ := bind_eq_ok.mp hrun
      obtain ⟨hchain, rfl⟩ := lift_eq_ok.mp hlift
      obtain ⟨⟨messages⟩, lookedUp, hlookup, hadd⟩ := bind_eq_ok.mp hrest
      cases messages with
      | nil =>
          rw [addBelowFirst] at hadd
          dsimp only at hadd
          rw [run_pure] at hadd
          cases hadd
          exact ⟨_, .tail .refl (.missing (hidle i) htodo hfunc hchain hlookup rfl)⟩
      | cons message messages =>
          have hfirst : Calls room w _ _ := .tail .refl (.lookup (hidle i) htodo hfunc hchain hlookup rfl)
          have hboth := hfirst.tail (.create (i := i) (Function.update_self ..) hadd hbelow)
          dsimp only at hboth
          have hback : Function.update w.waiting i none = w.waiting := by
            rw [← hidle i]
            exact Function.update_eq_self i w.waiting
          rw [Function.update_idem, hback] at hboth
          exact ⟨_, hboth⟩

end Steps

section Progress

variable {ι : Type} [DecidableEq ι] {pageSize : Nat} {room : Nat → Nat} {t : Trees (List UInt8)} {w v : World ι}
  {log : List (ι × Query × Outcome)} {entry : Option (ι × Query × Outcome)} {q : Query} {message : RpcNode} {i : ι}
  {rest : List Query}

/-- A query that neither the client nor the server stops at. -/
def Harmless (q : Query) : Prop :=
  q.nodes ≠ [] ∧
    match q.func with
    | .nop => ∀ node ∈ q.nodes.head?, node.filters = []
    | .createOp => ∃ text value, convertQueryArgsToString (parameterFilters q) = .ok text ∧
        nodeValueStringNew text = .ok value ∧ NamedText (cString text)
    | .deleteOp => False
    | .updateOp => True

/-- No node has gone, every text has a name, and no client has a query left at which anything stops. -/
structure Ready (pageSize : Nat) (t : Trees (List UInt8)) (w : World ι) : Prop where
  seen : Seen pageSize t w
  dense : Dense pageSize w.doc
  named : ∀ text ∈ t.toList, NamedText text
  harmless : ∀ i, ∀ q ∈ w.left i, Harmless q

theorem named_newText (h : Harmless q) (hfunc : q.func = .createOp) : NamedText (newText q) := by
  obtain ⟨_, h⟩ := h
  rw [hfunc] at h
  obtain ⟨text, value, htext, _, hnamed⟩ := h
  rw [newText, htext]
  exact hnamed

theorem named_treeStep (h : Harmless q) (hnamed : ∀ text ∈ t.toList, NamedText text) :
    ∀ text ∈ (treeStep t q).toList, NamedText text := by
  intro text htext
  rw [treeStep] at htext
  cases hfunc : q.func with
  | nop =>
      rw [hfunc] at htext
      exact hnamed text htext
  | updateOp =>
      rw [hfunc] at htext
      exact hnamed text htext
  | createOp =>
      rw [hfunc] at htext
      rcases Trees.mem_of_insert htext with rfl | hold
      · exact named_newText h hfunc
      · exact hnamed text hold
  | deleteOp =>
      obtain ⟨_, h⟩ := h
      rw [hfunc] at h
      exact h.elim

omit [DecidableEq ι] in
theorem head_mem_left (hidle : w.waiting i = none) (htodo : w.todo i = q :: rest) : q ∈ w.left i := by
  rw [World.left, hidle, htodo]
  exact List.mem_cons_self

theorem Dense.call (hd : Dense pageSize w.doc) (hharmless : ∀ q ∈ w.left i, Harmless q) (hsize : pageSize < 2 ^ 31)
    (hfit : sizeofPageHeader + (sizeofItemMetadata + sizeofNode) ≤ pageSize) (hcall : Call room i w entry v) :
    Dense pageSize v.doc := by
  cases hcall with
  | get _ _ _ hget =>
      obtain ⟨chain, _, hlookup⟩ := getNodes_ok hget
      exact hd.getNodes hlookup
  | update => exact hd
  | delete hidle htodo hfunc =>
      obtain ⟨_, hnot⟩ := hharmless _ (head_mem_left hidle htodo)
      rw [hfunc] at hnot
      exact hnot.elim
  | missing _ _ _ _ hlookup => exact hd.getNodes (clientGetNodeByFilter_ok hlookup)
  | lookup _ _ _ _ hlookup => exact hd.getNodes (clientGetNodeByFilter_ok hlookup)
  | create _ hadd hbelow =>
      rcases addBelowFirst_ok hadd with ⟨hnil, _⟩ | ⟨_, _, _, _, _, _, _, hcreate⟩
      · cases hnil
      · exact hd.createNode hsize hfit hcreate hbelow

theorem Ready.call (h : Ready pageSize t w) (hsize : pageSize < 2 ^ 31)
    (hfit : sizeofPageHeader + (sizeofItemMetadata + sizeofNode) ≤ pageSize) (hcall : Call room i w entry v) :
    (entry = none ∧ Ready pageSize t v) ∨ ∃ q, entry = some (i, q, outcome t q) ∧ Ready pageSize (treeStep t q) v := by
  have hdense := h.dense.call (h.harmless i) hsize hfit hcall
  have hharmless : ∀ j, ∀ q ∈ v.left j, Harmless q := by
    intro j q hq
    apply h.harmless j
    rw [hcall.left j]
    exact List.mem_append_right _ hq
  rcases h.seen.call hcall with ⟨hnone, hseen⟩ | ⟨q, rfl, hseen⟩
  · exact Or.inl ⟨hnone, hseen, hdense, h.named, hharmless⟩
  · have hq : Harmless q := by
      apply h.harmless i
      rw [hcall.left i, made]
      simp
    exact Or.inr ⟨q, rfl, hseen, hdense, named_treeStep hq h.named, hharmless⟩

theorem Ready.calls (h : Ready pageSize t w) (hsize : pageSize < 2 ^ 31)
    (hfit : sizeofPageHeader + (sizeofItemMetadata + sizeofNode) ≤ pageSize) (hcalls : Calls room w log v) :
    ∃ u, Ready pageSize u v := by
  induction hcalls with
  | refl => exact ⟨t, h⟩
  | tail _ hcall ih =>
      obtain ⟨u, hready⟩ := ih
      rcases hready.call hsize hfit hcall with ⟨_, hnext⟩ | ⟨q, _, hnext⟩
      · exact ⟨u, hnext⟩
      · exact ⟨treeStep u q, hnext⟩

theorem exists_get (h : Ready pageSize t w) (hidle : w.waiting i = none) (htodo : w.todo i = q :: rest)
    (hfunc : q.func = .nop) : ∃ entry v, Call room i w entry v := by
  obtain ⟨hne, hfilters⟩ := h.harmless i q (head_mem_left hidle htodo)
  rw [hfunc] at hfilters
  have hpath := chain_of_path hne
  obtain ⟨found, s, hlookup⟩ := lookup_returns h.seen.reachable h.dense h.seen.shows h.named hpath
  have hchain : convertNodesToFilterChain room q.nodes = .ok ⟨(q.nodes.map ParsedNode.name).map nameFilter⟩ := by
    rw [convertNodesToFilterChain, List.map_map]
    cases hnodes : q.nodes with
    | nil => exact absurd hnodes hne
    | cons node nodes =>
        rw [hnodes] at hfilters
        simp only [List.head?_cons, assertArgNotNull, bind, Except.bind, hfilters node rfl]
        rfl
  have hget : getNodes room q w.doc = .ok found s := by
    rw [getNodes]
    simp only [run_bind, hchain, run_lift_ok, andThen_ok, hlookup]
  have hanswer := h.seen.shows.getNodes h.seen.reachable (clientGetNodeByFilter_ok hlookup)
  exact ⟨_, _, .get hidle htodo hfunc hget hanswer.2⟩

theorem exists_lookup (h : Ready pageSize t w) (hidle : w.waiting i = none) (htodo : w.todo i = q :: rest)
    (hfunc : q.func = .createOp) :
    (t.answer (pathTests q.nodes) = [] ∧ ∃ s, Call room i w (some (i, q, .created false))
      ⟨s, Function.update w.todo i rest, w.waiting⟩) ∨
    (t.answer (pathTests q.nodes) ≠ [] ∧ ∃ s message, Call room i w none
      ⟨s, Function.update w.todo i rest, Function.update w.waiting i (some (q, message))⟩) := by
  obtain ⟨hne, _⟩ := h.harmless i q (head_mem_left hidle htodo)
  have hchain := chain_of_path hne
  obtain ⟨⟨messages⟩, s, hlookup⟩ := lookup_returns h.seen.reachable h.dense h.seen.shows h.named hchain
  obtain ⟨_, hcarries⟩ := h.seen.shows.getNodes h.seen.reachable (clientGetNodeByFilter_ok hlookup)
  rw [tests_of_path hchain] at hcarries
  cases messages with
  | nil => exact Or.inl ⟨List.forall₂_nil_left_iff.mp hcarries, s, .missing hidle htodo hfunc hchain hlookup rfl⟩
  | cons message messages =>
      obtain ⟨text, texts, _, _, hanswer⟩ := List.forall₂_cons_left_iff.mp hcarries
      refine Or.inr ⟨?_, s, message, .lookup hidle htodo hfunc hchain hlookup rfl⟩
      rw [hanswer]
      exact List.cons_ne_nil _ _

theorem exists_create (h : Ready pageSize t w) (hsize : pageSize < 2 ^ 31)
    (hfit : sizeofPageHeader + (sizeofItemMetadata + sizeofNode) ≤ pageSize)
    (hroom : HasRoom pageSize ((liveNodes w.doc).length + 1)) (hwaiting : w.waiting i = some (q, message)) :
    ∃ s, Call room i w (some (i, q, .created true)) ⟨s, w.todo, Function.update w.waiting i none⟩ := by
  obtain ⟨hfunc, chain, _, first, hfirst, hid⟩ := h.seen.awaits i q message hwaiting
  obtain ⟨_, htext⟩ := h.harmless i q (by rw [World.left, hwaiting]; exact List.mem_cons_self)
  rw [hfunc] at htext
  obtain ⟨text, value, htext, hvalue, _⟩ := htext
  have hlive := h.seen.shows.mem_of_answer (List.mem_of_mem_head? hfirst)
  obtain ⟨s, hadd, hbelow⟩ : ∃ s, addBelowFirst q ⟨[message]⟩ w.doc = .ok () s ∧ FileBelow s.pageManager :=
    addBelowFirst_returns h.dense hlive hid htext hvalue hsize hfit hroom
  exact ⟨s, .create hwaiting hadd hbelow⟩

theorem Ready.lookup (room : Nat → Nat) (h : Ready pageSize t w) (hsize : pageSize < 2 ^ 31)
    (hfit : sizeofPageHeader + (sizeofItemMetadata + sizeofNode) ≤ pageSize) (hidle : w.waiting i = none)
    (htodo : w.todo i = q :: rest) (hfunc : q.func = .createOp) (hanswer : t.answer (pathTests q.nodes) ≠ []) :
    ∃ s message, Call room i w none
        ⟨s, Function.update w.todo i rest, Function.update w.waiting i (some (q, message))⟩ ∧
      Ready pageSize t ⟨s, Function.update w.todo i rest, Function.update w.waiting i (some (q, message))⟩ := by
  rcases exists_lookup (i := i) h hidle htodo hfunc with ⟨hnone, _⟩ | ⟨_, s, message, hcall⟩
  · exact absurd hnone hanswer
  · rcases h.call hsize hfit hcall with ⟨_, hnext⟩ | ⟨_, hnoted, _⟩
    · exact ⟨s, message, hcall, hnext⟩
    · cases hnoted

theorem Ready.create (room : Nat → Nat) (h : Ready pageSize t w) (hsize : pageSize < 2 ^ 31)
    (hfit : sizeofPageHeader + (sizeofItemMetadata + sizeofNode) ≤ pageSize)
    (hroom : HasRoom pageSize ((liveNodes w.doc).length + 1)) (hwaiting : w.waiting i = some (q, message)) :
    ∃ s, Call room i w (some (i, q, .created true)) ⟨s, w.todo, Function.update w.waiting i none⟩ ∧
      Ready pageSize (treeStep t q) ⟨s, w.todo, Function.update w.waiting i none⟩ := by
  obtain ⟨s, hcall⟩ := exists_create h hsize hfit hroom hwaiting
  refine ⟨s, hcall, ?_⟩
  rcases h.call hsize hfit hcall with ⟨hnone, _⟩ | ⟨_, hnoted, hnext⟩
  · cases hnone
  · obtain rfl := (Prod.ext_iff.mp (Prod.ext_iff.mp (Option.some.inj hnoted)).2).1
    exact hnext

end Progress

section Two

def createBelowRoot (second : Bool) : Query :=
  ⟨.createOp, [⟨bytesOf "root", [createFilterSingleValue (.string (bytesOf (if second then "y" else "x")))]⟩]⟩

theorem harmless_createBelowRoot (second : Bool) : Harmless (createBelowRoot second) := by
  refine ⟨List.cons_ne_nil _ _, ?_⟩
  cases second
  · exact ⟨bytesOf "x", _, rfl, rfl, bytesOf "x", rfl⟩
  · exact ⟨bytesOf "y", _, rfl, rfl, bytesOf "y", rfl⟩

theorem exists_ready : ∃ doc, (liveNodes doc).length = 1 ∧ Ready 4096 (.node (bytesOf "root - - -") .nil .nil)
    ⟨doc, fun second => [createBelowRoot second], fun _ => none⟩ := by
  obtain ⟨doc, hr, hd, ⟨root, hroot, _⟩, hshows⟩ :=
    exists_denseRoot (.named (bytesOf "root") ⟨by decide, by decide, by decide⟩) (by decide)
  refine ⟨doc, congrArg List.length hroot, ⟨hr, hshows, fun i q message hwaiting => ?_⟩, hd, ?_, fun i q hq => ?_⟩
  · cases hwaiting
  · exact List.forall_mem_singleton.mpr ⟨bytesOf "root", rfl⟩
  · obtain rfl := List.mem_singleton.mp hq
    exact harmless_createBelowRoot i

end Two

section Interleavings

variable {ι : Type} [DecidableEq ι] {pageSize : Nat} {room : Nat → Nat} {t u : Trees (List UInt8)} {w v : World ι}
  {log : List (ι × Query × Outcome)} {i : ι}

/-- However the calls of the clients come after each other, the queries take effect one after the
other, each at one of its own calls and those of a client in their order, as long as no node is
deleted between the two calls of a query that goes below it. -/
theorem calls_linearizable (h : ServerReachable pageSize w.doc) (hshows : Shows (liveNodes w.doc) t)
    (hidle : ∀ i, w.waiting i = none) (hcalls : Calls room w log v) :
    (∃ u, Sequential t log u ∧ Shows (liveNodes v.doc) u) ∧ ∀ i, w.todo i = made i log ++ v.left i := by
  have hseen : Seen pageSize t w := ⟨h, hshows, fun i q message hwaiting => by
    rw [hidle] at hwaiting
    cases hwaiting⟩
  refine ⟨?_, fun i => ?_⟩
  · obtain ⟨u, hsequential, hlast⟩ := hseen.calls hcalls
    exact ⟨u, hsequential, hlast.shows⟩
  · have hall := hcalls.left i
    rw [World.left, hidle] at hall
    exact hall

omit [DecidableEq ι] in
theorem Sequential.last (h : Sequential t log u) : u = log.foldl (fun t entry => treeStep t entry.2.1) t := by
  induction h with
  | nil => rfl
  | snoc _ ih =>
      rw [List.foldl_append, ← ih]
      rfl

/-- Both clients look the root up before one of them puts its node there. -/
theorem calls_linearizable_two :
    ∃ w v : World Bool, w.todo = (fun second => [createBelowRoot second]) ∧
      Calls (fun n => n + 1) w
        [(true, createBelowRoot true, .created true), (false, createBelowRoot false, .created true)] v ∧
      Shows (liveNodes v.doc)
        (.node (bytesOf "root - - -") (.node (bytesOf "y") .nil (.node (bytesOf "x") .nil .nil)) .nil) := by
  obtain ⟨doc, hlength, h0⟩ := exists_ready
  have hsize : (4096 : Nat) < 2 ^ 31 := by decide
  have hfit : sizeofPageHeader + (sizeofItemMetadata + sizeofNode) ≤ 4096 := by decide
  have hroom₂ : HasRoom 4096 (1 + 1) := by
    rw [HasRoom]
    decide
  have hroom₃ : HasRoom 4096 (2 + 1) := by
    rw [HasRoom]
    decide
  obtain ⟨s₁, m₁, c₁, h₁⟩ := h0.lookup (fun n => n + 1) (i := false) hsize hfit rfl rfl rfl (List.cons_ne_nil _ _)
  obtain ⟨s₂, m₂, c₂, h₂⟩ := h₁.lookup (fun n => n + 1) (i := true) hsize hfit rfl rfl rfl (List.cons_ne_nil _ _)
  obtain ⟨s₃, c₃, h₃⟩ := h₂.create (fun n => n + 1) (i := true) hsize hfit (h₂.seen.shows.length_eq ▸ hroom₂) rfl
  obtain ⟨s₄, c₄, h₄⟩ := h₃.create (fun n => n + 1) (i := false) hsize hfit (h₃.seen.shows.length_eq ▸ hroom₃) rfl
  have hcalls := Calls.refl.tail c₁ |>.tail c₂ |>.tail c₃ |>.tail c₄
  obtain ⟨⟨u, hsequential, hshows⟩, _⟩ := calls_linearizable h0.seen.reachable h0.seen.shows (fun _ => rfl) hcalls
  obtain rfl := hsequential.last
  exact ⟨_, _, rfl, hcalls, hshows⟩

/-- However the calls of the clients come after each other, each client that has a query left can
make its next call, as long as the file has room for another node. -/
theorem calls_progress (h : Ready pageSize t w) (hsize : pageSize < 2 ^ 31)
    (hfit : sizeofPageHeader + (sizeofItemMetadata + sizeofNode) ≤ pageSize) (hcalls : Calls room w log v)
    (hleft : v.left i ≠ []) (hroom : HasRoom pageSize ((liveNodes v.doc).length + 1)) :
    ∃ entry u, Call room i v entry u := by
  obtain ⟨u, hready⟩ := h.calls hsize hfit hcalls
  cases hwaiting : v.waiting i with
  | some waits =>
      obtain ⟨q, message⟩ := waits
      obtain ⟨s, hcreate⟩ := exists_create hready hsize hfit hroom hwaiting
      exact ⟨_, _, hcreate⟩
  | none =>
      rw [World.left, hwaiting] at hleft
      obtain ⟨q, rest, htodo⟩ := List.exists_cons_of_ne_nil (l := v.todo i) hleft
      cases hfunc : q.func with
      | nop => exact exists_get hready hwaiting htodo hfunc
      | createOp =>
          rcases exists_lookup hready hwaiting htodo hfunc with ⟨_, s, hmissing⟩ | ⟨_, s, message, hlookup⟩
          · exact ⟨_, _, hmissing⟩
          · exact ⟨_, _, hlookup⟩
      | updateOp => exact ⟨_, _, .update hwaiting htodo hfunc⟩
      | deleteOp =>
          obtain ⟨_, hnot⟩ := hready.harmless i q (head_mem_left hwaiting htodo)
          rw [hfunc] at hnot
          exact hnot.elim

theorem calls_progress_two :
    ∃ (w : World Bool) (entry : Option (Bool × Query × Outcome)) (v : World Bool),
      w.todo true = [createBelowRoot true] ∧ Call (fun n => n + 1) true w entry v := by
  obtain ⟨doc, hlength, hready⟩ := exists_ready
  have hroom : HasRoom 4096 ((liveNodes doc).length + 1) := by
    rw [hlength, HasRoom]
    decide
  obtain ⟨entry, v, hcall⟩ :=
    calls_progress (i := true) hready (by decide) (by decide) .refl (List.cons_ne_nil _ _) hroom
  exact ⟨_, entry, v, rfl, hcall⟩

end Interleavings

end DocumentDb.Client
