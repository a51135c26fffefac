import DocumentDb.Client.Grafting

namespace DocumentDb.Client

open Storage Program Bytes Documents Rpc Server Trees

section Main

/-- Bytes up to a newline, and no more than some number. -/
def takeLine : Nat → List UInt8 → List UInt8
  | 0, _ => []
  | _ + 1, [] => []
  | n + 1, b :: stdin => if b = 10 then [b] else b :: takeLine n stdin

/-- What is in the buffer afterwards, and the input that is left. At the end of the input the buffer stays
as it is, and `none` stands for one that has not been written to. -/
def fgets (size : Nat) (buffer : Option (List UInt8)) (stdin : List UInt8) : Option (List UInt8) × List UInt8 :=
  if stdin = [] then (buffer, [])
  else (some (takeLine (size - 1) stdin), stdin.drop (takeLine (size - 1) stdin).length)

def addValues (parent : NodeId) (hpage : IsInt32 parent.pageId) (hitem : IsInt32 parent.itemId) :
    List (List UInt8) → DocumentM Unit
  | [] => return ()
  | text :: texts => do
    let value ← lift (nodeValueStringNew text)
    let _ ← clientAddNode ⟨parent, value, hpage, hitem⟩
    addValues parent hpage hitem texts

def secondNodeId : NodeId := ⟨0, 1⟩

theorem isInt32_secondNodeId : IsInt32 secondNodeId.pageId ∧ IsInt32 secondNodeId.itemId := by
  exact ⟨⟨by decide, by decide⟩, by decide, by decide⟩

def fillWithExampleData : DocumentM Unit := do
  addValues nullNodeId isInt32_nullNodeId_pageId isInt32_nullNodeId_itemId [bytesOf "a"]
  addValues rootNodeId isInt32_rootNodeId_pageId isInt32_rootNodeId_itemId [bytesOf "b", bytesOf "c"]
  addValues secondNodeId isInt32_secondNodeId.1 isInt32_secondNodeId.2 [bytesOf "d", bytesOf "e"]

/-- What one round of the loop finds outside of the program. There may be no init file. -/
structure Surroundings where
  room : Nat → Nat
  fuel : Nat
  tmpCounts : Nat → Int
  initFile : Option (List UInt8)

def fillFromFile : Option (List UInt8) → DocumentM Unit
  | none => throw (.exit "File doesn't exist")
  | some initFile => do let _ ← fillWithData initFile

def carryOut (around : Surroundings) (command : List UInt8) : DocumentM Unit :=
  if strEq command (bytesOf "init\n") then do
    let _ ← clientDeleteAllNodes around.fuel around.tmpCounts
    fillFromFile around.initFile
  else if strEq command (bytesOf "init-example\n") then do
    let _ ← clientDeleteAllNodes around.fuel around.tmpCounts
    fillWithExampleData
  else do
    let query ← lift (parserParseCommand (cString command))
    makeRequestBasedOnQuery around.room around.fuel around.tmpCounts query

def mainLoop : List Surroundings → Option (List UInt8) → List UInt8 → DocumentM Unit
  | [], _, _ => throw .diverges
  | around :: rounds, buffer, stdin =>
    match (fgets 256 buffer stdin).1 with
    | none => throw (.undefined "command is not initialised")
    | some command =>
      if strEq command (bytesOf "exit\n") then return ()
      else do
        carryOut around command
        mainLoop rounds (some command) (fgets 256 buffer stdin).2

end Main

section Input

inductive ReadsCommands : List UInt8 → List (List UInt8) → List UInt8 → Prop
  | nil {stdin} : ReadsCommands stdin [] stdin
  | cons {stdin commands rest} : stdin ≠ [] →
      ReadsCommands (stdin.drop (takeLine 255 stdin).length) commands rest →
      ReadsCommands stdin (takeLine 255 stdin :: commands) rest

variable {stdin rest : List UInt8} {commands : List (List UInt8)}

theorem takeLine_begins (n : Nat) (stdin : List UInt8) : takeLine n stdin <+: stdin := by
  induction n generalizing stdin with
  | zero => exact List.nil_prefix
  | succ n ih =>
      cases stdin with
      | nil => exact List.nil_prefix
      | cons b stdin =>
          rw [takeLine]
          split
          · exact List.prefix_cons_inj b |>.mpr List.nil_prefix
          · exact List.prefix_cons_inj b |>.mpr (ih stdin)

theorem length_takeLine (n : Nat) (stdin : List UInt8) : (takeLine n stdin).length ≤ n := by
  induction n generalizing stdin with
  | zero => exact Nat.le_refl 0
  | succ n ih =>
      cases stdin with
      | nil => exact Nat.zero_le _
      | cons b stdin =>
          rw [takeLine]
          split
          · exact Nat.succ_le_succ (Nat.zero_le n)
          · exact Nat.succ_le_succ (ih stdin)

theorem ReadsCommands.flatten (h : ReadsCommands stdin commands rest) : commands.flatten ++ rest = stdin := by
  induction h with
  | nil => rfl
  | @cons stdin commands rest _ _ ih =>
      rw [List.flatten_cons, List.append_assoc, ih]
      exact List.prefix_iff_eq_append.mp (takeLine_begins 255 stdin)

theorem ReadsCommands.length_le (h : ReadsCommands stdin commands rest) :
    ∀ command ∈ commands, command.length < 256 := by
  induction h with
  | nil => exact List.forall_mem_nil _
  | cons _ _ ih => exact List.forall_mem_cons.mpr ⟨Nat.lt_succ_of_le (length_takeLine 255 _), ih⟩

end Input

section Loop

abbrev IsExit (command : List UInt8) : Prop := strEq command (bytesOf "exit\n") = true

inductive CarriesOut : List Surroundings → Document → List (List UInt8) → Document → Prop
  | nil {doc} : CarriesOut [] doc [] doc
  | cons {around rounds doc s t command commands u} : carryOut around command doc = .ok u s →
      CarriesOut rounds s commands t → CarriesOut (around :: rounds) doc (command :: commands) t

theorem CarriesOut.length_eq {rounds : List Surroundings} {doc s : Document} {commands : List (List UInt8)}
    (h : CarriesOut rounds doc commands s) : rounds.length = commands.length := by
  induction h with
  | nil => rfl
  | cons _ _ ih => exact congrArg Nat.succ ih

variable {rounds : List Surroundings} {buffer : Option (List UInt8)} {doc s : Document} {stdin : List UInt8} {u : Unit}

/-- At the end of the input the last command is carried out again and again. -/
theorem mainLoop_end (hbuffer : ∀ command ∈ buffer, ¬IsExit command) : mainLoop rounds buffer [] doc ≠ .ok u s := by
  intro hrun
  induction rounds generalizing doc with
  | nil => cases hrun
  | cons around rounds ih =>
      rw [mainLoop, fgets, if_pos rfl] at hrun
      cases buffer with
      | none => cases hrun
      | some command =>
          dsimp only at hrun
          rw [run_ite, if_neg (hbuffer command rfl)] at hrun
          obtain ⟨_, t, _, hrest⟩ := bind_eq_ok.mp hrun
          exact ih hrest

theorem mainLoop_ok (hbuffer : ∀ command ∈ buffer, ¬IsExit command)
    (hrun : mainLoop rounds buffer stdin doc = .ok u s) :
    ∃ front around back commands last rest, rounds = front ++ around :: back ∧
      ReadsCommands stdin (commands ++ [last]) rest ∧ IsExit last ∧ (∀ command ∈ commands, ¬IsExit command) ∧
      CarriesOut front doc commands s := by
  induction rounds generalizing doc buffer stdin with
  | nil => cases hrun
  | cons around rounds ih =>
      by_cases hempty : stdin = []
      · rw [hempty] at hrun
        exact absurd hrun (mainLoop_end hbuffer)
      · rw [mainLoop, fgets, if_neg hempty] at hrun
        dsimp only at hrun
        by_cases hexit : IsExit (takeLine 255 stdin)
        · rw [run_ite, if_pos hexit] at hrun
          cases hrun
          exact ⟨[], around, rounds, [], takeLine 255 stdin, _, rfl, .cons hempty .nil, hexit,
            List.forall_mem_nil _, .nil⟩
        · rw [run_ite, if_neg hexit] at hrun
          obtain ⟨_, t, hcarry, hrest⟩ := bind_eq_ok.mp hrun
          obtain ⟨front, around', back, commands, last, rest, rfl, hreads, hlast, hall, hcarries⟩ := ih
            (fun command hcommand => by
              cases hcommand
              exact hexit) hrest
          exact ⟨around :: front, around', back, takeLine 255 stdin :: commands, last, rest, rfl, .cons hempty hreads, hlast,
            List.forall_mem_cons.mpr ⟨hexit, hall⟩, .cons hcarry hcarries⟩

end Loop

section Driving

theorem drives_clientGetNodeByFilter (chain : RpcFilterChain) : Driven Longer (clientGetNodeByFilter chain) := by
  apply (drives_getNodesByFilter chain).bind
  intro response
  exact Device.Drives.lift _

theorem drives_addBelowFirst (q : Query) (nodes : RpcNodes) : Driven Longer (addBelowFirst q nodes) := by
  obtain ⟨nodes⟩ := nodes
  cases nodes with
  | nil => exact Device.Drives.pure _
  | cons message nodes =>
      apply (Device.Drives.lift _).bind
      intro request
      apply (drives_clientAddNode request).bind
      intro response
      exact Device.Drives.pure _

theorem drives_addNodesSequence (q : Query) : Driven Longer (addNodesSequence q) := by
  rw [addNodesSequence_calls]
  apply (Device.Drives.lift _).bind
  intro chain
  apply (drives_clientGetNodeByFilter chain).bind
  intro nodes
  exact drives_addBelowFirst q nodes

theorem drives_makeRequest (room : Nat → Nat) (fuel : Nat) (tmpCounts : Nat → Int) (q : Query) :
    Driven Longer (makeRequestBasedOnQuery room fuel tmpCounts q) := by
  rw [makeRequestBasedOnQuery]
  cases q.func with
  | nop =>
      refine Device.Drives.bind ?_ fun _ => Device.Drives.pure _
      apply (Device.Drives.lift _).bind
      intro chain
      exact drives_clientGetNodeByFilter chain
  | createOp => exact drives_addNodesSequence q
  | deleteOp =>
      refine Device.Drives.bind ?_ fun _ => Device.Drives.pure _
      apply (Device.Drives.lift _).bind
      intro chain
      exact drives_deleteNodesByFilter fuel tmpCounts chain
  | updateOp => exact Device.Drives.pure _

theorem drives_addValues (parent : NodeId) (hpage : IsInt32 parent.pageId) (hitem : IsInt32 parent.itemId)
    (texts : List (List UInt8)) : Driven Longer (addValues parent hpage hitem texts) := by
  induction texts with
  | nil => exact Device.Drives.pure _
  | cons text texts ih =>
      apply (Device.Drives.lift _).bind
      intro value
      apply (drives_clientAddNode _).bind
      intro response
      exact ih

theorem drives_fillWithExampleData : Driven Longer fillWithExampleData := by
  apply (drives_addValues _ _ _ _).bind
  intro _
  apply (drives_addValues _ _ _ _).bind
  intro _
  exact drives_addValues _ _ _ _

theorem drives_fillWithData (initFile : List UInt8) : Driven Longer (fillWithData initFile) := by
  apply (Device.Drives.lift _).bind
  intro lines
  apply (Device.Drives.lift _).bind
  intro entries
  cases entries with
  | nil => exact Device.Drives.throw _
  | cons root entries =>
      apply Device.Drives.ite
      · exact Device.Drives.throw_bind _
      apply Device.Drives.ite
      · exact Device.Drives.throw_bind _
      apply (Device.Drives.lift _).bind
      intro request
      apply (drives_clientAddNode request).bind
      intro node
      exact drives_fillChildren _ entries _

theorem drives_carryOut (around : Surroundings) (command : List UInt8) : Driven Longer (carryOut around command) := by
  apply Device.Drives.ite
  · apply (drives_deleteNodesByFilter _ _ _).bind
    intro _
    cases around.initFile with
    | none => exact Device.Drives.throw _
    | some initFile => exact (drives_fillWithData initFile).bind fun _ => Device.Drives.pure _
  apply Device.Drives.ite
  · apply (drives_deleteNodesByFilter _ _ _).bind
    intro _
    exact drives_fillWithExampleData
  · apply (Device.Drives.lift _).bind
    intro query
    exact drives_makeRequest _ _ _ query

variable {rounds : List Surroundings} {doc s : Document} {commands : List (List UInt8)}

theorem CarriesOut.before (h : CarriesOut rounds doc commands s) (hbelow : FileBelow s.pageManager) :
    FileBelow doc.pageManager := by
  induction h with
  | nil => exact hbelow
  | cons hcarry _ ih => exact FileBelow.before (drives_carryOut _ _) hcarry (ih hbelow)

end Driving

section Meaning

/-- Texts that are added one after the other, each below some node, if they are not refused. -/
inductive Adds : List (List UInt8) → Trees (List UInt8) → Trees (List UInt8) → Prop
  | nil {t} : Adds [] t t
  | refused {text texts t u} : Adds texts t u → Adds (text :: texts) t u
  | beneath {text texts t t' u} : Beneath text t t' → Adds texts t' u → Adds (text :: texts) t u

structure TextState where
  trees : Trees (List UInt8)
  anchored : Bool

/-- What a client does to the trees: a root is refused when the first one is there, and its text is
another tree otherwise. -/
def TextState.rooted (state : TextState) (text : List UInt8) : Trees (List UInt8) :=
  if state.anchored then state.trees else state.trees.concat text

def TextState.underFirst (state : TextState) (texts : List (List UInt8)) : Trees (List UInt8) :=
  if state.anchored then texts.foldl (fun t text => t.graft (.node text .nil .nil)) state.trees else state.trees

/-- What a command that is not `exit` means for the trees. Whether a new root has the id of the first
one is left open for a document without nodes. -/
inductive Means (around : Surroundings) (command : List UInt8) : TextState → TextState → Prop
  | init {state after : TextState} {login path scan} : strEq command (bytesOf "init\n") = true →
      around.initFile = some (initFile login path scan) →
      after.trees = joined state.anchored state.trees ((directoryTree login path scan).map EntryInfo.text) →
      (state.trees ≠ .nil → after.anchored = state.anchored) → Means around command state after
  | initExample {state between after : TextState} : strEq command (bytesOf "init-example\n") = true →
      between.trees = state.rooted (bytesOf "a") → (state.trees ≠ .nil → between.anchored = state.anchored) →
      Adds [bytesOf "d", bytesOf "e"] (between.underFirst [bytesOf "b", bytesOf "c"]) after.trees →
      after.anchored = between.anchored → Means around command state after
  | query {state after : TextState} {q} : strEq command (bytesOf "init\n") = false →
      strEq command (bytesOf "init-example\n") = false →
      parserParseCommand (cString command) = .ok q → after.trees = treeStep state.trees q →
      (q.func ≠ .deleteOp → after.anchored = state.anchored) → (after.anchored = true → state.anchored = true) →
      Means around command state after

inductive MeansAll : List Surroundings → List (List UInt8) → TextState → TextState → Prop
  | nil {state} : MeansAll [] [] state state
  | cons {around rounds command commands state between after} : Means around command state between →
      MeansAll rounds commands between after → MeansAll (around :: rounds) (command :: commands) state after

structure Represents (pageSize : Nat) (doc : Document) (state : TextState) : Prop where
  reachable : ServerReachable pageSize doc
  shows : Shows (liveNodes doc) state.trees
  anchored : state.anchored = decide (Anchored (liveNodes doc))

variable {pageSize : Nat} {doc s : Document} {state : TextState} {nodes news : List Node} {t : Trees (List UInt8)}
  {text : List UInt8} {texts : List (List UInt8)} {request : CreateNodeRequest} {response : RpcNode} {u : Unit}

theorem trees_of_no_nodes (h : Shows [] t) : t = .nil := by
  obtain ⟨u, _, hperm, hrel⟩ := h
  have hnil := hperm.eq_nil
  cases hrel with
  | nil => rfl
  | node _ _ _ => cases hnil

theorem anchored_append (h : ServerReachable pageSize s) (hnodes : liveNodes s = nodes ++ news) (hne : nodes ≠ []) :
    Anchored (liveNodes s) ↔ Anchored nodes := by
  constructor
  · intro hanchored
    obtain ⟨first, rest, hlive, hid, _⟩ := hanchored.first h
    obtain ⟨head, tail, rfl⟩ := List.exists_cons_of_ne_nil hne
    rw [hnodes, List.cons_append] at hlive
    obtain ⟨rfl, _⟩ := List.cons.inj hlive
    exact ⟨head, List.mem_cons_self, hid⟩
  · rintro ⟨node, hnode, hid⟩
    rw [hnodes]
    exact ⟨node, List.mem_append_left _ hnode, hid⟩

theorem anchored_grown (h : ServerReachable pageSize s) (hshows : Shows (liveNodes doc) t)
    (hnodes : liveNodes s = liveNodes doc ++ news) (hne : t ≠ .nil) :
    decide (Anchored (liveNodes s)) = decide (Anchored (liveNodes doc)) := by
  apply decide_eq_decide.mpr
  apply anchored_append h hnodes
  intro hnil
  rw [hnil] at hshows
  exact hne (trees_of_no_nodes hshows)

theorem Represents.addRoot (h : Represents pageSize doc state) (hnull : request.parent = nullNodeId)
    (hvalue : nodeValueStringNew text = .ok request.value) (hzero : 0 ∉ text)
    (hrun : clientAddNode request doc = .ok response s) (hbelow : FileBelow s.pageManager) :
    ∃ after, Represents pageSize s after ∧ after.trees = state.rooted text ∧
      (state.trees ≠ .nil → after.anchored = state.anchored) := by
  by_cases hanchored : Anchored (liveNodes doc)
  · have hrefused : ¬Granted request (liveNodes doc) := fun hgranted => (granted_root hnull).mp hgranted hanchored
    obtain ⟨hs, hkept, _⟩ := clientAddNode_refused h.reachable hrefused hrun hbelow
    refine ⟨state, ⟨hs, ?_, ?_⟩, ?_, fun _ => rfl⟩
    · rw [hkept]
      exact h.shows
    · rw [hkept]
      exact h.anchored
    · rw [TextState.rooted, h.anchored, if_pos (by simpa using hanchored)]
  · obtain ⟨hs, node, hnodes, hanswered, hbefore⟩ := clientAddNode_granted h.reachable hvalue
      ((granted_root hnull).mpr hanchored) hrun hbelow
    have htext := hanswered.holdsText hzero
    have hlive : node ∈ liveNodes s := by
      rw [hnodes]
      exact List.mem_append_right _ List.mem_cons_self
    refine ⟨⟨state.rooted text, decide (Anchored (liveNodes s))⟩, ⟨hs, ?_, rfl⟩, rfl, fun hne => ?_⟩
    · rw [TextState.rooted, h.anchored, if_neg (by simpa using hanchored), hnodes]
      exact h.shows.concat h.reachable.grown hbefore (hs.grown.ne_null node hlive) (hanswered.parent.trans hnull) htext
    · rw [h.anchored]
      exact anchored_grown hs h.shows hnodes hne

theorem Represents.addChild (h : Represents pageSize doc state) (hchild : request.parent ≠ nullNodeId)
    (hvalue : nodeValueStringNew text = .ok request.value) (hzero : 0 ∉ text)
    (hrun : clientAddNode request doc = .ok response s) (hbelow : FileBelow s.pageManager) :
    ∃ after, Represents pageSize s after ∧ after.anchored = state.anchored ∧
      (after.trees = state.trees ∨ Beneath text state.trees after.trees) := by
  by_cases hgranted : Granted request (liveNodes doc)
  · obtain ⟨parent, hparent, hid⟩ := hgranted.2 hchild
    obtain ⟨hs, node, hnodes, hanswered, hbefore⟩ := clientAddNode_granted h.reachable hvalue hgranted hrun hbelow
    have htext := hanswered.holdsText hzero
    have hlive : node ∈ liveNodes s := by
      rw [hnodes]
      exact List.mem_append_right _ List.mem_cons_self
    obtain ⟨t', hbeneath, hshows⟩ := h.shows.insertBelow h.reachable.grown hbefore (hs.grown.ne_null node hlive) hparent
      (hanswered.parent.trans hid.symm) htext
    rw [← hnodes] at hshows
    refine ⟨⟨t', state.anchored⟩, ⟨hs, hshows, ?_⟩, rfl, Or.inr hbeneath⟩
    rw [h.anchored]
    exact (decide_eq_decide.mpr (anchored_append hs hnodes (List.ne_nil_of_mem hparent))).symm
  · obtain ⟨hs, hkept, _⟩ := clientAddNode_refused h.reachable hgranted hrun hbelow
    refine ⟨state, ⟨hs, ?_, ?_⟩, rfl, Or.inl rfl⟩
    · rw [hkept]
      exact h.shows
    · rw [hkept]
      exact h.anchored

theorem Represents.addToFirst (h : Represents pageSize doc state) (hparent : request.parent = rootNodeId)
    (hvalue : nodeValueStringNew text = .ok request.value) (hzero : 0 ∉ text)
    (hrun : clientAddNode request doc = .ok response s) (hbelow : FileBelow s.pageManager) :
    Represents pageSize s ⟨state.underFirst [text], state.anchored⟩ := by
  have hchild : request.parent ≠ nullNodeId := by
    rw [hparent]
    decide
  by_cases hanchored : Anchored (liveNodes doc)
  · obtain ⟨root, hroot, hid⟩ := hanchored
    have hgranted := (granted_child hchild).mpr ⟨root, hroot, hid.trans hparent.symm⟩
    obtain ⟨hs, node, hnodes, hanswered, hbefore⟩ := clientAddNode_granted h.reachable hvalue hgranted hrun hbelow
    have htext := hanswered.holdsText hzero
    obtain ⟨first, rest, hlive, hfirst, hnull⟩ := Anchored.first h.reachable ⟨root, hroot, hid⟩
    have hshows := h.shows
    have hgrown := h.reachable.grown
    have hall := hs.grown
    rw [hnodes] at hall
    have hparents : ∀ n ∈ [node], n.parentId = first.id ∨ ∃ m ∈ [node], m.id = n.parentId := by
      intro n hn
      rw [List.mem_singleton.mp hn, hanswered.parent, hparent, hfirst]
      exact Or.inl rfl
    have hapart := apart_of_grown hall hparents
    have hpictures : Pictures Node.id Node.parentId [node] (children Node.parentId [node] first.id)
        (.node node .nil .nil) := by
      have hunder : children Node.parentId [node] first.id = [node] := by
        simp [children, hanswered.parent, hparent, hfirst]
      have hnone : children Node.parentId [node] node.id = [] := by
        apply children_eq_nil
        intro n hn
        rw [List.mem_singleton.mp hn, hanswered.parent, hparent, ← hid]
        exact hapart.ids root hroot node List.mem_cons_self
      rw [hunder]
      refine .node ?_ .nil
      rw [hnone]
      exact .nil
    rw [hlive] at hshows hgrown hall hapart
    refine ⟨hs, ?_, ?_⟩
    · rw [hnodes, hlive, TextState.underFirst, h.anchored, if_pos (by simpa using ⟨root, hroot, hid⟩)]
      exact hshows.graft hgrown hnull hapart hpictures rfl (.node htext .nil .nil)
    · rw [h.anchored]
      exact (decide_eq_decide.mpr (anchored_append hs hnodes (List.ne_nil_of_mem hroot))).symm
  · have hrefused : ¬Granted request (liveNodes doc) := by
      intro hgranted
      obtain ⟨root, hroot, hid⟩ := hgranted.2 hchild
      exact hanchored ⟨root, hroot, hid.trans hparent⟩
    obtain ⟨hs, hkept, _⟩ := clientAddNode_refused h.reachable hrefused hrun hbelow
    refine ⟨hs, ?_, ?_⟩
    · rw [TextState.underFirst, h.anchored, if_neg (by simpa using hanchored), hkept]
      exact h.shows
    · rw [hkept]
      exact h.anchored

variable {parent : NodeId} {hpage : IsInt32 parent.pageId} {hitem : IsInt32 parent.itemId}

theorem addValues_ok (h : addValues parent hpage hitem (text :: texts) doc = .ok u s) :
    ∃ value response between, nodeValueStringNew text = .ok value ∧
      clientAddNode ⟨parent, value, hpage, hitem⟩ doc = .ok response between ∧
      addValues parent hpage hitem texts between = .ok u s := by
  rw [addValues] at h
  obtain ⟨value, _, hlift, hrest⟩ := bind_eq_ok.mp h
  obtain ⟨hvalue, rfl⟩ := lift_eq_ok.mp hlift
  obtain ⟨response, between, hadd, hrest⟩ := bind_eq_ok.mp hrest
  exact ⟨value, response, between, hvalue, hadd, hrest⟩

theorem Represents.addValues_root (h : Represents pageSize doc state) (hzero : 0 ∉ text)
    (hrun : addValues nullNodeId isInt32_nullNodeId_pageId isInt32_nullNodeId_itemId [text] doc = .ok u s)
    (hbelow : FileBelow s.pageManager) :
    ∃ after, Represents pageSize s after ∧ after.trees = state.rooted text ∧
      (state.trees ≠ .nil → after.anchored = state.anchored) := by
  obtain ⟨value, response, between, hvalue, hadd, hrest⟩ := addValues_ok hrun
  cases hrest
  exact h.addRoot rfl hvalue hzero hadd hbelow

theorem Represents.addValues_first (h : Represents pageSize doc state) (hzero : ∀ text ∈ texts, 0 ∉ text)
    (hrun : addValues rootNodeId isInt32_rootNodeId_pageId isInt32_rootNodeId_itemId texts doc = .ok u s)
    (hbelow : FileBelow s.pageManager) : Represents pageSize s ⟨state.underFirst texts, state.anchored⟩ := by
  induction texts generalizing doc state with
  | nil =>
      cases hrun
      rw [TextState.underFirst, List.foldl_nil, ite_self]
      exact h
  | cons text texts ih =>
      obtain ⟨hhead, hzero⟩ := List.forall_mem_cons.mp hzero
      obtain ⟨value, response, between, hvalue, hadd, hrest⟩ := addValues_ok hrun
      have hbetween := FileBelow.before (drives_addValues _ _ _ texts) hrest hbelow
      have hlast := ih (h.addToFirst rfl hvalue hhead hadd hbetween) hzero hrest
      have hsame : state.underFirst (text :: texts) =
          TextState.underFirst ⟨state.underFirst [text], state.anchored⟩ texts := by
        obtain ⟨t, anchored⟩ := state
        cases anchored <;> rfl
      rw [hsame]
      exact hlast

theorem Represents.addValues_child (h : Represents pageSize doc state) (hchild : parent ≠ nullNodeId)
    (hzero : ∀ text ∈ texts, 0 ∉ text) (hrun : addValues parent hpage hitem texts doc = .ok u s)
    (hbelow : FileBelow s.pageManager) :
    ∃ after, Represents pageSize s after ∧ after.anchored = state.anchored ∧ Adds texts state.trees after.trees := by
  induction texts generalizing doc state with
  | nil =>
      cases hrun
      exact ⟨state, h, rfl, .nil⟩
  | cons text texts ih =>
      obtain ⟨hhead, hzero⟩ := List.forall_mem_cons.mp hzero
      obtain ⟨value, response, between, hvalue, hadd, hrest⟩ := addValues_ok hrun
      have hbetween := FileBelow.before (drives_addValues _ _ _ texts) hrest hbelow
      obtain ⟨next, hnext, hsame, hcases⟩ := h.addChild hchild hvalue hhead hadd hbetween
      obtain ⟨after, hafter, hkept, hadds⟩ := ih hnext hzero hrest
      refine ⟨after, hafter, hkept.trans hsame, ?_⟩
      rcases hcases with heq | hbeneath
      · rw [← heq]
        exact .refused hadds
      · exact .beneath hbeneath hadds

theorem Represents.fillWithExampleData (h : Represents pageSize doc state)
    (hrun : Client.fillWithExampleData doc = .ok u s) (hbelow : FileBelow s.pageManager) :
    ∃ between after : TextState, Represents pageSize s after ∧ between.trees = state.rooted (bytesOf "a") ∧
      (state.trees ≠ .nil → between.anchored = state.anchored) ∧
      Adds [bytesOf "d", bytesOf "e"] (between.underFirst [bytesOf "b", bytesOf "c"]) after.trees ∧
      after.anchored = between.anchored := by
  obtain ⟨_, doc₁, hroot, hrest⟩ := bind_eq_ok.mp hrun
  obtain ⟨_, doc₂, hfirst, hsecond⟩ := bind_eq_ok.mp hrest
  have h₂ := FileBelow.before (drives_addValues _ _ _ _) hsecond hbelow
  have h₁ := FileBelow.before (drives_addValues _ _ _ _) hfirst h₂
  obtain ⟨between, hbetween, htrees, hanchored⟩ := h.addValues_root (by decide) hroot h₁
  have hunder := hbetween.addValues_first (by decide) hfirst h₂
  obtain ⟨after, hafter, hkept, hadds⟩ := hunder.addValues_child (by decide) (by decide) hsecond hbelow
  exact ⟨between, after, hafter, htrees, hanchored, hadds, hkept⟩

/-- A file, if there is one, has been written of a directory. -/
def Surroundings.OfDirectory (around : Surroundings) : Prop :=
  ∀ file ∈ around.initFile, ∃ login path scan, file = Client.initFile login path scan ∧
    (∀ info ∈ (directoryTree login path scan).toList, Plain info) ∧
    (directoryTree login path scan).toList.length < 2 ^ 31

theorem Represents.fillFromFile {around : Surroundings} (h : Represents pageSize doc state) (hfile : around.OfDirectory)
    (hrun : Client.fillFromFile around.initFile doc = .ok u s) (hbelow : FileBelow s.pageManager) :
    ∃ login path scan after, around.initFile = some (initFile login path scan) ∧ Represents pageSize s after ∧
      after.trees = joined state.anchored state.trees ((directoryTree login path scan).map EntryInfo.text) ∧
      (state.trees ≠ .nil → after.anchored = state.anchored) := by
  cases hinit : around.initFile with
  | none =>
      rw [hinit] at hrun
      cases hrun
  | some file =>
      rw [hinit] at hrun
      obtain ⟨login, path, scan, rfl, hplain, hcount⟩ := hfile file hinit
      obtain ⟨added, _, hfill, hpure⟩ := bind_eq_ok.mp hrun
      cases hpure
      obtain ⟨hs, hshows, news, hnodes⟩ := fillWithData_shows h.reachable h.shows hplain hcount hfill hbelow
      rw [← h.anchored] at hshows
      refine ⟨login, path, scan, ⟨_, decide (Anchored (liveNodes s))⟩, rfl, ⟨hs, hshows, rfl⟩, rfl, fun hne => ?_⟩
      rw [h.anchored]
      exact anchored_grown hs h.shows hnodes hne

theorem anchored_makeRequest {room : Nat → Nat} {fuel : Nat} {tmpCounts : Nat → Int} {q : Query}
    (h : Represents pageSize doc state) (hrun : makeRequestBasedOnQuery room fuel tmpCounts q doc = .ok u s)
    (hbelow : FileBelow s.pageManager) :
    (q.func ≠ .deleteOp → (Anchored (liveNodes s) ↔ Anchored (liveNodes doc))) ∧
      (Anchored (liveNodes s) → Anchored (liveNodes doc)) := by
  rw [makeRequestBasedOnQuery] at hrun
  cases hfunc : q.func with
  | nop =>
      rw [hfunc] at hrun
      obtain ⟨response, t, hget, hpure⟩ := bind_eq_ok.mp hrun
      cases hpure
      obtain ⟨chain, _, hlookup⟩ := getNodes_ok hget
      rw [(h.shows.getNodes h.reachable hlookup).1]
      exact ⟨fun _ => Iff.rfl, id⟩
  | updateOp =>
      rw [hfunc] at hrun
      cases hrun
      exact ⟨fun _ => Iff.rfl, id⟩
  | createOp =>
      rw [hfunc] at hrun
      obtain ⟨hs, _, hsame | ⟨hne, new, hnodes⟩⟩ := addNodesSequence_shows h.reachable h.shows hrun hbelow
      · rw [hsame]
        exact ⟨fun _ => Iff.rfl, id⟩
      · have hiff := anchored_append hs hnodes hne
        exact ⟨fun _ => hiff, hiff.mp⟩
  | deleteOp =>
      rw [hfunc] at hrun
      obtain ⟨response, t, hdelete, hpure⟩ := bind_eq_ok.mp hrun
      cases hpure
      obtain ⟨chain, _, hremove⟩ := deleteNodeSequence_ok hdelete
      obtain ⟨_, hnodes⟩ := deleteNodesByFilter_remaining h.reachable.document hremove
      refine ⟨fun hne => absurd rfl hne, ?_⟩
      rintro ⟨node, hnode, hid⟩
      exact ⟨node, ((hnodes node).mp hnode).1, hid⟩

theorem Represents.makeRequest {room : Nat → Nat} {fuel : Nat} {tmpCounts : Nat → Int} {q : Query}
    (h : Represents pageSize doc state) (hrun : makeRequestBasedOnQuery room fuel tmpCounts q doc = .ok u s)
    (hbelow : FileBelow s.pageManager) :
    ∃ after, Represents pageSize s after ∧ after.trees = treeStep state.trees q ∧
      (q.func ≠ .deleteOp → after.anchored = state.anchored) ∧ (after.anchored = true → state.anchored = true) := by
  obtain ⟨hs, hshows⟩ := makeRequestBasedOnQuery_shows h.reachable h.shows hrun hbelow
  refine ⟨⟨treeStep state.trees q, decide (Anchored (liveNodes s))⟩, ⟨hs, hshows, rfl⟩, rfl, ?_⟩
  obtain ⟨hkept, hback⟩ := anchored_makeRequest h hrun hbelow
  dsimp only
  rw [h.anchored]
  constructor
  · intro hne
    exact decide_eq_decide.mpr (hkept hne)
  · intro hafter
    exact decide_eq_true (hback (of_decide_eq_true hafter))

theorem Represents.carryOut {around : Surroundings} {command : List UInt8} (h : Represents pageSize doc state)
    (hfile : around.OfDirectory) (hrun : Client.carryOut around command doc = .ok u s)
    (hbelow : FileBelow s.pageManager) :
    ∃ after, Represents pageSize s after ∧ Means around command state after := by
  obtain ⟨store, hstore, _⟩ := h.reachable.document.tree
  have hkept := clientDeleteAllNodes_run hstore around.fuel around.tmpCounts
  rw [Client.carryOut, run_ite, run_ite] at hrun
  by_cases hinit : strEq command (bytesOf "init\n") = true
  · rw [if_pos hinit] at hrun
    simp only [run_bind, hkept, andThen_ok] at hrun
    obtain ⟨login, path, scan, after, hgiven, hafter, htrees, hanchored⟩ := h.fillFromFile hfile hrun hbelow
    exact ⟨after, hafter, .init hinit hgiven htrees hanchored⟩
  rw [if_neg hinit] at hrun
  by_cases hexample : strEq command (bytesOf "init-example\n") = true
  · rw [if_pos hexample] at hrun
    simp only [run_bind, hkept, andThen_ok] at hrun
    obtain ⟨between, after, hafter, htrees, hanchored, hadds, hsame⟩ := h.fillWithExampleData hrun hbelow
    exact ⟨after, hafter, .initExample hexample htrees hanchored hadds hsame⟩
  rw [if_neg hexample] at hrun
  obtain ⟨q, _, hlift, hrest⟩ := bind_eq_ok.mp hrun
  obtain ⟨hparse, rfl⟩ := lift_eq_ok.mp hlift
  obtain ⟨after, hafter, htrees, hanchored, hback⟩ := h.makeRequest hrest hbelow
  exact ⟨after, hafter,
    .query (Bool.eq_false_iff.mpr hinit) (Bool.eq_false_iff.mpr hexample) hparse htrees hanchored hback⟩

end Meaning

section Sessions

variable {pageSize : Nat} {rounds : List Surroundings} {doc s : Document} {state : TextState}
  {commands : List (List UInt8)} {stdin : List UInt8} {u : Unit}

theorem Represents.carriesOut (h : Represents pageSize doc state) (hfiles : ∀ around ∈ rounds, around.OfDirectory)
    (hrun : CarriesOut rounds doc commands s) (hbelow : FileBelow s.pageManager) :
    ∃ after, Represents pageSize s after ∧ MeansAll rounds commands state after := by
  induction hrun generalizing state with
  | nil => exact ⟨state, h, .nil⟩
  | cons hcarry hrest ih =>
      obtain ⟨hfile, hfiles⟩ := List.forall_mem_cons.mp hfiles
      obtain ⟨between, hbetween, hmeans⟩ := h.carryOut hfile hcarry (hrest.before hbelow)
      obtain ⟨after, hafter, hall⟩ := ih hbetween hfiles hbelow
      exact ⟨after, hafter, .cons hmeans hall⟩

/-- The program comes to its end only with a command that is `exit`. The commands before the first such
one are the pieces of the input, of at most 255 bytes, and the document is what they mean. -/
theorem mainLoop_means (h : Represents pageSize doc state) (hfiles : ∀ around ∈ rounds, around.OfDirectory)
    (hrun : mainLoop rounds none stdin doc = .ok u s) (hbelow : FileBelow s.pageManager) :
    ∃ commands last rest after, ReadsCommands stdin (commands ++ [last]) rest ∧ IsExit last ∧
      (∀ command ∈ commands, ¬IsExit command) ∧ Represents pageSize s after ∧
      MeansAll (rounds.take commands.length) commands state after := by
  obtain ⟨front, around, back, commands, last, rest, rfl, hreads, hlast, hall, hcarries⟩ :=
    mainLoop_ok (fun _ hnone => by cases hnone) hrun
  obtain ⟨after, hafter, hmeans⟩ :=
    h.carriesOut (fun around hmem => hfiles around (List.mem_append_left _ hmem)) hcarries
    hbelow
  refine ⟨commands, last, rest, after, hreads, hlast, hall, hafter, ?_⟩
  rw [← hcarries.length_eq, List.take_left]
  exact hmeans

def atFolder : Surroundings where
  room n := n + 1
  fuel := 0
  tmpCounts _ := 0
  initFile := some (Client.initFile (bytesOf "krot") folder folderScan)

theorem atFolder_ofDirectory : atFolder.OfDirectory := by
  intro file hfile
  cases hfile
  exact ⟨_, _, _, rfl, plain_folder, by decide⟩

/-- An `init` in a document with a root, and the end. -/
theorem mainLoop_means_init :
    ∃ doc s commands last rest after, mainLoop [atFolder, atFolder] none (bytesOf "init\nexit\n") doc = .ok () s ∧
      Represents 4096 doc ⟨.node (bytesOf "root - - -") .nil .nil, true⟩ ∧
      ReadsCommands (bytesOf "init\nexit\n") (commands ++ [last]) rest ∧ IsExit last ∧ Represents 4096 s after ∧
      MeansAll ([atFolder, atFolder].take commands.length) commands
        ⟨.node (bytesOf "root - - -") .nil .nil, true⟩ after := by
  obtain ⟨doc, hr, hd, ⟨root, hroot, hid⟩, hshows⟩ :=
    exists_denseRoot (.named (bytesOf "root") ⟨by decide, by decide, by decide⟩) (by decide)
  have hanchored : Anchored (liveNodes doc) := by
    rw [hroot]
    exact ⟨root, List.mem_cons_self, hid⟩
  have hrepresents : Represents 4096 doc ⟨.node (bytesOf "root - - -") .nil .nil, true⟩ :=
    ⟨hr, hshows, (decide_eq_true hanchored).symm⟩
  have hroom : HasRoom 4096
      ((liveNodes doc).length + (directoryTree (bytesOf "krot") folder folderScan).toList.length) := by
    rw [hroot, List.length_singleton, HasRoom]
    decide
  obtain ⟨added, s, hfill, hbelow⟩ :=
    fillWithData_returns hr hd hshows plain_folder (by decide) (by decide) (by decide) hroom
  obtain ⟨store, hstore, _⟩ := hr.document.tree
  have hcarry : carryOut atFolder (bytesOf "init\n") doc = .ok () s := by
    rw [carryOut, run_ite, if_pos (by decide)]
    simp only [run_bind, clientDeleteAllNodes_run hstore, andThen_ok]
    rw [atFolder, fillFromFile]
    simp only [run_bind, hfill, andThen_ok, run_pure]
  have hrun : mainLoop [atFolder, atFolder] none (bytesOf "init\nexit\n") doc = .ok () s := by
    have hfirst : fgets 256 none (bytesOf "init\nexit\n") = (some (bytesOf "init\n"), bytesOf "exit\n") := by decide
    have hsecond : fgets 256 (some (bytesOf "init\n")) (bytesOf "exit\n") = (some (bytesOf "exit\n"), []) := by decide
    rw [mainLoop, hfirst]
    dsimp only
    rw [run_ite, if_neg (by decide)]
    simp only [run_bind, hcarry, andThen_ok]
    rw [mainLoop, hsecond]
    dsimp only
    rw [run_ite, if_pos (by decide), run_pure]
  have hfiles : ∀ around ∈ [atFolder, atFolder], around.OfDirectory := by
    intro around hmem
    simp only [List.mem_cons, List.not_mem_nil, or_false, or_self] at hmem
    rw [hmem]
    exact atFolder_ofDirectory
  obtain ⟨commands, last, rest, after, hreads, hlast, _, hafter, hmeans⟩ :=
    mainLoop_means hrepresents hfiles hrun hbelow
  exact ⟨doc, s, commands, last, rest, after, hrun, hrepresents, hreads, hlast, hafter, hmeans⟩

end Sessions

end DocumentDb.Client
