import Mathlib.Algebra.Order.BigOperators.Group.List
import DocumentDb.Client.CreatedRecords
import DocumentDb.Client.Grammar
import DocumentDb.Client.Session

namespace DocumentDb.Client

open Bytes Program Rpc

section Lengths

def elementLength : Option Element → Nat
  | some (.string value) => value.length
  | _ => 0

def fieldLength (field : Option (List UInt8)) : Nat := (field.map List.length).getD 0

def filterLength (f : FilterExpr) : Nat :=
  elementLength f.right + if f.type = .selectByLogicalOp then fieldLength f.left + 4 else 0

def filtersLength (filters : List FilterExpr) : Nat := (filters.map filterLength).sum

def queryLength (q : Query) : Nat := (q.nodes.map fun node => filtersLength node.filters).sum

def tokensLength (ts : List Token) : Nat := (ts.map tokenLength).sum

variable {ts us : List Token} {q q' : Query} {f : FilterExpr} {value : Element} {name : List UInt8}

theorem tokensLength_append (ts us : List Token) : tokensLength (ts ++ us) = tokensLength ts + tokensLength us := by
  rw [tokensLength, List.map_append, List.sum_append]
  rfl

theorem filtersLength_append (filters : List FilterExpr) (f : FilterExpr) :
    filtersLength (filters ++ [f]) = filtersLength filters + filterLength f := by
  rw [filtersLength, List.map_append, List.sum_append]
  rfl

theorem queryLength_addNode (q : Query) (name : List UInt8) : queryLength (addNode q name) = queryLength q := by
  obtain ⟨func, nodes⟩ := q
  rw [addNode]
  cases nodes with
  | nil => rfl
  | cons first rest =>
      dsimp only
      split
      · rfl
      · simp [queryLength, filtersLength]

theorem sum_addToLast (f : FilterExpr) {nodes : List ParsedNode} (hne : nodes ≠ []) :
    ((addToLast f nodes).map fun node => filtersLength node.filters).sum =
      (nodes.map fun node => filtersLength node.filters).sum + filterLength f := by
  induction nodes with
  | nil => exact absurd rfl hne
  | cons node nodes ih =>
      cases nodes with
      | nil =>
          change filtersLength (node.filters ++ [f]) + 0 = filtersLength node.filters + 0 + filterLength f
          rw [filtersLength_append]
          omega
      | cons next nodes =>
          have hrest := ih (List.cons_ne_nil next nodes)
          change filtersLength node.filters + ((addToLast f (next :: nodes)).map _).sum =
            filtersLength node.filters + ((next :: nodes).map _).sum + filterLength f
          rw [hrest, Nat.add_assoc]

theorem queryLength_addFilter (q : Query) (f : FilterExpr) :
    queryLength (addFilter q f) = queryLength q + filterLength f := by
  obtain ⟨func, nodes⟩ := q
  cases nodes with
  | nil => simp [addFilter, queryLength, filtersLength]
  | cons node nodes => exact sum_addToLast f (List.cons_ne_nil node nodes)

theorem DerivesNodeValue.length_le (h : DerivesNodeValue ts value) :
    elementLength (some value) ≤ tokensLength ts := by
  cases h with
  | int value => exact Nat.zero_le _
  | double text => exact Nat.zero_le _
  | word text => exact Nat.le_refl _

theorem DerivesFilter.length_le (h : DerivesFilter ts f) : filterLength f ≤ tokensLength ts := by
  cases h with
  | bracket hexpr =>
      rw [tokensLength_append, tokensLength_append]
      cases hexpr with
      | value hvalue =>
          have hle := hvalue.length_le
          change elementLength (some _) + 0 ≤ _
          omega
      | comparison hname hop hvalue =>
          have hle := hvalue.length_le
          cases hname
          cases hop
          rw [tokensLength_append, tokensLength_append]
          change elementLength (some _) + (List.length _ + 4) ≤ 1 + (1 + (List.length _ + 0) + (1 + 0) + _) + (1 + 0)
          omega
      | all => exact Nat.zero_le _
  | sign hname =>
      cases hname
      change List.length _ + 0 ≤ 1 + (List.length _ + 0)
      omega

theorem DerivesFilters.length_le (h : DerivesFilters ts q q') : queryLength q' ≤ queryLength q + tokensLength ts := by
  induction h with
  | one hfilter =>
      rw [queryLength_addFilter]
      exact Nat.add_le_add_left hfilter.length_le _
  | more _ hfilter ih =>
      have hle := hfilter.length_le
      rw [queryLength_addFilter, tokensLength_append]
      omega

theorem DerivesIdentifier.length_le (h : DerivesIdentifier ts q q' name) :
    queryLength q' ≤ queryLength q + tokensLength ts := by
  cases h with
  | word => exact Nat.le_add_right _ _
  | filters hfilters =>
      have hle := hfilters.length_le
      rw [tokensLength_append]
      omega

theorem DerivesPath.length_le (h : DerivesPath ts q q') : queryLength q' ≤ queryLength q + tokensLength ts := by
  induction h with
  | identifier hident =>
      rw [queryLength_addNode]
      exact hident.length_le
  | slash _ hident ih =>
      have hle := hident.length_le
      rw [queryLength_addNode, tokensLength_append, tokensLength_append]
      omega

theorem DerivesIdentifier.func_eq (h : DerivesIdentifier ts q q' name) : q'.func = q.func := by
  cases h with
  | word => rfl
  | filters hfilters =>
      induction hfilters with
      | one => exact addFilter_func _ _
      | more _ _ ih => exact (addFilter_func _ _).trans ih

theorem DerivesPath.func_eq (h : DerivesPath ts q q') : q'.func = q.func := by
  induction h with
  | identifier hident => exact (addNode_func _ _).trans hident.func_eq
  | slash _ hident ih => exact (addNode_func _ _).trans (hident.func_eq.trans ih)

theorem length_ge_of_strEq {s : List UInt8} {string : String} (h : strEq s (bytesOf string) = true) :
    (cString (bytesOf string)).length ≤ s.length := by
  rw [strEq, beq_iff_eq] at h
  rw [← h]
  exact (List.takeWhile_prefix _).length_le

theorem length_of_createOp (h : getFunctionType name = .createOp) : 6 ≤ name.length := by
  rw [getFunctionType] at h
  split_ifs at h with hupdate hcreate
  exact length_ge_of_strEq hcreate

theorem DerivesQuery.length_le (h : DerivesQuery ts q q') (hfunc : q.func ≠ .createOp) (hcreate : q'.func = .createOp) :
    queryLength q' + 9 ≤ queryLength q + tokensLength ts := by
  cases h with
  | empty => exact absurd hcreate hfunc
  | operation hop =>
      cases hop with
      | path hpath =>
          rw [hpath.func_eq] at hcreate
          exact absurd hcreate hfunc
      | functionCall hcall =>
          cases hcall with
          | call hname hpath =>
              have hle := hpath.length_le
              have hsix := length_of_createOp hcreate
              cases hname
              rw [tokensLength_append, tokensLength_append, tokensLength_append, tokensLength_append]
              refine Nat.le_trans (Nat.add_le_add_right hle 9) ?_
              change _ + 9 ≤ _ + (List.length _ + 0 + (1 + 0) + _ + (1 + 0) + (1 + 0))
              omega

end Lengths

section Texts

variable {filters : List FilterExpr} {fileInfo fileInfo' : FileInfo} {text name : List UInt8}
  {nullText : Option (List UInt8)} {attrId : FileInfoAttributes} {e : Fault}

def bufferOverflow : Fault := .undefined "text longer than its buffer"

def fileInfoLength (fileInfo : FileInfo) : Nat :=
  fieldLength fileInfo.name + fieldLength fileInfo.owner + fieldLength fileInfo.accessTime +
    fieldLength fileInfo.mimeType

def shownLength (nullText : Option (List UInt8)) (fileInfo : FileInfo) : Nat :=
  fileInfoLength (FileInfo.shown nullText fileInfo)

theorem shownLength_set (nullText : Option (List UInt8)) (fileInfo : FileInfo) (attr : FileInfoAttributes)
    (value : List UInt8) :
    shownLength nullText (fileInfoSetAttribute fileInfo attr value) ≤ shownLength nullText fileInfo + value.length := by
  cases attr <;>
    simp only [shownLength, FileInfo.shown, fileInfoLength, fileInfoSetAttribute, fieldLength, Option.some_or,
      Option.map_some, Option.getD_some] <;>
    omega

theorem shownLength_first (attr : FileInfoAttributes) (value : List UInt8) :
    shownLength nullText (fileInfoSetAttribute ⟨none, none, none, none⟩ attr value) =
      value.length + 3 * fieldLength nullText := by
  cases attr <;>
    simp only [shownLength, FileInfo.shown, fileInfoLength, fileInfoSetAttribute, fieldLength, Option.some_or,
      Option.none_or, Option.map_some, Option.getD_some] <;>
    omega

theorem fileInfoToString_length (h : fileInfoToString fileInfo = .ok text) :
    text.length = fileInfoLength fileInfo + 3 := by
  obtain ⟨name, owner, accessTime, mimeType⟩ := fileInfo
  cases name <;> cases owner <;> cases accessTime <;> cases mimeType <;> cases h
  simp only [List.length_append, fileInfoLength, fieldLength, Option.map_some, Option.getD_some]
  change _ + 1 + _ + 1 + _ + 1 + _ = _
  omega

theorem elementString_length {element : Option Element} (h : elementString element = .ok text) :
    text.length = elementLength element := by
  rcases element with _ | value
  · cases h
  · cases value <;> cases h
    rfl

theorem attributeName_length (h : fileInfoAttributeFromString name = .ok attrId) : 4 ≤ name.length := by
  rw [fileInfoAttributeFromString] at h
  split_ifs at h with hname howner haccessTime hmimeType
  · exact length_ge_of_strEq hname
  · exact Nat.le_trans (by decide) (length_ge_of_strEq howner)
  · exact Nat.le_trans (by decide) (length_ge_of_strEq haccessTime)
  · exact Nat.le_trans (by decide) (length_ge_of_strEq hmimeType)

theorem setAttributes_cons_ok {expr : FilterExpr} (h : setAttributes (expr :: filters) fileInfo = .ok fileInfo') :
    ∃ attrId value, value.length + 8 ≤ filterLength expr ∧
      setAttributes filters (fileInfoSetAttribute fileInfo attrId value) = .ok fileInfo' := by
  rw [setAttributes] at h
  by_cases htype : expr.type = .selectByLogicalOp
  case neg =>
    rw [if_pos htype] at h
    cases h
  rw [if_neg (not_not_intro htype)] at h
  by_cases hoperation : expr.operation = .equalsOp
  case neg =>
    rw [if_pos hoperation] at h
    cases h
  rw [if_neg (not_not_intro hoperation)] at h
  obtain ⟨name, hname, h⟩ := partial_bind_eq_ok.mp h
  obtain ⟨attrId, hattr, h⟩ := partial_bind_eq_ok.mp h
  obtain ⟨value, hvalue, h⟩ := partial_bind_eq_ok.mp h
  refine ⟨attrId, value, ?_, h⟩
  have hleft : fieldLength expr.left = name.length := by
    cases hexpr : expr.left with
    | none =>
        rw [hexpr] at hname
        cases hname
    | some left =>
        rw [hexpr] at hname
        cases hname
        rfl
  have hfour := attributeName_length hattr
  rw [filterLength, if_pos htype, elementString_length hvalue, hleft]
  omega

theorem setAttributes_length (nullText : Option (List UInt8)) (h : setAttributes filters fileInfo = .ok fileInfo') :
    shownLength nullText fileInfo' + 8 * filters.length ≤ shownLength nullText fileInfo + filtersLength filters := by
  induction filters generalizing fileInfo with
  | nil =>
      cases h
      exact Nat.le_refl _
  | cons expr filters ih =>
      obtain ⟨attrId, value, hvalue, hrest⟩ := setAttributes_cons_ok h
      have hle := ih hrest
      have hset := shownLength_set nullText fileInfo attrId value
      change _ + 8 * (filters.length + 1) ≤ _ + (filterLength expr + filtersLength filters)
      omega

theorem derefArg_error {α : Type} {arg : Option α} (h : derefArg arg = .error e) : e ≠ bufferOverflow := by
  cases arg with
  | none =>
      cases h
      simp [bufferOverflow]
  | some a => cases h

theorem elementString_error {element : Option Element} (h : elementString element = .error e) :
    e ≠ bufferOverflow := by
  rcases element with _ | value
  · cases h
    simp [bufferOverflow]
  · cases value <;> cases h <;> simp [bufferOverflow]

theorem fileInfoAttributeFromString_error (h : fileInfoAttributeFromString name = .error e) : e ≠ bufferOverflow := by
  rw [fileInfoAttributeFromString] at h
  split_ifs at h
  cases h
  simp [bufferOverflow]

theorem fileInfoToString_error (h : fileInfoToString fileInfo = .error e) : e ≠ bufferOverflow := by
  obtain ⟨name, owner, accessTime, mimeType⟩ := fileInfo
  cases name <;> cases owner <;> cases accessTime <;> cases mimeType <;> cases h <;> simp [bufferOverflow]

theorem setAttributes_error (h : setAttributes filters fileInfo = .error e) : e ≠ bufferOverflow := by
  induction filters generalizing fileInfo with
  | nil => cases h
  | cons expr filters ih =>
      rw [setAttributes] at h
      by_cases htype : expr.type = .selectByLogicalOp
      case neg =>
        rw [if_pos htype] at h
        cases h
        simp [bufferOverflow]
      rw [if_neg (not_not_intro htype)] at h
      by_cases hoperation : expr.operation = .equalsOp
      case neg =>
        rw [if_pos hoperation] at h
        cases h
        simp [bufferOverflow]
      rw [if_neg (not_not_intro hoperation)] at h
      obtain hname | ⟨name, _, h⟩ := partial_bind_eq_error.mp h
      · exact derefArg_error hname
      obtain hattr | ⟨attrId, _, h⟩ := partial_bind_eq_error.mp h
      · exact fileInfoAttributeFromString_error hattr
      obtain hvalue | ⟨value, _, h⟩ := partial_bind_eq_error.mp h
      · exact elementString_error hvalue
      exact ih h

/-- The text for a new node, before it is put into a buffer. -/
def argsText (nullText : Option (List UInt8)) (filters : List FilterExpr) : Except Fault (List UInt8) := do
  let filter ← assertArgNotNull filters.head? "filters"
  if filters.length = 1 then elementString filter.right
  else do
    let fileInfo ← setAttributes filters ⟨none, none, none, none⟩
    fileInfoToString (FileInfo.shown nullText fileInfo)

/-- A text is at most five bytes longer than what is written for it, when there is a text of six bytes
for each of three attributes that are not given. -/
theorem argsText_length (hnull : fieldLength nullText ≤ 6) (h : argsText nullText filters = .ok text) :
    text.length ≤ filtersLength filters + 5 := by
  obtain ⟨filter, hfilter, h⟩ := partial_bind_eq_ok.mp h
  cases filters with
  | nil => cases hfilter
  | cons expr filters =>
      cases hfilter
      have hcons : filtersLength (filter :: filters) = filterLength filter + filtersLength filters := rfl
      split at h
      · have hlength := elementString_length h
        rw [hcons, filterLength]
        omega
      · rename_i hseveral
        obtain ⟨fileInfo, hset, h⟩ := partial_bind_eq_ok.mp h
        obtain ⟨attrId, value, hvalue, hrest⟩ := setAttributes_cons_ok hset
        have hle := setAttributes_length nullText hrest
        rw [shownLength_first] at hle
        have hlength : text.length = shownLength nullText fileInfo + 3 := fileInfoToString_length h
        rw [List.length_cons] at hseveral
        omega

theorem argsText_error (h : argsText nullText filters = .error e) : e ≠ bufferOverflow := by
  obtain hfilter | ⟨filter, _, h⟩ := partial_bind_eq_error.mp h
  · cases filters with
    | nil =>
        cases hfilter
        simp [bufferOverflow]
    | cons first filters => cases hfilter
  split at h
  · exact elementString_error h
  · obtain hset | ⟨fileInfo, _, h⟩ := partial_bind_eq_error.mp h
    · exact setAttributes_error hset
    · exact fileInfoToString_error h

theorem convertQueryArgsToStringWith_eq (nullText : Option (List UInt8)) (filters : List FilterExpr) :
    convertQueryArgsToStringWith nullText filters = (do
      let text ← argsText nullText filters
      if 256 ≤ text.length then
        throw bufferOverflow
      return text) := by
  rw [convertQueryArgsToStringWith, argsText]
  cases filters with
  | nil => rfl
  | cons filter filters =>
      by_cases hone : (filter :: filters).length = 1
      · simp only [if_pos hone]
        rfl
      · simp only [if_neg hone]
        cases setAttributes (filter :: filters) ⟨none, none, none, none⟩ <;> rfl

end Texts

section Commands

variable {stdin rest command : List UInt8} {commands : List (List UInt8)} {q : Query} {node : ParsedNode}
  {nullText : Option (List UInt8)}

theorem filtersLength_lt (hparse : parserParseCommand command = .ok q) (hcreate : q.func = .createOp)
    (hnode : node ∈ q.nodes) : filtersLength node.filters + 9 ≤ command.length := by
  obtain ⟨ts, hlex, hquery⟩ := (parserParseCommand_derives command q).mp hparse
  have hall : filtersLength node.filters ≤ queryLength q :=
    List.single_le_sum (fun _ _ => Nat.zero_le _) _ (List.mem_map_of_mem hnode)
  have hadd := hquery.length_le (by simp) hcreate
  have hle := tokenLength_sum_le hlex
  have hzero : queryLength ⟨.nop, []⟩ = 0 := rfl
  rw [tokensLength] at hadd
  omega

/-- No create command that the client reads makes a text which its buffer does not hold, or which is too
long for a value, as long as a field that is not set is printed in at most six bytes. -/
theorem createdText_fits (hnull : ∀ text ∈ nullText, text.length ≤ 6) (hreads : ReadsCommands stdin commands rest)
    (hcommand : command ∈ commands) (hparse : parserParseCommand (cString command) = .ok q)
    (hcreate : q.func = .createOp) (hnode : node ∈ q.nodes) :
    convertQueryArgsToStringWith nullText node.filters ≠ .error bufferOverflow ∧
      ∀ text, convertQueryArgsToStringWith nullText node.filters = .ok text →
        ∃ value, nodeValueStringNew text = .ok value := by
  have hlength := hreads.length_le command hcommand
  have hcut : (cString command).length ≤ command.length := (List.takeWhile_prefix _).length_le
  have hfilters := filtersLength_lt hparse hcreate hnode
  have hsix : fieldLength nullText ≤ 6 := by
    cases nullText with
    | none => exact Nat.zero_le _
    | some text => exact hnull text rfl
  have hshort {text : List UInt8} (htext : argsText nullText node.filters = .ok text) : text.length < 256 := by
    have hle := argsText_length hsix htext
    omega
  rw [convertQueryArgsToStringWith_eq]
  constructor
  · intro h
    obtain hargs | ⟨text, htext, h⟩ := partial_bind_eq_error.mp h
    · exact argsText_error hargs rfl
    · rw [if_neg (hshort htext).not_ge] at h
      cases h
  · intro text h
    obtain ⟨text', htext, h⟩ := partial_bind_eq_ok.mp h
    rw [if_neg (hshort htext).not_ge] at h
    cases h
    have hle : (cString text).length ≤ text.length := (List.takeWhile_prefix _).length_le
    have hfits := hshort htext
    exact ⟨_, if_neg (by omega)⟩

/-- A node with two attributes. What is printed for the others is not part of the command. -/
theorem createdText_fits_value :
    ∃ q node, parserParseCommand (cString (bytesOf "create(a[@name=b][@owner=c])\n")) = .ok q ∧ node ∈ q.nodes ∧
      convertQueryArgsToStringWith (some (bytesOf "(null)")) node.filters = .ok (bytesOf "b c (null) (null)") ∧
      ∃ value, nodeValueStringNew (bytesOf "b c (null) (null)") = .ok value := by
  have hreads : ReadsCommands (bytesOf "create(a[@name=b][@owner=c])\n") [bytesOf "create(a[@name=b][@owner=c])\n"] [] :=
    .cons (by decide) .nil
  let node : ParsedNode := ⟨bytesOf "a", [createFilter (bytesOf "name") 0 (.string (bytesOf "b")),
    createFilter (bytesOf "owner") 0 (.string (bytesOf "c"))]⟩
  have hparse : parserParseCommand (cString (bytesOf "create(a[@name=b][@owner=c])\n")) = .ok ⟨.createOp, [node]⟩ := by
    decide +kernel
  have htext : convertQueryArgsToStringWith (some (bytesOf "(null)")) node.filters =
      .ok (bytesOf "b c (null) (null)") := by decide +kernel
  exact ⟨_, node, hparse, List.mem_cons_self, htext, (createdText_fits (by decide) hreads List.mem_cons_self hparse rfl
    List.mem_cons_self).2 _ htext⟩

end Commands

end DocumentDb.Client
