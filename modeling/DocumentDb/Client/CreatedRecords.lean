import DocumentDb.Client.FieldReads
import DocumentDb.Client.Queries
import DocumentDb.Server.AttributeFilters

namespace DocumentDb.Client

open Documents Rpc Server

section Printing

/-- The fields as they are printed by a library that has a text for the null pointer. Where
it has none, `%s` is not defined for a field that is not set. -/
def FileInfo.shown (nullText : Option (List UInt8)) (fileInfo : FileInfo) : FileInfo :=
  ⟨fileInfo.name.or nullText, fileInfo.owner.or nullText, fileInfo.accessTime.or nullText, fileInfo.mimeType.or nullText⟩

/-- `convert_query_args_to_string` with such a library. -/
def convertQueryArgsToStringWith (nullText : Option (List UInt8)) (filters : List FilterExpr) :
    Except Fault (List UInt8) := do
  let filter ← assertArgNotNull filters.head? "filters"
  let text ←
    if filters.length = 1 then elementString filter.right
    else do
      let fileInfo ← setAttributes filters ⟨none, none, none, none⟩
      fileInfoToString (FileInfo.shown nullText fileInfo)
  if 256 ≤ text.length then
    throw (.undefined "text longer than its buffer")
  return text

theorem shown_none (fileInfo : FileInfo) : FileInfo.shown none fileInfo = fileInfo := by simp [FileInfo.shown]

theorem field_shown (nullText : Option (List UInt8)) (fileInfo : FileInfo) (attr : FileInfoAttributes) :
    (FileInfo.shown nullText fileInfo).field attr = (fileInfo.field attr).or nullText := by
  cases attr <;> rfl

theorem convertQueryArgsToStringWith_none : convertQueryArgsToStringWith none = convertQueryArgsToString := by
  funext filters
  simp only [convertQueryArgsToStringWith, convertQueryArgsToString, shown_none]

end Printing

section Attributes

variable {filters : List AttributeFilter} {filter : AttributeFilter} {attr : FileInfoAttributes} {fileInfo : FileInfo}
  {text : List UInt8}

structure NewAttributes (filters : List AttributeFilter) : Prop where
  ne_nil : filters ≠ []
  equals : ∀ filter ∈ filters, filter.op = 0
  distinct : (filters.map AttributeFilter.attr).Nodup

def wordOf (filters : List AttributeFilter) (attr : FileInfoAttributes) : Option (List UInt8) :=
  (filters.find? fun filter => filter.attr = attr).map AttributeFilter.word

theorem wordOf_of_mem (hdistinct : (filters.map AttributeFilter.attr).Nodup) (hfilter : filter ∈ filters) :
    wordOf filters filter.attr = some filter.word := by
  induction filters with
  | nil => cases hfilter
  | cons first filters ih =>
      obtain ⟨hfirst, hrest⟩ := List.nodup_cons.mp hdistinct
      rw [wordOf, List.find?_cons]
      rcases List.mem_cons.mp hfilter with rfl | hmem
      · simp
      · have hne : first.attr ≠ filter.attr := by
          intro heq
          exact hfirst (heq ▸ List.mem_map_of_mem hmem)
        simp only [hne, decide_false]
        exact ih hrest hmem

theorem isField_wordOf (h : wordOf filters attr = some text) : IsField text := by
  obtain ⟨filter, _, rfl⟩ := Option.map_eq_some_iff.mp h
  exact filter.isWord.isField

def setFilter (fileInfo : FileInfo) (filter : AttributeFilter) : FileInfo :=
  fileInfoSetAttribute fileInfo filter.attr filter.word

theorem field_setFilter (attr : FileInfoAttributes) :
    (setFilter fileInfo filter).field attr = if filter.attr = attr then some filter.word else fileInfo.field attr := by
  rw [setFilter]
  cases attr <;> cases filter.attr <;> rfl

theorem field_foldl_setFilter (hdistinct : (filters.map AttributeFilter.attr).Nodup) (attr : FileInfoAttributes) :
    (filters.foldl setFilter fileInfo).field attr = (wordOf filters attr).or (fileInfo.field attr) := by
  induction filters generalizing fileInfo with
  | nil => rfl
  | cons filter filters ih =>
      obtain ⟨hfirst, hrest⟩ := List.nodup_cons.mp hdistinct
      rw [List.foldl_cons, ih hrest, field_setFilter, wordOf, wordOf, List.find?_cons]
      by_cases hattr : filter.attr = attr
      · -- No later filter sets the attribute again.
        have hnone : filters.find? (fun filter => filter.attr = attr) = none := by
          apply List.find?_eq_none.mpr
          intro other hother heq
          exact hfirst (hattr ▸ of_decide_eq_true heq ▸ List.mem_map_of_mem hother)
        simp [hattr, hnone]
      · simp [hattr]

theorem fileInfoAttributeFromString_attributeText (attr : FileInfoAttributes) :
    fileInfoAttributeFromString (attributeText attr) = .ok attr := by
  cases attr <;> rfl

theorem setAttributes_exprs (hequals : ∀ filter ∈ filters, filter.op = 0) :
    setAttributes (filters.map AttributeFilter.expr) fileInfo = .ok (filters.foldl setFilter fileInfo) := by
  induction filters generalizing fileInfo with
  | nil => rfl
  | cons filter filters ih =>
      obtain ⟨hop, hrest⟩ := List.forall_mem_cons.mp hequals
      rw [List.map_cons, setAttributes, List.foldl_cons, ← ih hrest]
      simp only [AttributeFilter.expr, createFilter, hop, derefArg, elementString, bind, Except.bind,
        fileInfoAttributeFromString_attributeText]
      rfl

end Attributes

section Strings

variable {filters : List AttributeFilter} {nullText : Option (List UInt8)} {fileInfo : FileInfo} {text : List UInt8}

def printed (nullText : Option (List UInt8)) (filters : List AttributeFilter) (attr : FileInfoAttributes) :
    Option (List UInt8) := (wordOf filters attr).or nullText

theorem isField_printed (hnull : ∀ text ∈ nullText, IsField text) {attr : FileInfoAttributes}
    (h : printed nullText filters attr = some text) : IsField text := by
  rcases Option.or_eq_some_iff.mp h with hword | ⟨_, htext⟩
  · exact isField_wordOf hword
  · exact hnull text htext

theorem fileInfoToString_fields (record : FileRecord)
    (hfields : ∀ attr, fileInfo.field attr = some (record.field attr)) :
    fileInfoToString fileInfo = .ok record.text := by
  obtain ⟨name, owner, accessTime, mimeType⟩ := fileInfo
  have hname : name = some (record.field .name) := hfields .name
  have howner : owner = some (record.field .owner) := hfields .owner
  have haccessTime : accessTime = some (record.field .accessTime) := hfields .accessTime
  have hmimeType : mimeType = some (record.field .mimeType) := hfields .mimeType
  subst hname howner haccessTime hmimeType
  simp [fileInfoToString, FileRecord.text, bytesOf]
  rfl

theorem field_of_fileInfoToString (h : fileInfoToString fileInfo = .ok text) (attr : FileInfoAttributes) :
    ∃ field, fileInfo.field attr = some field := by
  unfold fileInfoToString at h
  split at h
  · cases attr <;> exact ⟨_, rfl⟩
  · cases h

theorem convertQueryArgsToStringWith_one (nullText : Option (List UInt8)) (filter : AttributeFilter) :
    convertQueryArgsToStringWith nullText [filter.expr] = .ok text ↔ filter.word.length < 256 ∧ text = filter.word := by
  rw [convertQueryArgsToStringWith]
  simp only [List.head?_cons, assertArgNotNull, List.length_singleton, if_true, AttributeFilter.expr, createFilter,
    elementString, bind, Except.bind]
  by_cases hlength : 256 ≤ filter.word.length
  · simp [hlength, throw, throwThe, MonadExceptOf.throw]
  · have hshort := Nat.lt_of_not_le hlength
    simp [hlength, hshort, pure, Except.pure, eq_comm]

theorem convertQueryArgsToStringWith_several (h : NewAttributes filters) (hseveral : filters.length ≠ 1)
    (hnull : ∀ text ∈ nullText, IsField text) (text : List UInt8) :
    convertQueryArgsToStringWith nullText (filters.map AttributeFilter.expr) = .ok text ↔
      ∃ record : FileRecord, (∀ attr, printed nullText filters attr = some (record.field attr)) ∧
        record.text.length < 256 ∧ text = record.text := by
  obtain ⟨first, hfirst⟩ : ∃ first, (filters.map AttributeFilter.expr).head? = some first := by
    obtain ⟨filter, rest, rfl⟩ := List.exists_cons_of_ne_nil h.ne_nil
    exact ⟨_, rfl⟩
  obtain ⟨shown, hshown⟩ : ∃ shown, shown = FileInfo.shown nullText (filters.foldl setFilter ⟨none, none, none, none⟩) :=
    ⟨_, rfl⟩
  have hfield : ∀ attr, shown.field attr = printed nullText filters attr := by
    intro attr
    have hempty : (⟨none, none, none, none⟩ : FileInfo).field attr = none := by cases attr <;> rfl
    rw [hshown, field_shown, field_foldl_setFilter h.distinct, hempty, Option.or_none, printed]
  have hconvert : convertQueryArgsToStringWith nullText (filters.map AttributeFilter.expr) = (do
      let text ← fileInfoToString shown
      if 256 ≤ text.length then throw (.undefined "text longer than its buffer")
      return text) := by
    rw [convertQueryArgsToStringWith, hfirst, List.length_map, setAttributes_exprs h.equals, hshown]
    simp only [assertArgNotNull, if_neg hseveral]
    rfl
  rw [hconvert]
  constructor
  · intro htext
    cases hprint : fileInfoToString shown with
    | error e => simp [hprint, bind, Except.bind] at htext
    | ok all =>
        have hfields := field_of_fileInfoToString hprint
        choose fields hfields using hfields
        have hrecord : ∀ attr, IsField (fields attr) := by
          intro attr
          apply isField_printed hnull
          rw [← hfield, hfields]
        have hall := fileInfoToString_fields ⟨fields, hrecord⟩ hfields
        rw [hprint] at hall
        cases hall
        simp only [hprint, bind, Except.bind] at htext
        split_ifs at htext with hlength
        cases htext
        exact ⟨⟨fields, hrecord⟩, fun attr => by rw [← hfield, hfields], Nat.lt_of_not_le hlength, rfl⟩
  · rintro ⟨record, hrecord, hlength, rfl⟩
    have hall : fileInfoToString shown = .ok record.text :=
      fileInfoToString_fields record fun attr => (hfield attr).trans (hrecord attr)
    simp only [hall, bind, Except.bind, if_neg (Nat.not_le.mpr hlength)]
    rfl

end Strings

section Finding

variable {filters : List AttributeFilter} {filter : AttributeFilter} {nullText : Option (List UInt8)}
  {text : List UInt8}

/-- A node with a text is found by every attribute with its word, and by no other value. -/
def FoundBy (filters : List AttributeFilter) (text : List UInt8) : Prop :=
  ∃ value, nodeValueStringNew text = .ok value ∧ ∀ filter ∈ filters, ∀ id parentId v, 0 ∉ v →
    fsNewAttributeCondition (attributeText filter.attr) (.ok v) ⟨id, parentId, value⟩ = .ok (decide (v = filter.word))

theorem foundBy_of_fields (hzero : 0 ∉ text) (hlength : text.length < 256)
    (hfields : ∀ filter ∈ filters, (parseFileInfo text).field filter.attr = some filter.word) :
    FoundBy filters text := by
  have hself := cString_eq_self hzero
  have hvalue : nodeValueStringNew text = .ok (nodeValueOfBytes .string (Bytes.encodeUInt32 text.length ++ text)) := by
    rw [nodeValueStringNew, hself, if_neg (Nat.not_le.mpr hlength)]
  obtain ⟨_, htype, hstring, _⟩ := nodeValueStringNew_ok hvalue
  rw [hself] at hstring
  refine ⟨_, hvalue, ?_⟩
  intro filter hfilter id parentId v hv
  apply (fsNewAttributeCondition_eq_ok (fileInfoAttributeFromString_attributeText filter.attr)).mpr
  refine ⟨filter.word, ⟨htype, text, hstring, hfields filter hfilter⟩, ?_⟩
  rw [strEq, cString_eq_self hv, cString_eq_self filter.isWord.isField.no_zero, beq_eq_decide, decide_eq_decide]
  exact eq_comm

theorem FoundBy.field (h : FoundBy filters text) (hzero : 0 ∉ text) (hfilter : filter ∈ filters) :
    ∃ field, (parseFileInfo text).field filter.attr = some field := by
  obtain ⟨value, hvalue, hfound⟩ := h
  obtain ⟨_, _, hstring, _⟩ := nodeValueStringNew_ok hvalue
  have hword := hfound filter hfilter ⟨0, 0⟩ ⟨0, 0⟩ filter.word filter.isWord.isField.no_zero
  obtain ⟨field, ⟨_, text', htext', hfield⟩, _⟩ :=
    (fsNewAttributeCondition_eq_ok (fileInfoAttributeFromString_attributeText filter.attr)).mp hword
  rw [hstring, cString_eq_self hzero] at htext'
  cases htext'
  exact ⟨field, hfield⟩

theorem parseFileInfo_word {word : List UInt8} (hword : IsField word) :
    parseFileInfo word = ⟨some word, none, none, none⟩ := by
  have hlast := strtok_last hword.ne_nil hword.notMem_blanks
  rw [parseFileInfo]
  simp only [hlast]
  rfl

def printedLength (nullText : Option (List UInt8)) (filters : List AttributeFilter) : Nat :=
  (([.name, .owner, .accessTime, .mimeType].map (printed nullText filters)).map fun field => (field.getD []).length).sum + 3

/-- There is a field for each attribute that fits in the buffer with the others: the
attribute is the name alone, or all four fields have something that is printed. -/
def Storable (nullText : Option (List UInt8)) (filters : List AttributeFilter) : Prop :=
  match filters with
  | [filter] => filter.attr = .name ∧ filter.word.length < 256
  | filters => (∀ attr, printed nullText filters attr ≠ none) ∧ printedLength nullText filters < 256

theorem exists_printed_iff (hnull : ∀ text ∈ nullText, IsField text) :
    (∃ record : FileRecord, (∀ attr, printed nullText filters attr = some (record.field attr)) ∧
        record.text.length < 256) ↔
      (∀ attr, printed nullText filters attr ≠ none) ∧ printedLength nullText filters < 256 := by
  have hlength : ∀ record : FileRecord, (∀ attr, printed nullText filters attr = some (record.field attr)) →
      record.text.length = printedLength nullText filters := by
    intro record hrecord
    simp only [printedLength, List.map_cons, List.map_nil, hrecord, Option.getD_some, List.sum_cons, List.sum_nil,
      FileRecord.text, List.length_append, List.length_cons]
    omega
  constructor
  · rintro ⟨record, hrecord, hshort⟩
    refine ⟨fun attr => ?_, hlength record hrecord ▸ hshort⟩
    rw [hrecord]
    exact Option.some_ne_none _
  · rintro ⟨hsome, hshort⟩
    choose fields hfields using fun attr => Option.ne_none_iff_exists'.mp (hsome attr)
    have hrecord := hlength ⟨fields, fun attr => isField_printed hnull (hfields attr)⟩ hfields
    exact ⟨_, hfields, hrecord ▸ hshort⟩

theorem found_iff_storable (h : NewAttributes filters) (hnull : ∀ text ∈ nullText, IsField text) :
    (∃ text, convertQueryArgsToStringWith nullText (filters.map AttributeFilter.expr) = .ok text ∧ FoundBy filters text) ↔
      Storable nullText filters := by
  match filters, h with
  | [], h => exact absurd rfl h.ne_nil
  | [filter], _ =>
      have hword := filter.isWord.isField
      rw [Storable]
      constructor
      · rintro ⟨text, htext, hfound⟩
        obtain ⟨hlength, rfl⟩ := (convertQueryArgsToStringWith_one nullText filter).mp htext
        obtain ⟨field, hfield⟩ := hfound.field hword.no_zero List.mem_cons_self
        rw [parseFileInfo_word hword] at hfield
        refine ⟨?_, hlength⟩
        cases hattr : filter.attr with
        | name => rfl
        | owner | accessTime | mimeType =>
            rw [hattr] at hfield
            cases hfield
      · rintro ⟨hattr, hlength⟩
        refine ⟨_, (convertQueryArgsToStringWith_one nullText filter).mpr ⟨hlength, rfl⟩, ?_⟩
        apply foundBy_of_fields hword.no_zero hlength
        rw [List.forall_mem_singleton, parseFileInfo_word hword, hattr]
        rfl
  | first :: second :: rest, h =>
      have hstring := convertQueryArgsToStringWith_several h (by simp) hnull
      rw [Storable, ← exists_printed_iff hnull]
      · constructor
        · rintro ⟨text, htext, _⟩
          obtain ⟨record, hrecord, hlength, _⟩ := (hstring text).mp htext
          exact ⟨record, hrecord, hlength⟩
        · rintro ⟨record, hrecord, hlength⟩
          refine ⟨record.text, (hstring _).mpr ⟨record, hrecord, hlength, rfl⟩, ?_⟩
          apply foundBy_of_fields record.zero_notMem_text hlength
          intro filter hfilter
          have hword := hrecord filter.attr
          rw [printed, wordOf_of_mem h.distinct hfilter] at hword
          rw [parseFileInfo_text, record.field_fileInfo, ← hword]
          rfl
      · simp

end Finding

section Queries

variable {names texts : List (List UInt8)} {filters : List AttributeFilter} {nullText : Option (List UInt8)}

/-- The filters behind a path are kept for its first node: the path has at most two nodes,
not counting placeholders in front. -/
def FiltersAtHead (names : List (List UInt8)) : Prop :=
  (names.dropLast.dropWhile fun name => name = placeholder).length ≤ 1

instance (names : List (List UInt8)) : Decidable (FiltersAtHead names) := inferInstanceAs (Decidable (_ ≤ 1))

theorem firstFilters_pathQuery (func : FunctionType) {init : List (List UInt8)} (last : List UInt8)
    {filters : List FilterExpr} (hwords : ∀ s ∈ init, IsWord s) (hne : filters ≠ []) :
    firstFilters { pathQuery init filters last with func := func } =
      if (init.dropWhile fun name => name = placeholder).length ≤ 1 then filters else [] := by
  induction init with
  | nil =>
      rw [pathQuery_one hne]
      rfl
  | cons s init ih =>
      obtain ⟨hs, hinit⟩ := List.forall_mem_cons.mp hwords
      by_cases hplaceholder : s = placeholder
      · subst hplaceholder
        rw [pathQuery_placeholder hne, ih hinit]
        simp
      · have hstr : strEq s placeholder = false := by rw [hs.strEq_placeholder, decide_eq_false hplaceholder]
        obtain ⟨front, back, hnames, hfront, hback, hquery⟩ := pathQuery_longer hstr init filters last
        have hlength := congrArg List.length hnames
        rw [hquery, List.dropWhile_cons_of_neg (by simpa using hplaceholder)]
        cases front with
        | nil =>
            have hinit : init = [] := by simpa using hlength
            subst hinit
            exact hback
        | cons node front =>
            have hlong : ¬(s :: init).length ≤ 1 := by
              simp only [List.length_map, List.length_append, List.length_cons, List.length_nil] at hlength ⊢
              omega
            rw [if_neg hlong]
            exact hfront node List.mem_cons_self

def Found (nullText : Option (List UInt8)) (command : List UInt8) (filters : List AttributeFilter) : Prop :=
  ∃ query text, parserParseCommand command = .ok query ∧
    convertQueryArgsToStringWith nullText (firstFilters query) = .ok text ∧ FoundBy filters text

/-- A new node is found by the attributes that it was created with exactly when they are
kept for the first node of the path and their text is storable. -/
theorem created_found_iff (hnull : ∀ text ∈ nullText, IsField text) (hne : names ≠ []) (hwords : ∀ s ∈ names, IsWord s)
    (h : NewAttributes filters) (hfilters : List.Forall₂ FilterText texts (filters.map AttributeFilter.expr)) :
    Found nullText (commandText .createOp (pathText names ++ texts.flatten)) filters ↔
      FiltersAtHead names ∧ Storable nullText filters := by
  obtain ⟨init, last, rfl⟩ : ∃ init last, names = init ++ [last] :=
    ⟨_, _, (List.dropLast_append_getLast hne).symm⟩
  have hexprs : filters.map AttributeFilter.expr ≠ [] := by simpa using h.ne_nil
  have hfirst := firstFilters_pathQuery .createOp last (fun s hs => hwords s (List.mem_append_left _ hs)) hexprs
  rw [Found, parse_command .createOp init last hwords hfilters, FiltersAtHead, List.dropLast_concat,
    ← found_iff_storable h hnull]
  by_cases hhead : (init.dropWhile fun name => name = placeholder).length ≤ 1
  · rw [if_pos hhead] at hfirst
    constructor
    · rintro ⟨_, text, ⟨⟩, htext, hfound⟩
      rw [hfirst] at htext
      exact ⟨hhead, text, htext, hfound⟩
    · rintro ⟨_, text, htext, hfound⟩
      exact ⟨_, text, rfl, hfirst.symm ▸ htext, hfound⟩
  · rw [if_neg hhead] at hfirst
    constructor
    · rintro ⟨_, text, ⟨⟩, htext, _⟩
      rw [hfirst] at htext
      cases htext
    · rintro ⟨hhead', _⟩
      exact absurd hhead' hhead

/-- A name and an owner, with a library that prints a text for a null pointer. -/
theorem created_found_iff_two :
    ∃ first second : AttributeFilter, first.attr = .name ∧ second.attr = .owner ∧
      Found (some (bytesOf "(null)"))
        (commandText .createOp (pathText [bytesOf "r"] ++ [bytesOf "[@name=x]", bytesOf "[@owner=me]"].flatten))
        [first, second] := by
  have hr : IsWord (bytesOf "r") := isWord_of_all (by decide) (by decide) (by decide)
  have hx : IsWord (bytesOf "x") := isWord_of_all (by decide) (by decide) (by decide)
  have hme : IsWord (bytesOf "me") := isWord_of_all (by decide) (by decide) (by decide)
  have hnull : ∀ text ∈ some (bytesOf "(null)"), IsField text := by
    rintro _ ⟨⟩
    exact ⟨by decide, by decide, by decide⟩
  have hname : FilterText (bytesOf "[@name=x]") (AttributeFilter.mk .name 0 (bytesOf "x") hx).expr :=
    ⟨⟨_, rfl, .logical rfl⟩, Or.inl rfl⟩
  have howner : FilterText (bytesOf "[@owner=me]") (AttributeFilter.mk .owner 0 (bytesOf "me") hme).expr :=
    ⟨⟨_, rfl, .logical rfl⟩, Or.inl rfl⟩
  have hnew : NewAttributes [⟨.name, 0, bytesOf "x", hx⟩, ⟨.owner, 0, bytesOf "me", hme⟩] :=
    ⟨List.cons_ne_nil _ _, by simp, by simp⟩
  refine ⟨_, _, rfl, rfl, (created_found_iff hnull (List.cons_ne_nil _ []) (List.forall_mem_singleton.mpr hr) hnew
    (.cons hname (.cons howner .nil))).mpr ⟨by decide, ?_, show 18 < 256 by decide⟩⟩
  intro attr
  cases attr <;> exact Option.some_ne_none _

/-- A node that is created with an owner alone has a record of one field, and the server
does not get to the owner. -/
theorem created_owner_lost :
    ∃ filter : AttributeFilter, filter.attr = .owner ∧ filter.word = bytesOf "me" ∧ NewAttributes [filter] ∧
      ∀ nullText, ∃ query value, parserParseCommand (bytesOf "create(r[@owner=me])\n") = .ok query ∧
        convertQueryArgsToStringWith nullText (firstFilters query) = .ok (bytesOf "me") ∧
        nodeValueStringNew (bytesOf "me") = .ok value ∧
        fsNewAttributeCondition (bytesOf "owner") (.ok (bytesOf "me")) ⟨⟨0, 0⟩, ⟨-1, -1⟩, value⟩ =
          .error (.undefined "null string") ∧
        ¬Found nullText (bytesOf "create(r[@owner=me])\n") [filter] := by
  have hme : IsWord (bytesOf "me") := isWord_of_all (by decide) (by decide) (by decide)
  refine ⟨⟨.owner, 0, bytesOf "me", hme⟩, rfl, rfl, ⟨List.cons_ne_nil _ _, by simp, by simp⟩, ?_⟩
  intro nullText
  have hparse : parserParseCommand (bytesOf "create(r[@owner=me])\n") =
      .ok ⟨.createOp, [⟨bytesOf "r", [createFilter (bytesOf "owner") 0 (.string (bytesOf "me"))]⟩]⟩ := (rfl)
  have hstring : convertQueryArgsToStringWith nullText [createFilter (bytesOf "owner") 0 (.string (bytesOf "me"))] =
      .ok (bytesOf "me") := (rfl)
  obtain ⟨value, hvalue⟩ : ∃ value, nodeValueStringNew (bytesOf "me") = .ok value := ⟨_, rfl⟩
  refine ⟨_, value, hparse, hstring, hvalue, ?_, ?_⟩
  · obtain ⟨_, htype, htext, _⟩ := nodeValueStringNew_ok hvalue
    rw [fsNewAttributeCondition]
    simp only [htype, ne_eq, not_true_eq_false, if_false, htext]
    rfl
  · rintro ⟨query, text, hquery, htext, hfound⟩
    rw [hparse] at hquery
    cases hquery
    have hme' : text = bytesOf "me" := Except.ok.inj (htext.symm.trans hstring)
    subst hme'
    obtain ⟨field, hfield⟩ := hfound.field (by decide) List.mem_cons_self
    rw [parseFileInfo_word hme.isField] at hfield
    cases hfield

end Queries

end DocumentDb.Client
