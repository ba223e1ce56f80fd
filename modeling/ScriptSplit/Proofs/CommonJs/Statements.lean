import ScriptSplit.Proofs.CommonJs.Clause
import ScriptSplit.Proofs.CommonJs.Scan
import ScriptSplit.Proofs.Link.Inserted

/-!
# Statements of modules and what takes their places

Every recogniser of the CommonJS form finds lines that begin with `import` or with `export` alone. An import of one name
gives its place to a `require`, and an export list goes, line feed and all.
-/

namespace ScriptSplit

open Text (Keyed OpensNoLine Recogniser Scans Unbroken atLineStart isIndent isName skipBlanks)

namespace CommonJs

variable {text rest : Text} {word : String}

/-! ## What recognisers look for -/

theorem prefix_of_afterWord? (h : Text.afterWord? word text = some rest) : word.toList <+: text := by
  unfold Text.afterWord? at h
  split at h
  · next hword => exact List.isPrefixOf_iff_prefix.1 hword
  · cases h

theorem prefix_of_afterKeywords? {keywords : List String}
    (h : afterKeywords? (word :: keywords) text = some rest) : word.toList <+: text := by
  simp only [afterKeywords?, List.foldlM_cons, Option.bind_eq_bind, Option.bind_eq_some_iff] at h
  obtain ⟨-, ⟨_, hword, -⟩, -⟩ := h
  exact prefix_of_afterWord? hword

theorem lineFind_eq_some {α : Type} {find : Text → Text → Option (α × Text)} {before : Option Char}
    {found : α × Nat} : lineFind find before text = some found ↔ atLineStart before = true ∧
      ∃ value after, find (text.takeWhile isIndent) (text.dropWhile isIndent) = some (value, after) ∧
        (value, text.length - after.length) = found := by
  unfold lineFind
  by_cases hbefore : atLineStart before = true <;> simp [hbefore, guard, Option.bind_eq_some_iff]

theorem keyed_lineFind {α : Type} {find : Text → Text → Option (α × Text)}
    (hfind : ∀ {indent rest found}, find indent rest = some found → word.toList <+: rest) :
    Keyed word (lineFind find) where
  atLineStart h := (lineFind_eq_some.1 h).1
  opens h := by
    obtain ⟨-, value, after, hfound, -⟩ := lineFind_eq_some.1 h
    exact hfind hfound

theorem keyed_defaultExport : Keyed "export" defaultExport := by
  apply keyed_lineFind
  intro indent rest found hfound
  simp only [Option.bind_eq_bind, Option.bind_eq_some_iff] at hfound
  obtain ⟨_, hword, -⟩ := hfound
  exact prefix_of_afterKeywords? hword

theorem keyed_inlineExport : Keyed "export" inlineExport := by
  apply keyed_lineFind
  intro indent rest found hfound
  simp only [Option.bind_eq_bind, Option.bind_eq_some_iff] at hfound
  obtain ⟨_, hword, -⟩ := hfound
  exact prefix_of_afterKeywords? hword

theorem keyed_namedImport : Keyed "import" namedImport := by
  apply keyed_lineFind
  intro indent rest found hfound
  simp only [Option.bind_eq_bind, Option.bind_eq_some_iff] at hfound
  obtain ⟨_, hword, -⟩ := hfound
  exact prefix_of_afterWord? hword

theorem keyed_exportList : Keyed "export" exportList := by
  apply keyed_lineFind
  intro indent rest found hfound
  simp only [Option.bind_eq_bind, Option.bind_eq_some_iff] at hfound
  obtain ⟨_, hword, -⟩ := hfound
  exact prefix_of_afterWord? hword

/-! ## Words in their places -/

theorem lineFind_word {α : Type} (find : Text → Text → Option (α × Text)) (hword : isName word.toList = true)
    {before : Option Char} (hbefore : atLineStart before = true) (rest : Text) :
    lineFind find before (word.toList ++ rest) = (find [] (word.toList ++ rest)).map fun (value, after) =>
      (value, (word.toList ++ rest).length - after.length) := by
  have hdrop := Text.dropWhile_isIndent_word hword rest
  have htake : (word.toList ++ rest).takeWhile isIndent = [] := by
    have hboth := List.takeWhile_append_dropWhile (p := isIndent) (l := word.toList ++ rest)
    rwa [hdrop, List.append_left_eq_self] at hboth
  simp [lineFind, hbefore, guard, hdrop, htake, Option.map_eq_bind]

theorem lineFind_eq_none {α : Type} {find : Text → Text → Option (α × Text)} (hword : isName word.toList = true)
    (hnone : find [] (word.toList ++ rest) = none) (before : Option Char) :
    lineFind find before (word.toList ++ rest) = none := by
  by_cases hbefore : atLineStart before = true
  · rw [lineFind_word find hword hbefore, hnone]
    rfl
  · simp [lineFind, hbefore, guard]

theorem afterWord?_of_head {first c : Char} (hne : first ≠ c) {others : Text}
    (hword : word.toList = first :: others) (rest : Text) :
    Text.afterWord? word (c :: rest) = none := by
  rw [Text.afterWord?, hword, Text.not_isPrefixOf_of_head hne, if_neg Bool.false_ne_true]

theorem afterKeywords?_append (word : String) (keywords : List String) {c : Char}
    (hc : Text.isBlank c = false) (rest : Text) :
    afterKeywords? (word :: keywords) (word.toList ++ ' ' :: c :: rest) =
      afterKeywords? keywords (c :: rest) := by
  have hspace : Text.isBlank ' ' = true := by decide
  simp only [afterKeywords?, List.foldlM_cons, Text.afterWord?_append, Option.bind_eq_bind,
    Option.bind_some, Text.afterBlanks?, hspace, if_true, Text.skipBlanks_cons hc]

theorem afterKeywords?_of_head {first c : Char} (hne : first ≠ c) {others : Text}
    (hword : word.toList = first :: others) (keywords : List String) (rest : Text) :
    afterKeywords? (word :: keywords) (c :: rest) = none := by
  simp [afterKeywords?, afterWord?_of_head hne hword]

theorem startsWithWord_of_head {first c : Char} (hne : first ≠ c) {others : Text}
    (hword : word.toList = first :: others) (rest : Text) :
    Text.startsWithWord word (c :: rest) = false := by
  rw [Text.startsWithWord, afterWord?_of_head hne hword]

theorem bracedList?_space (text : Text) : bracedList? (' ' :: text) = bracedList? text := by
  rw [bracedList?, Text.skipBlanks_space, bracedList?]

/-! ## Export lists -/

theorem exportStatement_toList (names : List String) : (exportStatement names).toList =
    "export".toList ++ ' ' :: (braces (names.map String.toList) ++ [';']) := by
  have hbraces := braces_toList names
  rw [exportStatement]
  simp only [String.toList_append] at hbraces ⊢
  rw [← hbraces]
  simp

theorem exists_exportStatement (names : List String) (rest : Text) : ∃ list,
    (exportStatement names).toList ++ rest = "export".toList ++ ' ' :: '\x7b' :: list := by
  rw [exportStatement_toList, List.append_assoc]
  exact ⟨_, rfl⟩

variable (names : List String) (before : Option Char) (rest : Text)

theorem defaultExport_exportStatement : defaultExport before ((exportStatement names).toList ++ rest) = none := by
  obtain ⟨list, hlist⟩ := exists_exportStatement names rest
  rw [hlist]
  refine lineFind_eq_none (by decide) ?_ before
  have hnone : afterKeywords? ["export", "default"] ("export".toList ++ ' ' :: '\x7b' :: list) = none := by
    rw [afterKeywords?_append _ _ (by decide), afterKeywords?_of_head (by decide) rfl]
  rw [Option.bind_eq_bind, hnone, Option.bind_none]

theorem startsDeclaration_brace (list : Text) : startsDeclaration ('\x7b' :: list) = false := by
  have hasync : skipAsync ('\x7b' :: list) = '\x7b' :: list := by
    rw [skipAsync, afterKeywords?_of_head (by decide) rfl, Option.getD_none]
  have hnone : ∀ word ∈ ["function", "class", "const", "let", "var"],
      Text.startsWithWord word ('\x7b' :: list) = false := by
    simp only [List.forall_mem_cons, List.not_mem_nil, false_implies, implies_true, and_true]
    refine ⟨?_, ?_, ?_, ?_, ?_⟩ <;> exact startsWithWord_of_head (by decide) rfl list
  simp only [List.forall_mem_cons, List.not_mem_nil, false_implies, implies_true, and_true] at hnone
  simp [startsDeclaration, hasync, hnone]

theorem inlineExport_exportStatement : inlineExport before ((exportStatement names).toList ++ rest) = none := by
  obtain ⟨list, hlist⟩ := exists_exportStatement names rest
  rw [hlist]
  refine lineFind_eq_none (by decide) ?_ before
  have hrest : afterKeywords? ["export"] ("export".toList ++ ' ' :: '\x7b' :: list) = some ('\x7b' :: list) := by
    rw [afterKeywords?_append _ _ (by decide)]
    rfl
  rw [Option.bind_eq_bind, hrest, Option.bind_some, startsDeclaration_brace]
  rfl

omit names before rest in
theorem exportList_exportStatement {names : List String} (hnames : ∀ name ∈ names, isName name.toList = true) :
    ∃ clause, (∀ before rest, atLineStart before = true →
      exportList before ((exportStatement names).toList ++ '\n' :: rest) =
        some (clause, (exportStatement names).toList.length + 1)) ∧
      Text.commaList clause = names.map String.toList := by
  have hentries : ∀ entry ∈ names.map String.toList, Text.IsEntry entry ∧ '\x7d' ∉ entry := by
    intro entry hentry
    obtain ⟨name, hname, rfl⟩ := List.mem_map.1 hentry
    exact ⟨Text.isEntry_of_isName (hnames name hname), Text.not_mem_of_isName (hnames name hname) (by decide)⟩
  obtain ⟨clause, hclause, hlist⟩ := bracedList?_braces hentries
  refine ⟨clause, fun before rest hbefore => ?_, hlist⟩
  have htext : (exportStatement names).toList ++ '\n' :: rest =
      "export".toList ++ ' ' :: (braces (names.map String.toList) ++ ';' :: '\n' :: rest) := by
    rw [exportStatement_toList]
    simp
  have hfrom : Text.startsWithWord "from" (';' :: '\n' :: rest) = false :=
    startsWithWord_of_head (by decide) rfl _
  have hindent : isIndent ';' = false ∧ isIndent '\n' = false := by decide
  rw [htext, exportList, lineFind_word _ (by decide) hbefore]
  simp only [Text.afterWord?_append, Option.bind_eq_bind, Option.bind_some, bracedList?_space, hclause]
  rw [← htext]
  simp [hindent, hfrom, guard]
  omega

/-! ## Imports -/

def requireStatement (name specifier : String) : String :=
  "const \x7b " ++ name ++ " \x7d = require('" ++ specifier ++ "');"

theorem quotedSpecifier?_append {body : Text} (hne : body ≠ []) (hquotes : '\'' ∉ body ∧ '"' ∉ body)
    (rest : Text) : quotedSpecifier? ('\'' :: (body ++ '\'' :: rest)) = some (body, rest) := by
  have hbody : ∀ c ∈ body, (!(c == '"' || c == '\'')) = true := by
    intro c hc
    have hdouble : c ≠ '"' := fun heq => hquotes.2 (heq ▸ hc)
    have hsingle : c ≠ '\'' := fun heq => hquotes.1 (heq ▸ hc)
    simp [hdouble, hsingle]
  rw [quotedSpecifier?]
  simp only
  rw [List.dropWhile_append_of_pos hbody, List.takeWhile_append_of_pos hbody]
  simp [hne]

theorem destructure_name {clause name : Text} (hclause : Text.commaList clause = [name])
    (hname : isName name = true) : destructure clause = name := by
  rw [destructure, hclause, List.map_singleton, Text.splitAlias?_name hname]
  exact List.intercalate_singleton

/-- An import of a name is found without the line feed behind it and gives its place to a `require` of the same name. -/
theorem namedImport_importStatement {name file : String} (hname : isName name.toList = true)
    (hquotes : '\'' ∉ file.toList ∧ '"' ∉ file.toList) (hbefore : atLineStart before = true) :
    namedImport before ((importStatement name file).toList ++ '\n' :: rest) =
      some ((requireStatement name (requireSpecifier ("./" ++ file))).toList,
        (importStatement name file).toList.length) := by
  have hentries : ∀ entry ∈ [name.toList], Text.IsEntry entry ∧ '\x7d' ∉ entry := by
    simpa using ⟨Text.isEntry_of_isName hname, Text.not_mem_of_isName hname (by decide)⟩
  have htext : (importStatement name file).toList ++ '\n' :: rest =
      "import".toList ++ ' ' :: (braces [name.toList] ++ ' ' :: ("from".toList ++ ' ' ::
        ('\'' :: ("./".toList ++ file.toList ++ '\'' :: ';' :: '\n' :: rest)))) := by
    rw [importStatement_toList]
    simp [braces]
  obtain ⟨clause, hclause, hlist⟩ := bracedList?_braces hentries
  have hfrom : ∀ rest, skipBlanks (' ' :: ("from".toList ++ rest)) = "from".toList ++ rest := by
    intro rest
    rw [Text.skipBlanks_space]
    exact Text.skipBlanks_cons (by decide) _
  have hquote : ∀ rest, skipBlanks (' ' :: '\'' :: rest) = '\'' :: rest := by
    intro rest
    rw [Text.skipBlanks_space]
    exact Text.skipBlanks_cons (by decide) _
  have hspecifier := @quotedSpecifier?_append ("./".toList ++ file.toList) (by simp)
    (by simpa using hquotes) (';' :: '\n' :: rest)
  have hwritten : String.ofList ("./".toList ++ file.toList) = "./" ++ file := by
    rw [← String.toList_append, String.ofList_toList]
  rw [htext, namedImport, lineFind_word _ (by decide) hbefore]
  simp only [Text.afterWord?_append, Option.bind_eq_bind, Option.bind_some, bracedList?_space, hclause,
    hfrom, hquote, hspecifier, hwritten, destructure_name hlist hname]
  rw [← htext]
  refine congrArg some (Prod.ext ?_ ?_)
  · simp [requireStatement, String.toList_append]
  · simp

end CommonJs

end ScriptSplit
