import QuestScript.Proofs.Table
import QuestScript.Proofs.Text.Lines
import QuestScript.Schema.Document
/-!
What a schema document says does not depend on how it is laid out: the lines that describe the
entries are read back with any comments and blanks around them. Reading sees a text only through
its body, the trimmed lines that are neither empty nor comments.
-/

namespace QuestScript.Schema

open QuestScript.Text

def Entry.lines (entry : Entry) : List String :=
  ["[" ++ entry.name ++ "]", "signature = " ++ entry.signature,
    "description = " ++ entry.description]

/-- Whether the lines of an entry can say all of it. The slots do not count, as the signature
tells them. -/
structure Entry.Writable (entry : Entry) : Prop where
  named : entry.name ≠ ""
  own : entry.name ≠ Document.defaultsName
  signed : entry.signature ≠ ""
  described : entry.description ≠ ""
  signatureTrimmed : trimmed entry.signature = entry.signature
  descriptionTrimmed : trimmed entry.description = entry.description
  unbroken : ∀ text ∈ [entry.name, entry.signature, entry.description],
    ∀ c ∈ text.toList, isLineBreak c = false

namespace Document

/-- The second lines lay out the first ones: each with any blanks around it, and any number of
blank lines and comments between them. -/
inductive Laid : List String → List String → Prop
  | nil : Laid [] []
  | blank {contents lines : List String} {line : String}
      (hLine : ∀ c ∈ line.toList, isBlank c = true) (hRest : Laid contents lines) :
      Laid contents (line :: lines)
  | comment {contents lines : List String} {blanks remark : String}
      (hBlanks : ∀ c ∈ blanks.toList, isBlank c = true)
      (hRemark : ∀ c ∈ remark.toList, isLineBreak c = false) (hRest : Laid contents lines) :
      Laid contents ((blanks ++ ";" ++ remark) :: lines)
  | content {contents lines : List String} {before content after : String}
      (hBefore : ∀ c ∈ before.toList, isBlank c = true)
      (hAfter : ∀ c ∈ after.toList, isBlank c = true) (hRest : Laid contents lines) :
      Laid (content :: contents) ((before ++ content ++ after) :: lines)

/-! ### The body of a text -/

/-- The lines of a text that say something, without the blanks around them. -/
def body (text : List Char) : List (List Char) :=
  ((splitLines text).map trim).filter fun line => !isSilent line

theorem body_nil : body [] = [] := rfl

/-- A line break ends an empty line. A line feed behind it adds no more than another one. -/
theorem splitLines_cons_lineBreak {c : Char} (hBreak : isLineBreak c = true) (rest : List Char) :
    ∃ lines, splitLines (c :: rest) = [] :: lines ∧
      (lines.map trim).filter (fun line => !isSilent line) = body rest := by
  by_cases hPair : ∃ more, c = '\r' ∧ rest = '\n' :: more
  · obtain ⟨more, rfl, rfl⟩ := hPair
    exact ⟨splitLines more, rfl, rfl⟩
  · refine ⟨splitLines rest, ?_, rfl⟩
    rw [splitLines]
    · rw [if_pos hBreak]
    · rintro more rfl rfl
      exact hPair ⟨more, rfl, rfl⟩

theorem body_cons_blank {c : Char} (hChar : isBlank c = true) (rest : List Char) :
    body (c :: rest) = body rest := by
  cases hBreak : isLineBreak c with
  | true =>
      obtain ⟨lines, hLines, hBody⟩ := splitLines_cons_lineBreak hBreak rest
      rw [body, hLines, ← hBody]
      rfl
  | false =>
      rw [body, splitLines_cons hBreak, body]
      cases splitLines rest with
      | nil =>
          rw [consLine, List.map_singleton, trim_cons_blank hChar]
          rfl
      | cons line lines => rw [consLine, List.map_cons, List.map_cons, trim_cons_blank hChar]

theorem body_blanks_append {blanks : List Char} (hBlanks : ∀ c ∈ blanks, isBlank c = true)
    (rest : List Char) : body (blanks ++ rest) = body rest := by
  induction blanks with
  | nil => rfl
  | cons c blanks ih =>
      obtain ⟨hChar, hTail⟩ := List.forall_mem_cons.1 hBlanks
      rw [List.cons_append, body_cons_blank hChar, ih hTail]

/-- What a line says, if it says something, comes before what is said behind its break. -/
theorem body_append_lineBreak {line : List Char} (hLine : ∀ c ∈ line, isLineBreak c = false)
    {c : Char} (hBreak : isLineBreak c = true) (rest : List Char) :
    body (line ++ c :: rest) =
      [trim line].filter (fun line => !isSilent line) ++ body rest := by
  obtain ⟨lines, hLines, hBody⟩ := splitLines_cons_lineBreak hBreak rest
  rw [body, splitLines_append hLine hLines, List.append_nil, List.map_cons,
    ← List.singleton_append, List.filter_append, hBody]

/-- The blanks behind a line say nothing, also if they break it. -/
theorem body_append_blanks {line blanks rest : List Char}
    (hLine : ∀ c ∈ line, isLineBreak c = false) (hSome : line ≠ [])
    (hBlanks : ∀ c ∈ blanks, isBlank c = true)
    (hRest : rest = [] ∨ ∃ more, rest = '\n' :: more) :
    body (line ++ (blanks ++ rest)) =
      [trim line].filter (fun line => !isSilent line) ++ body rest := by
  induction blanks generalizing line with
  | nil =>
      rcases hRest with rfl | ⟨more, rfl⟩
      · rw [List.append_nil, List.append_nil, body, splitLines_single hLine hSome, body_nil,
          List.append_nil, List.map_singleton]
      · rw [List.nil_append, body_append_lineBreak hLine (by decide),
          body_cons_blank (by decide)]
  | cons c blanks ih =>
      obtain ⟨hChar, hTail⟩ := List.forall_mem_cons.1 hBlanks
      cases hBreak : isLineBreak c with
      | true =>
          rw [List.cons_append, body_append_lineBreak hLine hBreak, body_blanks_append hTail]
      | false =>
          have hMore : ∀ d ∈ line ++ [c], isLineBreak d = false :=
            List.forall_mem_append.2 ⟨hLine, List.forall_mem_singleton.2 hBreak⟩
          rw [List.cons_append, List.append_cons, ih hMore (by simp) hTail, trim_append_blank hChar]

/-! ### Documents that are laid out -/

/-- Whether reading takes a line for just what it is: one line, with no blank at either end, and no
comment. -/
structure IsContent (line : List Char) : Prop where
  unbroken : ∀ c ∈ line, isLineBreak c = false
  trimmed : trim line = line
  loud : isSilent line = false

/-- A line stands in front of the other lines. The line feed behind it is not there for the last
one. -/
theorem joinLines_cons (line : String) (lines : List String) :
    ∃ rest, (joinLines (line :: lines)).toList = line.toList ++ rest ∧
      (rest = [] ∨ ∃ more, rest = '\n' :: more) ∧ body rest = body (joinLines lines).toList := by
  by_cases hMore : lines = []
  · subst hMore
    exact ⟨[], by rw [joinLines, String.intercalate_singleton, List.append_nil], Or.inl rfl, rfl⟩
  · refine ⟨'\n' :: (joinLines lines).toList, ?_, Or.inr ⟨_, rfl⟩, body_cons_blank (by decide) _⟩
    rw [joinLines, String.intercalate_cons_of_ne_nil hMore, String.toList_append,
      String.toList_append, List.append_assoc]
    rfl

/-- The body of a document is what its lines lay out. -/
theorem Laid.body_joinLines {contents lines : List String} (hLaid : Laid contents lines)
    (hContents : ∀ content ∈ contents, IsContent content.toList) :
    body (joinLines lines).toList = contents.map String.toList := by
  induction hLaid with
  | nil => rfl
  | @blank contents lines line hLine _ ih =>
      obtain ⟨rest, hText, _, hBody⟩ := joinLines_cons line lines
      rw [hText, body_blanks_append hLine, hBody, ih hContents]
  | @comment contents lines blanks remark hBlanks hRemark _ ih =>
      obtain ⟨rest, hText, hRest, hBody⟩ := joinLines_cons (blanks ++ ";" ++ remark) lines
      have hLine : ∀ c ∈ ';' :: remark.toList, isLineBreak c = false :=
        List.forall_mem_cons.2 ⟨by decide, hRemark⟩
      have hSilent : isSilent (trim (';' :: remark.toList)) = true := by
        have hFirst : ([';'] : List Char).getLast? = some ';' := rfl
        rw [trim, trimStart_cons (by decide), ← List.singleton_append,
          trimEnd_append hFirst (by decide)]
        rfl
      rw [hText, String.toList_append, String.toList_append, List.append_assoc, List.append_assoc,
        body_blanks_append hBlanks, show ";".toList = [';'] from rfl, ← List.append_assoc,
        List.singleton_append,
        ← List.nil_append rest, body_append_blanks hLine (by simp) (by simp) hRest, hBody,
        ih hContents]
      simp [hSilent]
  | @content contents lines before content after hBefore hAfter _ ih =>
      obtain ⟨rest, hText, hRest, hBody⟩ := joinLines_cons (before ++ content ++ after) lines
      obtain ⟨hContent, hTail⟩ := List.forall_mem_cons.1 hContents
      have hSome : content.toList ≠ [] := by
        intro hEmpty
        have hLoud := hContent.loud
        rw [hEmpty] at hLoud
        cases hLoud
      rw [hText, String.toList_append, String.toList_append, List.append_assoc, List.append_assoc,
        body_blanks_append hBefore, body_append_blanks hContent.unbroken hSome hAfter hRest,
        hContent.trimmed, hBody, ih hTail]
      simp [hContent.loud]

/-! ### Reading a body -/

/-- A line that counts for nothing is empty or begins with a semicolon. -/
theorem isSilent_cases {line : List Char} (hSilent : isSilent line = true) :
    line = [] ∨ ∃ rest, line = ';' :: rest := by
  cases line with
  | nil => exact Or.inl rfl
  | cons c rest =>
      have hFirst : c = ';' := by simpa [isSilent] using hSilent
      exact Or.inr ⟨rest, by rw [hFirst]⟩

theorem ofText_of_isSilent {line : List Char} (hSilent : isSilent line = true) :
    Line.ofText line = .blank := by
  rcases isSilent_cases hSilent with rfl | ⟨rest, rfl⟩ <;> rfl

theorem isBracketed_of_isSilent {line : List Char} (hSilent : isSilent line = true) :
    isBracketed line = false := by
  rcases isSilent_cases hSilent with rfl | ⟨rest, rfl⟩ <;> rfl

/-- Silent lines leave the sections as they are. -/
theorem foldl_step_filter (lines : List (List Char)) (sections : Sections) :
    (lines.map Line.ofText).foldl Sections.step sections =
      ((lines.filter fun line => !isSilent line).map Line.ofText).foldl Sections.step sections := by
  induction lines generalizing sections with
  | nil => rfl
  | cons line lines ih =>
      cases hSilent : isSilent line with
      | true =>
          rw [List.filter_cons_of_neg (by simp [hSilent]), List.map_cons, List.foldl_cons,
            ofText_of_isSilent hSilent, ih]
          rfl
      | false =>
          rw [List.filter_cons_of_pos (by simp [hSilent]), List.map_cons, List.foldl_cons, ih]
          rfl

/-- A text of blank lines has no entries and no complaint. -/
theorem read_of_body_nil {text : String} (hBody : body text.toList = []) :
    read text = (Table.empty, []) := by
  have hNone : ((splitLines text.toList).map trim).dropWhile (fun line => !isBracketed line) =
      [] := by
    refine List.dropWhile_eq_nil_iff.2 fun line hMem => ?_
    have hSilent : isSilent line = true := by simpa using List.filter_eq_nil_iff.1 hBody line hMem
    rw [isBracketed_of_isSilent hSilent]
    rfl
  rw [read]
  simp only [hNone]

/-- Only the body counts, if it begins with a line between brackets. -/
theorem read_of_body_cons {text : String} {first : List Char} {rest : List (List Char)}
    (hBody : body text.toList = first :: rest) (hFirst : isBracketed first = true) :
    read text = ((sectionsOf first rest).entries,
      if (sectionsOf first rest).malformed then [.malformedLines] else []) := by
  obtain ⟨before, after, hLines, hBefore, -, hAfter⟩ := List.filter_eq_cons_iff.1 hBody
  have hSilent : ∀ line ∈ before, isSilent line = true := by simpa using hBefore
  have hSkipped : ∀ line ∈ before, (!isBracketed line) = true := by
    intro line hMem
    rw [isBracketed_of_isSilent (hSilent line hMem)]
    rfl
  have hSections : sectionsOf first after = sectionsOf first rest := by
    rw [sectionsOf, sectionsOf]
    cases headerName? first with
    | none => rfl
    | some name => exact (foldl_step_filter after _).trans (by rw [hAfter])
  have hStop : ¬(!isBracketed first) = true := by simp [hFirst]
  have hDrop : (before ++ first :: after).dropWhile (fun line => !isBracketed line) =
      first :: after :=
    (List.dropWhile_append_of_pos hSkipped).trans (List.dropWhile_cons_of_neg hStop)
  have hTake : (before ++ first :: after).takeWhile (fun line => !isBracketed line) = before := by
    rw [List.takeWhile_append_of_pos hSkipped]
    exact (congrArg (before ++ ·) (List.takeWhile_cons_of_neg hStop)).trans (List.append_nil before)
  rw [read]
  simp only [hLines, hDrop, hTake, List.all_eq_true.2 hSilent, if_true, List.nil_append, hSections]

/-! ### Reading the lines of entries -/

theorem headerName?_brackets {name : List Char} (hName : name ≠ []) :
    headerName? ('[' :: (name ++ [']'])) = some name := by
  have hLast : (name ++ [']']).reverse.dropWhile (· ≠ ']') = ']' :: name.reverse := by
    rw [List.reverse_concat]
    rfl
  have hBack : name = name.reverse.reverse := name.reverse_reverse.symm
  simp only [headerName?, hLast]
  cases hChars : name.reverse with
  | nil => exact absurd (List.reverse_eq_nil_iff.1 hChars) hName
  | cons c front => rw [hBack, hChars]

theorem ofText_header {name : List Char} (hName : name ≠ []) :
    Line.ofText ('[' :: (name ++ [']'])) = .header name := by
  have hHeader := headerName?_brackets hName
  unfold Line.ofText
  simp only [hHeader]
  rfl

theorem ofText_signature (value : List Char) :
    Line.ofText ("signature = ".toList ++ value) = .field "signature".toList (trim value) :=
  rfl

theorem ofText_description (value : List Char) :
    Line.ofText ("description = ".toList ++ value) = .field "description".toList (trim value) :=
  rfl

def fieldsOf (entry : Entry) : Fields := ⟨some entry.signature, some entry.description⟩

/-- The two fields of an entry are put in their order, and neither replaces the other. -/
theorem put_signature_description (signature description : List Char) :
    (Fields.empty.put "signature".toList signature).put "description".toList description =
      ⟨some (String.ofList signature), some (String.ofList description)⟩ := by
  have hOther : "description".toList ≠ "signature".toList := by decide
  rw [Fields.put, if_neg hOther, if_pos rfl, Fields.put, if_pos rfl]

/-- The lines of an entry put it into the sections, if there is none of its name. -/
theorem foldl_step_lines {entry : Entry} (hWritable : entry.Writable) {sections : Sections}
    (hFresh : entry.name ∉ sections.named.keys) :
    (entry.lines.map fun line => Line.ofText line.toList).foldl Sections.step sections =
      { sections with
        named := sections.named.put entry.name (fieldsOf entry)
        current := entry.name } := by
  have hName : entry.name.toList ≠ [] := by simpa using hWritable.named
  have hHeader : Line.ofText ("[" ++ entry.name ++ "]").toList = .header entry.name.toList := by
    rw [String.toList_append, String.toList_append]
    exact ofText_header hName
  have hSignature : Line.ofText ("signature = " ++ entry.signature).toList =
      .field "signature".toList entry.signature.toList := by
    rw [String.toList_append, ofText_signature, trim_toList hWritable.signatureTrimmed]
  have hDescription : Line.ofText ("description = " ++ entry.description).toList =
      .field "description".toList entry.description.toList := by
    rw [String.toList_append, ofText_description, trim_toList hWritable.descriptionTrimmed]
  simp only [Entry.lines, List.map_cons, List.map_nil, List.foldl_cons, List.foldl_nil, hHeader,
    hSignature, hDescription, Sections.step, Sections.open, Sections.putField, String.ofList_toList,
    if_neg hWritable.own, Table.get?_eq_none hFresh, Table.get?_put, if_true, Option.getD_none,
    Option.getD_some, Table.put_put, put_signature_description]
  rfl

/-- The lines of entries are taken entry by entry, and give the entries in their order. No two of
them may have one name, nor the name of a section before them. -/
theorem foldl_step_entries {entries : List Entry} (hWritable : ∀ entry ∈ entries, entry.Writable)
    (sections : Sections)
    (hDistinct : (sections.named.keys ++ entries.map Entry.name).Nodup) :
    ∃ current, ((entries.flatMap Entry.lines).map fun line => Line.ofText line.toList).foldl
        Sections.step sections =
      { sections with
        named := (entries.map fun entry => (entry.name, fieldsOf entry)).foldl
          (fun table entry => table.put entry.1 entry.2) sections.named
        current := current } := by
  induction entries generalizing sections with
  | nil => exact ⟨sections.current, rfl⟩
  | cons entry entries ih =>
      obtain ⟨hEntry, hRest⟩ := List.forall_mem_cons.1 hWritable
      have hFresh : entry.name ∉ sections.named.keys := notMem_of_nodup_append hDistinct
      have hKeys := Table.keys_put hFresh (fieldsOf entry)
      rw [List.flatMap_cons, List.map_append, List.foldl_append, foldl_step_lines hEntry hFresh]
      obtain ⟨current, hRun⟩ := ih hRest
        { sections with
          named := sections.named.put entry.name (fieldsOf entry)
          current := entry.name }
        (by simpa [hKeys] using hDistinct)
      exact ⟨current, hRun⟩

theorem isContent_append {first last : Char} {front back : List Char}
    (hFront : ∀ c ∈ first :: front, isLineBreak c = false)
    (hBack : ∀ c ∈ back, isLineBreak c = false)
    (hFirst : isBlank first = false) (hRemark : first ≠ ';')
    (hLast : back.getLast? = some last) (hEnd : isBlank last = false) :
    IsContent (first :: front ++ back) where
  unbroken := List.forall_mem_append.2 ⟨hFront, hBack⟩
  trimmed := by
    refine trim_of_ends rfl hFirst ?_ hEnd
    rw [List.getLast?_append, hLast, Option.some_or]
  loud := by simpa [isSilent] using hRemark

/-- Every line of an entry that can be written is trimmed, unbroken and no comment, so blanks
around it change nothing. -/
theorem isContent_lines {entry : Entry} (hWritable : entry.Writable) :
    ∀ line ∈ entry.lines, IsContent line.toList := by
  obtain ⟨hName, hSignature, hDescription⟩ : (∀ c ∈ entry.name.toList, isLineBreak c = false) ∧
      (∀ c ∈ entry.signature.toList, isLineBreak c = false) ∧
      ∀ c ∈ entry.description.toList, isLineBreak c = false := by
    simpa using hWritable.unbroken
  obtain ⟨signatureEnd, hSignatureLast, hSignatureEnd⟩ :=
    getLast?_of_trim (trim_toList hWritable.signatureTrimmed) (by simpa using hWritable.signed)
  obtain ⟨descriptionEnd, hDescriptionLast, hDescriptionEnd⟩ :=
    getLast?_of_trim (trim_toList hWritable.descriptionTrimmed) (by simpa using hWritable.described)
  simp only [Entry.lines, List.forall_mem_cons, List.not_mem_nil, false_imp_iff, implies_true,
    and_true, String.toList_append]
  refine ⟨?_, ?_, ?_⟩
  · exact isContent_append (List.forall_mem_cons.2 ⟨by decide, hName⟩)
      (isLineBreak_eq_false_of_all rfl) (by decide) (by decide) rfl (by decide)
  · exact isContent_append (isLineBreak_eq_false_of_all rfl) hSignature (by decide) (by decide)
      hSignatureLast hSignatureEnd
  · exact isContent_append (isLineBreak_eq_false_of_all rfl) hDescription (by decide) (by decide)
      hDescriptionLast hDescriptionEnd

/-- The first header opens its section like all others. -/
theorem sectionsOf_header {name : List Char} (hName : name ≠ []) (rest : List (List Char)) :
    sectionsOf ('[' :: (name ++ [']'])) rest =
      ((('[' :: (name ++ [']'])) :: rest).map Line.ofText).foldl Sections.step
        ⟨Table.empty, Fields.empty, defaultsName, false⟩ := by
  rw [sectionsOf, List.map_cons, List.foldl_cons, ofText_header hName, headerName?_brackets hName]
  rfl

theorem isBracketed_header (name : List Char) : isBracketed ('[' :: (name ++ [']'])) = true := by
  have hLast : ('[' :: name ++ [']']).getLast? = some ']' := List.getLast?_concat
  rw [List.cons_append] at hLast
  simp [isBracketed, hLast]

/-- The fields of a written entry make up the entry again, with its slots read from the signature.
-/
theorem entryOf?_fieldsOf {entry : Entry} (hWritable : entry.Writable) :
    entryOf? Fields.empty entry.name (fieldsOf entry) =
      some (Entry.ofSignature entry.name entry.signature entry.description) := by
  simp [entryOf?, fieldsOf, hWritable.signed, hWritable.described]

theorem keys_fieldsOf (entries : List Entry) :
    (entries.map fun entry => (entry.name, fieldsOf entry)).map Prod.fst =
      entries.map Entry.name := by
  rw [List.map_map]
  rfl

/-- The entries of sections that hold the fields of entries. -/
theorem entries_fieldsOf {entries : List Entry} (hWritable : ∀ entry ∈ entries, entry.Writable)
    (hDistinct : (entries.map Entry.name).Nodup) {sections : Sections}
    (hNamed : sections.named.entries = entries.map fun entry => (entry.name, fieldsOf entry))
    (hDefaults : sections.defaults = Fields.empty) :
    sections.entries.entries = entries.map fun entry =>
      (entry.name, Entry.ofSignature entry.name entry.signature entry.description) := by
  have hKeys : ((entries.map fun entry =>
      (entry.name, Entry.ofSignature entry.name entry.signature entry.description)).map
        Prod.fst).Nodup := by
    rw [List.map_map]
    exact hDistinct
  have hRead : ∀ entry ∈ entries,
      ((entryOf? Fields.empty entry.name (fieldsOf entry)).map fun read => (entry.name, read)) =
        some (entry.name, Entry.ofSignature entry.name entry.signature entry.description) := by
    intro entry hMem
    rw [entryOf?_fieldsOf (hWritable entry hMem), Option.map_some]
  rw [Sections.entries, hNamed, hDefaults, List.filterMap_map]
  simp only [Function.comp_def]
  rw [List.filterMap_congr hRead, List.filterMap_eq_map', Table.ofList,
    Table.foldl_put _ Table.empty hKeys]
  rfl

/-- Lines that lay out entries are read back as these entries, in their order and without a notice,
each with the slots that its signature declares. -/
theorem read_laid {entries : List Entry} {lines : List String}
    (hWritable : ∀ entry ∈ entries, entry.Writable)
    (hDistinct : (entries.map Entry.name).Nodup)
    (hLaid : Laid (entries.flatMap Entry.lines) lines) :
    (read (joinLines lines)).1.entries =
        entries.map (fun entry =>
          (entry.name, ⟨entry.name, entry.signature, entry.description,
            Signature.slots entry.signature⟩)) ∧
      (read (joinLines lines)).2 = [] := by
  have hContents : ∀ line ∈ entries.flatMap Entry.lines, IsContent line.toList := by
    intro line hMem
    obtain ⟨entry, hEntry, hLine⟩ := List.mem_flatMap.1 hMem
    exact isContent_lines (hWritable entry hEntry) line hLine
  have hBody := hLaid.body_joinLines hContents
  cases hEntries : entries with
  | nil =>
      rw [hEntries] at hBody
      rw [read_of_body_nil hBody]
      exact ⟨rfl, rfl⟩
  | cons first others =>
      have hName : first.name.toList ≠ [] := by
        simpa using (hWritable first (hEntries ▸ List.mem_cons_self)).named
      have hHeader : ("[" ++ first.name ++ "]").toList = '[' :: (first.name.toList ++ [']']) := by
        rw [String.toList_append, String.toList_append]
        rfl
      obtain ⟨rest, hRest⟩ : ∃ rest, (entries.flatMap Entry.lines).map String.toList =
          ('[' :: (first.name.toList ++ [']'])) :: rest := by
        rw [hEntries, ← hHeader]
        exact ⟨_, rfl⟩
      obtain ⟨current, hRun⟩ := foldl_step_entries hWritable
        ⟨Table.empty, Fields.empty, defaultsName, false⟩ hDistinct
      have hSections := sectionsOf_header hName rest
      rw [← hRest, List.map_map] at hSections
      rw [read_of_body_cons (hBody.trans hRest) (isBracketed_header _), hSections.trans hRun,
        ← hEntries]
      refine ⟨entries_fieldsOf hWritable hDistinct ?_ rfl, rfl⟩
      have hPut := Table.foldl_put (entries.map fun entry => (entry.name, fieldsOf entry))
        Table.empty (by rwa [← keys_fieldsOf] at hDistinct)
      exact congrArg Table.entries hPut

/-- Entries whose texts have the marks of the format in them, with comments and blanks. -/
theorem read_laid_sample :
    (read (joinLines ["; calls", "[[Say]]", " signature = Say(\"a;b\");", "\t;; of an npc", "",
        "description = [A]: b = c; d \t", "  [End]", "signature = End", "description = Ends."])).1.entries =
      [("[Say]", ⟨"[Say]", "Say(\"a;b\");", "[A]: b = c; d", Signature.slots "Say(\"a;b\");"⟩),
        ("End", ⟨"End", "End", "Ends.", Signature.slots "End"⟩)] := by
  have hWritable : ∀ entry ∈ ([⟨"[Say]", "Say(\"a;b\");", "[A]: b = c; d", []⟩,
      ⟨"End", "End", "Ends.", []⟩] : List Entry), entry.Writable := by
    simp only [List.forall_mem_cons, List.not_mem_nil, false_imp_iff, implies_true, and_true]
    have hUnbroken : ∀ texts : List String,
        (texts.all fun text => text.toList.all fun c => !isLineBreak c) = true →
          ∀ text ∈ texts, ∀ c ∈ text.toList, isLineBreak c = false :=
      fun _ hTexts text hMem =>
        isLineBreak_eq_false_of_all (List.all_eq_true.1 hTexts text hMem)
    constructor <;>
      exact ⟨by decide, by decide, by decide, by decide, by decide, by decide, hUnbroken _ rfl⟩
  have hBlank : ∀ blanks : String, blanks.toList.all isBlank = true →
      ∀ c ∈ blanks.toList, isBlank c = true := fun _ => List.all_eq_true.1
  have hLaid := @Laid.comment _ _ "" " calls" (hBlank _ rfl) (isLineBreak_eq_false_of_all rfl) <|
    @Laid.content _ _ "" "[[Say]]" "" (hBlank _ rfl) (hBlank _ rfl) <|
    @Laid.content _ _ " " "signature = Say(\"a;b\");" "" (hBlank _ rfl) (hBlank _ rfl) <|
    @Laid.comment _ _ "\t" "; of an npc" (hBlank _ rfl) (isLineBreak_eq_false_of_all rfl) <|
    @Laid.blank _ _ "" (hBlank _ rfl) <|
    @Laid.content _ _ "" "description = [A]: b = c; d" " \t" (hBlank _ rfl) (hBlank _ rfl) <|
    @Laid.content _ _ "  " "[End]" "" (hBlank _ rfl) (hBlank _ rfl) <|
    @Laid.content _ _ "" "signature = End" "" (hBlank _ rfl) (hBlank _ rfl) <|
    @Laid.content _ _ "" "description = Ends." "" (hBlank _ rfl) (hBlank _ rfl) Laid.nil
  exact (read_laid hWritable (by decide) (by simpa [Entry.lines] using hLaid)).1

end Document

end QuestScript.Schema
