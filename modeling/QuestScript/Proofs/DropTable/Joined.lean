import QuestScript.DropTable
import QuestScript.Proofs.Except
import QuestScript.Proofs.Number.Limit
import QuestScript.Proofs.Table
import QuestScript.Proofs.Text.Lines
/-!
The lines of a drop table do not depend on one another, as far as they can be read. A text that is put
behind another one updates its table, and nothing else of what the second text holds counts: a line
that gives no entry could as well not be there. But an integer with too many digits fails all lines,
also in a line that gives no entry.
-/

namespace QuestScript.DropTable

open QuestScript.Text

/-! ### Lines without an entry -/

/-- A line has one equals sign, between two sides. -/
def Sides (line npc fields : List Char) : Prop :=
  line = npc ++ '=' :: fields ∧ '=' ∉ npc ∧ '=' ∉ fields

/-- A line that gives no entry: it is blank, it is a comment, it does not have just one equals sign, no
number stands in front of the sign, or no drop stands behind it. -/
inductive Skipped (line : List Char) : Prop where
  | blank (hBlank : trim line = [])
  | comment (hComment : (trim line).head? = some '#')
  | sides (hSides : (trim line).count '=' ≠ 1)
  | noNumber {npc fields : List Char} (hSides : Sides (trim line) npc fields)
      (hNumber : Integer.leading? (trim npc) = none)
  | noDrop {npc fields : List Char} (hSides : Sides (trim line) npc fields)
      (hDrops : readDrops ((splitAtChar ',' (trim fields)).map trim) = [])

/-- A line gives no entry just for these reasons. -/
theorem readLine?_eq_none_iff (line : List Char) : readLine? line = none ↔ Skipped line := by
  have hLength := length_splitAtChar '=' (trim line)
  rw [readLine?]
  dsimp only
  split
  · next hFirst =>
      rw [Bool.or_eq_true, List.isEmpty_iff, decide_eq_true_iff] at hFirst
      exact iff_of_true rfl (hFirst.elim Skipped.blank Skipped.comment)
  · next hFirst =>
      rw [Bool.or_eq_true, List.isEmpty_iff, decide_eq_true_iff, not_or] at hFirst
      split
      · next npc fields hPieces =>
          have hSides : Sides (trim line) npc fields := splitAtChar_eq_pair_iff.1 hPieces
          constructor
          · intro hNone
            cases hNumber : Integer.leading? (trim npc) with
            | none => exact Skipped.noNumber hSides hNumber
            | some number =>
                refine Skipped.noDrop hSides ?_
                simpa [hNumber] using hNone
          · intro skipped
            cases skipped with
            | blank hBlank => exact absurd hBlank hFirst.1
            | comment hComment => exact absurd hComment hFirst.2
            | sides hCount =>
                rw [hPieces] at hLength
                exact absurd (Nat.succ.inj hLength).symm hCount
            | noNumber hOther hNumber =>
                rw [splitAtChar_eq_pair_iff.2 hOther] at hPieces
                cases hPieces
                simp [hNumber]
            | noDrop hOther hDrops =>
                rw [splitAtChar_eq_pair_iff.2 hOther] at hPieces
                cases hPieces
                cases hNumber : Integer.leading? (trim npc) <;> simp [hDrops]
      · next hPieces =>
          refine iff_of_true rfl (Skipped.sides fun hOne => ?_)
          rw [hOne, List.length_eq_two] at hLength
          obtain ⟨npc, fields, hPair⟩ := hLength
          exact hPieces npc fields hPair

/-! ### Lines that cannot be read -/

/-- One of the first three fields of a group of four begins with an integer that has too many digits.
It is read also where another field of the group begins with no number. -/
inductive GroupTooLong : List (List Char) → Prop where
  | here {item least most percentage : List Char} {rest : List (List Char)}
      (hDigits : ∃ field ∈ [item, least, most],
        Integer.maxDigits < (Integer.leadingDigits field).length) :
      GroupTooLong (item :: least :: most :: percentage :: rest)
  | later {item least most percentage : List Char} {rest : List (List Char)}
      (hRest : GroupTooLong rest) : GroupTooLong (item :: least :: most :: percentage :: rest)

/-- A line with an integer of too many digits: in front of its one equals sign, or, if there is an
integer in front, in a group behind it. -/
inductive TooLong (line : List Char) : Prop where
  | number {npc fields : List Char} (hComment : (trim line).head? ≠ some '#')
      (hSides : Sides (trim line) npc fields)
      (hDigits : Integer.maxDigits < (Integer.leadingDigits (trim npc)).length)
  | group {npc fields : List Char} (hComment : (trim line).head? ≠ some '#')
      (hSides : Sides (trim line) npc fields) (hNumber : Integer.leading? (trim npc) ≠ none)
      (hGroup : GroupTooLong ((splitAtChar ',' (trim fields)).map trim))

/-- A prefix of digits is refused exactly when it is longer than the limit. -/
theorem leadingFault?_ne_none_iff {cs : List Char} :
    Integer.leadingFault? cs ≠ none ↔ Integer.maxDigits < (Integer.leadingDigits cs).length := by
  rw [Integer.leadingFault?, Ne, Integer.digitsFault?_eq_none_iff, Nat.not_le]

/-- The drops of a line are refused exactly when a group of four fields has a number that is too
long. -/
theorem dropsFault?_ne_none_iff (fields : List (List Char)) :
    dropsFault? fields ≠ none ↔ GroupTooLong fields := by
  fun_induction dropsFault? fields with
  | case1 item least most percentage rest ih =>
      rw [Ne, Option.or_eq_none_iff, not_and_or, ← Ne, ← Ne, ih]
      have hHere : [item, least, most].findSome? Integer.leadingFault? ≠ none ↔
          ∃ field ∈ [item, least, most],
            Integer.maxDigits < (Integer.leadingDigits field).length := by
        simp only [Ne, List.findSome?_eq_none_iff, not_forall, ← leadingFault?_ne_none_iff,
          exists_prop]
      rw [hHere]
      constructor
      · rintro (hDigits | hRest)
        · exact .here hDigits
        · exact .later hRest
      · intro hGroup
        cases hGroup with
        | here hDigits => exact Or.inl hDigits
        | later hRest => exact Or.inr hRest
  | case2 fields hShort =>
      refine iff_of_false (not_not_intro rfl) fun hGroup => ?_
      cases hGroup with
      | here => exact hShort _ _ _ _ _ rfl
      | later => exact hShort _ _ _ _ _ rfl

theorem leading?_ne_none_of_digits {cs : List Char}
    (hDigits : Integer.maxDigits < (Integer.leadingDigits cs).length) :
    Integer.leading? cs ≠ none := by
  have hSome : Integer.leadingDigits cs ≠ [] :=
    List.ne_nil_of_length_pos (Nat.zero_lt_of_lt hDigits)
  unfold Integer.leading?
  rw [Integer.leadingDigits] at hSome
  simp [hSome]

/-- A line with two sides and an integer in front is refused for that integer, or else for its drops. -/
theorem lineFault?_of_sides {line npc fields : List Char} {number : Int}
    (hComment : (trim line).head? ≠ some '#') (hSides : Sides (trim line) npc fields)
    (hNumber : Integer.leading? (trim npc) = some number) :
    lineFault? line = (Integer.leadingFault? (trim npc)).or
      (dropsFault? ((splitAtChar ',' (trim fields)).map trim)) := by
  have hSome : (trim line).isEmpty = false := by simp [hSides.1]
  rw [lineFault?]
  rw [if_neg (by simp [hSome, hComment]), splitAtChar_eq_pair_iff.2 hSides]
  dsimp only
  rw [hNumber]

/-- A line cannot be read just if an integer of it has too many digits. -/
theorem lineFault?_ne_none_iff (line : List Char) : lineFault? line ≠ none ↔ TooLong line := by
  constructor
  · intro hFault
    rw [lineFault?] at hFault
    split at hFault
    · exact absurd rfl hFault
    · next hFirst =>
        rw [Bool.or_eq_true, decide_eq_true_iff, not_or] at hFirst
        split at hFault
        · next npc fields hPieces =>
            have hSides : Sides (trim line) npc fields := splitAtChar_eq_pair_iff.1 hPieces
            split at hFault
            · next number hNumber =>
                rw [Ne, Option.or_eq_none_iff, not_and_or] at hFault
                rcases hFault with hDigits | hGroup
                · exact .number hFirst.2 hSides (leadingFault?_ne_none_iff.1 hDigits)
                · exact .group hFirst.2 hSides (by simp [hNumber])
                    ((dropsFault?_ne_none_iff _).1 hGroup)
            · exact absurd rfl hFault
        · exact absurd rfl hFault
  · intro hLong
    cases hLong with
    | number hComment hSides hDigits =>
        obtain ⟨number, hNumber⟩ :=
          Option.ne_none_iff_exists'.1 (leading?_ne_none_of_digits hDigits)
        rw [lineFault?_of_sides hComment hSides hNumber, Ne, Option.or_eq_none_iff, not_and_or]
        exact Or.inl (leadingFault?_ne_none_iff.2 hDigits)
    | group hComment hSides hSome hGroup =>
        obtain ⟨number, hNumber⟩ := Option.ne_none_iff_exists'.1 hSome
        rw [lineFault?_of_sides hComment hSides hNumber, Ne, Option.or_eq_none_iff, not_and_or]
        exact Or.inr ((dropsFault?_ne_none_iff _).2 hGroup)

/-- A text is read just if each of its lines is. -/
theorem exists_parse_eq_ok_iff (text : String) :
    (∃ table, parse text = .ok table) ↔ ∀ line ∈ splitAtChar '\n' text.toList, ¬TooLong line := by
  rw [parse, Integer.exists_guarded_eq_ok, textFault?, List.findSome?_eq_none_iff]
  exact forall₂_congr fun line _ => by rw [← lineFault?_ne_none_iff, not_not]

/-! ### Texts one behind the other -/

/-- A line break between two texts is a border of entries, since no line of one reaches into the
other. -/
theorem readEntries_join (front back : List Char) :
    readEntries (front ++ '\n' :: back) = readEntries front ++ readEntries back := by
  rw [readEntries, splitAtChar_join, List.filterMap_append]
  rfl

/-- The first line with a fault decides, so the fault of the front text hides that of the back. -/
theorem textFault?_join (front back : List Char) :
    textFault? (front ++ '\n' :: back) = (textFault? front).or (textFault? back) := by
  rw [textFault?, splitAtChar_join, List.findSome?_append]
  rfl

theorem toList_join (front back : String) :
    (front ++ "\n" ++ back).toList = front.toList ++ '\n' :: back.toList := by
  rw [String.toList_append, String.toList_append, List.append_assoc]
  rfl

/-- The table of two texts is the table of the first, updated by that of the second. Both have to be
read for that. -/
theorem parse_join (front back : String) :
    parse (front ++ "\n" ++ back) =
      parse front >>= fun table => (parse back).map table.updated := by
  rw [parse, toList_join, readEntries_join, textFault?_join, Table.ofList, List.foldl_append, parse,
    parse]
  cases textFault? front.toList with
  | some fault => rfl
  | none =>
      cases textFault? back.toList with
      | some fault => rfl
      | none =>
          change Except.ok _ = Except.ok _
          rw [Table.updated_ofList]
          rfl

/-- Two texts that are both read give, joined, the first table updated with the second. -/
theorem parse_join_eq_ok {front back : String} {table update : DropTable}
    (hFront : parse front = .ok table) (hBack : parse back = .ok update) :
    parse (front ++ "\n" ++ back) = .ok (table.updated update) := by
  rw [parse_join, hFront, hBack]
  rfl

/-- A joined text that is read has two parts that are read on their own. -/
theorem exists_of_parse_join_eq_ok {front back : String} {whole : DropTable}
    (hWhole : parse (front ++ "\n" ++ back) = .ok whole) :
    ∃ table update, parse front = .ok table ∧ parse back = .ok update ∧
      whole = table.updated update := by
  rw [parse_join] at hWhole
  obtain ⟨table, hFront, hRest⟩ := exists_of_bind_eq_ok hWhole
  obtain ⟨update, hBack, rfl⟩ := exists_of_map_eq_ok hRest
  exact ⟨table, update, hFront, hBack, rfl⟩

/-- A text whose lines are all skipped gives no entries, if it is read. -/
theorem parse_of_skipped {text : String}
    (hSkipped : ∀ line ∈ splitAtChar '\n' text.toList, Skipped line ∧ ¬TooLong line) :
    parse text = .ok Table.empty := by
  obtain ⟨table, hTable⟩ := (exists_parse_eq_ok_iff text).2 fun line hMem => (hSkipped line hMem).2
  have hEntries : readEntries text.toList = [] := by
    rw [readEntries, List.filterMap_eq_nil_iff]
    exact fun line hMem => (readLine?_eq_none_iff line).2 (hSkipped line hMem).1
  rw [hTable, ← (Integer.guarded_eq_ok.1 hTable).2, hEntries]
  rfl

/-- A text that can be read, behind another one that can, updates its table: the entries of a number
that is there are replaced in its place, and new numbers follow in their order. So lines that are
skipped change nothing, wherever they stand, and lines that give entries change nothing of other
numbers, whatever they leave out. But an integer with too many digits in one line fails all the others. -/
theorem parse_lines_independent (front back : String) :
    (∀ table update, parse front = .ok table → parse back = .ok update →
      parse (front ++ "\n" ++ back) = .ok (table.updated update) ∧
        (table.updated update).entries =
          table.entries.map (fun entry => (entry.1, (update.get? entry.1).getD entry.2)) ++
            update.entries.filter (fun entry => entry.1 ∉ table.keys)) ∧
      ((∃ whole, parse (front ++ "\n" ++ back) = .ok whole) ↔
        ∀ line ∈ splitAtChar '\n' front.toList ++ splitAtChar '\n' back.toList, ¬TooLong line) ∧
      (∀ middle : String, (∀ line ∈ splitAtChar '\n' middle.toList, Skipped line ∧ ¬TooLong line) →
        parse (front ++ "\n" ++ middle ++ "\n" ++ back) = parse (front ++ "\n" ++ back)) ∧
      ∀ middle whole, parse (front ++ "\n" ++ middle ++ "\n" ++ back) = .ok whole →
        ∃ given rest, parse middle = .ok given ∧ parse (front ++ "\n" ++ back) = .ok rest ∧
          ∀ npc, npc ∉ given.keys → whole.get? npc = rest.get? npc := by
  refine ⟨fun table update hFront hBack => ⟨parse_join_eq_ok hFront hBack, Table.entries_updated _ _⟩,
    ?_, fun middle hSkipped => ?_, fun middle whole hWhole => ?_⟩
  · rw [exists_parse_eq_ok_iff, toList_join, splitAtChar_join]
  · rw [parse_join (front ++ "\n" ++ middle), parse_join front middle, parse_of_skipped hSkipped,
      parse_join front back]
    cases parse front with
    | error fault => rfl
    | ok table =>
        change Except.map (table.updated Table.empty).updated (parse back) = _
        rw [Table.updated_empty]
        rfl
  · obtain ⟨both, update, hBoth, hBack, rfl⟩ := exists_of_parse_join_eq_ok hWhole
    obtain ⟨table, given, hFront, hMiddle, rfl⟩ := exists_of_parse_join_eq_ok hBoth
    refine ⟨given, _, hMiddle, parse_join_eq_ok hFront hBack, fun npc hOther => ?_⟩
    rw [Table.get?_updated, Table.get?_updated, Table.get?_updated, Table.get?_eq_none hOther,
      Option.none_or]

/-- Lines of all the kinds that are skipped, one of them about a number that is there; and lines about
other numbers, with a drop that is left out. -/
theorem parse_lines_independent_sample :
    let front := "# rats\n3 = 1,1,1,10\n5 = 4,1,1,50"
    let skipped := " # none\n\nabc = 1,1,1,1\n7 = 1 = 2\n3 = 1,1,1"
    let other := "8 = 6,1,1,50, x,1,1,50\n5 = 9,1,2,25"
    (∀ line ∈ splitAtChar '\n' skipped.toList, Skipped line ∧ ¬TooLong line) ∧
      parse (front ++ "\n" ++ skipped ++ "\n" ++ other) = parse (front ++ "\n" ++ other) ∧
      (parse (front ++ "\n" ++ other)).toOption.map Table.keys = some [3, 5, 8] ∧
      ∃ whole given rest, parse (front ++ "\n" ++ other ++ "\n" ++ skipped) = .ok whole ∧
        parse other = .ok given ∧ parse (front ++ "\n" ++ skipped) = .ok rest ∧
        3 ∉ given.keys ∧ whole.get? 3 = rest.get? 3 := by
  intro front skipped other
  have hNone : ∀ line ∈ splitAtChar '\n' skipped.toList,
      readLine? line = none ∧ lineFault? line = none := by
    decide +kernel
  have hSkipped : ∀ line ∈ splitAtChar '\n' skipped.toList, Skipped line ∧ ¬TooLong line := by
    intro line hMem
    obtain ⟨hRead, hFault⟩ := hNone line hMem
    exact ⟨(readLine?_eq_none_iff line).1 hRead,
      fun hLong => (lineFault?_ne_none_iff line).2 hLong hFault⟩
  have hFault : textFault? (front ++ "\n" ++ other ++ "\n" ++ skipped).toList = none := by
    decide +kernel
  have hOther : (3 : Int) ∉ (Table.ofList (readEntries other.toList)).keys := by decide +kernel
  obtain ⟨whole, hWhole⟩ := Integer.exists_guarded_eq_ok.2 hFault
  obtain ⟨given, rest, hGiven, hRest, hSame⟩ :=
    (parse_lines_independent front skipped).2.2.2 other whole hWhole
  rw [(Integer.guarded_eq_ok.1 hGiven).2] at hOther
  exact ⟨hSkipped, (parse_lines_independent front other).2.2.1 skipped hSkipped, by decide +kernel,
    whole, given, rest, hWhole, hGiven, hRest, hOther, hSame 3 hOther⟩

end QuestScript.DropTable
