import ImageLabeling.Proofs.File.Tree
import ImageLabeling.Proofs.Number.Decimal
import ImageLabeling.Proofs.Number.Double
import ImageLabeling.Proofs.Text.Lines
import ImageLabeling.Proofs.Text.Utf8

/-!
# Reading a timing log

A finished timing log can be read back. Whatever the span, its milliseconds are digits, a point and
four more digits (`isDecimal_millisecondsText`): the arithmetic stays far from infinity. So a line
feed ends a line and nothing else, as long as no name has one, and the last tab of a line is the one
after the name (`exists_lines`). The names of a log are therefore decided by its bytes
(`names_eq_of_text_eq`). The text is written as a whole in the end: bytes that a full buffer lets
through before that make no difference (`lookup?_finish_flushed`).
-/

namespace ImageLabeling

/-! ## Writing over the beginning of a file -/

namespace FileContent

theorem overwrite_overPicture (early text : List UInt8) (stored : Picture) :
    (overPicture early stored).overwrite text =
      overPicture (text ++ early.drop text.length) stored := by
  by_cases hnone : early = []
  · subst hnone
    simp [overPicture, overwrite]
  · rw [overPicture, if_neg hnone]
    split
    case isTrue hall =>
      have hsome : text ++ early.drop text.length ≠ [] := by
        intro h
        rw [List.append_eq_nil_iff] at h
        simp [h.1, hnone] at h
      rw [overwrite, overPicture, if_neg hsome, if_pos (by simp; omega)]
    case isFalse => rfl

/-- What is written over the beginning of a file hides what was written there before. -/
theorem overwrite_overwrite {early text : List UInt8} (h : early.length ≤ text.length)
    (content : FileContent) :
    (content.overwrite early).overwrite text = content.overwrite text := by
  have hearly : early.drop text.length = [] := List.drop_eq_nil_of_le h
  have hdrop : ∀ old : List UInt8,
      (early ++ old.drop early.length).drop text.length = old.drop text.length := by
    intro old
    rw [List.drop_append, hearly, List.drop_drop, List.nil_append, Nat.add_sub_cancel' h]
  cases content with
  | bytes old => rw [overwrite, overwrite, overwrite, hdrop]
  | picture stored => rw [overwrite, overwrite_overPicture, hearly, List.append_nil, overwrite]
  | spoiled old stored => rw [overwrite, overwrite_overPicture, hdrop, overwrite]

end FileContent

/-! ## Separators -/

namespace Text

/-- A text split at the last occurrence of a character. -/
def splitLast? (separator : Char) : List Char → Option (List Char × List Char)
  | [] => none
  | c :: rest =>
    match splitLast? separator rest with
    | some (left, right) => some (c :: left, right)
    | none => if c = separator then some ([], rest) else none

variable {separator : Char}

theorem splitLast?_eq_none_iff {text : List Char} :
    splitLast? separator text = none ↔ separator ∉ text := by
  induction text with
  | nil => simp [splitLast?]
  | cons c rest ih =>
    rw [splitLast?, List.mem_cons, not_or, ← ih, eq_comm (a := separator)]
    cases splitLast? separator rest with
    | none => simp
    | some split => simp

/-- A text is split exactly where no separator follows. -/
theorem splitLast?_eq_some_iff {text left right : List Char} :
    splitLast? separator text = some (left, right) ↔
      text = left ++ separator :: right ∧ separator ∉ right := by
  constructor
  · intro h
    induction text generalizing left with
    | nil => cases h
    | cons c rest ih =>
      rw [splitLast?] at h
      cases hrest : splitLast? separator rest with
      | some split =>
        rw [hrest] at h
        cases h
        obtain ⟨rfl, hright⟩ := ih hrest
        exact ⟨rfl, hright⟩
      | none =>
        rw [hrest] at h
        dsimp only at h
        split at h
        case isTrue heq =>
          cases h
          exact ⟨by rw [heq, List.nil_append], splitLast?_eq_none_iff.1 hrest⟩
        case isFalse => cases h
  · rintro ⟨rfl, hright⟩
    induction left with
    | nil =>
      rw [List.nil_append, splitLast?, splitLast?_eq_none_iff.2 hright]
      exact if_pos rfl
    | cons c left ih => rw [List.cons_append, splitLast?, ih]

end Text

/-! ## Milliseconds -/

open Number

/-- The elapsed seconds are zero or a positive number that is far from the largest one. -/
theorem Duration.moderate_seconds (d : Duration) : Moderate (2 ^ 68) d.seconds := by
  have hbillion : (double (10 ^ 9)).toModel.unpack =
      .finite .positive (10 ^ 9 * 2 ^ 23) (-23) (by decide) := rfl
  have hfraction : Moderate (2 ^ 66) (double (d.nanoseconds % 10 ^ 9) / double (10 ^ 9)) :=
    moderate_div (moderate_double _) (by norm_num) (pow_le_pow_right₀ one_le_two (by norm_num))
      hbillion (by norm_num) (by norm_num)
  exact moderate_add (moderate_double _) (by norm_num)
    (pow_le_pow_right₀ one_le_two (by norm_num)) hfraction (by norm_num)

namespace Timing

/-- **Milliseconds are written with digits and a point**, however long the span. -/
theorem isDecimal_millisecondsText (elapsed : Duration) :
    IsDecimal 4 (millisecondsText elapsed).toList := by
  have hthousand : Moderate 1000 1000.0 := by
    show AtMost 1000 (.finite .positive (1000 * 2 ^ 43) (-43) (by decide))
    exact .finite _ (by norm_num)
  have hproduct : Moderate (2 ^ 80) (elapsed.seconds * 1000.0) :=
    moderate_mul elapsed.moderate_seconds (by norm_num)
      (pow_le_pow_right₀ one_le_two (by norm_num)) hthousand (by norm_num)
  -- No sign, infinity or NaN is left to write.
  obtain ⟨m, q, hvalue⟩ := hproduct.ofDouble
  rw [millisecondsText, hvalue]
  exact isDecimal_fixedText (by decide) m q

/-- What stands after the last tab of a line: milliseconds with four places and their unit. -/
def IsTime (cs : List Char) : Prop :=
  ∃ number, IsDecimal 4 number ∧ cs = number ++ [' ', 'm', 's']

theorem IsTime.notMem {cs : List Char} (h : IsTime cs) {c : Char} (hdigit : c.isDigit = false)
    (hother : c ∉ ['.', ' ', 'm', 's']) : c ∉ cs := by
  obtain ⟨_, ⟨whole, fraction, rfl, -, -, hdigits⟩, rfl⟩ := h
  intro hc
  have hnot : c ∉ whole ++ fraction := fun hmem => by simp [hdigits c hmem] at hdigit
  simp only [List.mem_append, List.mem_cons, not_or] at hc hnot hother
  tauto

/-! ## Lines -/

/-- A line of a log splits at its last tab into the name of the record and a time. -/
def IsLine (record : String × Duration) (line : List Char) : Prop :=
  ∃ time, Text.splitLast? '\t' line = some (record.1.toList, time) ∧ IsTime time

/-- A line has one name. -/
theorem IsLine.name_eq {record record' : String × Duration} {line : List Char}
    (h : IsLine record line) (h' : IsLine record' line) : record'.1 = record.1 := by
  obtain ⟨time, hsplit, -⟩ := h
  obtain ⟨time', hsplit', -⟩ := h'
  rw [hsplit] at hsplit'
  exact (String.toList_inj.1 (Prod.ext_iff.1 (Option.some.inj hsplit')).1).symm

theorem names_eq_of_lines {records records' : List (String × Duration)} {lines : List (List Char)}
    (h : List.Forall₂ IsLine records lines) (h' : List.Forall₂ IsLine records' lines) :
    records'.map Prod.fst = records.map Prod.fst := by
  induction h generalizing records' with
  | nil =>
    cases h'
    rfl
  | cons hline _ ih =>
    cases h' with
    | cons hline' hlines' =>
      rw [List.map_cons, List.map_cons, hline.name_eq hline', ih hlines']

/-- What stands after the name and the tab in an entry. -/
def timeOf (elapsed : Duration) : List Char :=
  (millisecondsText elapsed).toList ++ [' ', 'm', 's']

theorem isTime_timeOf (elapsed : Duration) : IsTime (timeOf elapsed) :=
  ⟨_, isDecimal_millisecondsText elapsed, rfl⟩

theorem toList_entry (name : String) (elapsed : Duration) :
    (entry name elapsed).toList = name.toList ++ '\t' :: timeOf elapsed := by
  simp only [entry, timeOf, String.toList_append, List.append_assoc]
  rfl

theorem isLine_entry (record : String × Duration) :
    IsLine record (entry record.1 record.2).toList := by
  have htime := isTime_timeOf record.2
  refine ⟨timeOf record.2, ?_, htime⟩
  rw [Text.splitLast?_eq_some_iff]
  exact ⟨toList_entry .., htime.notMem (by decide) (by decide)⟩

theorem notMem_entry {record : String × Duration} (h : '\n' ∉ record.1.toList) :
    '\n' ∉ (entry record.1 record.2).toList := by
  have htime : '\n' ∉ timeOf record.2 := (isTime_timeOf _).notMem (by decide) (by decide)
  rw [toList_entry, List.mem_append, List.mem_cons]
  rintro (hname | htab | hmem)
  · exact h hname
  · exact absurd htab (by decide)
  · exact htime hmem

/-! ## Logs -/

namespace Log

variable {log : Log} {fs fs' : FileSystem} {path : FilePath} {records : List (String × Duration)}

theorem toList_text (log : Log) : log.text.toList =
    (log.entries.map fun record => (entry record.1 record.2).toList).flatMap (· ++ ['\n']) := by
  rw [text, String.toList_join, List.flatMap_map, List.flatMap_map]
  simp only [String.toList_append]
  rfl

theorem text_append (log : Log) (records more : List (String × Duration)) :
    { log with entries := records ++ more }.text =
      { log with entries := records }.text ++ { log with entries := more }.text := by
  apply String.toList_inj.1
  rw [String.toList_append]
  simp only [toList_text, List.map_append, List.flatMap_append]

/-- **Every line of a log is the line of its record**, and there is nothing else. -/
theorem exists_lines (h : ∀ record ∈ log.entries, '\n' ∉ record.1.toList) :
    ∃ lines, log.text.toList.splitOn '\n' = lines ++ [[]] ∧
      List.Forall₂ IsLine log.entries lines := by
  refine ⟨log.entries.map fun record => (entry record.1 record.2).toList, ?_, ?_⟩
  · rw [toList_text]
    apply Text.splitOn_ended
    intro line hline
    obtain ⟨record, hrecord, rfl⟩ := List.mem_map.1 hline
    exact notMem_entry (h record hrecord)
  · rw [List.forall₂_map_right_iff]
    exact List.forall₂_same.2 fun record _ => isLine_entry record

/-- Two logs with the same text have the same names. -/
theorem names_eq_of_text_eq {log' : Log} (h : ∀ record ∈ log.entries, '\n' ∉ record.1.toList)
    (h' : ∀ record ∈ log'.entries, '\n' ∉ record.1.toList) (htext : log'.text = log.text) :
    log'.entries.map Prod.fst = log.entries.map Prod.fst := by
  obtain ⟨lines, hsplit, hlines⟩ := exists_lines h
  obtain ⟨lines', hsplit', hlines'⟩ := exists_lines h'
  rw [htext, hsplit] at hsplit'
  rw [List.append_cancel_right hsplit'] at hlines
  exact names_eq_of_lines hlines hlines'

/-- The log after records one after another. -/
def recordAll (log : Log) (records : List (String × Duration)) : Log :=
  records.foldl (fun log record => log.record record.1 record.2) log

/-- Records add their entries and change nothing else. -/
theorem recordAll_eq (log : Log) (records : List (String × Duration)) :
    log.recordAll records = { log with entries := log.entries ++ records } := by
  induction records generalizing log with
  | nil => simp [recordAll]
  | cons record records ih =>
    have hrest := ih (log.record record.1 record.2)
    rw [recordAll] at hrest ⊢
    rw [List.foldl_cons, hrest]
    simp [Log.record]

/-- A log that was created has exactly the records since then. -/
theorem recordAll_of_create (hcreate : create fs path = .ok (fs', log))
    (records : List (String × Duration)) :
    log.recordAll records = { log with entries := records } := by
  obtain ⟨location, -, -, rfl⟩ := create_eq_ok_iff.1 hcreate
  exact recordAll_eq _ _

/-- **A log holds its text alone**: the file was emptied when the log was created. -/
theorem lookup?_finish_recordAll (hcreate : create fs path = .ok (fs', log))
    (records : List (String × Duration)) :
    ((log.recordAll records).finish fs').lookup? log.location =
      some (.file (.bytes (Utf8.encode (log.recordAll records).text))) := by
  rw [recordAll_of_create hcreate]
  obtain ⟨location, hlocation, rfl, rfl⟩ := create_eq_ok_iff.1 hcreate
  have hplace : fs.writePlace? path = some location := by
    rw [FileSystem.writePlace?, hlocation]
    rfl
  -- The root is a directory, and nothing is written in the place of one.
  have hroot : location ≠ [] := by
    rintro rfl
    exact (FileSystem.writePlace?_eq_some_iff.1 hplace).2 fs.lookup?_root
  have hempty : (fs.put location (.file (.bytes []))).lookup? location =
      some (.file (.bytes [])) := by
    rw [FileSystem.lookup?_put _ _ _ hroot, if_pos rfl]
  rw [finish, hempty]
  dsimp only
  rw [FileContent.overwrite_empty, FileSystem.lookup?_put _ _ _ hroot, if_pos rfl]

/-- In a tree the file of a finished log is found where its path leads. -/
theorem find?_finish_recordAll (hfs : fs.Grounded) (hcreate : create fs path = .ok (fs', log))
    (records : List (String × Duration)) :
    ((log.recordAll records).finish fs').find? path =
      some (.file (.bytes (Utf8.encode (log.recordAll records).text))) := by
  obtain ⟨hresolve, hwritable, rfl⟩ := hfs.create_ok_inv hcreate
  rw [recordAll_of_create hcreate]
  refine (hfs.put hwritable _).find?_finish ?_ ((hwritable.sameTree _).resolve hresolve)
  rw [FileSystem.lookup?_put _ _ _ hwritable.ne_root, if_pos rfl]

/-- **Bytes of a log that reach its file early make no difference** to the files that are left when
the log is finished, wherever a full buffer cut the text. -/
theorem lookup?_finish_flushed {early : List UInt8} {content : FileContent}
    (hearly : early <+: Utf8.encode log.text)
    (hfile : fs.lookup? log.location = some (.file content)) (place : Location) :
    (log.finish (fs.put log.location (.file (content.overwrite early)))).lookup? place =
      (log.finish fs).lookup? place := by
  have hroot : log.location ≠ [] := by
    intro h
    rw [h, fs.lookup?_root] at hfile
    cases hfile
  have hflushed : (fs.put log.location (.file (content.overwrite early))).lookup? log.location =
      some (.file (content.overwrite early)) := by
    rw [FileSystem.lookup?_put _ _ _ hroot, if_pos rfl]
  rw [finish, finish, hflushed, hfile]
  dsimp only
  rw [FileContent.overwrite_overwrite hearly.length_le]
  simp only [FileSystem.lookup?_put _ _ _ hroot]
  split <;> rfl

end Log

/-- **A timing log can be read back.** After a log was created, some records were made, and the log
was finished, its entries are counted, its file holds its text alone, and the text is one line for
each record, which splits at the last tab into the name and a time. So other names give another
file, and more records only add to the text. No name may have a line feed. -/
theorem log_reads_back {fs fs' : FileSystem} {path : FilePath} {log : Log}
    {records : List (String × Duration)} (hcreate : Log.create fs path = .ok (fs', log))
    (hnames : ∀ record ∈ records, '\n' ∉ record.1.toList) :
    (log.recordAll records).entries.length = records.length ∧
    ((log.recordAll records).finish fs').lookup? log.location =
      some (.file (.bytes (Utf8.encode (log.recordAll records).text))) ∧
    (fs.Grounded → ((log.recordAll records).finish fs').find? path =
      some (.file (.bytes (Utf8.encode (log.recordAll records).text)))) ∧
    (∃ lines, (log.recordAll records).text.toList.splitOn '\n' = lines ++ [[]] ∧
      List.Forall₂ IsLine records lines) ∧
    (∀ records' : List (String × Duration), (∀ record ∈ records', '\n' ∉ record.1.toList) →
      records'.map Prod.fst ≠ records.map Prod.fst →
      ((log.recordAll records').finish fs').lookup? log.location ≠
        ((log.recordAll records).finish fs').lookup? log.location) ∧
    ∀ more, (log.recordAll (records ++ more)).text =
      (log.recordAll records).text ++ (log.recordAll more).text := by
  refine ⟨?_, Log.lookup?_finish_recordAll hcreate records,
    fun hfs => Log.find?_finish_recordAll hfs hcreate records, ?_, ?_, ?_⟩
  · rw [Log.recordAll_of_create hcreate]
  · rw [Log.recordAll_of_create hcreate]
    exact Log.exists_lines hnames
  · intro records' hnames' hne hsame
    rw [Log.lookup?_finish_recordAll hcreate, Log.lookup?_finish_recordAll hcreate] at hsame
    simp only [Option.some.injEq, FileEntry.file.injEq, FileContent.bytes.injEq,
      Log.recordAll_of_create hcreate] at hsame
    exact hne (Log.names_eq_of_text_eq hnames hnames' (Utf8.encode_injective hsame))
  · intro more
    rw [Log.recordAll_of_create hcreate, Log.recordAll_of_create hcreate,
      Log.recordAll_of_create hcreate, Log.text_append]

/-- A log in the place of an older file, with a tab in one name and a name that is empty. -/
theorem log_reads_back_tabs :
    let fs : FileSystem :=
      ⟨⟨[([[0x74]], .file (.bytes (List.replicate 99 0x74)))], by decide⟩, []⟩
    let path : FilePath := .ofString "t"
    let records : List (String × Duration) := [("a\tb", ⟨12345000⟩), ("", .zero)]
    ∃ fs' log, Log.create fs path = .ok (fs', log) ∧
      (log.recordAll records).text = "a\tb\t12.3450 ms\n\t0.0000 ms\n" ∧
      ((log.recordAll records).finish fs').find? path =
        some (.file (.bytes (Utf8.encode (log.recordAll records).text))) ∧
      (∃ lines, (log.recordAll records).text.toList.splitOn '\n' = lines ++ [[]] ∧
        List.Forall₂ IsLine records lines) ∧
      ((log.recordAll [("a", .zero)]).finish fs').lookup? log.location ≠
        ((log.recordAll records).finish fs').lookup? log.location := by
  intro fs path records
  have hcreate : Log.create fs path =
      .ok (fs.put [[0x74]] (.file (.bytes [])), ⟨path, [[0x74]], []⟩) :=
    Log.create_eq_ok_iff.2 ⟨_, rfl, rfl, rfl⟩
  have hfree : ∀ record ∈ records, '\n' ∉ record.1.toList := by decide +kernel
  obtain ⟨-, -, hfind, hlines, hnames, -⟩ := log_reads_back hcreate hfree
  have hgrounded : fs.Grounded := FileSystem.grounded_of_rows (by decide +kernel)
  exact ⟨_, _, hcreate, by decide +kernel, hfind hgrounded, hlines,
    hnames [("a", .zero)] (by decide +kernel) (by decide +kernel)⟩

end Timing

end ImageLabeling
