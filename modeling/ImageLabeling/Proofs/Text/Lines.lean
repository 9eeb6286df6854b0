import ImageLabeling.Text.Blank
import ImageLabeling.Text.Lines
import Mathlib

/-!
# Layouts of a list

A list in a text has an entry for each line that is not blank (`entries`). Entries do not depend on
how the list is laid out: blank lines, blanks around a line and the two kinds of line ends make no
difference (`Relaid.entries`).
-/

namespace ImageLabeling.Text

/-! ## Trimming -/

theorem trimChars_append_left {blank : List Char} (hblank : ∀ c ∈ blank, isBlank c = true)
    (cs : List Char) : trimChars (blank ++ cs) = trimChars cs := by
  rw [trimChars, List.dropWhile_append_of_pos hblank]
  rfl

theorem trimChars_append_right (cs : List Char) {blank : List Char}
    (hblank : ∀ c ∈ blank, isBlank c = true) : trimChars (cs ++ blank) = trimChars cs := by
  unfold trimChars
  rw [List.dropWhile_append]
  split
  case isTrue hnil =>
    rw [List.isEmpty_iff] at hnil
    rw [hnil, List.dropWhile_eq_nil_iff.2 hblank]
  case isFalse =>
    rw [List.reverse_append, List.dropWhile_append_of_pos]
    intro c hc
    exact hblank c (List.mem_reverse.1 hc)

/-- Only blank texts are trimmed to nothing. -/
theorem trimChars_eq_nil_iff {cs : List Char} :
    trimChars cs = [] ↔ ∀ c ∈ cs, isBlank c = true := by
  constructor
  · intro h c hc
    rw [trimChars, List.reverse_eq_nil_iff, List.dropWhile_eq_nil_iff] at h
    rw [← List.takeWhile_append_dropWhile (p := isBlank) (l := cs), List.mem_append] at hc
    rcases hc with hleft | hright
    · exact List.mem_takeWhile_imp hleft
    · exact h c (List.mem_reverse.2 hright)
  · intro h
    rw [trimChars, List.dropWhile_eq_nil_iff.2 h]
    rfl

/-- What has no blanks at its ends is not changed. -/
theorem trimChars_self {cs : List Char} (hhead : ∀ c, cs.head? = some c → isBlank c = false)
    (hlast : ∀ c, cs.getLast? = some c → isBlank c = false) : trimChars cs = cs := by
  have hdrop : ∀ xs : List Char, (∀ c, xs.head? = some c → isBlank c = false) →
      xs.dropWhile isBlank = xs := by
    intro xs hxs
    cases xs with
    | nil => rfl
    | cons c xs => rw [List.dropWhile_cons_of_neg (by simp [hxs c rfl])]
  rw [trimChars, hdrop cs hhead, hdrop, List.reverse_reverse]
  intro c hc
  rw [List.head?_reverse] at hc
  exact hlast c hc

/-! ## Entries -/

/-- No piece of a text has the character that the text is split at. -/
theorem notMem_of_mem_splitOn {α : Type} [BEq α] [LawfulBEq α] {a : α} {text piece : List α}
    (h : piece ∈ text.splitOn a) : a ∉ piece := by
  induction text generalizing piece with
  | nil =>
    rw [List.splitOn_nil, List.mem_singleton] at h
    simp [h]
  | cons b rest ih =>
    rw [List.splitOn_cons_eq_if_modifyHead] at h
    split at h
    case isTrue =>
      rcases List.mem_cons.1 h with rfl | h
      · simp
      · exact ih h
    case isFalse hb =>
      obtain ⟨first, later, hsplit⟩ := List.exists_cons_of_ne_nil (List.splitOn_ne_nil a rest)
      rw [hsplit, List.modifyHead_cons] at h
      rcases List.mem_cons.1 h with rfl | h
      · have hfirst : a ∉ first := ih (by rw [hsplit]; exact List.mem_cons_self ..)
        have hne : a ≠ b := by
          rintro rfl
          simp at hb
        simp [hne, hfirst]
      · exact ih (by rw [hsplit]; exact List.mem_cons_of_mem _ h)

/-- Texts of one line, each ended by a line feed, are the pieces between line feeds. -/
theorem splitOn_ended {lines : List (List Char)} (h : ∀ line ∈ lines, '\n' ∉ line) :
    (lines.flatMap (· ++ ['\n'])).splitOn '\n' = lines ++ [[]] := by
  induction lines with
  | nil => rfl
  | cons line lines ih =>
    obtain ⟨hline, hlines⟩ := List.forall_mem_cons.1 h
    rw [List.flatMap_cons, List.append_assoc, List.singleton_append,
      List.splitOn_append_cons_self, List.splitOn_eq_singleton hline, ih hlines]
    rfl

theorem blank_return : ∀ c ∈ ['\r'], isBlank c = true ∧ c ≠ '\n' := by
  intro c hc
  rw [List.mem_singleton.1 hc]
  decide

/-- The lines of a text that are not blank, without the blanks around them. -/
def entries (text : List Char) : List (List Char) :=
  ((text.splitOn '\n').map trimChars).filter (· ≠ [])

theorem trimChars_ended (line : List Char) :
    trimChars (if line.getLast? = some '\r' then line.dropLast else line) = trimChars line := by
  split
  case isTrue hreturn =>
    obtain ⟨start, rfl⟩ := List.getLast?_eq_some_iff.1 hreturn
    rw [List.dropLast_concat, trimChars_append_right _ fun c hc => (blank_return c hc).1]
  case isFalse => rfl

/-- The entries of a text are those of its lines. -/
theorem entries_eq (text : List Char) :
    entries text = ((lines text).map trimChars).filter (· ≠ []) := by
  obtain ⟨before, last, hpieces⟩ : ∃ before last, text.splitOn '\n' = before ++ [last] :=
    (List.eq_nil_or_concat' _).resolve_left (List.splitOn_ne_nil _ _)
  have hended : (before.map fun line =>
      if line.getLast? = some '\r' then line.dropLast else line).map trimChars =
        before.map trimChars := by
    rw [List.map_map]
    exact List.map_congr_left fun line _ => trimChars_ended line
  unfold entries lines
  rw [hpieces]
  dsimp only
  rw [List.dropLast_concat, List.getLast?_concat, Option.getD_some]
  split
  case isTrue hnil =>
    rw [hended, hnil, List.map_append, List.filter_append]
    exact List.append_nil _
  case isFalse => rw [List.map_append, List.map_append, hended]

theorem entries_append (above below : List Char) :
    entries (above ++ '\n' :: below) = entries above ++ entries below := by
  rw [entries, List.splitOn_append_cons_self, List.map_append, List.filter_append]
  rfl

theorem entries_of_notMem {row : List Char} (h : '\n' ∉ row) :
    entries row = [trimChars row].filter (· ≠ []) := by
  rw [entries, List.splitOn_eq_singleton h]
  rfl

theorem entries_blank {row : List Char} (h : ∀ c ∈ row, isBlank c = true ∧ c ≠ '\n') :
    entries row = [] := by
  rw [entries_of_notMem fun hmem => (h _ hmem).2 rfl,
    trimChars_eq_nil_iff.2 fun c hc => (h c hc).1]
  rfl

/-- Blanks around a row make no difference. -/
theorem entries_pad {left row right : List Char} (hrow : '\n' ∉ row)
    (hleft : ∀ c ∈ left, isBlank c = true ∧ c ≠ '\n')
    (hright : ∀ c ∈ right, isBlank c = true ∧ c ≠ '\n') :
    entries (left ++ row ++ right) = entries row := by
  have hpadded : '\n' ∉ left ++ row ++ right := by
    simp only [List.mem_append, not_or]
    exact ⟨⟨fun hmem => (hleft _ hmem).2 rfl, hrow⟩, fun hmem => (hright _ hmem).2 rfl⟩
  rw [entries_of_notMem hpadded, entries_of_notMem hrow,
    trimChars_append_right _ fun c hc => (hright c hc).1,
    trimChars_append_left fun c hc => (hleft c hc).1]

/-! ## Layouts -/

/-- Rows with a line feed between any two of them. -/
def unlines (rows : List (List Char)) : List Char := List.intercalate ['\n'] rows

theorem unlines_cons_cons (row next : List Char) (rows : List (List Char)) :
    unlines (row :: next :: rows) = row ++ '\n' :: unlines (next :: rows) := by
  simp [unlines, List.intercalate]

/-- The entries of rows are gathered row by row. -/
theorem entries_unlines (rows : List (List Char)) :
    entries (unlines rows) = rows.flatMap entries := by
  induction rows with
  | nil => rfl
  | cons row rows ih =>
    cases rows with
    | nil => simp [unlines, List.intercalate]
    | cons next rows =>
      rw [unlines_cons_cons, entries_append, ih]
      rfl

/-- Every line feed after a carriage return. -/
def withReturns (text : List Char) : List Char :=
  text.flatMap fun c => if c = '\n' then ['\r', '\n'] else [c]

theorem withReturns_of_notMem {row : List Char} (h : '\n' ∉ row) : withReturns row = row := by
  induction row with
  | nil => rfl
  | cons c row ih =>
    rw [List.mem_cons, not_or] at h
    rw [withReturns, List.flatMap_cons, if_neg (Ne.symm h.1)]
    exact congrArg (c :: ·) (ih h.2)

theorem withReturns_append (above below : List Char) :
    withReturns (above ++ '\n' :: below) =
      withReturns above ++ ['\r'] ++ '\n' :: withReturns below := by
  simp [withReturns]

theorem entries_withReturns (text : List Char) : entries (withReturns text) = entries text := by
  have hrows : ∀ rows : List (List Char), (∀ row ∈ rows, '\n' ∉ row) →
      entries (withReturns (unlines rows)) = rows.flatMap entries := by
    intro rows
    induction rows with
    | nil => exact fun _ => rfl
    | cons row rows ih =>
      intro hfree
      obtain ⟨hrow, hrows⟩ := List.forall_mem_cons.1 hfree
      cases rows with
      | nil =>
        simp [unlines, List.intercalate, withReturns_of_notMem hrow]
      | cons next rows =>
        have hpad : entries ([] ++ row ++ ['\r']) = entries row :=
          entries_pad hrow (by simp) blank_return
        rw [unlines_cons_cons, withReturns_append, entries_append, ih hrows,
          withReturns_of_notMem hrow, List.flatMap_cons]
        exact congrArg (· ++ _) hpad
  have hsplit := hrows (text.splitOn '\n') fun row => notMem_of_mem_splitOn
  rw [← entries_unlines, unlines, List.intercalate_splitOn] at hsplit
  exact hsplit

/-- The second text is another layout of the same list: rows that are blank come and go, rows get
blanks at their ends or lose them, and line feeds get carriage returns or lose them. -/
inductive Relaid : List Char → List Char → Prop
  | insert (above below : List (List Char)) {blank : List Char}
    (hblank : ∀ c ∈ blank, isBlank c = true ∧ c ≠ '\n') :
    Relaid (unlines (above ++ below)) (unlines (above ++ blank :: below))
  | pad (above below : List (List Char)) {left row right : List Char} (hrow : '\n' ∉ row)
    (hleft : ∀ c ∈ left, isBlank c = true ∧ c ≠ '\n')
    (hright : ∀ c ∈ right, isBlank c = true ∧ c ≠ '\n') :
    Relaid (unlines (above ++ row :: below)) (unlines (above ++ (left ++ row ++ right) :: below))
  | returns (text : List Char) : Relaid text (withReturns text)
  | symm {text text' : List Char} (h : Relaid text text') : Relaid text' text
  | trans {text text' text'' : List Char} (h : Relaid text text') (h' : Relaid text' text'') :
    Relaid text text''

/-- **The layout of a list makes no difference to its entries.** -/
theorem Relaid.entries {text text' : List Char} (h : Relaid text text') :
    Text.entries text' = Text.entries text := by
  induction h with
  | insert above below hblank =>
    rw [entries_unlines, entries_unlines, List.flatMap_append, List.flatMap_append,
      List.flatMap_cons, entries_blank hblank, List.nil_append]
  | pad above below hrow hleft hright =>
    rw [entries_unlines, entries_unlines, List.flatMap_append, List.flatMap_append,
      List.flatMap_cons, List.flatMap_cons, entries_pad hrow hleft hright]
  | returns text => exact entries_withReturns text
  | symm _ ih => exact ih.symm
  | trans _ _ ih ih' => exact ih'.trans ih

/-- Texts of one line without blanks at its ends, each ended by a line feed, are the entries. -/
theorem entries_written {names : List (List Char)}
    (h : ∀ name ∈ names, '\n' ∉ name ∧ name ≠ [] ∧ trimChars name = name) :
    entries (names.flatMap (· ++ ['\n'])) = names := by
  have htrim : names.map trimChars = names :=
    (List.map_congr_left fun name hname => (h name hname).2.2).trans (List.map_id _)
  have hfilled : names.filter (· ≠ []) = names :=
    List.filter_eq_self.2 fun name hname => decide_eq_true (h name hname).2.1
  rw [entries, splitOn_ended fun name hname => (h name hname).1, List.map_append, htrim,
    List.filter_append, hfilled]
  exact List.append_nil _

end ImageLabeling.Text
