import Mathlib.Data.List.Forall2
import TaskMill.Listing
import TaskMill.Proofs.Trimming
/-!
# TaskMill — the columns of a table

A table of tasks has one row for each task. A row begins with a column for the name,
which is as many characters wide as the longest name has bytes (`IsWidest`): no text
has more characters than bytes, so every name fits. Two spaces and the marker of the
kind follow, and these begin at the same place in all rows.

A row is trimmed. Whatever a name looks like, the word of the kind that comes after it
is no white space, so trimming does not reach the name; all that it can take of the
marker is the space that fills it up behind its word, and it takes this exactly if
nothing but white space follows (`bare_iff`).

## Results

* `length_le_utf8ByteSize` — a text has no more characters than bytes.
* `toList_line` — a row in its parts.
* `table_rows` — what the rows of a table are.
* `trimmed_marker` — a marker that is not shown in full.
-/

namespace TaskMill

theorem length_le_utf8ByteSize (s : String) : s.length ≤ s.utf8ByteSize := by
  induction s using String.push_induction with
  | empty => simp
  | push front c ih =>
    have hOne : 1 ≤ c.utf8Size := c.utf8Size_pos
    rw [String.length_push, String.utf8ByteSize_push]
    omega

theorem not_mem_intercalate {α : Type} {a : α} {sep : List α} {items : List (List α)}
    (hSep : a ∉ sep) (hItems : ∀ item ∈ items, a ∉ item) : a ∉ sep.intercalate items := by
  induction items with
  | nil => simp
  | cons first rest ih =>
    obtain ⟨hFirst, hRest⟩ := List.forall_mem_cons.mp hItems
    cases rest with
    | nil => simpa using hFirst
    | cons second rest =>
      rw [List.intercalate_cons_cons, List.mem_append, List.mem_append, not_or, not_or]
      exact ⟨⟨hFirst, hSep⟩, ih hRest⟩

-- ---------------------------------------------------------------------------
-- What a row tells
-- ---------------------------------------------------------------------------

namespace TaskSummary

/-- What a table tells about a task: its description, or else its command. -/
def about (task : TaskSummary) : String := task.description.getD task.command

/-- None of the texts of a task has a line feed. -/
structure OneLine (task : TaskSummary) : Prop where
  name        : '\n' ∉ task.name.toList
  description : ∀ text ∈ task.description, '\n' ∉ text.toList
  command     : '\n' ∉ task.command.toList
  deps        : ∀ dep ∈ task.dependsOn, '\n' ∉ dep.toList

/-- There is nothing to tell of a task but its name and its kind. -/
def Bare (task : TaskSummary) : Prop :=
  task.dependsOn = [] ∧ Text.isBlankText task.about = true

theorem OneLine.about {task : TaskSummary} (h : task.OneLine) : '\n' ∉ task.about.toList := by
  unfold TaskSummary.about
  cases hText : task.description with
  | none => exact h.command
  | some text => exact h.description text hText

end TaskSummary

namespace Listing

variable {tasks : List TaskSummary} {task : TaskSummary} {W : Nat}

/-- The longest name has `W` bytes. -/
def IsWidest (tasks : List TaskSummary) (W : Nat) : Prop :=
  (∀ task ∈ tasks, task.name.utf8ByteSize ≤ W) ∧
    (tasks ≠ [] → ∃ task ∈ tasks, task.name.utf8ByteSize = W)

/-- The word of a kind. -/
def kindWord (task : TaskSummary) : List Char :=
  if task.phony then "phony".toList else "artifact".toList

/-- The list of what a task depends on, as a row tells it. -/
def dependencies (task : TaskSummary) : List Char :=
  "  (depends on: ".toList ++ ", ".toList.intercalate (task.dependsOn.map String.toList) ++ [')']

/-- What a row tells behind the marker. -/
def remark (task : TaskSummary) : List Char :=
  (if task.about.isEmpty then [] else [' ', ' '] ++ task.about.toList) ++
    if task.dependsOn.isEmpty then [] else dependencies task

/-- The columns of a row, up to the marker. -/
def columns (W : Nat) (task : TaskSummary) : List Char :=
  task.name.toList ++ List.replicate (W - task.name.length) ' ' ++ [' ', ' ']

/-- A row of a table in which names are `W` wide: the name and spaces up to that
width, two spaces and the marker of the kind, which is cut down to its word where the
task is a phony one of which there is nothing more to tell, and at last what the task
depends on. -/
structure IsRow (W : Nat) (task : TaskSummary) (row : List Char) : Prop where
  oneLine : '\n' ∉ row
  fits    : task.name.length ≤ W
  name    : row.take W = task.name.toList ++ List.replicate (W - task.name.length) ' '
  gap     : (row.drop W).take 2 = [' ', ' ']
  marked  : ¬ (task.phony = true ∧ task.Bare) → (marker task).toList <+: row.drop (W + 2)
  trimmed : task.phony = true → task.Bare → row.drop (W + 2) = "phony".toList
  depends : task.dependsOn ≠ [] → dependencies task <:+ row

theorem isWidest_width (tasks : List TaskSummary) : IsWidest tasks (width tasks) := by
  have hWidth : width tasks = ((tasks.map fun task => task.name.utf8ByteSize).max?).getD 0 := by
    rw [width, List.foldl_max]
    exact Nat.zero_max _
  constructor
  · intro task hTask
    have hSize : task.name.utf8ByteSize ∈ tasks.map fun task => task.name.utf8ByteSize :=
      List.mem_map_of_mem hTask
    rw [hWidth]
    exact List.le_max?_getD_of_mem hSize
  · intro hSome
    obtain ⟨size, hSize⟩ := Option.isSome_iff_exists.mp
      (List.isSome_max?_of_ne_nil (l := tasks.map fun task => task.name.utf8ByteSize) (by simpa))
    rw [hWidth, hSize]
    exact List.mem_map.mp (List.max?_mem hSize)

/-- A row in its parts. -/
theorem toList_line (W : Nat) (task : TaskSummary) :
    (line W task).toList =
      Text.dropBlankEnd (columns W task ++ (marker task).toList ++ remark task) := by
  let list := ", ".intercalate task.dependsOn
  have hDeps : (s!"  (depends on: {list})").toList = dependencies task := by
    show ("  (depends on: " ++ ", ".intercalate task.dependsOn ++ ")").toList = _
    rw [String.toList_append, String.toList_append, String.toList_intercalate]
    rfl
  have hRemark : remark task = (if task.about.isEmpty then "" else "  " ++ task.about).toList ++
      (if task.dependsOn.isEmpty then "" else s!"  (depends on: {list})").toList := by
    rw [apply_ite String.toList, apply_ite String.toList, hDeps, remark]
    simp
  unfold line Text.trimEnd padded
  rw [String.toList_ofList, hRemark]
  simp [columns, TaskSummary.about, list]

theorem toList_marker (task : TaskSummary) : (marker task).toList =
    kindWord task ++ if task.phony then [' ', ' ', ' '] else [] := by
  unfold marker kindWord
  split <;> rfl

/-- Trimming leaves the word of the kind. -/
theorem dropBlankEnd_marker (cs : List Char) (task : TaskSummary) :
    Text.dropBlankEnd (cs ++ (marker task).toList) = cs ++ kindWord task := by
  unfold marker kindWord
  cases task.phony with
  | true =>
    rw [if_pos rfl, if_pos rfl,
      Text.dropBlankEnd_append_of_mem (c := 'p') (by decide) (by decide)]
    rfl
  | false =>
    rw [if_neg (by simp), if_neg (by simp),
      Text.dropBlankEnd_append_of_mem (c := 'a') (by decide) (by decide)]
    rfl

theorem getLast?_dependencies (task : TaskSummary) : (dependencies task).getLast? = some ')' :=
  List.getLast?_concat

theorem remark_of_dependsOn (hDeps : task.dependsOn ≠ []) : remark task =
    (if task.about.isEmpty then [] else [' ', ' '] ++ task.about.toList) ++ dependencies task := by
  have hSome : task.dependsOn.isEmpty = false := by simpa using hDeps
  simp only [remark, hSome, Bool.false_eq_true, if_false]

theorem getLast?_remark (hDeps : task.dependsOn ≠ []) : (remark task).getLast? = some ')' := by
  rw [remark_of_dependsOn hDeps, List.getLast?_append, getLast?_dependencies]
  rfl

/-- Nothing but white space follows the marker exactly where there is nothing to
tell. -/
theorem bare_iff : task.Bare ↔ ∀ c ∈ remark task, Text.isBlank c = true := by
  unfold TaskSummary.Bare remark Text.isBlankText
  rw [List.all_eq_true]
  constructor
  · rintro ⟨hDeps, hBlank⟩ c hc
    rw [hDeps, List.isEmpty_nil, if_pos rfl, List.append_nil] at hc
    split at hc
    · cases hc
    · rcases List.mem_append.mp hc with hSpace | hAbout
      · obtain rfl : c = ' ' := by simpa using hSpace
        rfl
      · exact hBlank c hAbout
  · intro hBlank
    have hDeps : task.dependsOn = [] := by
      by_contra hSome
      exact absurd (hBlank ')' (List.mem_of_getLast? (getLast?_remark hSome))) (by decide)
    refine ⟨hDeps, fun c hc => hBlank c ?_⟩
    have hSome : task.about.isEmpty = false := by
      cases hEmpty : task.about.isEmpty with
      | false => rfl
      | true =>
        rw [String.isEmpty_iff.mp hEmpty] at hc
        simp at hc
    rw [hSome]
    simp [hc]

/-- What follows the columns of a row. -/
theorem line_of_bare (hBare : task.Bare) :
    (line W task).toList = columns W task ++ kindWord task := by
  rw [toList_line, Text.dropBlankEnd_append_of_blank (bare_iff.mp hBare), dropBlankEnd_marker]

theorem line_of_not_bare (hNot : ¬ task.Bare) : (line W task).toList =
    columns W task ++ (marker task).toList ++ Text.dropBlankEnd (remark task) := by
  rw [bare_iff] at hNot
  push Not at hNot
  obtain ⟨c, hMem, hShown⟩ := hNot
  rw [toList_line, Text.dropBlankEnd_append_of_mem hMem (Bool.eq_false_iff.mpr hShown)]

/-- What a task depends on stands at the end of its row. -/
theorem dependencies_suffix (hDeps : task.dependsOn ≠ []) :
    dependencies task <:+ (line W task).toList := by
  have hNot : ¬ task.Bare := fun hBare => hDeps hBare.1
  have hFull : Text.dropBlankEnd (remark task) = remark task := by
    refine Text.dropBlankEnd_of_getLast? fun c hc => ?_
    rw [getLast?_remark hDeps] at hc
    obtain rfl := Option.some.inj hc
    rfl
  rw [line_of_not_bare hNot, hFull, remark_of_dependsOn hDeps, ← List.append_assoc]
  exact List.suffix_append _ _

theorem not_mem_line (hLine : task.OneLine) : '\n' ∉ (line W task).toList := by
  have hDeps : '\n' ∉ dependencies task := by
    have hList : '\n' ∉ ", ".toList.intercalate (task.dependsOn.map String.toList) :=
      not_mem_intercalate (by decide) (by simpa using hLine.deps)
    unfold dependencies
    rw [List.mem_append, List.mem_append, not_or, not_or]
    exact ⟨⟨by decide, hList⟩, by decide⟩
  have hRemark : '\n' ∉ remark task := by
    have hAbout := hLine.about
    unfold remark
    split <;> split <;> simp [hAbout, hDeps]
  have hMarker : '\n' ∉ (marker task).toList := by
    unfold marker
    split <;> decide
  have hColumns : '\n' ∉ columns W task := by simp [columns, hLine.name]
  rw [toList_line]
  intro hMem
  have hAll := (List.rdropWhile_prefix Text.isBlank _).mem hMem
  rw [List.mem_append, List.mem_append] at hAll
  tauto

/-- **What a row of a table is.** -/
theorem isRow_line (hLine : task.OneLine) (hFits : task.name.utf8ByteSize ≤ W) :
    IsRow W task (line W task).toList := by
  have hLength : task.name.length ≤ W := (length_le_utf8ByteSize task.name).trans hFits
  have hName : (task.name.toList ++ List.replicate (W - task.name.length) ' ').length = W := by
    rw [List.length_append, List.length_replicate, String.length_toList]
    omega
  have hColumns : (columns W task).length = W + 2 := by
    rw [columns, List.length_append, hName]
    rfl
  -- whatever is trimmed, it comes after the columns
  obtain ⟨rest, hRest⟩ : ∃ rest, (line W task).toList = columns W task ++ rest := by
    by_cases hBare : task.Bare
    · exact ⟨_, line_of_bare hBare⟩
    · exact ⟨_, (line_of_not_bare hBare).trans (List.append_assoc _ _ _)⟩
  have hDrop : (line W task).toList.drop (W + 2) = rest := by
    rw [hRest, List.drop_left' hColumns]
  refine ⟨not_mem_line hLine, hLength, ?_, ?_, fun hShown => ?_, fun hPhony hBare => ?_,
    dependencies_suffix⟩
  · rw [hRest, columns, List.append_assoc, List.take_left' hName]
  · rw [hRest, columns, List.append_assoc, List.drop_left' hName]
    rfl
  · rw [hDrop]
    by_cases hBare : task.Bare
    · have hArtifact : task.phony = false := by
        rw [← Bool.not_eq_true]
        exact fun hPhony => hShown ⟨hPhony, hBare⟩
      obtain rfl := List.append_cancel_left (hRest.symm.trans (line_of_bare hBare))
      have hMarker : (marker task).toList = kindWord task := by
        rw [toList_marker, hArtifact, if_neg (by simp), List.append_nil]
      exact hMarker ▸ List.prefix_rfl
    · obtain rfl := List.append_cancel_left
        (hRest.symm.trans ((line_of_not_bare hBare).trans (List.append_assoc _ _ _)))
      exact List.prefix_append _ _
  · rw [hDrop]
    obtain rfl := List.append_cancel_left (hRest.symm.trans (line_of_bare hBare))
    rw [kindWord, if_pos hPhony]

/-- **What a table is**: a row for each task, in order, and a line feed after each. All
rows have their columns at the same places, which the longest name decides. -/
theorem table_rows {tasks : List TaskSummary} (hLines : ∀ task ∈ tasks, task.OneLine) :
    ∃ W rows, IsWidest tasks W ∧ List.Forall₂ (IsRow W) tasks rows ∧
      (table tasks).toList = rows.flatMap (· ++ ['\n']) := by
  obtain ⟨hWidest, hSome⟩ := isWidest_width tasks
  refine ⟨width tasks, tasks.map fun task => (line (width tasks) task).toList, ⟨hWidest, hSome⟩,
    ?_, ?_⟩
  · rw [List.forall₂_map_right_iff, List.forall₂_same]
    exact fun task hTask => isRow_line (hLines task hTask) (hWidest task hTask)
  · rw [table, String.toList_join, List.flatMap_map, List.flatMap_map]
    simp

/-- A name with more bytes than characters and a blank description, and a task that
depends on it. -/
def mixed : List TaskSummary :=
  [⟨"né", true, none, [], "make", some "\u3000"⟩, ⟨"do", false, some ⟨"o"⟩, ["né", "x"], "", none⟩]

/-- The column of names is as wide as `né` has bytes. -/
theorem table_rows_mixed :
    table mixed = "né   phony\ndo   artifact  (depends on: né, x)\n" ∧
      (∀ task ∈ mixed, task.OneLine) ∧
      ∃ rows, List.Forall₂ (IsRow 3) mixed rows ∧
        (table mixed).toList = rows.flatMap (· ++ ['\n']) := by
  have hLines : ∀ task ∈ mixed, task.OneLine := by
    intro task hTask
    simp only [mixed, List.mem_cons, List.not_mem_nil, or_false] at hTask
    rcases hTask with rfl | rfl <;> exact ⟨by decide, by decide, by decide, by decide⟩
  obtain ⟨W, rows, ⟨hWidest, hSome⟩, hRows, hTable⟩ := table_rows hLines
  have hWidth : W = 3 := by
    have hFirst : 3 ≤ W := hWidest ⟨"né", true, none, [], "make", some "\u3000"⟩ (by simp [mixed])
    obtain ⟨task, hTask, hSize⟩ := hSome (by simp [mixed])
    have hAll : ∀ task ∈ mixed, task.name.utf8ByteSize ≤ 3 := by decide +kernel
    have hLast := hAll task hTask
    omega
  subst hWidth
  exact ⟨by decide +kernel, hLines, rows, hRows, hTable⟩

/-- **A marker that is not shown in full**: where nothing follows the marker of a phony
task, the spaces that fill it up are trimmed with the end of the row. -/
theorem trimmed_marker :
    marker ⟨"a", true, none, [], "", none⟩ = "phony   " ∧
      TaskSummary.OneLine ⟨"a", true, none, [], "", none⟩ ∧
      table [⟨"a", true, none, [], "", none⟩] = "a  phony\n" ∧
      ∀ rest : String, table [⟨"a", true, none, [], "", none⟩] ≠
        "a" ++ "  " ++ marker ⟨"a", true, none, [], "", none⟩ ++ rest := by
  have hTable : table [⟨"a", true, none, [], "", none⟩] = "a  phony\n" := by decide +kernel
  refine ⟨rfl, ⟨by decide, by decide, by decide, by decide⟩, hTable, fun rest hSame => ?_⟩
  rw [hTable] at hSame
  have hText := congrArg String.toList hSame
  simp [marker] at hText

end Listing

end TaskMill
