import Mathlib
import TaskMill.Proofs.Shapes
import TaskMill.TaskFile.Parse
/-!
# TaskMill — the schema of task files

A task file is **written as** a table with a key for everything that it says and no
other key (`TaskFile.WrittenAs`): what is not said is left out, and what is empty is
left out or written as it is. Whoever reads such a table gets the task file back; and
among the values that are made of tables nothing else is read as a task file.

## Results

* `TaskFile.ofToml_table_iff` — which tables are read, and as what.
* `TaskFile.ofToml_written` — every task file is read from some table.
* `TaskFile.ofToml_ne_ok_of_astray` — a table with something astray is not read.
* `TaskFile.parse_accepts_schema` — the same of the text of a task file.
-/

namespace TaskMill

open Toml (Slot)

-- ---------------------------------------------------------------------------
-- Single values
-- ---------------------------------------------------------------------------

namespace Toml

/-- A count as a value. -/
def count (n : UInt64) : Toml := .integer (some n.toNat)

/-- A path as a value. -/
def path (p : Path) : Toml := .string p.text

theorem asText_eq_ok_iff (v : Toml) (s : String) : v.asText = .ok s ↔ v = .string s := by
  cases v <;> simp [asText]

theorem asPath_eq_ok_iff (v : Toml) (p : Path) : v.asPath = .ok p ↔ v = .path p := by
  obtain ⟨text⟩ := p
  cases v <;> simp [asPath, path]

theorem asFlag_eq_ok_iff (v : Toml) (b : Bool) : v.asFlag = .ok b ↔ v = .boolean b := by
  cases v <;> simp [asFlag]

theorem asCount_eq_ok_iff (v : Toml) (n : UInt64) : v.asCount = .ok n ↔ v = .count n := by
  have hCount : (Word.count 64 : Int) = 18446744073709551616 := rfl
  constructor
  · intro h
    cases v with
    | integer value =>
      cases value with
      | none => simp [asCount] at h
      | some m =>
        simp only [asCount] at h
        split_ifs at h with hHolds hSigned
        obtain rfl := Except.ok.inj h
        simp only [Word.holds, decide_eq_true_eq, hCount] at hHolds
        have hToNat : (UInt64.ofNat m.toNat).toNat = m.toNat := by
          rw [UInt64.toNat_ofNat']
          omega
        unfold count
        rw [hToNat, Int.toNat_of_nonneg hHolds.1]
    | _ => simp [asCount] at h
  · rintro rfl
    have hLt : n.toNat < 18446744073709551616 := n.toNat_lt
    have hHolds : Word.holds 64 n.toNat = true := by
      simp only [Word.holds, decide_eq_true_eq, hCount]
      omega
    simp [asCount, count, hHolds]

/-- A text denotes the table that its statements make up. -/
theorem parse_of_read {text : String} (first : Char) (drafts : Entries) (header : List String)
    (hFirst : text.toList.head? = some first) (hMark : first ≠ '\uFEFF')
    (hRead : (wellFormed (statements? text.toList) >>= fun statements =>
      statements.foldlM Statement.read .start) = .ok ⟨drafts, header, false⟩) :
    parse text = .ok (.table (closeEntries drafts)) := by
  have hNoMark : ¬ some first = some '\uFEFF' := by simpa using hMark
  simp only [parse, hFirst, if_neg hNoMark, ← bind_assoc, hRead]
  rfl

end Toml

-- ---------------------------------------------------------------------------
-- Settings
-- ---------------------------------------------------------------------------

namespace Settings

/-- The table that settings are written as. -/
structure WrittenAs (s : Settings) (entries : List (String × Toml)) : Prop where
  distinct : (entries.map Prod.fst).Nodup
  known : ∀ key ∈ entries.map Prod.fst, key ∈ ["default", "timeout_secs", "capture_output"]
  default : entries.lookup "default" = s.default.map .string
  timeoutSecs : entries.lookup "timeout_secs" = s.timeoutSecs.map .count
  captureOutput : entries.lookup "capture_output" = s.captureOutput.map .boolean

/-- The slots of settings. -/
def slots : List (Slot Settings) := [
  .optional "default" Toml.asText Settings.default fun x s => { s with default := x },
  .optional "timeout_secs" Toml.asCount timeoutSecs fun x s => { s with timeoutSecs := x },
  .optional "capture_output" Toml.asFlag captureOutput fun x s => { s with captureOutput := x }]

theorem hasSlots : shape.HasSlots .none slots where
  keys := rfl
  distinct := by decide
  start := by simp [slots, Slot.optional, none]
  add := by simp [slots, shape, Slot.optional]
  get_set := by simp [slots, Slot.optional]
  others := by simp [slots, Slot.optional]
  ext := by
    rintro ⟨_, _, _⟩ ⟨_, _, _⟩ h
    simpa [slots, Slot.optional] using h

theorem read_table_iff {s : Settings} {entries : List (String × Toml)}
    (hDistinct : (entries.map Prod.fst).Nodup) :
    shape.read .none [] (.table entries) = .ok s ↔ s.WrittenAs entries := by
  rw [Toml.Shape.read_table_eq_ok_iff, hasSlots.ofEntries_eq_ok_iff hDistinct]
  simp only [slots, List.forall_mem_cons, List.not_mem_nil, IsEmpty.forall_iff,
    implies_true, and_true,
    Slot.says_optional Toml.asText_eq_ok_iff, Slot.says_optional Toml.asCount_eq_ok_iff,
    Slot.says_optional Toml.asFlag_eq_ok_iff]
  constructor
  · rintro ⟨hKnown, hDefault, hTimeout, hCapture⟩
    exact ⟨hDistinct, hKnown, hDefault, hTimeout, hCapture⟩
  · intro h
    exact ⟨h.known, h.default, h.timeoutSecs, h.captureOutput⟩

/-- What settings can say. -/
def keyed (s : Settings) : List (String × Option Toml) := [
  ("default", s.default.map .string),
  ("timeout_secs", s.timeoutSecs.map .count),
  ("capture_output", s.captureOutput.map .boolean)]

theorem writtenAs_present (s : Settings) : s.WrittenAs (Table.present s.keyed) := by
  have hDistinct : (s.keyed.map Prod.fst).Nodup := by
    show ["default", "timeout_secs", "capture_output"].Nodup
    decide
  exact {
    distinct := Table.keys_present.nodup hDistinct
    known := fun _ hKey => Table.keys_present.subset hKey
    default := Table.lookup_present hDistinct
    timeoutSecs := Table.lookup_present hDistinct
    captureOutput := Table.lookup_present hDistinct }

end Settings

-- ---------------------------------------------------------------------------
-- Tasks
-- ---------------------------------------------------------------------------

/-- How a list is written: in full, or not at all if it is empty. -/
def Toml.WritesTexts (texts : List String) (found : Option Toml) : Prop :=
  found = some (.array (texts.map .string)) ∨ texts = [] ∧ found = none

namespace TaskEntry

/-- The table that the declaration of a task is written as. -/
structure WrittenAs (e : TaskEntry) (entries : List (String × Toml)) : Prop where
  distinct : (entries.map Prod.fst).Nodup
  known : ∀ key ∈ entries.map Prod.fst, key ∈ ["name", "description", "phony", "artifact",
    "depends_on", "command", "args", "directory", "timeout_secs"]
  name : entries.lookup "name" = some (.string e.name)
  description : entries.lookup "description" = e.description.map .string
  phony : entries.lookup "phony" = e.phony.map .boolean
  artifact : entries.lookup "artifact" = e.artifact.map .path
  dependsOn : Toml.WritesTexts e.dependsOn (entries.lookup "depends_on")
  command : entries.lookup "command" = e.command.map .string
  args : Toml.WritesTexts e.args (entries.lookup "args")
  directory : entries.lookup "directory" = e.directory.map .path
  timeoutSecs : entries.lookup "timeout_secs" = e.timeoutSecs.map .count

/-- The slot of the name, which must not be missing. -/
def nameSlot : Slot TaskEntry :=
  ⟨"name", String, "", Toml.asText, TaskEntry.name, fun x e => { e with name := x }⟩

/-- The slots of the declaration of a task. -/
def slots : List (Slot TaskEntry) := [
  nameSlot,
  .optional "description" Toml.asText description fun x e => { e with description := x },
  .optional "phony" Toml.asFlag phony fun x e => { e with phony := x },
  .optional "artifact" Toml.asPath artifact fun x e => { e with artifact := x },
  .list "depends_on" Toml.asText dependsOn fun x e => { e with dependsOn := x },
  .optional "command" Toml.asText command fun x e => { e with command := x },
  .list "args" Toml.asText args fun x e => { e with args := x },
  .optional "directory" Toml.asPath directory fun x e => { e with directory := x },
  .optional "timeout_secs" Toml.asCount timeoutSecs fun x e => { e with timeoutSecs := x }]

theorem hasSlots : shape.HasSlots (.named "") slots where
  keys := rfl
  distinct := by decide
  start := by simp [slots, nameSlot, Slot.optional, Slot.list, named]
  add := by simp [slots, nameSlot, shape, Slot.optional, Slot.list]
  get_set := by simp [slots, nameSlot, Slot.optional, Slot.list]
  others := by simp [slots, nameSlot, Slot.optional, Slot.list]
  ext := by
    rintro ⟨_, _, _, _, _, _, _, _, _⟩ ⟨_, _, _, _, _, _, _, _, _⟩ h
    simpa [slots, nameSlot, Slot.optional, Slot.list] using h

theorem says_name_iff {e : TaskEntry} {found : Option Toml} (hFound : found.isSome = true) :
    nameSlot.Says e found ↔ found = some (.string e.name) := by
  cases found with
  | none => cases hFound
  | some v =>
    show v.asText = .ok e.name ↔ _
    rw [Toml.asText_eq_ok_iff, Option.some_inj]

theorem read_table_iff {e : TaskEntry} {entries : List (String × Toml)}
    (hDistinct : (entries.map Prod.fst).Nodup) :
    shape.read (.named "") ["name"] (.table entries) = .ok e ↔ e.WrittenAs entries := by
  rw [Toml.Shape.read_table_eq_ok_iff, hasSlots.ofEntries_eq_ok_iff hDistinct]
  simp only [slots, List.forall_mem_cons, List.not_mem_nil, IsEmpty.forall_iff,
    implies_true, and_true,
    Slot.says_optional Toml.asText_eq_ok_iff, Slot.says_optional Toml.asCount_eq_ok_iff,
    Slot.says_optional Toml.asFlag_eq_ok_iff, Slot.says_optional Toml.asPath_eq_ok_iff,
    Slot.says_list Toml.asText_eq_ok_iff]
  constructor
  · rintro ⟨⟨hKnown, hName, hDescription, hPhony, hArtifact, hDependsOn, hCommand, hArgs,
      hDirectory, hTimeout⟩, hNamed⟩
    have hWritten := (says_name_iff (Table.isSome_lookup_iff.mpr hNamed)).mp hName
    exact ⟨hDistinct, hKnown, hWritten, hDescription, hPhony, hArtifact, hDependsOn, hCommand,
      hArgs, hDirectory, hTimeout⟩
  · intro h
    have hNamed : (entries.lookup "name").isSome = true := by rw [h.name, Option.isSome_some]
    exact ⟨⟨h.known, (says_name_iff hNamed).mpr h.name, h.description, h.phony, h.artifact,
      h.dependsOn, h.command, h.args, h.directory, h.timeoutSecs⟩,
      Table.isSome_lookup_iff.mp hNamed⟩

/-- What the declaration of a task can say. -/
def keyed (e : TaskEntry) : List (String × Option Toml) := [
  ("name", some (.string e.name)),
  ("description", e.description.map .string),
  ("phony", e.phony.map .boolean),
  ("artifact", e.artifact.map .path),
  ("depends_on", some (.array (e.dependsOn.map .string))),
  ("command", e.command.map .string),
  ("args", some (.array (e.args.map .string))),
  ("directory", e.directory.map .path),
  ("timeout_secs", e.timeoutSecs.map .count)]

theorem writtenAs_present (e : TaskEntry) : e.WrittenAs (Table.present e.keyed) := by
  have hDistinct : (e.keyed.map Prod.fst).Nodup := by
    show ["name", "description", "phony", "artifact", "depends_on", "command", "args",
      "directory", "timeout_secs"].Nodup
    decide
  exact {
    distinct := Table.keys_present.nodup hDistinct
    known := fun _ hKey => Table.keys_present.subset hKey
    name := Table.lookup_present hDistinct
    description := Table.lookup_present hDistinct
    phony := Table.lookup_present hDistinct
    artifact := Table.lookup_present hDistinct
    dependsOn := .inl (Table.lookup_present hDistinct)
    command := Table.lookup_present hDistinct
    args := .inl (Table.lookup_present hDistinct)
    directory := Table.lookup_present hDistinct
    timeoutSecs := Table.lookup_present hDistinct }

end TaskEntry

-- ---------------------------------------------------------------------------
-- Task files
-- ---------------------------------------------------------------------------

namespace TaskFile

/-- The table that a task file is written as. The tasks are in order. -/
structure WrittenAs (f : TaskFile) (entries : List (String × Toml)) : Prop where
  distinct : (entries.map Prod.fst).Nodup
  known : ∀ key ∈ entries.map Prod.fst, key ∈ ["settings", "task"]
  settings : (∃ table, entries.lookup "settings" = some (.table table) ∧
      f.settings.WrittenAs table) ∨
    f.settings = .none ∧ entries.lookup "settings" = none
  tasks : (∃ tables : List (List (String × Toml)),
      entries.lookup "task" = some (.array (tables.map .table)) ∧
      List.Forall₂ (fun table e => TaskEntry.WrittenAs e table) tables f.tasks) ∨
    f.tasks = [] ∧ entries.lookup "task" = none

/-- Where a task file has a table there is one, and its keys are distinct. -/
structure InTables (entries : List (String × Toml)) : Prop where
  distinct : (entries.map Prod.fst).Nodup
  settings : ∀ v, entries.lookup "settings" = some v →
    ∃ table, v = .table table ∧ (table.map Prod.fst).Nodup
  tasks : ∀ items, entries.lookup "task" = some (.array items) → ∀ item ∈ items,
    ∃ table, item = .table table ∧ (table.map Prod.fst).Nodup

/-- The slot of the settings. -/
def settingsSlot : Slot TaskFile :=
  ⟨"settings", Settings, .none, Settings.shape.read .none [], TaskFile.settings,
    fun x f => { f with settings := x }⟩

/-- The slot of the tasks. -/
def tasksSlot : Slot TaskFile :=
  .list "task" (TaskEntry.shape.read (.named "") ["name"]) TaskFile.tasks
    fun x f => { f with tasks := x }

theorem hasSlots : shape.HasSlots .empty [settingsSlot, tasksSlot] where
  keys := rfl
  distinct := by decide
  start := by simp [settingsSlot, tasksSlot, Slot.list, empty]
  add := by simp [settingsSlot, tasksSlot, Slot.list, shape]
  get_set := by simp [settingsSlot, tasksSlot, Slot.list]
  others := by simp [settingsSlot, tasksSlot, Slot.list]
  ext := by
    rintro ⟨_, _⟩ ⟨_, _⟩ h
    simpa [settingsSlot, tasksSlot, Slot.list] using h

variable {f : TaskFile} {entries : List (String × Toml)}

theorem says_settings_iff {found : Option Toml} (hTable : ∀ v, found = some v →
    ∃ table, v = .table table ∧ (table.map Prod.fst).Nodup) :
    settingsSlot.Says f found ↔
      (∃ table, found = some (.table table) ∧ f.settings.WrittenAs table) ∨
        f.settings = .none ∧ found = none := by
  cases found with
  | none => simp [Slot.Says, settingsSlot]
  | some v =>
    obtain ⟨table, rfl, hDistinct⟩ := hTable v rfl
    show Settings.shape.read .none [] (.table table) = .ok f.settings ↔ _
    simp [Settings.read_table_iff hDistinct]

theorem forall₂_read_iff {tables : List (List (String × Toml))} {tasks : List TaskEntry}
    (hDistinct : ∀ table ∈ tables, (table.map Prod.fst).Nodup) :
    List.Forall₂ (fun w e => TaskEntry.shape.read (.named "") ["name"] w = .ok e)
        (tables.map .table) tasks ↔
      List.Forall₂ (fun table e => TaskEntry.WrittenAs e table) tables tasks := by
  rw [List.forall₂_map_left_iff]
  induction tables generalizing tasks with
  | nil => simp
  | cons table rest ih =>
    obtain ⟨hTable, hRest⟩ := List.forall_mem_cons.mp hDistinct
    cases tasks with
    | nil => simp
    | cons task later =>
      rw [List.forall₂_cons, List.forall₂_cons, TaskEntry.read_table_iff hTable, ih hRest]

private theorem exists_tables {items : List Toml} (hTables : ∀ item ∈ items,
    ∃ table, item = .table table ∧ (table.map Prod.fst).Nodup) :
    ∃ tables : List (List (String × Toml)), items = tables.map .table ∧
      ∀ table ∈ tables, (table.map Prod.fst).Nodup := by
  induction items with
  | nil => exact ⟨[], rfl, by simp⟩
  | cons item rest ih =>
    obtain ⟨⟨table, rfl, hDistinct⟩, hRest⟩ := List.forall_mem_cons.mp hTables
    obtain ⟨tables, rfl, hOthers⟩ := ih hRest
    exact ⟨table :: tables, rfl, List.forall_mem_cons.mpr ⟨hDistinct, hOthers⟩⟩

theorem says_tasks_iff {found : Option Toml} (hTables : ∀ items, found = some (.array items) →
    ∀ item ∈ items, ∃ table, item = .table table ∧ (table.map Prod.fst).Nodup) :
    tasksSlot.Says f found ↔
      (∃ tables : List (List (String × Toml)), found = some (.array (tables.map .table)) ∧
        List.Forall₂ (fun table e => TaskEntry.WrittenAs e table) tables f.tasks) ∨
        f.tasks = [] ∧ found = none := by
  cases found with
  | none => simp [Slot.Says, tasksSlot, Slot.list]
  | some v =>
    show Toml.asList _ v = .ok f.tasks ↔ _
    rw [Toml.asList_eq_ok_iff]
    constructor
    · rintro ⟨items, rfl, hRead⟩
      obtain ⟨tables, rfl, hDistinct⟩ := exists_tables (hTables items rfl)
      exact .inl ⟨tables, rfl, (forall₂_read_iff hDistinct).mp hRead⟩
    · rintro (⟨tables, hArray, hWritten⟩ | ⟨-, hNone⟩)
      · obtain rfl := Option.some.inj hArray
        refine ⟨tables.map .table, rfl, (forall₂_read_iff fun table hTable => ?_).mpr hWritten⟩
        obtain ⟨_, hSame, hDistinct⟩ := hTables _ rfl _ (List.mem_map_of_mem hTable)
        obtain rfl := Toml.table.inj hSame
        exact hDistinct
      · cases hNone

/-- **A table is read** as the task file that is written as this table, if all in it that
is to be a table is one. -/
theorem ofToml_table_iff (hTables : InTables entries) :
    ofToml (.table entries) = .ok f ↔ f.WrittenAs entries := by
  unfold ofToml
  rw [Toml.Shape.read_table_eq_ok_iff, hasSlots.ofEntries_eq_ok_iff hTables.distinct]
  simp only [List.forall_mem_cons, List.not_mem_nil, IsEmpty.forall_iff, implies_true, and_true]
  have hSettings := says_settings_iff (f := f) hTables.settings
  have hTasks := says_tasks_iff (f := f) hTables.tasks
  constructor
  · rintro ⟨hKnown, hSays, hSays'⟩
    exact ⟨hTables.distinct, hKnown, hSettings.mp hSays, hTasks.mp hSays'⟩
  · intro h
    exact ⟨h.known, hSettings.mpr h.settings, hTasks.mpr h.tasks⟩

/-- What a task file is written as consists of tables. -/
theorem WrittenAs.inTables (h : f.WrittenAs entries) : InTables entries where
  distinct := h.distinct
  settings v hFound := by
    rcases h.settings with ⟨table, hTable, hWritten⟩ | ⟨-, hNone⟩
    · rw [hTable] at hFound
      exact ⟨table, (Option.some.inj hFound).symm, hWritten.distinct⟩
    · rw [hNone] at hFound
      cases hFound
  tasks items hFound item hItem := by
    rcases h.tasks with ⟨tables, hArray, hWritten⟩ | ⟨-, hNone⟩
    · rw [hArray] at hFound
      obtain rfl := Toml.array.inj (Option.some.inj hFound)
      obtain ⟨table, hTable, rfl⟩ := List.mem_map.mp hItem
      obtain ⟨e, hTask⟩ := exists_of_forall₂ hWritten hTable
      exact ⟨table, rfl, hTask.distinct⟩
    · rw [hNone] at hFound
      cases hFound

/-- The table with all that a task file says. -/
def written (f : TaskFile) : List (String × Toml) := [
  ("settings", .table (Table.present f.settings.keyed)),
  ("task", .array (f.tasks.map fun e => .table (Table.present e.keyed)))]

theorem writtenAs_written (f : TaskFile) : f.WrittenAs f.written where
  distinct := by
    show ["settings", "task"].Nodup
    decide
  known _ hKey := hKey
  settings := .inl ⟨_, rfl, f.settings.writtenAs_present⟩
  tasks := by
    refine .inl ⟨f.tasks.map fun e => Table.present e.keyed, ?_, ?_⟩
    · rw [List.map_map]
      rfl
    · rw [List.forall₂_map_left_iff, List.forall₂_same]
      exact fun e _ => e.writtenAs_present

/-- **Every task file can be written** and read back. -/
theorem ofToml_written (f : TaskFile) : ofToml (.table f.written) = .ok f :=
  (ofToml_table_iff f.writtenAs_written.inTables).mpr f.writtenAs_written

-- ---------------------------------------------------------------------------
-- What is astray
-- ---------------------------------------------------------------------------

/-- Something in a table that no task file has, whatever else there is: an unknown key,
there or in the table of the settings or of a task, or a task without a name. -/
inductive Astray (entries : List (String × Toml)) : Prop
  | file {key : String} (hKey : key ∈ entries.map Prod.fst) (hUnknown : key ∉ ["settings", "task"])
  | settings {table : List (String × Toml)} {key : String}
      (hTable : ("settings", .table table) ∈ entries) (hKey : key ∈ table.map Prod.fst)
      (hUnknown : key ∉ ["default", "timeout_secs", "capture_output"])
  | task {items : List Toml} {table : List (String × Toml)} {key : String}
      (hTasks : ("task", .array items) ∈ entries) (hTable : .table table ∈ items)
      (hKey : key ∈ table.map Prod.fst)
      (hUnknown : key ∉ ["name", "description", "phony", "artifact", "depends_on", "command",
        "args", "directory", "timeout_secs"])
  | unnamed {items : List Toml} {table : List (String × Toml)}
      (hTasks : ("task", .array items) ∈ entries) (hTable : .table table ∈ items)
      (hName : "name" ∉ table.map Prod.fst)

/-- **A table with something astray is not read.** -/
theorem ofToml_ne_ok_of_astray (hAstray : Astray entries) : ofToml (.table entries) ≠ .ok f := by
  intro hOk
  unfold ofToml at hOk
  obtain ⟨hEntries, -⟩ := Toml.Shape.read_table_eq_ok_iff.mp hOk
  have hTask {items : List Toml} {table : List (String × Toml)}
      (hTasks : ("task", .array items) ∈ entries) (hTable : .table table ∈ items) :
      ∃ e, TaskEntry.shape.read (.named "") ["name"] (.table table) = .ok e := by
    obtain ⟨tasks, hRead⟩ := hasSlots.exists_read_of_ofEntries (f := tasksSlot) (by simp)
      hEntries hTasks
    have hRead : Toml.asList (TaskEntry.shape.read (.named "") ["name"]) (.array items) =
      .ok tasks := hRead
    obtain ⟨_, hItems, hRead⟩ := Toml.asList_eq_ok_iff.mp hRead
    obtain rfl := Toml.array.inj hItems
    exact exists_of_forall₂ hRead hTable
  cases hAstray with
  | file hKey hUnknown => exact hUnknown (Toml.Shape.known_of_ofEntries hEntries _ hKey)
  | @settings table key hTable hKey hUnknown =>
    obtain ⟨s, hRead⟩ := hasSlots.exists_read_of_ofEntries (f := settingsSlot) (by simp)
      hEntries hTable
    have hRead : Settings.shape.read .none [] (.table table) = .ok s := hRead
    obtain ⟨hRead, -⟩ := Toml.Shape.read_table_eq_ok_iff.mp hRead
    exact hUnknown (Toml.Shape.known_of_ofEntries hRead _ hKey)
  | task hTasks hTable hKey hUnknown =>
    obtain ⟨e, hRead⟩ := hTask hTasks hTable
    obtain ⟨hRead, -⟩ := Toml.Shape.read_table_eq_ok_iff.mp hRead
    exact hUnknown (Toml.Shape.known_of_ofEntries hRead _ hKey)
  | unnamed hTasks hTable hName =>
    obtain ⟨e, hRead⟩ := hTask hTasks hTable
    obtain ⟨-, hNeeded⟩ := Toml.Shape.read_table_eq_ok_iff.mp hRead
    exact hName (hNeeded "name" List.mem_cons_self)

-- ---------------------------------------------------------------------------
-- The text of a task file
-- ---------------------------------------------------------------------------

/-- **A task file is accepted exactly in its schema.** Where a text is that of a table, the
task file that is written as this table is read from the text; nothing else is, if all
in it that is to be a table is one; and whatever there is besides, with something astray
the configuration is at fault, and the fault names the file. -/
theorem parse_accepts_schema {source : String} {entries : List (String × Toml)}
    (hToml : Toml.parse source = .ok (.table entries)) (file : Path) :
    (∀ f, f.WrittenAs entries → parse source file = .ok f) ∧
    (∀ f, InTables entries → parse source file = .ok f → f.WrittenAs entries) ∧
    (Astray entries → ∃ detail : String,
      parse source file = .error (.configuration s!"{file.text}: {detail}" (some file))) := by
  have hParse : parse source file = ofTomlAt (.table entries) file := by
    unfold parse
    rw [hToml]
    rfl
  have hOk (f : TaskFile) : parse source file = .ok f ↔ ofToml (.table entries) = .ok f := by
    rw [hParse]
    exact mapError_eq_ok_iff
  refine ⟨fun f hWritten => ?_, fun f hTables hRead => ?_, fun hAstray => ?_⟩
  · exact (hOk f).mpr ((ofToml_table_iff hWritten.inTables).mpr hWritten)
  · exact (ofToml_table_iff hTables).mp ((hOk f).mp hRead)
  · rw [hParse]
    unfold ofTomlAt
    cases hRead : ofToml (.table entries) with
    | error e => exact ⟨_, rfl⟩
    | ok f => exact absurd hRead (ofToml_ne_ok_of_astray hAstray)

namespace Sample

/-- A text with a task and a setting. -/
def text : String := "[[task]]\nname='t'\nargs=[]\n[settings]\ntimeout_secs=9"

/-- The table that the text denotes. -/
def table : List (String × Toml) := [
  ("task", .array [.table [("name", .string "t"), ("args", .array [])]]),
  ("settings", .table [("timeout_secs", .integer (some 9))])]

/-- The task file that the text is of. -/
def taskFile : TaskFile := ⟨⟨none, some 9, none⟩, [.named "t"]⟩

theorem parse_text : Toml.parse text = .ok (.table table) := by
  let drafts : Toml.Entries := [
    ("task", .openArray [[("name", .closed (.string "t")), ("args", .closed (.array []))]]),
    ("settings", .open_ .headed [("timeout_secs", .closed (.integer (some 9)))])]
  have hParse : Toml.parse text = .ok (.table (Toml.closeEntries drafts)) :=
    Toml.parse_of_read '[' drafts ["settings"] (by cbv) (by decide) (by cbv)
  rw [hParse]
  simp only [drafts, Toml.closeEntries, Toml.Draft.close, Toml.closeTables]
  rfl

theorem writtenAs : taskFile.WrittenAs table where
  distinct := by decide
  known := by simp [table]
  settings := .inl ⟨_, rfl, by decide, by simp, rfl, rfl, rfl⟩
  tasks := .inl ⟨[[("name", .string "t"), ("args", .array [])]], rfl,
    .cons ⟨by decide, by simp, rfl, rfl, rfl, rfl, .inr ⟨rfl, rfl⟩, rfl, .inl rfl, rfl, rfl⟩ .nil⟩

/-- A text with a key that a task does not have. -/
def misspelt : String := "[[task]]\nname='t'\ncomand='c'"

theorem parse_misspelt : Toml.parse misspelt =
    .ok (.table [("task", .array [.table [("name", .string "t"), ("comand", .string "c")]])]) := by
  let drafts : Toml.Entries := [
    ("task", .openArray [[("name", .closed (.string "t")), ("comand", .closed (.string "c"))]])]
  have hParse : Toml.parse misspelt = .ok (.table (Toml.closeEntries drafts)) :=
    Toml.parse_of_read '[' drafts ["task"] (by cbv) (by decide) (by cbv)
  rw [hParse]
  simp only [drafts, Toml.closeEntries, Toml.Draft.close, Toml.closeTables]
  rfl

/-- The one text is accepted and the other one is not. -/
theorem parse_accepts_schema_sample :
    Toml.parse text = .ok (.table table) ∧ taskFile.WrittenAs table ∧
      parse text ⟨"tend.toml"⟩ = .ok taskFile ∧
      ∃ detail : String, parse misspelt ⟨"tend.toml"⟩ =
        .error (.configuration s!"tend.toml: {detail}" (some ⟨"tend.toml"⟩)) := by
  obtain ⟨hWritten, -, -⟩ := parse_accepts_schema parse_text ⟨"tend.toml"⟩
  obtain ⟨-, -, hAstray⟩ := parse_accepts_schema parse_misspelt ⟨"tend.toml"⟩
  refine ⟨parse_text, writtenAs, hWritten taskFile writtenAs, hAstray ?_⟩
  exact .task List.mem_cons_self List.mem_cons_self (.tail _ (.head _))
    (by decide : "comand" ∉ _)

end Sample

end TaskFile

end TaskMill
