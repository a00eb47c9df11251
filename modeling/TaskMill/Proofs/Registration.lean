import TaskMill.Proofs.Check
import TaskMill.TaskFile.Basic
/-!
# TaskMill — from entries to a registry

An entry of a task file is **valid** if it makes sense by itself (`Valid`). It then
stands for a task that has all its fields as they are (`declared`). A file comes
to a registry exactly if all its entries are valid and no two share a name, and
that registry holds the tasks of the entries, in the order of the file.

An entry **offends** if it is not valid or has the name of an earlier entry
(`Offends`). What is wrong with a file is decided by the first entry that offends.
Such an entry can do both; then only that it is not valid is told.

That names are distinct is not assumed anywhere. A registry carries this itself, so
where a run over entries has got to, the entries passed have distinct names.

## Results

* `TaskEntry.toTask_eq_ok_iff` — an entry comes to a task exactly if it is valid.
* `TaskFile.tasks_of_foldlM` — what a run over entries adds to a registry.
* `TaskFile.toRegistry_tells` — what a file comes to.
-/

namespace TaskMill

-- ---------------------------------------------------------------------------
-- One entry
-- ---------------------------------------------------------------------------

namespace TaskEntry

/-- An entry makes sense by itself. -/
structure Valid (e : TaskEntry) : Prop where
  named    : Text.isBlankText e.name = false
  phony    : e.phony = some true → e.artifact = none
  artifact : e.phony = some false → e.artifact ≠ none
  command  : ∀ command ∈ e.command, Text.isBlankText command = false
  args     : e.command = none → e.args = []
  timeout  : e.timeoutSecs ≠ some 0

/-- The task that an entry stands for. Neither its name nor its command is
trimmed. -/
def declared (e : TaskEntry) : Task where
  name := e.name
  kind := e.artifact.elim .phony .artifact
  dependsOn := e.dependsOn
  action := e.command.map fun command => ⟨command, e.args⟩
  description := e.description
  directory := e.directory
  timeout := e.timeoutSecs.map fun secs => secs.toNat * 1000

variable {e : TaskEntry} {file : Path} {fault : Fault}

theorem kind?_eq_ok_iff {kind : TaskKind} :
    e.kind? = .ok kind ↔
      ((e.phony = some true → e.artifact = none) ∧ (e.phony = some false → e.artifact ≠ none)) ∧
        e.declared.kind = kind := by
  unfold kind? declared
  rcases e.phony with _ | _ | _ <;> cases e.artifact <;> simp

theorem action?_eq_ok_iff {action : Option Action} :
    e.action? = .ok action ↔
      ((∀ command ∈ e.command, Text.isBlankText command = false) ∧
        (e.command = none → e.args = [])) ∧ e.declared.action = action := by
  unfold action? declared
  cases e.command with
  | none => cases e.args <;> simp
  | some command => cases hBlank : Text.isBlankText command <;> simp [hBlank]

theorem timeout?_eq_ok_iff {timeout : Option Nat} :
    e.timeout? = .ok timeout ↔ e.timeoutSecs ≠ some 0 ∧ e.declared.timeout = timeout := by
  unfold timeout? declared
  cases e.timeoutSecs with
  | none => simp
  | some secs => by_cases hZero : secs = 0 <;> simp [hZero]

theorem taskOrProblem_eq_ok_iff {task : Task} :
    e.taskOrProblem = .ok task ↔ e.Valid ∧ e.declared = task := by
  constructor
  · intro h
    unfold taskOrProblem at h
    cases hNamed : Text.isBlankText e.name with
    | true => simp [hNamed, throw, throwThe, MonadExceptOf.throw, bind, Except.bind] at h
    | false =>
      rw [hNamed] at h
      obtain ⟨kind, hKind, h⟩ := Except.bind_eq_ok h
      obtain ⟨action, hAction, h⟩ := Except.bind_eq_ok h
      obtain ⟨timeout, hTimeout, h⟩ := Except.bind_eq_ok h
      obtain ⟨⟨hPhony, hArtifact⟩, rfl⟩ := kind?_eq_ok_iff.mp hKind
      obtain ⟨⟨hCommand, hArgs⟩, rfl⟩ := action?_eq_ok_iff.mp hAction
      obtain ⟨hNotZero, rfl⟩ := timeout?_eq_ok_iff.mp hTimeout
      exact ⟨⟨hNamed, hPhony, hArtifact, hCommand, hArgs, hNotZero⟩, Except.ok.inj h⟩
  · rintro ⟨hValid, rfl⟩
    have hKind := kind?_eq_ok_iff.mpr ⟨⟨hValid.phony, hValid.artifact⟩, rfl⟩
    have hAction := action?_eq_ok_iff.mpr ⟨⟨hValid.command, hValid.args⟩, rfl⟩
    have hTimeout := timeout?_eq_ok_iff.mpr ⟨hValid.timeout, rfl⟩
    unfold taskOrProblem
    rw [hValid.named, hKind, hAction, hTimeout]
    rfl

theorem toTask_eq_ok_iff {task : Task} :
    e.toTask file = .ok task ↔ e.Valid ∧ e.declared = task := by
  rw [toTask, mapError_eq_ok_iff, taskOrProblem_eq_ok_iff]

/-- An entry that does not come to a task is not valid, and what is wrong with it is
told together with the file. -/
theorem toTask_eq_error_iff :
    e.toTask file = .error fault ↔ ¬ e.Valid ∧
      ∃ problem, e.taskOrProblem = .error problem ∧ fault = .configuration problem (some file) := by
  rw [toTask, mapError_eq_error_iff]
  constructor
  · rintro ⟨problem, hProblem, rfl⟩
    refine ⟨fun hValid => ?_, problem, hProblem, rfl⟩
    rw [taskOrProblem_eq_ok_iff.mpr ⟨hValid, rfl⟩] at hProblem
    cases hProblem
  · rintro ⟨-, problem, hProblem, rfl⟩
    exact ⟨problem, hProblem, rfl⟩

end TaskEntry

-- ---------------------------------------------------------------------------
-- One registration
-- ---------------------------------------------------------------------------

namespace Registry

variable {r r' : Registry} {task : Task} {fault : Fault}

theorem tasks_of_register (h : r.register task = .ok r') : r'.tasks = r.tasks ++ [task] := by
  unfold register at h
  split at h
  · cases h
  · rw [← Except.ok.inj h]

theorem register_eq_error_iff :
    r.register task = .error fault ↔
      r.contains task.name = true ∧ fault = .duplicateTask task.name := by
  unfold register
  split
  case isTrue hKnown => simp [hKnown, eq_comm]
  case isFalse hNew => simp [hNew]

end Registry

-- ---------------------------------------------------------------------------
-- All entries
-- ---------------------------------------------------------------------------

namespace TaskFile

open TaskEntry (declared)

variable {f : TaskFile} {file : Path} {r r' : Registry} {entries : List TaskEntry}

/-- The entry at an index is not valid, or has the name of an earlier one. -/
def Offends (f : TaskFile) (i : Nat) : Prop :=
  ∃ e, f.tasks[i]? = some e ∧ (¬ e.Valid ∨ e.name ∈ (f.tasks.take i).map TaskEntry.name)

theorem names_declared : (entries.map declared).map Task.name = entries.map TaskEntry.name := by
  rw [List.map_map]
  rfl

/-- A run over entries adds their tasks to a registry, and all of them are valid. -/
theorem tasks_of_foldlM
    (h : entries.foldlM (fun r entry => do r.register (← entry.toTask file)) r = .ok r') :
    (∀ e ∈ entries, e.Valid) ∧ r'.tasks = r.tasks ++ entries.map declared := by
  induction entries generalizing r with
  | nil =>
    rw [List.foldlM_nil] at h
    rw [← Except.ok.inj h]
    simp
  | cons e rest ih =>
    rw [List.foldlM_cons] at h
    obtain ⟨next, hFirst, hRest⟩ := Except.bind_eq_ok h
    obtain ⟨task, hTask, hNext⟩ := Except.bind_eq_ok hFirst
    obtain ⟨hValid, rfl⟩ := TaskEntry.toTask_eq_ok_iff.mp hTask
    obtain ⟨hValids, hTasks⟩ := ih hRest
    refine ⟨List.forall_mem_cons.mpr ⟨hValid, hValids⟩, ?_⟩
    rw [hTasks, Registry.tasks_of_register hNext]
    simp

theorem tasks_of_toRegistry (h : f.toRegistry file = .ok r) :
    (∀ e ∈ f.tasks, e.Valid) ∧ r.tasks = f.tasks.map declared :=
  tasks_of_foldlM h

/-- Of entries with distinct names, none has the name of an earlier one. -/
theorem not_mem_take_of_nodup {i : Nat} {e : TaskEntry}
    (hDistinct : (entries.map TaskEntry.name).Nodup) (hEntry : entries[i]? = some e) :
    e.name ∉ (entries.take i).map TaskEntry.name := by
  have hNames : ((entries.take (i + 1)).map TaskEntry.name).Nodup :=
    hDistinct.sublist ((List.take_sublist _ _).map _)
  rw [List.take_add_one, hEntry, List.map_append, List.nodup_append] at hNames
  exact fun hMem => hNames.2.2 _ hMem _ (by simp) rfl

/-- Valid entries of distinct names do not offend where they begin a file. -/
theorem not_offends {later : List TaskEntry} (hFile : f.tasks = entries ++ later)
    (hValid : ∀ e ∈ entries, e.Valid) (hDistinct : (entries.map TaskEntry.name).Nodup) {i : Nat}
    (hi : i < entries.length) : ¬ f.Offends i := by
  rintro ⟨e, hEntry, hOffends⟩
  rw [hFile, List.getElem?_append_left hi] at hEntry
  rw [hFile, List.take_append_of_le_length hi.le] at hOffends
  rcases hOffends with hInvalid | hRepeats
  · exact hInvalid (hValid e (List.mem_of_getElem? hEntry))
  · exact not_mem_take_of_nodup hDistinct hEntry hRepeats

/-- What is wrong with a file is what is wrong with the first entry that offends. -/
theorem exists_of_toRegistry_eq_error {fault : Fault} (h : f.toRegistry file = .error fault) :
    ∃ i e, f.tasks[i]? = some e ∧ f.Offends i ∧ (∀ j < i, ¬ f.Offends j) ∧
      ((¬ e.Valid ∧ ∃ problem, e.taskOrProblem = .error problem ∧
          fault = .configuration problem (some file)) ∨
        (e.Valid ∧ fault = .duplicateTask e.name)) := by
  obtain ⟨passed, e, later, reached, hFile, hPassed, hAt⟩ := exists_of_foldlM_eq_error h
  obtain ⟨hValid, hTasks⟩ := tasks_of_foldlM hPassed
  rw [Registry.empty, List.nil_append] at hTasks
  have hEntry : f.tasks[passed.length]? = some e := by simp [hFile]
  have hDistinct : (passed.map TaskEntry.name).Nodup := by
    rw [← names_declared, ← hTasks]
    exact reached.distinct
  have hFirst : ∀ j < passed.length, ¬ f.Offends j := fun j => not_offends hFile hValid hDistinct
  refine ⟨passed.length, e, hEntry, ?_⟩
  rcases Except.bind_eq_error_iff.mp hAt with hTask | ⟨task, hTask, hRegister⟩
  · have hInvalid := TaskEntry.toTask_eq_error_iff.mp hTask
    exact ⟨⟨e, hEntry, .inl hInvalid.1⟩, hFirst, .inl hInvalid⟩
  · obtain ⟨hValid, rfl⟩ := TaskEntry.toTask_eq_ok_iff.mp hTask
    obtain ⟨hKnown, hFault⟩ := Registry.register_eq_error_iff.mp hRegister
    have hRepeats : e.name ∈ (f.tasks.take passed.length).map TaskEntry.name := by
      rw [Registry.contains_iff, hTasks, names_declared] at hKnown
      rw [hFile, List.take_left]
      exact hKnown
    exact ⟨⟨e, hEntry, .inr hRepeats⟩, hFirst, .inr ⟨hValid, hFault⟩⟩

/-- A file comes to a registry **exactly if all its entries are valid and have
distinct names**. The registry then holds what the entries declare, in their order,
and finds just that by name. Otherwise the first entry that offends decides: what is
told is that it is not valid, or else that its name is taken. -/
theorem toRegistry_tells (f : TaskFile) (file : Path) :
    ((∃ r, f.toRegistry file = .ok r) ↔
      (∀ e ∈ f.tasks, e.Valid) ∧ (f.tasks.map TaskEntry.name).Nodup) ∧
    match f.toRegistry file with
    | .ok r =>
      r.tasks = f.tasks.map TaskEntry.declared ∧
      (∀ name task, r.get? name = some task ↔ ∃ e ∈ f.tasks, e.name = name ∧ e.declared = task) ∧
      (∀ name i, r.position? name = some i ↔ ∃ e, f.tasks[i]? = some e ∧ e.name = name)
    | .error fault =>
      ∃ i e, f.tasks[i]? = some e ∧ f.Offends i ∧ (∀ j < i, ¬ f.Offends j) ∧
        ((¬ e.Valid ∧ ∃ problem, e.taskOrProblem = .error problem ∧
            fault = .configuration problem (some file)) ∨
          (e.Valid ∧ fault = .duplicateTask e.name)) := by
  refine ⟨?_, ?_⟩
  · constructor
    · rintro ⟨r, hr⟩
      obtain ⟨hValid, hTasks⟩ := tasks_of_toRegistry hr
      exact ⟨hValid, names_declared ▸ hTasks ▸ r.distinct⟩
    · rintro ⟨hValid, hDistinct⟩
      cases hRegistry : f.toRegistry file with
      | ok r => exact ⟨r, rfl⟩
      | error fault =>
        -- what is told would be told of an entry that offends
        obtain ⟨i, e, hEntry, hOffends, -⟩ := exists_of_toRegistry_eq_error hRegistry
        exact absurd hOffends (not_offends (List.append_nil _).symm hValid hDistinct
          (List.getElem?_eq_some_iff.mp hEntry).1)
  · cases hRegistry : f.toRegistry file with
    | ok r =>
      obtain ⟨-, hTasks⟩ := tasks_of_toRegistry hRegistry
      refine ⟨hTasks, fun name task => ?_, fun name i => ?_⟩
      · rw [Registry.get?_eq_some_iff, hTasks, List.mem_map]
        constructor
        · rintro ⟨⟨e, he, rfl⟩, hName⟩
          exact ⟨e, he, hName, rfl⟩
        · rintro ⟨e, he, hName, rfl⟩
          exact ⟨⟨e, he, rfl⟩, hName⟩
      · rw [Registry.position?_eq_some_iff, hTasks, names_declared, List.getElem?_map,
          Option.map_eq_some_iff]
    | error fault => exact exists_of_toRegistry_eq_error hRegistry

/-- An entry that is not valid and repeats a name is told to be not valid. -/
example : toRegistry ⟨.none, [.named "a", { TaskEntry.named "a" with args := ["x"] }]⟩
    ⟨"tend.toml"⟩ =
      .error (.configuration "task 'a' has args but no command" (some ⟨"tend.toml"⟩)) := by
  rfl

end TaskFile

end TaskMill
