import TaskMill.Proofs.Capture
import TaskMill.Proofs.ExitCode
import TaskMill.Proofs.Trimming
/-!
# TaskMill — the ends of captured streams

What is shown of a captured stream is said without the code that cuts it (`IsSection`):
the text without the white space at its end has lines, and the last of them stand
below a heading, as many as the limit allows. The heading tells how many lines there
are if some are left out. A blank stream has no section.

A failed task has a snippet of what it printed exactly if one of its streams is not
blank, and the summary of a failure says that nothing was captured exactly if there is
none.

## Results

* `Tail.isSection_of_section?` — what a section is.
* `Tail.streams_eq_empty_iff` — nothing is shown of blank streams only.
* `stopsAt_of_taskFailed` — what a run tells of a failed task was captured from it.
* `Tail.streams_tell` — all that is shown of two streams.
-/

namespace TaskMill

namespace Tail

variable {label text s : String} {limit : Nat}

-- ---------------------------------------------------------------------------
-- Sections
-- ---------------------------------------------------------------------------

/-- What stands above the last lines of a stream of `total` lines. -/
def heading (label : String) (limit total : Nat) : String :=
  if limit < total then s!"{label} (last {limit} of {total} lines):" else s!"{label}:"

/-- The last lines of a text without the white space at its end, at most `limit` of
them, below their heading. -/
inductive IsSection (label text : String) (limit : Nat) : String → Prop
  | intro {kept : List Char} {lines left shown : List (List Char)}
      (hKept : Text.Trimmed text.toList kept) (hLines : Text.Lined '\n' '\r' kept lines)
      (hShown : lines = left ++ shown) (hLength : shown.length = min limit lines.length) :
      IsSection label text limit
        (heading label limit lines.length ++ "\n" ++ "\n".intercalate (shown.map String.ofList))

theorem section?_eq_none_iff : section? label text limit = none ↔ Text.isBlankText text = true := by
  rw [← Text.trimEnd_eq_empty_iff, section?]
  dsimp only
  split <;> simp_all

/-- **What a section is.** -/
theorem isSection_of_section? (h : section? label text limit = some s) :
    IsSection label text limit s := by
  unfold section? at h
  dsimp only at h
  split at h
  case isTrue => cases h
  case isFalse =>
    obtain rfl := Option.some.inj h
    have hKept : Text.Trimmed text.toList (Text.trimEnd text).toList :=
      Text.trimmed_iff.mpr (String.toList_ofList)
    obtain ⟨lines, hLines⟩ := Text.exists_lined '\n' '\r' (Text.trimEnd text).toList
    have hCut := Text.eq_cutLines_of_lined hLines
    have hText : Text.lines (Text.trimEnd text) = lines.map String.ofList := by
      rw [Text.lines, ← hCut]
    rw [hText, List.length_map, ← List.map_drop]
    exact .intro hKept hLines (List.take_append_drop (lines.length - limit) lines).symm
      (by rw [List.length_drop]; omega)

theorem IsSection.ne_empty (h : IsSection label text limit s) : s ≠ "" := by
  obtain @⟨kept, lines, left, shown, -, -, -, -⟩ := h
  intro hEmpty
  have hText := congrArg String.toList hEmpty
  simp at hText

-- ---------------------------------------------------------------------------
-- Both streams
-- ---------------------------------------------------------------------------

variable {stdout stderr : String}

/-- The streams that there is something to show of, with their labels. -/
def shownStreams (stdout stderr : String) : List (String × String) :=
  [("stdout", stdout), ("stderr", stderr)].filter fun stream => !Text.isBlankText stream.2

theorem shownStreams_eq_nil_iff : shownStreams stdout stderr = [] ↔
    Text.isBlankText stdout = true ∧ Text.isBlankText stderr = true := by
  simp [shownStreams]

/-- Each stream that is not blank has its section, and no other one has. -/
theorem forall₂_isSection (streams : List (String × String)) (limit : Nat) :
    List.Forall₂ (fun stream s => IsSection stream.1 stream.2 limit s)
      (streams.filter fun stream => !Text.isBlankText stream.2)
      (streams.filterMap fun stream => section? stream.1 stream.2 limit) := by
  induction streams with
  | nil => exact .nil
  | cons stream rest ih =>
    cases hSection : section? stream.1 stream.2 limit with
    | none =>
      have hBlank : Text.isBlankText stream.2 = true := section?_eq_none_iff.mp hSection
      rw [List.filter_cons_of_neg (by simp [hBlank])]
      simpa only [List.filterMap_cons, hSection] using ih
    | some s =>
      have hShown : Text.isBlankText stream.2 = false := by
        rw [← Bool.not_eq_true]
        intro hBlank
        rw [section?_eq_none_iff.mpr hBlank] at hSection
        cases hSection
      rw [List.filter_cons_of_pos (by simp [hShown])]
      simpa only [List.filterMap_cons, hSection] using .cons (isSection_of_section? hSection) ih

/-- What is shown is the sections of the streams that are not blank. -/
theorem exists_sections (stdout stderr : String) (limit : Nat) :
    ∃ sections, streams stdout stderr limit = "\n\n".intercalate sections ∧
      List.Forall₂ (fun stream s => IsSection stream.1 stream.2 limit s)
        (shownStreams stdout stderr) sections := by
  refine ⟨_, ?_, forall₂_isSection [("stdout", stdout), ("stderr", stderr)] limit⟩
  have hSections : [section? "stdout" stdout limit, section? "stderr" stderr limit] =
      [("stdout", stdout), ("stderr", stderr)].map
        (fun stream => section? stream.1 stream.2 limit) := rfl
  rw [streams, hSections, List.filterMap_map, Function.id_comp]

/-- **Nothing is shown of blank streams only.** -/
theorem streams_eq_empty_iff : streams stdout stderr limit = "" ↔
    Text.isBlankText stdout = true ∧ Text.isBlankText stderr = true := by
  obtain ⟨sections, hStreams, hSections⟩ := exists_sections stdout stderr limit
  rw [← shownStreams_eq_nil_iff, hStreams]
  generalize shownStreams stdout stderr = shown at hSections
  cases hSections with
  | nil => simp
  | cons hFirst hRest =>
    have hSome := hFirst.ne_empty
    cases hRest with
    | nil => simpa using hSome
    | cons _ _ => simp [String.intercalate_cons_cons, hSome]

/-- The line above what is shown of a failed task. -/
def opening (name : String) (exitCode : Option Int) : String :=
  let code := (exitCode.map toString).getD "none (killed by signal)"
  s!"Task '{name}' failed with exit code {code}."

theorem isEmpty_streams (stdout stderr : String) (limit : Nat) :
    (streams stdout stderr limit).isEmpty =
      (Text.isBlankText stdout && Text.isBlankText stderr) := by
  rw [Bool.eq_iff_iff, String.isEmpty_iff, streams_eq_empty_iff, Bool.and_eq_true]

theorem summary_eq (name : String) (exitCode : Option Int) (stdout stderr : String) (limit : Nat) :
    summary name exitCode stdout stderr limit = opening name exitCode ++ "\n\n" ++
      if Text.isBlankText stdout && Text.isBlankText stderr then
        "No stdout/stderr were captured; rerun with --capture to include task output."
      else streams stdout stderr limit := by
  have hBreak : toString ".\n\n" = toString "." ++ "\n\n" := rfl
  rw [summary, isEmpty_streams, opening, hBreak]
  simp only [String.append_assoc]

end Tail

-- ---------------------------------------------------------------------------
-- What a run tells
-- ---------------------------------------------------------------------------

variable {σ : Type} {h : Host σ} {r : Registry} {o : RunOptions} {target name : String} {s : σ}

/-- A run comes to the turn of the task `name`, whose process finishes without
success. -/
def Host.StopsAt (h : Host σ) (r : Registry) (o : RunOptions) (target : String) (s : σ)
    (name : String) (finished : Finished) : Prop :=
  ∃ (plan : List Task) (p : Point h r o) (t : Turn h r o) (action : Action),
    r.plan target = .ok plan ∧ p.Reached plan s ∧ p.turn? = some t ∧ t.name = name ∧
    t.task.action = some action ∧
    (h.performAction o t.task action t.ready).result = .ok finished ∧
    finished.status.isSuccess = false

theorem Finished.snippet_eq (f : Finished) : f.snippet =
    if Text.isBlankText (f.text .stdout) && Text.isBlankText (f.text .stderr) then none
    else some (Tail.streams (f.text .stdout) (f.text .stderr) Tail.snippetLines) := by
  rw [← Tail.isEmpty_streams _ _ Tail.snippetLines]
  rfl

/-- **What a run tells of a failed task** was captured from it. -/
theorem stopsAt_of_taskFailed {code : Option Int} {output : Option String}
    (hRun : (h.run r o target s).result = .error (.taskFailed name code output)) :
    ∃ finished, h.StopsAt r o target s name finished ∧ code = finished.status.code? ∧
      output = finished.snippet := by
  obtain ⟨plan, p, t, hPlan, hReached, hTurn, hFault⟩ := exists_turn_of_isOfProcess rfl hRun
  obtain ⟨action, finished, hAction, hResult, -, hFailed, rfl, hCode, hOutput⟩ :=
    Turn.exists_finished hFault
  exact ⟨finished, ⟨plan, p, t, action, hPlan, hReached, hTurn, rfl, hAction, hResult, hFailed⟩,
    hCode, hOutput⟩

/--
**What is shown of two captured streams**, whatever texts they are and however many
lines may be shown:

* nothing is shown exactly if both hold nothing but white space;
* what is shown are the sections of the streams that hold something else, in order,
  with an empty line between any two;
* a summary of the failure has them below its first line, or says that there is
  nothing;
* a run that fails of a task tells what is shown of the streams captured from its
  process, or nothing exactly if there is nothing to show.
-/
theorem Tail.streams_tell (stdout stderr : String) (limit : Nat) :
    (streams stdout stderr limit = "" ↔
      Text.isBlankText stdout = true ∧ Text.isBlankText stderr = true) ∧
    (∃ sections, streams stdout stderr limit = "\n\n".intercalate sections ∧
      List.Forall₂ (fun stream s => IsSection stream.1 stream.2 limit s)
        (shownStreams stdout stderr) sections) ∧
    (∀ name exitCode, summary name exitCode stdout stderr limit =
      opening name exitCode ++ "\n\n" ++
        if Text.isBlankText stdout && Text.isBlankText stderr then
          "No stdout/stderr were captured; rerun with --capture to include task output."
        else streams stdout stderr limit) ∧
    ∀ (σ : Type) (h : Host σ) (r : Registry) (o : RunOptions) (target : String) (s : σ)
      (name : String) (code : Option Int) (output : Option String),
      (h.run r o target s).result = .error (.taskFailed name code output) →
      ∃ finished, h.StopsAt r o target s name finished ∧ code = finished.status.code? ∧
        output =
          if Text.isBlankText (finished.text .stdout) && Text.isBlankText (finished.text .stderr)
          then none
          else some (streams (finished.text .stdout) (finished.text .stderr) snippetLines) := by
  refine ⟨streams_eq_empty_iff, exists_sections stdout stderr limit, fun name exitCode =>
    summary_eq name exitCode stdout stderr limit, ?_⟩
  intro σ h r o target s name code output hRun
  obtain ⟨finished, hStops, hCode, hOutput⟩ := stopsAt_of_taskFailed hRun
  exact ⟨finished, hStops, hCode, hOutput.trans finished.snippet_eq⟩

open Lone in
/-- The word that a failed process said is all there is to show of it. -/
theorem Tail.streams_tell_lone :
    (workspace.run project.registry (commandLine.runOptions project) "lone" ()).result =
        .error (.taskFailed "lone" (some 7) (some "stdout:\noh")) ∧
      ∃ finished, workspace.StopsAt project.registry (commandLine.runOptions project) "lone" ()
          "lone" finished ∧ some 7 = finished.status.code? ∧
        some "stdout:\noh" =
          if Text.isBlankText (finished.text .stdout) && Text.isBlankText (finished.text .stderr)
          then none
          else some (streams (finished.text .stdout) (finished.text .stderr) snippetLines) := by
  have hTold := (Tail.streams_tell "oh" "" 20).2.2.2
  exact ⟨run_fails, hTold _ _ _ _ _ _ _ _ _ run_fails⟩

example : Tail.streams "one\r\ntwo\n \n" "\t\n" 1 = "stdout (last 1 of 2 lines):\ntwo" := by
  decide +kernel

end TaskMill
