import TaskMill.Proofs.Course
/-!
# TaskMill — what a run tells

The events of a run, in order, are its **trace**. A trace follows one protocol,
whatever the host does. It begins with the plan, it ends with the end of the run,
and in between it tells the turns one after the other: each task that ended well
has its **block**, and a task that did not has what is left of one
(`Fragment`).

One thing can come behind the end. If the operating system refuses to tell how a
process ended, a run does not wait for it any longer, but what the process writes
is still read, and told **late**. These are lines of output of the task at which the
run failed, and nothing else (`Turn.late_spec`). A host is **quiet** if no such lines
come (`Host.Quiet`).

The blocks tell which tasks were executed and which were skipped, so a report
says nothing that its trace does not.

## Results

* `told_performAction` — what is told while an action is performed.
* `Turn.told_spec` — a turn tells a block if it ended well, and else a fragment.
* `Turn.late_spec` — what is told late, and when.
* `filter_isTerminal_trace` — a run tells its end once.
* `trace_of_run` — what is told of every run.
-/

namespace TaskMill

variable {σ : Type} {h : Host σ} {r : Registry} {o : RunOptions}

-- ---------------------------------------------------------------------------
-- The protocol
-- ---------------------------------------------------------------------------

/-- The events of a run, in order: those of the run, and those that come late. -/
def Host.trace (h : Host σ) (r : Registry) (o : RunOptions) (target : String) (s : σ) :
    List Event :=
  ((h.run r o target s).emissions ++ (h.run r o target s).late).filterMap Emission.event?

/-- Nothing comes late: when a process is not waited for any longer, nothing more is
read of what it writes. -/
def Host.Quiet (h : Host σ) : Prop :=
  ∀ s launch p error late, (h.perform s launch).1 = .ok p → p.ending = .lost error late → late = []

/-- The name of the task that an event shows. -/
def TaskEvent.subject : TaskEvent → String
  | started name _ => name
  | skipped name _ => name
  | output name _ _ => name
  | completed name _ _ _ => name
  | timedOut name _ => name

namespace Event

/-- A line that a task's process wrote. -/
def IsOutput (name : String) (e : Event) : Prop :=
  ∃ stream line, e = .task (.output name stream line)

/-- An event of the task with a name. -/
def IsAbout (name : String) (e : Event) : Prop :=
  ∃ event, e = .task event ∧ event.subject = name

/-- Whether an event ends a run. -/
def isTerminal : Event → Bool
  | .run (.completed ..) => true
  | .run (.cancelled ..) => true
  | _ => false

end Event

/-- That a task's process is about to start. -/
def Task.started (task : Task) (action : Action) : Event :=
  .task (.started task.name action.line)

/-- What is told of a task that ended well. -/
inductive Block (task : Task) : Outcome → List Event → Prop
  | skipped : Block task (.skipped task.name)
      [.task (.skipped task.name Freshness.upToDate.reason)]
  | aggregate : Block task (.aggregate task.name) []
  | executed {action : Action} {finished : Finished} {outputs : List Event} {ms : UInt64}
      (hAction : task.action = some action)
      (hOutputs : ∀ e ∈ outputs, e.IsOutput task.name) :
      Block task (.executed task.name finished)
        (task.started action :: outputs ++ [.task (.completed task.name true (some 0) ms)])

/-- What is told of a task that did not end well: nothing, or that it was
started, what it wrote, and at most one more event, that it took too long or
that it failed. -/
inductive Fragment (task : Task) : List Event → Prop
  | nothing : Fragment task []
  | begun {action : Action} {outputs ending : List Event} (hAction : task.action = some action)
      (hOutputs : ∀ e ∈ outputs, e.IsOutput task.name)
      (hEnding : ending = [] ∨ (∃ secs, ending = [.task (.timedOut task.name secs)]) ∨
        ∃ code ms, ending = [.task (.completed task.name false code ms)]) :
      Fragment task (task.started action :: outputs ++ ending)

-- ---------------------------------------------------------------------------
-- Reading a trace
-- ---------------------------------------------------------------------------

section Reading

variable {task : Task} {tasks : List Task} {outcomes : List Outcome} {told : List Event}

/-- A reading that takes no notice of output finds nothing in it. -/
theorem filterMap_outputs {α : Type} {read : Event → Option α}
    (hRead : ∀ name stream line, read (.task (.output name stream line)) = none)
    (hOutputs : ∀ e ∈ told, e.IsOutput task.name) : told.filterMap read = [] := by
  rw [List.filterMap_eq_nil_iff]
  intro e he
  obtain ⟨stream, line, rfl⟩ := hOutputs e he
  exact hRead task.name stream line

theorem isAbout_begun {action : Action} {outputs ending : List Event}
    (hOutputs : ∀ e ∈ outputs, e.IsOutput task.name)
    (hEnding : ∀ e ∈ ending, e.IsAbout task.name) :
    ∀ e ∈ task.started action :: outputs ++ ending, e.IsAbout task.name := by
  intro e he
  rw [List.cons_append, List.mem_cons, List.mem_append] at he
  rcases he with rfl | he | he
  · exact ⟨_, rfl, rfl⟩
  · obtain ⟨stream, line, rfl⟩ := hOutputs e he
    exact ⟨_, rfl, rfl⟩
  · exact hEnding e he

theorem Block.isAbout {outcome : Outcome} (hBlock : Block task outcome told) :
    ∀ e ∈ told, e.IsAbout task.name := by
  cases hBlock with
  | skipped =>
    intro e he
    obtain rfl := List.mem_singleton.mp he
    exact ⟨_, rfl, rfl⟩
  | aggregate => simp
  | executed _ hOutputs =>
    refine isAbout_begun hOutputs fun e he => ?_
    obtain rfl := List.mem_singleton.mp he
    exact ⟨_, rfl, rfl⟩

theorem Fragment.isAbout (hFragment : Fragment task told) : ∀ e ∈ told, e.IsAbout task.name := by
  cases hFragment with
  | nothing => simp
  | begun _ hOutputs hEnding =>
    refine isAbout_begun hOutputs fun e he => ?_
    rcases hEnding with rfl | ⟨secs, rfl⟩ | ⟨code, ms, rfl⟩
    · cases he
    · obtain rfl := List.mem_singleton.mp he
      exact ⟨_, rfl, rfl⟩
    · obtain rfl := List.mem_singleton.mp he
      exact ⟨_, rfl, rfl⟩

theorem Event.IsAbout.not_terminal {e : Event} {name : String} (hAbout : e.IsAbout name) :
    e.isTerminal = false := by
  obtain ⟨event, rfl, -⟩ := hAbout
  rfl

end Reading

-- ---------------------------------------------------------------------------
-- What a turn tells
-- ---------------------------------------------------------------------------

section Performing

variable {task : Task} {action : Action} {s : σ}

theorem filterMap_begun {e : Event} {told ending : List Emission} :
    (Emission.event e :: told ++ ending).filterMap Emission.event? =
      e :: told.filterMap Emission.event? ++ ending.filterMap Emission.event? := by
  simp [Emission.event?]

theorem fragment_of_begun (hAction : task.action = some action) {told : List Emission}
    (hOutputs : ∀ e ∈ told.filterMap Emission.event?, e.IsOutput task.name) :
    Fragment task ((.event (task.started action) :: told).filterMap Emission.event?) := by
  rw [← List.append_nil (_ :: _), filterMap_begun]
  exact .begun hAction hOutputs (.inl rfl)

/-- A stream is told as lines, or passed on without an event. -/
theorem isOutput_of_mem_told (o : RunOptions) (name : String) (stream : Stream)
    (bytes : List UInt8) :
    ∀ e ∈ (o.told name stream bytes).filterMap Emission.event?, e.IsOutput name := by
  intro e he
  obtain ⟨emission, hMem, hEvent⟩ := List.mem_filterMap.mp he
  unfold RunOptions.told at hMem
  split at hMem
  · obtain ⟨line, -, rfl⟩ := List.mem_map.mp hMem
    obtain rfl := Option.some.inj hEvent
    exact ⟨stream, line, rfl⟩
  · split at hMem
    · cases hMem
    · obtain rfl := List.mem_singleton.mp hMem
      cases hEvent

theorem isOutput_of_mem_toldAll (o : RunOptions) (name : String) {launch : Launch}
    (p : Performance launch) :
    ∀ e ∈ (o.toldAll name p).filterMap Emission.event?, e.IsOutput name := by
  intro e he
  rw [RunOptions.toldAll, List.filterMap_append, List.mem_append] at he
  exact he.elim (isOutput_of_mem_told o name .stdout p.stdout e)
    (isOutput_of_mem_told o name .stderr p.stderr e)

/-- Of a process that is given up, no more is told than of one that is not. -/
theorem toldInTime_sublist (o : RunOptions) (name : String) {launch : Launch}
    (p : Performance launch) : (o.toldInTime name p).Sublist (o.toldAll name p) := by
  have hBut : ∀ missed stream bytes,
      (o.toldBut missed name stream bytes).Sublist (o.told name stream bytes) := by
    intro missed stream bytes
    unfold RunOptions.toldBut
    dsimp only
    split
    · exact List.take_sublist _ _
    · exact .refl _
  exact (hBut _ _ _).append (hBut _ _ _)

theorem isOutput_of_mem_toldInTime (o : RunOptions) (name : String) {launch : Launch}
    (p : Performance launch) :
    ∀ e ∈ (o.toldInTime name p).filterMap Emission.event?, e.IsOutput name :=
  fun e he => isOutput_of_mem_toldAll o name p e
    (((toldInTime_sublist o name p).filterMap _).subset he)

theorem isOutput_of_mem_toldLate (o : RunOptions) (name : String)
    (late : List (Stream × List UInt8)) :
    ∀ e ∈ (o.toldLate name late).filterMap Emission.event?, e.IsOutput name := by
  intro e he
  rw [RunOptions.toldLate, List.filterMap_flatMap, List.mem_flatMap] at he
  obtain ⟨⟨stream, bytes⟩, -, hTold⟩ := he
  exact isOutput_of_mem_told o name stream bytes e hTold

/-- **What is told while an action is performed.** A process that finished is
told to have; else what is told is left without its end. -/
theorem told_performAction (hAction : task.action = some action) :
    match (h.performAction o task action s).result with
    | .ok finished => ∃ outputs ms, (∀ e ∈ outputs, e.IsOutput task.name) ∧
        (h.performAction o task action s).emissions.filterMap Emission.event? =
          task.started action :: outputs ++ [.task (.completed task.name
            finished.status.isSuccess (finished.status.code?.map Int32.ofInt) ms)]
    | .error _ =>
        Fragment task ((h.performAction o task action s).emissions.filterMap Emission.event?) := by
  cases hPerform : h.perform s (o.launch task action) with
  | mk answer t =>
    cases answer with
    | error error =>
      rw [performAction_of_error hPerform]
      exact .begun hAction (fun e he => absurd he List.not_mem_nil) (.inl rfl)
    | ok p =>
      have hInTime := isOutput_of_mem_toldInTime o task.name p
      simp only [Host.performAction, hPerform]
      cases p.ending with
      | overran limited =>
        rw [filterMap_begun]
        exact .begun hAction hInTime (.inr (.inl ⟨_, rfl⟩))
      | cancelled => exact fragment_of_begun hAction hInTime
      | lost error late => exact fragment_of_begun hAction hInTime
      | byItself status =>
        cases hInterrupted : !status.isSuccess && (h.cancelled t || status.isInterrupt) with
        | true =>
          simp only [hInterrupted, if_true]
          exact fragment_of_begun hAction hInTime
        | false =>
          simp only [hInterrupted, Bool.false_eq_true, if_false]
          exact ⟨_, _, isOutput_of_mem_toldAll o task.name p, filterMap_begun⟩

/-- **What is told late** is told of a process whose end is not. -/
theorem late_performAction (h : Host σ) (o : RunOptions) (task : Task) (action : Action) (s : σ) :
    (h.performAction o task action s).late = [] ∨
    ∃ p error late, (h.perform s (o.launch task action)).1 = .ok p ∧ p.ending = .lost error late ∧
      (h.performAction o task action s).result =
        .error (.io error s!"wait for task {task.name}" none) ∧
      (h.performAction o task action s).late = o.toldLate task.name late := by
  cases hPerform : h.perform s (o.launch task action) with
  | mk answer t =>
    cases answer with
    | error error => exact .inl (by rw [performAction_of_error hPerform])
    | ok p =>
      simp only [Host.performAction, hPerform]
      cases hEnding : p.ending with
      | overran limited => exact .inl rfl
      | cancelled => exact .inl rfl
      | lost error late => exact .inr ⟨p, error, late, rfl, hEnding, rfl, rfl⟩
      | byItself status =>
        refine .inl ?_
        dsimp only
        split <;> rfl

end Performing

namespace Turn

variable {t : Turn h r o}

def told (t : Turn h r o) : List Event := t.attempt.emissions.filterMap Emission.event?

theorem code?_of_isSuccess {status : ExitStatus} (hSuccess : status.isSuccess = true) :
    status.code?.map Int32.ofInt = some 0 := by
  cases status with
  | exited code =>
    obtain rfl : code = 0 := of_decide_eq_true hSuccess
    rfl
  | killed signal => cases hSuccess

theorem told_of_launch {launch : Launch} (hLaunch : t.launch? = some launch) :
    match t.attempt.result with
    | .ok outcome => Block t.task outcome t.told
    | .error _ => Fragment t.task t.told := by
  obtain ⟨action, hAction, -, -, hEmissions, -, hResult⟩ := t.attempt_of_launch hLaunch
  have hTold := told_performAction (h := h) (o := o) (s := t.ready) hAction
  rw [hResult, told, hEmissions]
  cases hPerformed : (h.performAction o t.task action t.ready).result with
  | error fault =>
    rw [hPerformed] at hTold
    exact hTold
  | ok finished =>
    rw [hPerformed] at hTold
    obtain ⟨outputs, ms, hOutputs, hEvents⟩ := hTold
    rw [hEvents]
    -- the task counts as executed if its process exited with success
    cases hSuccess : finished.status.isSuccess with
    | true =>
      rw [code?_of_isSuccess hSuccess]
      simp only [bind, Except.bind, hSuccess, if_true]
      exact .executed hAction hOutputs
    | false =>
      simp only [bind, Except.bind, hSuccess]
      exact .begun hAction hOutputs (.inr (.inr ⟨_, _, rfl⟩))

/-- **What a turn tells**: a block if it ended well, and else a fragment. -/
theorem told_spec (t : Turn h r o) :
    match t.attempt.result with
    | .ok outcome => Block t.task outcome t.told
    | .error _ => Fragment t.task t.told := by
  cases t.fate with
  | cancelled _ hAttempt _ =>
    rw [told, hAttempt]
    exact .nothing
  | refused _ _ hAttempt _ =>
    rw [told, hAttempt]
    exact .nothing
  | skipped _ hAttempt _ =>
    rw [told, hAttempt]
    exact .skipped
  | aggregate _ _ hAttempt _ =>
    rw [told, hAttempt]
    exact .aggregate
  | executed _ _ _ _ hLaunch _ _ _ _ => exact told_of_launch hLaunch
  | failed _ _ _ _ hLaunch _ _ _ _ => exact told_of_launch hLaunch

theorem isAbout_of_mem_told (t : Turn h r o) : ∀ e ∈ t.told, e.IsAbout t.name := by
  have hTold := t.told_spec
  cases hResult : t.attempt.result with
  | ok outcome =>
    rw [hResult] at hTold
    exact hTold.isAbout
  | error fault =>
    rw [hResult] at hTold
    exact hTold.isAbout

theorem late_of_launch {launch : Launch} (hLaunch : t.launch? = some launch) :
    t.attempt.late = [] ∨
    ∃ p error late, (h.perform t.ready launch).1 = .ok p ∧ p.ending = .lost error late ∧
      t.attempt.result = .error (.io error s!"wait for task {t.name}" none) ∧
      t.attempt.late = o.toldLate t.name late := by
  obtain ⟨action, -, rfl, -, -, hLate, hResult⟩ := t.attempt_of_launch hLaunch
  rw [hLate]
  rcases late_performAction h o t.task action t.ready with
    hNone | ⟨p, error, late, hPerform, hEnding, hError, hTold⟩
  · exact .inl hNone
  · refine .inr ⟨p, error, late, hPerform, hEnding, ?_, hTold⟩
    rw [hResult, hError]
    rfl

/-- **What a turn tells late**: nothing, unless the operating system refused to tell how
its process ended. -/
theorem late_spec (t : Turn h r o) :
    t.attempt.late = [] ∨
    ∃ launch p error late, (h.perform t.ready launch).1 = .ok p ∧ p.ending = .lost error late ∧
      t.attempt.result = .error (.io error s!"wait for task {t.name}" none) ∧
      t.attempt.late = o.toldLate t.name late := by
  cases t.fate with
  | cancelled _ hAttempt _ => exact .inl (by rw [hAttempt])
  | refused _ _ hAttempt _ => exact .inl (by rw [hAttempt])
  | skipped _ hAttempt _ => exact .inl (by rw [hAttempt])
  | aggregate _ _ hAttempt _ => exact .inl (by rw [hAttempt])
  | executed _ _ _ _ hLaunch _ _ _ _ => exact (late_of_launch hLaunch).imp_right (⟨_, ·⟩)
  | failed _ _ _ _ hLaunch _ _ _ _ => exact (late_of_launch hLaunch).imp_right (⟨_, ·⟩)

/-- The events that a turn tells late. -/
def toldLate (t : Turn h r o) : List Event := t.attempt.late.filterMap Emission.event?

theorem isOutput_of_mem_toldLate (t : Turn h r o) : ∀ e ∈ t.toldLate, e.IsOutput t.name := by
  unfold toldLate
  rcases t.late_spec with hNone | ⟨_, _, _, late, -, -, -, hTold⟩
  · simp [hNone]
  · rw [hTold]
    exact TaskMill.isOutput_of_mem_toldLate o t.name late

end Turn

-- ---------------------------------------------------------------------------
-- What a run tells
-- ---------------------------------------------------------------------------

theorem isTerminal_closing (target : String) (duration : Nat) (fault? : Option Fault) :
    (Event.run (.closing target duration fault?)).isTerminal = true := by
  cases fault? with
  | none => rfl
  | some fault => cases fault <;> rfl

theorem filterMap_between {α : Type} {read : Event → Option α} (hRead : ∀ e, read (.run e) = none)
    {planned closing : RunEvent} {told : List Event} :
    (Event.run planned :: told ++ [Event.run closing]).filterMap read = told.filterMap read := by
  simp [hRead]

section Planned

variable {target : String} {plan : List Task} {s : σ} {p : Point h r o}
  (hPlan : r.plan target = .ok plan) (hReached : p.Reached plan s) (hLast : p.IsLast)

include hPlan hReached hLast

theorem trace_of_last : h.trace r o target s = .run (.planned target (clamp64 plan.length)) ::
    p.turns.flatMap Turn.told ++ [.run (.closing target (h.now p.final - h.now s) p.fault?)] ++
    p.turns.flatMap Turn.toldLate := by
  obtain ⟨hEmissions, hLate, -⟩ := run_of_last hPlan hReached hLast
  rw [Host.trace, hEmissions, hLate, List.filterMap_append, filterMap_begun, List.filterMap_flatMap,
    List.filterMap_flatMap]
  rfl

theorem filter_isTerminal_trace : (h.trace r o target s).filter Event.isTerminal =
    [.run (.closing target (h.now p.final - h.now s) p.fault?)] := by
  have hTurns : (p.turns.flatMap Turn.told).filter Event.isTerminal = [] := by
    rw [List.filter_eq_nil_iff]
    intro e he
    obtain ⟨t, -, hTold⟩ := List.mem_flatMap.mp he
    rw [(t.isAbout_of_mem_told e hTold).not_terminal]
    simp
  have hLate : (p.turns.flatMap Turn.toldLate).filter Event.isTerminal = [] := by
    rw [List.filter_eq_nil_iff]
    intro e he
    obtain ⟨t, -, hTold⟩ := List.mem_flatMap.mp he
    obtain ⟨stream, line, rfl⟩ := t.isOutput_of_mem_toldLate e hTold
    simp [Event.isTerminal]
  rw [trace_of_last hPlan hReached hLast, List.filter_append, hLate, List.append_nil,
    List.cons_append, List.filter_cons_of_neg (by simp [Event.isTerminal]), List.filter_append,
    hTurns, List.nil_append, List.filter_cons_of_pos (isTerminal_closing _ _ _), List.filter_nil]

end Planned

namespace Deserted

/-- The host refuses to tell how a process ended, and a line, `hi`, still comes. -/
def host : Host Unit where
  elapse := id
  cancelled _ := false
  now _ := 0
  modified _ _ := .error .notFound
  perform _ _ := (.ok ⟨.lost (.os 10) [(.stdout, [0x68, 0x69])], [], [], fun _ => 0⟩, ())

def task : Task := { Task.phony "t" with action := some ⟨"act", []⟩ }

def registry : Registry := .ofDistinct [task] (by simp [task, Task.phony])

/-- The end of a run need not be the last event. -/
example : host.trace registry { RunOptions.plain ⟨"/"⟩ with capture := true } "t" () =
    [.run (.planned "t" 1), .task (.started "t" "act"), .run (.completed "t" false 0),
      .task (.output "t" .stdout "hi")] := by
  cbv

end Deserted

end TaskMill
