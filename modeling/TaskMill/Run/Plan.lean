import TaskMill.Freshness
import TaskMill.Run.Action
import TaskMill.Tail
/-!
# TaskMill — running a plan

A run takes the tasks of a plan one after the other and stops at the first that
does not end well. Before each task it looks whether it has been cancelled; and
whatever went wrong counts as a cancellation if the run has been cancelled by
the time it is told.

A run keeps the names of the tasks that were **executed**: those whose process
ran, and those without a process above one of them, so that a change is seen
through any number of them.
-/

namespace TaskMill

variable {σ : Type}

/-- What a failed task printed last, if anything was captured. -/
def Finished.snippet (f : Finished) : Option String :=
  let text := Tail.streams ("\n".intercalate f.stdout) ("\n".intercalate f.stderr)
    Tail.snippetLines
  if text.isEmpty then none else some text

/-- What a run looks at to tell whether a task has to be performed. -/
def Host.view (h : Host σ) (r : Registry) (o : RunOptions) (executed : List String) (s : σ) :
    Freshness.View :=
  ⟨r, executed, o.root, h.modified s⟩

/-- Handles a task: skips it, performs its action, or passes over it if it has
none. -/
def Host.handle (h : Host σ) (r : Registry) (o : RunOptions) (executed : List String)
    (task : Task) (s : σ) : Attempt σ Outcome :=
  match (h.view r o executed s).check task with
  | .error fault => ⟨.error fault, [], [], s⟩
  | .ok .upToDate =>
    ⟨.ok (.skipped task.name),
      [.event (.task (.skipped task.name Freshness.upToDate.reason))], [], s⟩
  | .ok _ =>
    match task.action with
    | none => ⟨.ok (.aggregate task.name), [], [], s⟩
    | some action =>
      let attempt := h.performAction o task action s
      let result := do
        let finished ← attempt.result
        if finished.status.isSuccess then return .executed task.name finished
        throw (.taskFailed task.name finished.status.code? finished.snippet)
      { attempt with result }

/-- Takes a task: handles it, unless the run has been cancelled by then. -/
def Host.take (h : Host σ) (r : Registry) (o : RunOptions) (executed : List String)
    (task : Task) (s : σ) : Attempt σ Outcome :=
  let s := h.elapse s
  if h.cancelled s then ⟨.error (.cancelled none), [], [], s⟩
  else h.handle r o executed task s

/-- Whether a task that ended well counts as executed for those above it. -/
def Outcome.counts (outcome : Outcome) (task : Task) (executed : List String) : Bool :=
  match outcome with
  | .executed .. => true
  | .skipped _ => false
  | .aggregate _ => task.dependsOn.any (· ∈ executed)

/-- The tasks executed once a task has ended well, `executed` being those
before it. -/
def Outcome.noted (outcome : Outcome) (task : Task) (executed : List String) : List String :=
  if outcome.counts task executed then task.name :: executed else executed

/-- How far a run came: what became of the tasks that ended well, what stopped
it, what was let out, what is let out late, and the state of the host
afterwards. -/
structure Progress (σ : Type) where
  outcomes : List Outcome
  fault : Option Fault
  emissions : List Emission
  late : List Emission
  world : σ

/-- A fault as it is told: a cancellation, if the run has been cancelled. -/
def Fault.orCancelled (fault : Fault) (task : Task) (isCancelled : Bool) : Fault :=
  if isCancelled && !fault.isCancelled then .cancelled (some task.name) else fault

/-- Takes tasks one after the other, `executed` being those executed so far. -/
def Host.walk (h : Host σ) (r : Registry) (o : RunOptions) (executed : List String) :
    List Task → σ → Progress σ
  | [], s => ⟨[], none, [], [], s⟩
  | task :: rest, s =>
    let attempt := h.take r o executed task s
    match attempt.result with
    | .error fault =>
      let t := h.elapse attempt.world
      ⟨[], some (fault.orCancelled task (h.cancelled t)), attempt.emissions, attempt.late, t⟩
    | .ok outcome =>
      let later := h.walk r o (outcome.noted task executed) rest attempt.world
      { later with
        outcomes := outcome :: later.outcomes
        emissions := attempt.emissions ++ later.emissions
        late := attempt.late ++ later.late }

/-- The event that ends a run. -/
def RunEvent.closing (target : String) (duration : Nat) : Option Fault → RunEvent
  | none => .completed target true (clamp64 duration)
  | some (.cancelled task) => .cancelled target task
  | some _ => .completed target false (clamp64 duration)

/-- Runs a task: everything it depends on, and the task itself. Nothing is let
out if there is no plan. What is let out late does not wait for the end of the
run, nor the end for it. -/
def Host.run (h : Host σ) (r : Registry) (o : RunOptions) (target : String) (s : σ) :
    Attempt σ Report :=
  match r.plan target with
  | .error fault => ⟨.error fault, [], [], s⟩
  | .ok plan =>
    let progress := h.walk r o [] plan s
    let duration := h.now progress.world - h.now s
    let planned := Emission.event (.run (.planned target (clamp64 plan.length)))
    let closing := Emission.event (.run (.closing target duration progress.fault))
    ⟨match progress.fault with
      | none => .ok ⟨target, progress.outcomes, duration⟩
      | some fault => .error fault,
      planned :: progress.emissions ++ [closing], progress.late, progress.world⟩

end TaskMill
