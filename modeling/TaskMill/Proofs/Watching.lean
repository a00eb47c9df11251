import TaskMill.Command.Execute
import TaskMill.Proofs.Course
/-!
# TaskMill — what a command does to the world

Three things can be done to the world: a process can be started, a file can be made,
and a file that has been made can be filled. A workspace that keeps a list of what it
is told to do (`Workspace.watched`) shows which of them a command does, and in which
order (`Workspace.deeds`).

Being watched changes nothing. A host **follows** another one if its states are
those of the other with something besides (`Host.Follows`); then its runs are those
of the other, with something besides.

## Results

* `Host.Follows.run` — a host that follows another one runs as that does.
* `Workspace.forget_watched` — a command does the same when it is watched.
* `Workspace.deeds_of_mode` — what a command with a mode does; it starts no process
  (`Workspace.start_not_mem_deeds`).
* `Workspace.make_mem_deeds`, `Workspace.fill_mem_deeds` — which files any command
  makes, and what it writes to them.
-/

namespace TaskMill

variable {σ τ : Type} {r : Registry} {o : RunOptions}

-- ---------------------------------------------------------------------------
-- Following
-- ---------------------------------------------------------------------------

/-- An attempt seen without what its states have besides. -/
def Attempt.forget {α : Type} (f : τ → σ) (a : Attempt τ α) : Attempt σ α :=
  ⟨a.result, a.emissions, a.late, f a.world⟩

/-- Progress seen without what its states have besides. -/
def Progress.forget (f : τ → σ) (p : Progress τ) : Progress σ :=
  ⟨p.outcomes, p.fault, p.emissions, p.late, f p.world⟩

/-- A response seen without what its states have besides. -/
def Response.forget (f : τ → σ) (x : Response τ) : Response σ :=
  ⟨x.result, x.emissions, x.late, f x.world⟩

/-- A host does what another one does, with something besides in its states. -/
structure Host.Follows (g : Host τ) (h : Host σ) (f : τ → σ) : Prop where
  elapse    : ∀ t, f (g.elapse t) = h.elapse (f t)
  cancelled : ∀ t, g.cancelled t = h.cancelled (f t)
  now       : ∀ t, g.now t = h.now (f t)
  modified  : ∀ t path, g.modified t path = h.modified (f t) path
  perform   : ∀ t launch, h.perform (f t) launch =
    ((g.perform t launch).1, f (g.perform t launch).2)

namespace Host.Follows

variable {g : Host τ} {h : Host σ} {f : τ → σ}

theorem performAction (hFollows : g.Follows h f) (task : Task) (action : Action) (t : τ) :
    (g.performAction o task action t).forget f = h.performAction o task action (f t) := by
  unfold Host.performAction
  simp only [hFollows.perform]
  cases g.perform t (o.launch task action) with
  | mk answer u =>
    cases answer with
    | error error => rfl
    | ok p =>
      cases hEnding : p.ending with
      | byItself status =>
        simp only [hEnding, hFollows.cancelled, hFollows.now]
        split <;> rfl
      | cancelled | overran | lost => simp only [hEnding, Attempt.forget]

theorem view (hFollows : g.Follows h f) (executed : List String) (t : τ) :
    g.view r o executed t = h.view r o executed (f t) := by
  unfold Host.view
  rw [funext (hFollows.modified t)]

theorem handle (hFollows : g.Follows h f) (executed : List String) (task : Task) (t : τ) :
    (g.handle r o executed task t).forget f = h.handle r o executed task (f t) := by
  unfold Host.handle
  rw [← hFollows.view]
  cases (g.view r o executed t).check task with
  | error fault => rfl
  | ok freshness =>
    cases hAction : task.action with
    | none => cases freshness <;> rfl
    | some action =>
      simp only [← hFollows.performAction]
      cases freshness <;> rfl

theorem take (hFollows : g.Follows h f) (executed : List String) (task : Task) (t : τ) :
    (g.take r o executed task t).forget f = h.take r o executed task (f t) := by
  unfold Host.take
  simp only [← hFollows.elapse, ← hFollows.cancelled]
  split
  · rfl
  · exact hFollows.handle executed task (g.elapse t)

theorem walk (hFollows : g.Follows h f) (executed : List String) (tasks : List Task) (t : τ) :
    (g.walk r o executed tasks t).forget f = h.walk r o executed tasks (f t) := by
  induction tasks generalizing executed t with
  | nil => rfl
  | cons task rest ih =>
    unfold Host.walk
    rw [← hFollows.take]
    cases hResult : (g.take r o executed task t).result with
    | error fault =>
      simp only [Attempt.forget, hResult, ← hFollows.elapse, ← hFollows.cancelled]
      rfl
    | ok outcome =>
      simp only [Attempt.forget, hResult]
      rw [← ih]
      rfl

theorem run (hFollows : g.Follows h f) (target : String) (t : τ) :
    (g.run r o target t).forget f = h.run r o target (f t) := by
  unfold Host.run
  cases r.plan target with
  | error fault => rfl
  | ok plan =>
    simp only [← hFollows.walk, ← hFollows.now, Progress.forget]
    rfl

end Host.Follows

-- ---------------------------------------------------------------------------
-- Watching
-- ---------------------------------------------------------------------------

/-- Where a command makes a new task file, if it is to make one. -/
def CommandLine.newFile (c : CommandLine) : Path := c.file.getD ⟨TaskFile.defaultName⟩

/-- Something that a workspace is told to do. -/
inductive Deed where
  /-- To start a process. -/
  | start (launch : Launch)
  /-- To make a file where nothing is yet. -/
  | make (path : Path)
  /-- To write a text to the file that has been made. -/
  | fill (path : Path) (text : String)
  deriving DecidableEq

namespace Workspace

/-- The workspace that does the same and keeps a list of what it is told to do. -/
def watched (w : Workspace σ) : Workspace (σ × List Deed) where
  elapse s := (w.elapse s.1, s.2)
  cancelled s := w.cancelled s.1
  now s := w.now s.1
  modified s := w.modified s.1
  perform s launch :=
    let (answer, t) := w.perform s.1 launch
    (answer, t, s.2 ++ [.start launch])
  workingDirectory s := w.workingDirectory s.1
  readText s := w.readText s.1
  isFile s := w.isFile s.1
  createNew s path :=
    let (made, t) := w.createNew s.1 path
    (made, t, s.2 ++ [.make path])
  fillNew s path text :=
    let (written, t) := w.fillNew s.1 path text
    (written, t, s.2 ++ [.fill path text])
  heard s := w.heard s.1
  stamp s := w.stamp s.1

/-- What a command does to the world, in order. -/
def deeds (w : Workspace σ) (c : CommandLine) (s : σ) : List Deed :=
  (w.watched.execute c (s, [])).world.2

theorem follows_watched (w : Workspace σ) : w.watched.toHost.Follows w.toHost Prod.fst :=
  ⟨fun _ => rfl, fun _ => rfl, fun _ => rfl, fun _ _ => rfl, fun _ _ => rfl⟩

theorem forget_executeOn (w : Workspace σ) (c : CommandLine) (p : Project) (s : σ)
    (done : List Deed) :
    (w.watched.executeOn c p (s, done)).forget Prod.fst = w.executeOn c p s := by
  unfold executeOn
  split
  · rfl
  split
  · rfl
  cases p.target c.task with
  | error fault => rfl
  | ok target =>
    dsimp only
    split
    · rfl
    · rw [← (follows_watched w).run target (s, done)]
      rfl

theorem create_eq (w : Workspace σ) (c : CommandLine) (s : σ) : w.create c s =
    .still ((w.writeStarter c.newFile s).1.map fun _ => .created c.newFile)
      (w.writeStarter c.newFile s).2 := rfl

/-- What is done to make a new task file: it is made, and filled if it could be made. -/
def starterDeeds (w : Workspace σ) (path : Path) (s : σ) : List Deed :=
  match (w.createNew s path).1 with
  | .error _ => [.make path]
  | .ok _ => [.make path, .fill path TaskFile.starter]

theorem writeStarter_watched (w : Workspace σ) (path : Path) (s : σ) (done : List Deed) :
    w.watched.writeStarter path (s, done) =
      ((w.writeStarter path s).1, (w.writeStarter path s).2, done ++ w.starterDeeds path s) := by
  have hWatched : w.watched.createNew (s, done) path =
      ((w.createNew s path).1, (w.createNew s path).2, done ++ [.make path]) := rfl
  rw [writeStarter, writeStarter, starterDeeds, hWatched]
  cases w.createNew s path with
  | mk made t =>
    cases made with
    | error error => rfl
    | ok _ =>
      have hFilled : w.watched.fillNew (t, done ++ [.make path]) path TaskFile.starter =
          ((w.fillNew t path TaskFile.starter).1, (w.fillNew t path TaskFile.starter).2,
            done ++ [.make path] ++ [.fill path TaskFile.starter]) := rfl
      simp only [hFilled, List.append_assoc]
      rfl

theorem forget_create (w : Workspace σ) (c : CommandLine) (s : σ) (done : List Deed) :
    (w.watched.create c (s, done)).forget Prod.fst = w.create c s := by
  simp only [create, writeStarter_watched]
  rfl

/-- **Being watched changes nothing.** -/
theorem forget_watched (w : Workspace σ) (c : CommandLine) (s : σ) (done : List Deed) :
    (w.watched.execute c (s, done)).forget Prod.fst = w.execute c s := by
  unfold execute
  split
  · exact forget_create w c s done
  · have hPath : w.watched.locate c.file (s, done) = w.locate c.file s := rfl
    rw [hPath]
    cases w.locate c.file s with
    | error failure => rfl
    | ok path =>
      have hLoad : w.watched.load path (s, done) = w.load path s := rfl
      simp only [hLoad]
      cases w.load path s with
      | error fault => rfl
      | ok p => exact forget_executeOn w c p s done

-- ---------------------------------------------------------------------------
-- What is done
-- ---------------------------------------------------------------------------

/-- A command that makes no file only looks, or it runs a task. -/
theorem execute_cases (w : Workspace σ) {c : CommandLine} (s : σ) (hInit : c.mode ≠ some .init) :
    ((w.execute c s).world = s ∧ (w.execute c s).emissions = [] ∧ (w.execute c s).late = []) ∨
      c.mode = none ∧ ∃ (p : Project) (target : String),
        let run := w.run p.registry (c.runOptions p) target s
        w.execute c s =
          ⟨(run.result.map .ran).mapError .ofFault, run.emissions, run.late, run.world⟩ := by
  rw [w.execute_of_not_init s hInit]
  cases w.locate c.file s with
  | error failure => exact .inl ⟨rfl, rfl, rfl⟩
  | ok path =>
    dsimp only
    cases w.load path s with
    | error fault => exact .inl ⟨rfl, rfl, rfl⟩
    | ok p =>
      dsimp only
      rw [w.executeOn_eq hInit]
      split
      case h_1 => exact .inl ⟨rfl, rfl, rfl⟩
      case h_2 => exact .inl ⟨rfl, rfl, rfl⟩
      case h_3 hList hCheck =>
        cases p.target c.task with
        | error fault => exact .inl ⟨rfl, rfl, rfl⟩
        | ok target =>
          dsimp only
          split
          case isTrue => exact .inl ⟨rfl, rfl, rfl⟩
          case isFalse hDry =>
            refine .inr ⟨?_, p, target, rfl⟩
            cases hMode : c.mode with
            | none => rfl
            | some mode =>
              cases mode with
              | list => exact absurd hMode hList
              | check => exact absurd hMode hCheck
              | dryRun => exact absurd hMode hDry
              | init => exact absurd hMode hInit

/-- A command with a mode that makes no file only looks. -/
theorem execute_of_mode (w : Workspace σ) {c : CommandLine} (s : σ) (hMode : c.mode.isSome = true)
    (hInit : c.mode ≠ some .init) :
    (w.execute c s).world = s ∧ (w.execute c s).emissions = [] ∧ (w.execute c s).late = [] := by
  rcases w.execute_cases s hInit with hLooks | ⟨hNone, -⟩
  · exact hLooks
  · rw [hNone] at hMode
    cases hMode

/-- A command with a mode lets nothing out. -/
theorem emissions_of_mode (w : Workspace σ) {c : CommandLine} (s : σ)
    (hMode : c.mode.isSome = true) :
    (w.execute c s).emissions = [] ∧ (w.execute c s).late = [] := by
  by_cases hInit : c.mode = some .init
  · rw [w.execute_of_init s hInit]
    exact ⟨rfl, rfl⟩
  · exact (w.execute_of_mode s hMode hInit).2

/-- With a mode, all that becomes of the world comes from making the new task file. -/
theorem world_of_mode (w : Workspace σ) {c : CommandLine} (s : σ) (hMode : c.mode.isSome = true) :
    (w.execute c s).world =
      if c.mode = some .init then (w.writeStarter c.newFile s).2 else s := by
  split
  case isTrue hInit =>
    rw [w.execute_of_init s hInit]
    rfl
  case isFalse hInit => exact (w.execute_of_mode s hMode hInit).1

/-- **What a command with a mode does**: it makes its file, or nothing. -/
theorem deeds_of_mode (w : Workspace σ) {c : CommandLine} (s : σ) (hMode : c.mode.isSome = true) :
    w.deeds c s = if c.mode = some .init then w.starterDeeds c.newFile s else [] := by
  unfold deeds
  split
  case isTrue hInit =>
    rw [w.watched.execute_of_init _ hInit]
    show (w.watched.writeStarter c.newFile (s, [])).2.2 = _
    rw [writeStarter_watched, List.nil_append]
  case isFalse hInit => rw [(w.watched.execute_of_mode _ hMode hInit).1]

/-- A command with a mode starts no process. -/
theorem start_not_mem_deeds (w : Workspace σ) {c : CommandLine} (s : σ)
    (hMode : c.mode.isSome = true) (launch : Launch) : .start launch ∉ w.deeds c s := by
  rw [w.deeds_of_mode s hMode]
  split
  · unfold starterDeeds
    cases (w.createNew s c.newFile).1 <;> simp
  · exact List.not_mem_nil

/-- Runs make no file, and write to none. -/
theorem preserves_watched (w : Workspace σ) {deed : Deed} (hFile : ∀ launch, deed ≠ .start launch) :
    w.watched.toHost.Preserves fun s => deed ∉ s.2 where
  elapse _ hWorld := hWorld
  perform s launch hWorld := by
    show deed ∉ s.2 ++ [.start launch]
    simpa [hFile launch] using hWorld

/-- What a command does to files is what it does to make the new task file that it is
asked for. -/
theorem mem_deeds_iff (w : Workspace σ) (c : CommandLine) (s : σ) {deed : Deed}
    (hFile : ∀ launch, deed ≠ .start launch) :
    deed ∈ w.deeds c s ↔ c.mode = some .init ∧ deed ∈ w.starterDeeds c.newFile s := by
  by_cases hInit : c.mode = some .init
  · rw [w.deeds_of_mode s (by rw [hInit]; rfl), if_pos hInit]
    simp [hInit]
  · simp only [hInit, false_and, iff_false]
    unfold deeds
    rcases w.watched.execute_cases (s, []) hInit with ⟨hWorld, -⟩ | ⟨-, p, target, hRuns⟩
    · rw [hWorld]
      exact List.not_mem_nil
    · rw [hRuns]
      exact (w.preserves_watched hFile).run List.not_mem_nil

/-- **Which files a command makes**: the new task file that it is asked for, and no
other. -/
theorem make_mem_deeds (w : Workspace σ) (c : CommandLine) (s : σ) (path : Path) :
    .make path ∈ w.deeds c s ↔ c.mode = some .init ∧ path = c.newFile := by
  rw [w.mem_deeds_iff c s (by simp)]
  unfold starterDeeds
  cases (w.createNew s c.newFile).1 <;> simp

/-- **What a command writes**: the starter, to the file that it has made. -/
theorem fill_mem_deeds (w : Workspace σ) (c : CommandLine) (s : σ) (path : Path) (text : String) :
    .fill path text ∈ w.deeds c s ↔ c.mode = some .init ∧ path = c.newFile ∧
      text = TaskFile.starter ∧ (w.createNew s c.newFile).1 = .ok () := by
  rw [w.mem_deeds_iff c s (by simp)]
  unfold starterDeeds
  cases (w.createNew s c.newFile).1 <;> simp

end Workspace

end TaskMill
