import TaskMill.Freshness
import TaskMill.Proofs.Plan
/-!
# TaskMill — what a look at freshness has seen

A look at a dependency goes on through aggregates, **beneath** which it finds
others. A name is **quiet** if it was not executed and has no artifact younger
than the one in question. Where the look finds no change, everything it could
have come to is quiet (`quiet_of_changed`).

A task is up to date only if its artifact is there and all its dependencies are
quiet, with all that lies beneath them (`check_upToDate`). Nothing but a refusal
of the operating system can go wrong (`check_error`).

Conversely, a change or a refusal that is found is found in a name that was on
the agenda, or beneath one (`dueTo_changed`). So where nothing refuses to be
looked at, the look comes to an end (`check_eq_ok`), and where all is quiet
besides, the task is up to date (`check_of_quiet`).
-/

namespace TaskMill

open Relation (ReflTransGen)

/-- The aggregate `a` gives way to `b`. -/
def Registry.Beneath (r : Registry) (a b : String) : Prop :=
  ∃ task, r.get? a = some task ∧ task.isAggregate = true ∧ b ∈ task.dependsOn

/-- What lies beneath a name is needed by it. -/
theorem Registry.reaches_of_beneath {r : Registry} {a b : String}
    (hBeneath : ReflTransGen r.Beneath a b) : r.Reaches a b := by
  refine ReflTransGen.mono (fun x y hStep => ?_) _ _ hBeneath
  obtain ⟨task, hFound, -, hDep⟩ := hStep
  obtain ⟨hTask, hName⟩ := Registry.get?_eq_some_iff.mp hFound
  exact ⟨task, hTask, hName, hDep⟩

namespace Freshness.View

variable {v : View} {since : Int}

theorem artifactTime_eq_some_iff {path : Path} {time : Int} :
    v.artifactTime path = .ok (some time) ↔ v.modified (v.root.join path) = .ok time := by
  unfold artifactTime
  cases hTime : v.modified (v.root.join path) with
  | ok t => simp [hTime]
  | error e => by_cases hNone : e = .notFound <;> simp [hTime, hNone]

/-- Looked at by itself, a name carries no change younger than `since`. -/
def Quiet (v : View) (since : Int) (name : String) : Prop :=
  name ∉ v.executed ∧ ∀ task path, v.registry.get? name = some task →
    task.kind = .artifact path →
      ∀ time, v.modified (v.root.join path) = .ok time → time ≤ since

/-- The operating system refuses to tell the time of a task's artifact. -/
def Refuses (v : View) (task : Task) : Prop :=
  ∃ path error, task.kind = .artifact path ∧ v.modified (v.root.join path) = .error error ∧
    error ≠ .notFound

theorem not_refuses_of_artifactTime {task : Task} {path : Path} {time : Option Int}
    (hKind : task.kind = .artifact path) (h : v.artifactTime path = .ok time) :
    ¬ v.Refuses task := by
  rintro ⟨path', error, hKind', hTime, hOther⟩
  obtain rfl : path = path' := by simpa [hKind] using hKind'
  simp [artifactTime, hTime, hOther] at h

-- ---------------------------------------------------------------------------
-- Looking beneath aggregates
-- ---------------------------------------------------------------------------

/-- What has been looked at is quiet and was not refused, and what lies beneath
it has been looked at or is on the agenda. -/
structure Scanned (v : View) (since : Int) (agenda seen : List String) : Prop where
  quiet  : ∀ n ∈ seen, v.Quiet since n
  told   : ∀ n ∈ seen, ∀ task, v.registry.get? n = some task → ¬ v.Refuses task
  closed : ∀ n ∈ seen, ∀ m, v.registry.Beneath n m → m ∈ seen ++ agenda

namespace Scanned

variable {agenda later seen : List String} {name : String}

theorem skip (h : Scanned v since (name :: later) seen) (hSeen : name ∈ seen) :
    Scanned v since later seen where
  quiet := h.quiet
  told := h.told
  closed n hn m hm := by
    have hMem := h.closed n hn m hm
    simp only [List.mem_append, List.mem_cons] at hMem ⊢
    rcases hMem with hMem | rfl | hMem
    exacts [.inl hMem, .inl hSeen, .inr hMem]

/-- A quiet name has been looked at when what lies beneath it is on the
agenda. -/
theorem look (h : Scanned v since (name :: later) seen) (hQuiet : v.Quiet since name)
    (hTold : ∀ task, v.registry.get? name = some task → ¬ v.Refuses task)
    {beneath : List String} (hBeneath : ∀ m, v.registry.Beneath name m → m ∈ beneath) :
    Scanned v since (beneath ++ later) (seen ++ [name]) where
  quiet n hn := by
    rcases List.mem_append.mp hn with hn | hn
    · exact h.quiet n hn
    · obtain rfl : n = name := by simpa using hn
      exact hQuiet
  told n hn := by
    rcases List.mem_append.mp hn with hn | hn
    · exact h.told n hn
    · obtain rfl : n = name := by simpa using hn
      exact hTold
  closed n hn m hm := by
    simp only [List.mem_append, List.mem_singleton] at hn ⊢
    rcases hn with hn | rfl
    · have hMem := h.closed n hn m hm
      simp only [List.mem_append, List.mem_cons] at hMem
      tauto
    · exact .inr (.inl (hBeneath m hm))

end Scanned

/-- Where no change is found, all that was on the agenda ends up looked at. -/
theorem exists_scanned_of_changed {agenda seen : List String}
    (h : v.changed since agenda seen = .ok false) (hScanned : Scanned v since agenda seen) :
    ∃ all, (∀ n ∈ seen ++ agenda, n ∈ all) ∧ Scanned v since [] all := by
  fun_induction changed v since agenda seen with
  | case1 seen => exact ⟨seen, by simp, hScanned⟩
  | case2 => simp at h
  | case3 seen name later _ hSeen ih =>
    obtain ⟨all, hAll, hDone⟩ := ih h (hScanned.skip hSeen)
    refine ⟨all, fun n hn => hAll n ?_, hDone⟩
    simp only [List.mem_append, List.mem_cons] at hn ⊢
    rcases hn with hn | rfl | hn
    exacts [.inl hn, .inl hSeen, .inr hn]
  | case4 seen name later hNot _ hNone ih =>
    -- an unknown name is no task
    rw [Registry.lookup_catalogue] at hNone
    have hQuiet : v.Quiet since name := ⟨hNot, by simp [hNone]⟩
    have hTold : ∀ task, v.registry.get? name = some task → ¬ v.Refuses task := by simp [hNone]
    have hBeneath : ∀ m, v.registry.Beneath name m → m ∈ [] := by
      rintro m ⟨task, hTask, -⟩
      simp [hNone] at hTask
    obtain ⟨all, hAll, hDone⟩ := ih h (hScanned.look hQuiet hTold hBeneath)
    exact ⟨all, fun n hn => hAll n (by simpa using hn), hDone⟩
  | case5 => simp at h
  | case6 => simp at h
  | case7 seen name later hNot _ task hFound path hKind time hTime hOld ih =>
    -- an artifact that is old enough, or not there; the look ends at it
    rw [Registry.lookup_catalogue] at hFound
    have hQuiet : v.Quiet since name := by
      refine ⟨hNot, fun task' path' hTask' hKind' t ht => ?_⟩
      obtain rfl : task = task' := by simpa [hFound] using hTask'
      obtain rfl : path = path' := by simpa [hKind] using hKind'
      obtain rfl : time = some t := by simpa [hTime] using artifactTime_eq_some_iff.mpr ht
      simpa using hOld
    have hTold : ∀ task', v.registry.get? name = some task' → ¬ v.Refuses task' := by
      intro task' hTask'
      obtain rfl : task = task' := by simpa [hFound] using hTask'
      exact not_refuses_of_artifactTime hKind hTime
    have hBeneath : ∀ m, v.registry.Beneath name m → m ∈ [] := by
      rintro m ⟨task', hTask', hAggregate, -⟩
      obtain rfl : task = task' := by simpa [hFound] using hTask'
      simp [Task.isAggregate, Task.isPhony, hKind, TaskKind.artifact?] at hAggregate
    obtain ⟨all, hAll, hDone⟩ := ih h (hScanned.look hQuiet hTold hBeneath)
    exact ⟨all, fun n hn => hAll n (by simpa using hn), hDone⟩
  | case8 seen name later hNot _ task hFound hKind beneath ih =>
    -- a phony task; if it is an aggregate, the look goes on beneath it
    rw [Registry.lookup_catalogue] at hFound
    have hQuiet : v.Quiet since name := by
      refine ⟨hNot, fun task' path' hTask' hKind' => ?_⟩
      obtain rfl : task = task' := by simpa [hFound] using hTask'
      simp [hKind] at hKind'
    have hTold : ∀ task', v.registry.get? name = some task' → ¬ v.Refuses task' := by
      rintro task' hTask' ⟨path, error, hArtifact, -⟩
      obtain rfl : task = task' := by simpa [hFound] using hTask'
      simp [hKind] at hArtifact
    have hBeneath : ∀ m, v.registry.Beneath name m → m ∈ beneath := by
      rintro m ⟨task', hTask', hAggregate, hDep⟩
      obtain rfl : task = task' := by simpa [hFound] using hTask'
      simpa [beneath, hAggregate] using hDep
    obtain ⟨all, hAll, hDone⟩ := ih h (hScanned.look hQuiet hTold hBeneath)
    refine ⟨all, fun n hn => hAll n ?_, hDone⟩
    simp only [List.mem_append, List.mem_cons] at hn ⊢
    tauto

/-- Where no change is found, all beneath a dependency has been looked at. -/
theorem exists_scanned_beneath {dependency : String}
    (h : v.changed since [dependency] [] = .ok false) :
    ∃ all, (∀ n, ReflTransGen v.registry.Beneath dependency n → n ∈ all) ∧
      Scanned v since [] all := by
  obtain ⟨all, hAll, hDone⟩ := exists_scanned_of_changed h ⟨by simp, by simp, by simp⟩
  refine ⟨all, ?_, hDone⟩
  intro n hn
  induction hn with
  | refl => exact hAll dependency (by simp)
  | tail _ hStep ih => simpa using hDone.closed _ ih _ hStep

/-- **Where no change is found, all beneath a dependency is quiet.** -/
theorem quiet_of_changed {dependency : String}
    (h : v.changed since [dependency] [] = .ok false) {n : String}
    (hn : ReflTransGen v.registry.Beneath dependency n) : v.Quiet since n := by
  obtain ⟨all, hAll, hDone⟩ := exists_scanned_beneath h
  exact hDone.quiet n (hAll n hn)

-- ---------------------------------------------------------------------------
-- Checking a task
-- ---------------------------------------------------------------------------

theorem firstChange_upToDate {dependencies : List String}
    (h : v.firstChange since dependencies = .ok .upToDate) :
    ∀ d ∈ dependencies, d ∉ v.executed ∧ v.changed since [d] [] = .ok false := by
  induction dependencies with
  | nil => simp
  | cons first rest ih =>
    rw [firstChange] at h
    by_cases hRan : first ∈ v.executed
    · simp [hRan] at h
    · rw [if_neg hRan] at h
      cases hChanged : v.changed since [first] [] with
      | error fault => simp [hChanged] at h
      | ok found =>
        cases found with
        | true => simp [hChanged] at h
        | false =>
          rw [hChanged] at h
          exact List.forall_mem_cons.mpr ⟨⟨hRan, hChanged⟩, ih h⟩

/-- **What being up to date means.** The artifact is there, no dependency was
executed, and all that is seen of the dependencies is quiet. -/
theorem check_upToDate {task : Task} (h : v.check task = .ok .upToDate) :
    ∃ path since, task.kind = .artifact path ∧ v.modified (v.root.join path) = .ok since ∧
      ∀ d ∈ task.dependsOn, ∀ n, ReflTransGen v.registry.Beneath d n → v.Quiet since n := by
  unfold check at h
  split at h
  case h_1 => simp at h
  case h_2 path hKind =>
    split at h
    case h_1 => simp at h
    case h_2 => simp at h
    case h_3 since hTime =>
      refine ⟨path, since, hKind, artifactTime_eq_some_iff.mp hTime, fun d hd n hn => ?_⟩
      exact quiet_of_changed (firstChange_upToDate h d hd).2 hn

/-- A refusal of the operating system. -/
def IsRefusal (fault : Fault) : Prop :=
  ∃ error operation path, fault = .io error operation path

theorem artifactTime_error {path : Path} {fault : Fault} (h : v.artifactTime path = .error fault) :
    IsRefusal fault := by
  unfold artifactTime at h
  cases hTime : v.modified (v.root.join path) with
  | ok time => simp [hTime] at h
  | error error =>
    by_cases hNone : error = .notFound
    · simp [hTime, hNone] at h
    · have hFault : Fault.io error "read artifact metadata" (some (v.root.join path)) = fault := by
        simpa [hTime, hNone] using h
      exact ⟨_, _, _, hFault.symm⟩

theorem changed_error {agenda seen : List String} {fault : Fault}
    (h : v.changed since agenda seen = .error fault) : IsRefusal fault := by
  fun_induction changed v since agenda seen with
  | case1 => simp at h
  | case2 => simp at h
  | case3 _ _ _ _ _ ih => exact ih h
  | case4 _ _ _ _ _ _ ih => exact ih h
  | case5 _ _ _ _ _ _ _ _ _ _ hTime =>
    obtain rfl := Except.error.inj h
    exact artifactTime_error hTime
  | case6 => simp at h
  | case7 _ _ _ _ _ _ _ _ _ _ _ _ ih => exact ih h
  | case8 _ _ _ _ _ _ _ _ _ ih => exact ih h

theorem firstChange_error {dependencies : List String} {fault : Fault}
    (h : v.firstChange since dependencies = .error fault) : IsRefusal fault := by
  induction dependencies with
  | nil => simp [firstChange] at h
  | cons first rest ih =>
    rw [firstChange] at h
    by_cases hRan : first ∈ v.executed
    · simp [hRan] at h
    · rw [if_neg hRan] at h
      cases hChanged : v.changed since [first] [] with
      | error error =>
        rw [hChanged] at h
        obtain rfl := Except.error.inj h
        exact changed_error hChanged
      | ok found =>
        rw [hChanged] at h
        cases found with
        | true => simp at h
        | false => exact ih h

/-- Checking a task fails only where the operating system refuses. -/
theorem check_error {task : Task} {fault : Fault} (h : v.check task = .error fault) :
    IsRefusal fault := by
  unfold check at h
  split at h
  case h_1 => simp at h
  case h_2 path hKind =>
    split at h
    case h_1 error hTime =>
      obtain rfl := Except.error.inj h
      exact artifactTime_error hTime
    case h_2 => simp at h
    case h_3 => exact firstChange_error h

-- ---------------------------------------------------------------------------
-- What changes and refusals are due to
-- ---------------------------------------------------------------------------

theorem refuses_of_artifactTime {task : Task} {path : Path} {fault : Fault}
    (hKind : task.kind = .artifact path) (h : v.artifactTime path = .error fault) :
    v.Refuses task := by
  unfold artifactTime at h
  cases hTime : v.modified (v.root.join path) with
  | ok time => simp [hTime] at h
  | error error =>
    refine ⟨path, error, hKind, hTime, ?_⟩
    rintro rfl
    simp [hTime] at h

theorem check_of_refuses {task : Task} (h : v.Refuses task) :
    ∃ fault, v.check task = .error fault := by
  obtain ⟨path, error, hKind, hTime, hOther⟩ := h
  have hArtifact : v.artifactTime path =
      .error (.io error "read artifact metadata" (some (v.root.join path))) := by
    rw [artifactTime, hTime]
    exact if_neg hOther
  simp only [check, hKind, hArtifact]
  exact ⟨_, rfl⟩

/-- What an answer about the names of an agenda is due to: a change to a name
that is not quiet, a fault to one whose time is refused. It is found on the
agenda or beneath it. -/
def DueTo (v : View) (since : Int) (agenda : List String) : Except Fault Bool → Prop
  | .ok false => True
  | .ok true => ∃ a ∈ agenda, ∃ n, ReflTransGen v.registry.Beneath a n ∧ ¬ v.Quiet since n
  | .error _ => ∃ a ∈ agenda, ∃ n task, ReflTransGen v.registry.Beneath a n ∧
      v.registry.get? n = some task ∧ v.Refuses task

theorem DueTo.mono {agenda other : List String} {answer : Except Fault Bool}
    (h : v.DueTo since agenda answer)
    (hBelow : ∀ a ∈ agenda, ∃ b ∈ other, ReflTransGen v.registry.Beneath b a) :
    v.DueTo since other answer := by
  match answer with
  | .ok false => trivial
  | .ok true =>
    obtain ⟨a, ha, n, hn, hLoud⟩ := h
    obtain ⟨b, hb, hOn⟩ := hBelow a ha
    exact ⟨b, hb, n, hOn.trans hn, hLoud⟩
  | .error _ =>
    obtain ⟨a, ha, n, task, hn, hRefuses⟩ := h
    obtain ⟨b, hb, hOn⟩ := hBelow a ha
    exact ⟨b, hb, n, task, hOn.trans hn, hRefuses⟩

theorem DueTo.later {name : String} {later : List String} {answer : Except Fault Bool}
    (h : v.DueTo since later answer) : v.DueTo since (name :: later) answer :=
  h.mono fun a ha => ⟨a, List.mem_cons_of_mem _ ha, .refl⟩

/-- **Where a change is found**, or a refusal, it is found on the agenda or
beneath it. -/
theorem dueTo_changed (v : View) (since : Int) (agenda seen : List String) :
    v.DueTo since agenda (v.changed since agenda seen) := by
  fun_induction changed v since agenda seen with
  | case1 => trivial
  | case2 _ name _ hRan => exact ⟨name, by simp, name, .refl, fun hQuiet => hQuiet.1 hRan⟩
  | case3 _ _ _ _ _ ih => exact ih.later
  | case4 _ _ _ _ _ _ ih => exact ih.later
  | case5 _ name _ _ _ task hFound path hKind fault hTime =>
    rw [Registry.lookup_catalogue] at hFound
    exact ⟨name, by simp, name, task, .refl, hFound, refuses_of_artifactTime hKind hTime⟩
  | case6 _ name _ _ _ task hFound path hKind time hTime hYoung =>
    rw [Registry.lookup_catalogue] at hFound
    refine ⟨name, by simp, name, .refl, fun hQuiet => ?_⟩
    cases time with
    | none => cases hYoung
    | some t =>
      have hOld := hQuiet.2 task path hFound hKind t (artifactTime_eq_some_iff.mp hTime)
      have hLess : since < t := of_decide_eq_true hYoung
      omega
  | case7 _ _ _ _ _ _ _ _ _ _ _ _ ih => exact ih.later
  | case8 _ name later _ _ task hFound _ beneath ih =>
    rw [Registry.lookup_catalogue] at hFound
    -- what lies beneath the aggregate lies beneath what its name stands for
    refine ih.mono fun a ha => ?_
    rcases List.mem_append.mp ha with ha | ha
    · cases hAggregate : task.isAggregate with
      | true =>
        have hDep : a ∈ task.dependsOn := by simpa [beneath, hAggregate] using ha
        exact ⟨name, by simp, .single ⟨task, hFound, hAggregate, hDep⟩⟩
      | false => simp [beneath, hAggregate] at ha
    · exact ⟨a, List.mem_cons_of_mem _ ha, .refl⟩

/-- Nothing refuses to be looked at, on a list of dependencies or beneath it. -/
def Readable (v : View) (dependencies : List String) : Prop :=
  ∀ d ∈ dependencies, ∀ n task, ReflTransGen v.registry.Beneath d n →
    v.registry.get? n = some task → ¬ v.Refuses task

theorem changed_eq_ok (since : Int) {dependency : String} (hReadable : v.Readable [dependency]) :
    ∃ found, v.changed since [dependency] [] = .ok found := by
  have hDue := v.dueTo_changed since [dependency] []
  cases hChanged : v.changed since [dependency] [] with
  | ok found => exact ⟨found, rfl⟩
  | error fault =>
    rw [hChanged] at hDue
    obtain ⟨d, hd, n, task, hn, hTask, hRefuses⟩ := hDue
    exact absurd hRefuses (hReadable d hd n task hn hTask)

theorem firstChange_eq_ok {dependencies : List String} (hReadable : v.Readable dependencies) :
    ∃ freshness, v.firstChange since dependencies = .ok freshness := by
  induction dependencies with
  | nil => exact ⟨_, rfl⟩
  | cons first rest ih =>
    rw [firstChange]
    by_cases hRan : first ∈ v.executed
    · exact ⟨_, if_pos hRan⟩
    · have hFirst : v.Readable [first] := fun d hd =>
        hReadable d (List.mem_cons.mpr (.inl (List.mem_singleton.mp hd)))
      obtain ⟨found, hChanged⟩ := changed_eq_ok since hFirst
      rw [if_neg hRan, hChanged]
      cases found with
      | true => exact ⟨_, rfl⟩
      | false => exact ih fun d hd => hReadable d (List.mem_cons_of_mem _ hd)

/-- **A task can be checked** where no time is refused that is looked at. -/
theorem check_eq_ok {task : Task} (hOwn : ¬ v.Refuses task)
    (hReadable : v.Readable task.dependsOn) : ∃ freshness, v.check task = .ok freshness := by
  cases hKind : task.kind with
  | phony => exact ⟨.phony, by rw [check, hKind]⟩
  | artifact path =>
    cases hTime : v.artifactTime path with
    | error fault => exact absurd (refuses_of_artifactTime hKind hTime) hOwn
    | ok time =>
      cases time with
      | none => exact ⟨.missing, by simp only [check, hKind, hTime]⟩
      | some since =>
        simp only [check, hKind, hTime]
        exact firstChange_eq_ok hReadable

/-- Where all is quiet beneath a dependency, no change is found in it. -/
theorem changed_of_quiet {dependency : String} (hReadable : v.Readable [dependency])
    (hQuiet : ∀ n, ReflTransGen v.registry.Beneath dependency n → v.Quiet since n) :
    v.changed since [dependency] [] = .ok false := by
  obtain ⟨found, hChanged⟩ := changed_eq_ok since hReadable
  cases found with
  | false => exact hChanged
  | true =>
    have hDue := v.dueTo_changed since [dependency] []
    rw [hChanged] at hDue
    obtain ⟨d, hd, n, hn, hLoud⟩ := hDue
    obtain rfl := List.mem_singleton.mp hd
    exact absurd (hQuiet n hn) hLoud

/-- Dependencies beneath which all is quiet are passed over. -/
theorem firstChange_append {before rest : List String} (hReadable : v.Readable before)
    (hQuiet : ∀ d ∈ before, ∀ n, ReflTransGen v.registry.Beneath d n → v.Quiet since n) :
    v.firstChange since (before ++ rest) = v.firstChange since rest := by
  induction before with
  | nil => rfl
  | cons first before ih =>
    have hRan : first ∉ v.executed := (hQuiet first (by simp) first .refl).1
    have hFirst : v.Readable [first] := fun d hd =>
      hReadable d (List.mem_cons.mpr (.inl (List.mem_singleton.mp hd)))
    rw [List.cons_append, firstChange, if_neg hRan,
      changed_of_quiet hFirst (hQuiet first (by simp))]
    exact ih (fun d hd => hReadable d (List.mem_cons_of_mem _ hd))
      fun d hd => hQuiet d (List.mem_cons_of_mem _ hd)

theorem firstChange_of_quiet {dependencies : List String} (hReadable : v.Readable dependencies)
    (hQuiet : ∀ d ∈ dependencies, ∀ n, ReflTransGen v.registry.Beneath d n → v.Quiet since n) :
    v.firstChange since dependencies = .ok .upToDate := by
  rw [← List.append_nil dependencies, firstChange_append hReadable hQuiet]
  rfl

/-- **A task is up to date** if its artifact is there and all that is seen of its
dependencies is quiet. -/
theorem check_of_quiet {task : Task} {path : Path} (hKind : task.kind = .artifact path)
    (hTime : v.modified (v.root.join path) = .ok since) (hReadable : v.Readable task.dependsOn)
    (hQuiet : ∀ d ∈ task.dependsOn, ∀ n, ReflTransGen v.registry.Beneath d n → v.Quiet since n) :
    v.check task = .ok .upToDate := by
  simp only [check, hKind, artifactTime_eq_some_iff.mpr hTime]
  exact firstChange_of_quiet hReadable hQuiet

end Freshness.View

end TaskMill
