import TaskMill.Registry
/-!
# TaskMill — freshness

Whether a task has to be performed. A phony task always has to; an artifact
task unless its artifact is there and nothing it depends on has changed since.

A dependency **carries a change** if it was performed in the same run, or if
its artifact is younger than the artifact in question. An aggregate has nothing
of its own, so it carries every change that one of its dependencies carries.
Other phony tasks carry a change only by being performed.
-/

namespace TaskMill

/-- Whether a task has to be performed, and why. -/
inductive Freshness where
  /-- The task produces no file. -/
  | phony
  /-- The artifact is not there. -/
  | missing
  /-- A dependency was performed in the same run. -/
  | dependencyRan (dependency : String)
  /-- A dependency carries a change that is younger than the artifact. -/
  | olderThan (dependency : String)
  /-- The task need not be performed. -/
  | upToDate
  deriving DecidableEq, Inhabited

namespace Freshness

/-- The reason, told in a few words. -/
def reason : Freshness → String
  | phony => "phony"
  | missing => "artifact missing"
  | dependencyRan dependency => s!"dependency '{dependency}' ran"
  | olderThan dependency => s!"artifact older than that of '{dependency}'"
  | upToDate => "up to date"

/-- What is looked at to tell whether a task has to be performed. -/
structure View where
  registry : Registry
  /-- The tasks performed so far, and the aggregates above them. -/
  executed : List String
  /-- The directory that artifacts are seen from. -/
  root : Path
  /-- When what a path names was modified last. -/
  modified : Path → Except SystemError Int

namespace View

/-- When an artifact was modified last; nothing if it is not there. -/
def artifactTime (v : View) (artifact : Path) : Except Fault (Option Int) :=
  let path := v.root.join artifact
  match v.modified path with
  | .ok time => .ok (some time)
  | .error error =>
    if error = .notFound then .ok none
    else .error (.io error "read artifact metadata" (some path))

/-- Whether one of the names of `agenda` carries a change younger than `since`.
The names are looked at in order, each aggregate giving way to what it depends
on; a name that is in `seen` has been looked at. -/
def changed (v : View) (since : Int) (agenda seen : List String) : Except Fault Bool :=
  match agenda with
  | [] => .ok false
  | name :: later =>
    if name ∈ v.executed then .ok true
    else if _hnew : name ∈ seen then v.changed since later seen
    else
      match _hfound : v.registry.catalogue.lookup name with
      | none => v.changed since later (seen ++ [name])
      | some task =>
        match task.kind with
        | .artifact path =>
          match v.artifactTime path with
          | .error fault => .error fault
          | .ok time =>
            if time.any (since < ·) then .ok true else v.changed since later (seen ++ [name])
        | .phony =>
          let beneath := if task.isAggregate then task.dependsOn else []
          v.changed since (beneath ++ later) (seen ++ [name])
termination_by (Graph.unasked v.registry.catalogue seen, agenda.length)
decreasing_by
  · exact .right _ (by simp)
  · rcases Nat.lt_or_eq_of_le (Graph.unasked_append_le v.registry.catalogue seen [name]) with h | h
    · exact .left _ _ h
    · rw [h]; exact .right _ (by simp)
  · exact .left _ _ (Graph.unasked_lt_of_lookup _hnew _hfound)
  · exact .left _ _ (Graph.unasked_lt_of_lookup _hnew _hfound)

/-- The first of some dependencies that carries a change younger than
`since`. -/
def firstChange (v : View) (since : Int) : List String → Except Fault Freshness
  | [] => .ok .upToDate
  | dependency :: rest =>
    if dependency ∈ v.executed then .ok (.dependencyRan dependency)
    else match v.changed since [dependency] [] with
      | .error fault => .error fault
      | .ok true => .ok (.olderThan dependency)
      | .ok false => v.firstChange since rest

/-- Whether a task has to be performed. -/
def check (v : View) (task : Task) : Except Fault Freshness :=
  match task.kind with
  | .phony => .ok .phony
  | .artifact path =>
    match v.artifactTime path with
    | .error fault => .error fault
    | .ok none => .ok .missing
    | .ok (some since) => v.firstChange since task.dependsOn

end View

end Freshness

end TaskMill
