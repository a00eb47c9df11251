import TaskMill.Workspace
/-!
# TaskMill — faults that no process has caused

Only a process fails, takes too long or is cancelled. What comes before a run —
making a task file, loading one, looking for the target, planning — has faults
of its own, and none of these (`Fault.isOfProcess`).

This is told of a computation as a whole (`NoProcess`): it holds of its parts in
turn, so each step is looked at once.
-/

namespace TaskMill

/-- Whether a fault tells how a process ended, or that one was cancelled. -/
def Fault.isOfProcess : Fault → Bool
  | .taskFailed .. | .taskTimedOut .. | .cancelled _ => true
  | _ => false

/-- Whatever comes to a fault comes to none of a process. -/
def NoProcess {α : Type} (x : Except Fault α) : Prop :=
  ∀ fault, x = .error fault → fault.isOfProcess = false

namespace NoProcess

variable {α β ε : Type}

theorem ok (a : α) : NoProcess (.ok a : Except Fault α) := by
  rintro fault hFault
  cases hFault

theorem error {fault : Fault} (hFault : fault.isOfProcess = false) :
    NoProcess (.error fault : Except Fault α) := by
  rintro other hOther
  obtain rfl := Except.error.inj hOther
  exact hFault

theorem mapError {x : Except ε α} {f : ε → Fault} (hFault : ∀ e, (f e).isOfProcess = false) :
    NoProcess (x.mapError f) := by
  cases x with
  | ok a => exact .ok a
  | error e => exact .error (hFault e)

theorem bind {x : Except Fault α} {f : α → Except Fault β} (hFirst : NoProcess x)
    (hNext : ∀ a, NoProcess (f a)) : NoProcess (x >>= f) := by
  cases x with
  | ok a => exact hNext a
  | error fault => exact .error (hFirst fault rfl)

theorem foldlM {f : β → α → Except Fault β} (hStep : ∀ b a, NoProcess (f b a)) (b : β)
    (items : List α) : NoProcess (items.foldlM f b) := by
  induction items generalizing b with
  | nil => exact .ok b
  | cons item rest ih =>
    rw [List.foldlM_cons]
    exact (hStep b item).bind ih

end NoProcess

theorem Fault.isOfProcess_ofGraph (cause : GraphFault) :
    (Fault.ofGraph cause).isOfProcess = false := by
  cases cause with
  | missing names => cases names <;> rfl
  | cycle names => rfl
  | notFound name => rfl

theorem Registry.noProcess_plan (r : Registry) (target : String) : NoProcess (r.plan target) := by
  unfold plan
  split
  · dsimp only
    split
    · exact .error (Fault.isOfProcess_ofGraph _)
    · split
      · exact .error (Fault.isOfProcess_ofGraph _)
      · exact .ok _
  · exact .error rfl

theorem Registry.noProcess_check (r : Registry) : NoProcess r.check := by
  unfold check
  split
  · exact .error (Fault.isOfProcess_ofGraph _)
  · exact .mapError Fault.isOfProcess_ofGraph

namespace TaskFile

theorem noProcess_toRegistry (f : TaskFile) (file : Path) : NoProcess (f.toRegistry file) := by
  refine .foldlM (fun r entry => ?_) _ _
  refine .bind (.mapError fun problem => rfl) fun task => ?_
  unfold Registry.register
  split
  · exact .error rfl
  · exact .ok _

theorem noProcess_parse (source : String) (file : Path) : NoProcess (parse source file) := by
  refine .bind (.mapError fun flaw => ?_) fun v => .mapError fun e => rfl
  cases flaw <;> rfl

end TaskFile

namespace Project

theorem noProcess_target (p : Project) (requested : Option String) :
    NoProcess (p.target requested) := by
  unfold target
  split
  · exact .ok _
  · exact .error rfl

theorem noProcess_load (read : Path → Except SystemError String) (path : Path) :
    NoProcess (load read path) := by
  refine .bind (.mapError fun e => rfl) fun source => ?_
  refine .bind (TaskFile.noProcess_parse source path) fun file => ?_
  have hSettings : NoProcess (file.settings.check path) := by
    unfold Settings.check
    split
    · exact .error rfl
    · exact .ok _
  have hDefault : ∀ registry, NoProcess (checkDefault file.settings registry) := by
    intro registry
    unfold checkDefault
    split
    · split
      · exact .ok _
      · exact .error rfl
    · exact .ok _
  refine .bind hSettings fun _ => .bind (file.noProcess_toRegistry path) fun registry => ?_
  exact .bind registry.noProcess_check fun _ => .bind (hDefault registry) fun _ => .ok _

end Project

theorem Workspace.noProcess_writeStarter {σ : Type} (w : Workspace σ) (path : Path) (s : σ) :
    NoProcess (w.writeStarter path s).1 := by
  unfold writeStarter
  split
  case h_1 error t hRefused =>
    refine .error ?_
    unfold vacancyFault
    split <;> rfl
  case h_2 => exact .mapError fun e => rfl

end TaskMill
