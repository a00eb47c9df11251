import TaskMill.Event.Signal
/-!
# TaskMill — what is sent is delivered

An event is sent as loosely typed fields, and it is put together again from
their names alone: its type (`kind`) says which fields are read, a field that was
left out is not there, and a number is cut back to the width it had.

## Results

* `Signal.event?_ofEvent` — the signal of an event carries that event.
* `Signal.delivered_ofEvents` — of the signals of events, one after the other,
  these events are delivered, each once and in order.
-/

namespace TaskMill

/-- The type under which a task event is sent. -/
def TaskEvent.kind : TaskEvent → String
  | started .. => "task.started"
  | skipped .. => "task.skipped"
  | output .. => "task.output"
  | completed .. => "task.completed"
  | timedOut .. => "task.timed_out"

/-- The type under which a run event is sent. -/
def RunEvent.kind : RunEvent → String
  | planned .. => "run.planned"
  | completed .. => "run.completed"
  | cancelled .. => "run.cancelled"

namespace Signal

/-- The events that are delivered of signals sent one after the other. -/
def delivered (signals : List Signal) : List SourcedEvent :=
  signals.filterMap event?

-- ---------------------------------------------------------------------------
-- Types
-- ---------------------------------------------------------------------------

theorem text?_kind_ofTaskEvent (e : TaskEvent) :
    (ofTaskEvent e).text? "event_type" = some e.kind := by
  cases e with
  | started | skipped | output | timedOut => simp [ofTaskEvent, text?, last?, TaskEvent.kind]
  | completed name success exitCode durationMs =>
    cases exitCode <;> simp [ofTaskEvent, text?, last?, TaskEvent.kind]

theorem text?_kind_ofRunEvent (e : RunEvent) :
    (ofRunEvent e).text? "event_type" = some e.kind := by
  cases e with
  | planned | completed => simp [ofRunEvent, text?, last?, RunEvent.kind]
  | cancelled target task => cases task <;> simp [ofRunEvent, text?, last?, RunEvent.kind]

/-- By its type, a run event is not taken for a task event. -/
theorem taskEvent?_kind_runEvent (s : Signal) (e : RunEvent) : s.taskEvent? e.kind = none := by
  unfold taskEvent?
  cases s.text? "task_name" <;> cases e <;> simp [RunEvent.kind]

-- ---------------------------------------------------------------------------
-- Fields
-- ---------------------------------------------------------------------------

theorem taskEvent?_ofTaskEvent (e : TaskEvent) : (ofTaskEvent e).taskEvent? e.kind = some e := by
  cases e with
  | started name command => simp [ofTaskEvent, TaskEvent.kind, taskEvent?, text?, last?]
  | skipped name reason => simp [ofTaskEvent, TaskEvent.kind, taskEvent?, text?, last?]
  | output name stream content =>
    simp [ofTaskEvent, TaskEvent.kind, taskEvent?, text?, last?, stream?]
  | completed name success exitCode durationMs =>
    cases exitCode with
    | none => simp [ofTaskEvent, TaskEvent.kind, taskEvent?, text?, last?, flag?, code?, count?]
    | some code =>
      -- the code was sent in 64 bits and is read back in 32
      have hCode : code.toInt64.toInt32 = code := Int32.toInt32_toInt64 code
      simp [ofTaskEvent, TaskEvent.kind, taskEvent?, text?, last?, flag?, code?, count?, hCode]
  | timedOut name timeoutSecs =>
    simp [ofTaskEvent, TaskEvent.kind, taskEvent?, text?, last?, count?]

theorem runEvent?_ofRunEvent (e : RunEvent) : (ofRunEvent e).runEvent? e.kind = some e := by
  cases e with
  | planned target taskCount => simp [ofRunEvent, RunEvent.kind, runEvent?, text?, last?, count?]
  | completed target success durationMs =>
    simp [ofRunEvent, RunEvent.kind, runEvent?, text?, last?, flag?, count?]
  | cancelled target task =>
    cases task <;> simp [ofRunEvent, RunEvent.kind, runEvent?, text?, last?]

-- ---------------------------------------------------------------------------
-- Events
-- ---------------------------------------------------------------------------

/-- **The signal of an event carries that event**, on the target it belongs to. -/
theorem event?_ofEvent (e : Event) : (ofEvent e).event? = some ⟨e.target, e⟩ := by
  cases e with
  | task event =>
    show (ofTaskEvent event).event? = some ⟨Event.taskTarget, .task event⟩
    have hTarget : (ofTaskEvent event).target = Event.taskTarget := by cases event <;> rfl
    simp [event?, hTarget, Event.isTarget, text?_kind_ofTaskEvent, taskEvent?_ofTaskEvent]
  | run event =>
    show (ofRunEvent event).event? = some ⟨Event.runTarget, .run event⟩
    have hTarget : (ofRunEvent event).target = Event.runTarget := by cases event <;> rfl
    simp [event?, hTarget, Event.isTarget, text?_kind_ofRunEvent, taskEvent?_kind_runEvent,
      runEvent?_ofRunEvent]

/-- **What is sent is delivered**, whatever events are sent and whatever they
say: one event for each signal, in order, and equal to what was sent. -/
theorem delivered_ofEvents (events : List Event) :
    delivered (events.map ofEvent) = events.map fun e => ⟨e.target, e⟩ := by
  induction events with
  | nil => rfl
  | cons e rest ih =>
    unfold delivered at ih ⊢
    rw [List.map_cons, List.filterMap_cons, event?_ofEvent, ih, List.map_cons]

end Signal

end TaskMill
