import Mathlib
import TaskMill.Proofs.Decoding
import TaskMill.Proofs.Dubbing
import TaskMill.Proofs.Ledger
/-!
# TaskMill — captured output

The lines of what a process wrote are said without the scan that finds them
(`Lined`): some lines, each closed by a line feed, and at last one that is not
closed. Where output is captured, what is told of a stream and what is kept of it
are the same lines: those up to the first that is not UTF-8. From that line on the
stream is not read, so with it all that comes after it is lost, and nothing is
lost exactly if all lines are UTF-8.

## Results

* `Text.lined_iff` — the scan finds the lines.
* `captured_of_finished` — what is captured, and when it is all that was written.
* `lost_line` — a byte that is not UTF-8 loses a line that is.
-/

namespace TaskMill

-- ---------------------------------------------------------------------------
-- Lines
-- ---------------------------------------------------------------------------

namespace Text

variable {α : Type} [DecidableEq α] {feed ret : α} {s : List α} {lines : List (List α)}

/-- A line without the carriage return it may end with. -/
def chomp (ret : α) (line : List α) : List α :=
  if line.getLast? = some ret then line.dropLast else line

/-- `s` has these lines: each of the `closed` ones with a line feed after it, which
takes one carriage return with it; and what comes last, if there is anything. -/
def Lined (feed ret : α) (s : List α) (lines : List (List α)) : Prop :=
  ∃ (closed : List (List α)) (last : List α), (∀ line ∈ closed, feed ∉ line) ∧ feed ∉ last ∧
    s = closed.flatMap (· ++ [feed]) ++ last ∧
    lines = closed.map (chomp ret) ++ if last = [] then [] else [last]

theorem closeLine_reverse_eq_chomp (line : List α) :
    closeLine ret line.reverse = chomp ret line := by
  unfold chomp
  induction line using List.reverseRecOn with
  | nil => rfl
  | append_singleton front last =>
    rw [List.reverse_concat, closeLine, List.getLast?_concat, List.dropLast_concat]
    by_cases hRet : last = ret
    · simp [hRet]
    · simp [hRet]

theorem cutLinesFrom_open (hFeed : feed ∉ s) (line : List α) :
    cutLinesFrom feed ret line s =
      if s.reverse ++ line = [] then [] else [(s.reverse ++ line).reverse] := by
  induction s generalizing line with
  | nil => cases line <;> simp [cutLinesFrom]
  | cons c rest ih =>
    have hFirst : c ≠ feed := fun hSame => hFeed (by simp [hSame])
    have hRest : feed ∉ rest := fun hMem => hFeed (List.mem_cons_of_mem c hMem)
    rw [cutLinesFrom, if_neg hFirst, ih hRest]
    simp

/-- The scan finds the lines that something has. -/
theorem eq_cutLines_of_lined (h : Lined feed ret s lines) : lines = cutLines feed ret s := by
  obtain ⟨closed, last, hClosed, hLast, rfl, rfl⟩ := h
  unfold cutLines
  induction closed with
  | nil =>
    rw [List.flatMap_nil, List.nil_append, cutLinesFrom_open hLast]
    simp
  | cons line rest ih =>
    obtain ⟨hLine, hRest⟩ := List.forall_mem_cons.mp hClosed
    rw [List.flatMap_cons, List.append_assoc, List.append_assoc, List.singleton_append,
      cutLinesFrom_append hLine, List.append_nil, closeLine_reverse_eq_chomp, ← ih hRest]
    rfl

/-- Everything has lines. -/
theorem exists_lined (feed ret : α) (s : List α) : ∃ lines, Lined feed ret s lines := by
  induction hLength : s.length using Nat.strongRecOn generalizing s with
  | ind n ih =>
    subst hLength
    by_cases hFeed : feed ∈ s
    · obtain ⟨line, rest, rfl, hLine⟩ := List.eq_append_cons_of_mem hFeed
      obtain ⟨_, closed, last, hClosed, hLast, hRest, -⟩ := ih rest.length (by simp; omega) rest rfl
      refine ⟨_, line :: closed, last, List.forall_mem_cons.mpr ⟨hLine, hClosed⟩, hLast, ?_, rfl⟩
      rw [List.flatMap_cons, List.append_assoc, ← hRest]
      simp
    · exact ⟨_, [], s, by simp, hFeed, by simp, rfl⟩

theorem lined_iff : Lined feed ret s lines ↔ lines = cutLines feed ret s := by
  constructor
  · exact eq_cutLines_of_lined
  · rintro rfl
    obtain ⟨lines, h⟩ := exists_lined feed ret s
    exact eq_cutLines_of_lined h ▸ h

-- ---------------------------------------------------------------------------
-- Lines that can be read
-- ---------------------------------------------------------------------------

/-- Bytes that are UTF-8. -/
def Legible (bytes : List UInt8) : Prop := (decode? bytes).isSome = true

instance (bytes : List UInt8) : Decidable (Legible bytes) :=
  inferInstanceAs (Decidable (_ = true))

/-- **Lines are read up to the first that is not UTF-8.** -/
theorem linesOfBytes_eq (bytes : List UInt8) :
    linesOfBytes bytes = ((cutLines 10 13 bytes).takeWhile (Legible ·)).map decodeLossy := by
  have hRead (lines : List (List UInt8)) :
      ((lines.map decode?).takeWhile Option.isSome).filterMap id =
        (lines.takeWhile (Legible ·)).map decodeLossy := by
    induction lines with
    | nil => rfl
    | cons line rest ih =>
      cases hLine : decode? line with
      | none => simp [Legible, hLine]
      | some text =>
        have hLegible : Legible line := by simp [Legible, hLine]
        rw [List.map_cons, hLine, List.takeWhile_cons_of_pos rfl,
          List.takeWhile_cons_of_pos (by simpa using hLegible), List.map_cons,
          decodeLossy_of_decode? hLine, ← ih]
        rfl
  exact hRead _

/-- All lines are read exactly if all of them are UTF-8. -/
theorem linesOfBytes_eq_iff (bytes : List UInt8) :
    linesOfBytes bytes = (cutLines 10 13 bytes).map decodeLossy ↔
      ∀ line ∈ cutLines 10 13 bytes, Legible line := by
  rw [linesOfBytes_eq]
  constructor
  · intro hAll
    -- a line that is not read makes the list shorter
    have hLength := congrArg List.length hAll
    rw [List.length_map, List.length_map] at hLength
    have hSame := (List.takeWhile_prefix (Legible ·)).eq_of_length hLength
    simpa using List.takeWhile_eq_self_iff.mp hSame
  · intro hAll
    rw [List.takeWhile_eq_self_iff.mpr (by simpa using hAll)]

end Text

-- ---------------------------------------------------------------------------
-- What is captured
-- ---------------------------------------------------------------------------

/-- What a process wrote to a stream. -/
def Performance.written {launch : Launch} (p : Performance launch) : Stream → List UInt8
  | .stdout => p.stdout
  | .stderr => p.stderr

/-- The lines kept of a stream. -/
def Finished.lines (f : Finished) : Stream → List String
  | .stdout => f.stdout
  | .stderr => f.stderr

/-- The text kept of a stream: its lines, with a line feed between them. -/
def Finished.text (f : Finished) (stream : Stream) : String :=
  "\n".intercalate (f.lines stream)

/-- The line that an emission tells of a stream of a task. -/
def Emission.line? (name : String) (stream : Stream) : Emission → Option String
  | .event (.task (.output name' stream' content)) =>
    if name' = name ∧ stream' = stream then some content else none
  | _ => none

/-- The lines told of a stream of a task, in order. -/
def linesTold (name : String) (stream : Stream) (emissions : List Emission) : List String :=
  emissions.filterMap (Emission.line? name stream)

theorem linesTold_append (name : String) (stream : Stream) (first next : List Emission) :
    linesTold name stream (first ++ next) =
      linesTold name stream first ++ linesTold name stream next :=
  List.filterMap_append

section Captured

variable {σ : Type} {h : Host σ} {o : RunOptions} {task : Task} {action : Action} {s t : σ}
  {p : Performance (o.launch task action)} {finished : Finished}

/-- What is told of one stream is not told of the other. -/
theorem linesTold_told (hCapture : o.capture = true) (name : String) (stream stream' : Stream)
    (bytes : List UInt8) :
    linesTold name stream (o.told name stream' bytes) =
      if stream' = stream then Text.linesOfBytes bytes else [] := by
  unfold linesTold RunOptions.told
  rw [if_pos hCapture, List.filterMap_map]
  by_cases hSame : stream' = stream
  · rw [if_pos hSame]
    have hLine :
        Emission.line? name stream ∘ (fun line => .event (.task (.output name stream' line)))
        = some := by
      funext line
      simp [Emission.line?, hSame]
    rw [hLine, List.filterMap_some]
  · rw [if_neg hSame, List.filterMap_eq_nil_iff]
    intro line _
    simp [Emission.line?, hSame]

/-- **What is told of a stream is what is kept of it**: its lines, as far as they
are read. -/
theorem linesTold_of_finished (hCapture : o.capture = true)
    (hPerform : h.perform s (o.launch task action) = (.ok p, t))
    (hResult : (h.performAction o task action s).result = .ok finished) (stream : Stream) :
    finished.lines stream = Text.linesOfBytes (p.written stream) ∧
      linesTold task.name stream (h.performAction o task action s).emissions =
        Text.linesOfBytes (p.written stream) := by
  have hTold : linesTold task.name stream (o.toldAll task.name p) =
      Text.linesOfBytes (p.written stream) := by
    rw [RunOptions.toldAll, linesTold_append, linesTold_told hCapture, linesTold_told hCapture]
    cases stream <;> simp [Performance.written]
  simp only [Host.performAction, hPerform] at hResult ⊢
  -- only a process that ended by itself has finished
  cases hEnding : p.ending with
  | overran limited => simp [hEnding] at hResult
  | cancelled => simp [hEnding] at hResult
  | lost error => simp [hEnding] at hResult
  | byItself status =>
    simp only [hEnding] at hResult ⊢
    split at hResult
    case isTrue => cases hResult
    case isFalse hEnded =>
      rw [if_neg hEnded]
      obtain rfl := Except.ok.inj hResult
      constructor
      · cases stream <;> simp [Finished.lines, Performance.written, RunOptions.captured, hCapture]
      · show linesTold task.name stream (_ :: o.toldAll task.name p ++ [_]) = _
        rw [linesTold_append]
        show linesTold task.name stream (o.toldAll task.name p) ++ [] = _
        rw [List.append_nil, hTold]

end Captured

namespace Bundling

/-- The options of a run that captures output. -/
def capturing : RunOptions := { options with capture := true }

/-- The library is made by a command that prints these bytes. -/
def printing (bytes : List UInt8) : Attempt Ledger Finished :=
  (host.dubbed fun _ _ _ => bytes).performAction capturing lib ⟨"make lib", []⟩ mended

end Bundling

/--
**What is captured.** Where output is captured, and a process finished that wrote
these lines to a stream:

* what is told of the stream is what is kept of it, and the text kept is this with
  a line feed between any two lines;
* it is the lines up to the first that is not UTF-8, and no more;
* it is all the lines, with `U+FFFD` for all that is not UTF-8, exactly if all of
  them are UTF-8.
-/
theorem captured_of_finished {σ : Type} {h : Host σ} {o : RunOptions} {task : Task}
    {action : Action} {s t : σ} {p : Performance (o.launch task action)} {finished : Finished}
    (hCapture : o.capture = true) (hPerform : h.perform s (o.launch task action) = (.ok p, t))
    (hResult : (h.performAction o task action s).result = .ok finished) (stream : Stream)
    {lines : List (List UInt8)} (hLines : Text.Lined 10 13 (p.written stream) lines) :
    let told := linesTold task.name stream (h.performAction o task action s).emissions
    finished.lines stream = told ∧ finished.text stream = "\n".intercalate told ∧
      told = (lines.takeWhile (Text.Legible ·)).map Text.decodeLossy ∧
      (told = lines.map Text.decodeLossy ↔ ∀ line ∈ lines, Text.Legible line) := by
  obtain rfl := Text.lined_iff.mp hLines
  obtain ⟨hKept, hTold⟩ := linesTold_of_finished hCapture hPerform hResult stream
  intro told
  have hSame : finished.lines stream = told := by rw [hKept, ← hTold]
  refine ⟨hSame, by rw [Finished.text, hSame], ?_, ?_⟩
  · show linesTold _ _ _ = _
    rw [hTold, Text.linesOfBytes_eq]
  · show linesTold _ _ _ = _ ↔ _
    rw [hTold, Text.linesOfBytes_eq_iff]

open Bundling in
/-- A line that ends in a carriage return and one without an end, in UTF-8, are
captured as they are. -/
theorem captured_of_finished_words :
    (printing [0xC3, 0xA9, 13, 10, 111, 107]).result = .ok ⟨.exited 0, ["é", "ok"], []⟩ ∧
    Text.Lined (10 : UInt8) 13 [0xC3, 0xA9, 13, 10, 111, 107] [[0xC3, 0xA9], [111, 107]] ∧
    linesTold "lib" .stdout (printing [0xC3, 0xA9, 13, 10, 111, 107]).emissions =
      [[0xC3, 0xA9], [111, 107]].map Text.decodeLossy := by
  have hResult : (printing [0xC3, 0xA9, 13, 10, 111, 107]).result =
      .ok ⟨.exited 0, ["é", "ok"], []⟩ := by cbv
  have hLines : Text.Lined (10 : UInt8) 13 [0xC3, 0xA9, 13, 10, 111, 107]
      [[0xC3, 0xA9], [111, 107]] := Text.lined_iff.mpr rfl
  have hPerform : (host.dubbed fun _ _ _ => [0xC3, 0xA9, 13, 10, 111, 107]).perform mended
      (capturing.launch lib ⟨"make lib", []⟩) =
        (.ok ⟨.byItself (.exited 0), [0xC3, 0xA9, 13, 10, 111, 107], [], _⟩, _) := rfl
  obtain ⟨-, -, -, hAll⟩ := captured_of_finished rfl hPerform hResult .stdout hLines
  exact ⟨hResult, hLines, hAll.mpr (by decide +kernel)⟩

open Bundling in
/-- **A byte that is not UTF-8 loses a line that is**: the line it is in should be
told with `U+FFFD`, and the next one as it is, but neither is told, and neither is
kept. -/
theorem lost_line :
    Text.Lined (10 : UInt8) 13 [0xFF, 10, 111, 107, 10] [[0xFF], [111, 107]] ∧
    [[0xFF], [111, 107]].map Text.decodeLossy = ["\uFFFD", "ok"] ∧
    (printing [0xFF, 10, 111, 107, 10]).result = .ok ⟨.exited 0, [], []⟩ ∧
    linesTold "lib" .stdout (printing [0xFF, 10, 111, 107, 10]).emissions = [] :=
  ⟨Text.lined_iff.mpr rfl, by decide +kernel, by cbv, by cbv⟩

end TaskMill
