import TaskMill.Text.Blank
import TaskMill.Text.Lines
/-!
# TaskMill — the end of a task's output

What a failed task printed last, short enough to be shown: the last lines of
each stream that holds more than white space, under a heading that tells how
many lines there were when some are left out.
-/

namespace TaskMill.Tail

/-- How many lines of each stream are shown. -/
def snippetLines : Nat := 20

/-- The last `limit` lines of `text`, without the white space at its end, under
the heading `label`; nothing for a text that is all white space. -/
def section? (label text : String) (limit : Nat) : Option String :=
  let kept := Text.trimEnd text
  if kept.isEmpty then none
  else
    let lines := Text.lines kept
    let heading :=
      if limit < lines.length then s!"{label} (last {limit} of {lines.length} lines):"
      else s!"{label}:"
    some (heading ++ "\n" ++ "\n".intercalate (lines.drop (lines.length - limit)))

/-- The ends of both streams; empty if neither holds more than white space. -/
def streams (stdout stderr : String) (limit : Nat) : String :=
  "\n\n".intercalate
    ([section? "stdout" stdout limit, section? "stderr" stderr limit].filterMap id)

/-- A failed task in a few lines: its exit code and the ends of its streams. -/
def summary (name : String) (exitCode : Option Int) (stdout stderr : String) (limit : Nat) :
    String :=
  let code := (exitCode.map toString).getD "none (killed by signal)"
  let output := streams stdout stderr limit
  s!"Task '{name}' failed with exit code {code}.\n\n" ++
    if output.isEmpty then
      "No stdout/stderr were captured; rerun with --capture to include task output."
    else output

end TaskMill.Tail
