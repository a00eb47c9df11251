import TaskMill.Proofs.Indexing
import TaskMill.Run.Plan
/-!
# TaskMill — a host in memory

A **ledger** is a world small enough to be written down: it holds when files
were modified, and which commands are broken. A command makes at most one file,
as a table tells, and stamps it with a time later than all in the ledger; a
broken command exits with a failure and makes nothing. Nothing happens to a
ledger by itself, and nothing is ever cancelled.
-/

namespace TaskMill

/-- The times of files, latest first, and the commands that fail. -/
structure Ledger where
  stamps : List (Path × Int)
  broken : List String
  deriving DecidableEq, Inhabited

namespace Ledger

/-- A time later than all in the ledger. -/
def next (l : Ledger) : Int := (l.stamps.map Prod.snd).foldr max 0 + 1

/-- A file is made. -/
def stamp (l : Ledger) (path : Path) : Ledger := { l with stamps := (path, l.next) :: l.stamps }

/-- What a command leaves behind that makes `made`. -/
def produce (l : Ledger) : Option Path → Ledger
  | some path => l.stamp path
  | none => l

/-- When a file was modified. -/
def modified (l : Ledger) (path : Path) : Except SystemError Int :=
  match l.stamps.lookup path with
  | some time => .ok time
  | none => .error .notFound

/-- The host whose states are ledgers, `makes` being what each command makes. -/
def host (makes : String → Option Path) : Host Ledger where
  elapse l := l
  cancelled _ := false
  now _ := 0
  modified := modified
  perform l launch :=
    if launch.command ∈ l.broken then (.ok ⟨.byItself (.exited 1), [], [], fun _ => 0⟩, l)
    else (.ok ⟨.byItself (.exited 0), [], [], fun _ => 0⟩, l.produce (makes launch.command))

variable {l : Ledger} {path : Path} {time : Int}

theorem modified_eq_ok_iff : l.modified path = .ok time ↔ l.stamps.lookup path = some time := by
  unfold modified
  cases l.stamps.lookup path <;> simp

theorem modified_stamp_self : (l.stamp path).modified path = .ok l.next := by
  simp [modified_eq_ok_iff, stamp]

theorem modified_stamp_of_ne {other : Path} (hNe : other ≠ path) :
    (l.stamp path).modified other = l.modified other := by
  simp [modified, stamp, List.lookup_cons, beq_false_of_ne hNe]

private theorem le_foldr_of_lookup {stamps : List (Path × Int)}
    (h : stamps.lookup path = some time) : time ≤ (stamps.map Prod.snd).foldr max 0 := by
  induction stamps with
  | nil => simp at h
  | cons first rest ih =>
    rw [List.lookup_cons] at h
    simp only [List.map_cons, List.foldr_cons]
    split at h
    · obtain rfl := Option.some.inj h
      exact Int.le_max_left _ _
    · exact Int.le_trans (ih h) (Int.le_max_right _ _)

/-- What is made next is made later than all that is there. -/
theorem lt_next (h : l.modified path = .ok time) : time < l.next := by
  have := le_foldr_of_lookup (modified_eq_ok_iff.mp h)
  unfold next
  omega

end Ledger

-- ---------------------------------------------------------------------------
-- A small project
-- ---------------------------------------------------------------------------

namespace Bundling

/-- A library that a command makes. -/
def lib : Task := ⟨"lib", .artifact ⟨"/lib"⟩, [], some ⟨"make lib", []⟩, none, none, none⟩

/-- What stands for the library without a command of its own. -/
def bundle (kind : TaskKind) : Task := ⟨"bundle", kind, ["lib"], none, none, none, none⟩

/-- A program that a command makes, depending on the library only in this
way. -/
def app : Task := ⟨"app", .artifact ⟨"/app"⟩, ["bundle"], some ⟨"make app", []⟩, none, none, none⟩

/-- The three tasks. -/
def registry (kind : TaskKind) : Registry :=
  .ofDistinct [lib, bundle kind, app] (by simp [lib, bundle, app])

/-- The host on which the commands make what they should. -/
def host : Host Ledger :=
  Ledger.host fun command => [("make lib", ⟨"/lib"⟩), ("make app", ⟨"/app"⟩)].lookup command

def options : RunOptions := .plain ⟨"/"⟩

/-- The library is not there, the program is, and its command is broken. -/
def broken : Ledger := ⟨[(⟨"/bundle"⟩, 1), (⟨"/app"⟩, 2)], ["make app"]⟩

/-- The library has been made, and the command is broken no more. -/
def mended : Ledger := ⟨[(⟨"/lib"⟩, 3), (⟨"/bundle"⟩, 1), (⟨"/app"⟩, 2)], []⟩

/-- The bundle is a file. -/
def filed : Registry := registry (.artifact ⟨"/bundle"⟩)

/-- The bundle is a name for the library. -/
def named : Registry := registry .phony

end Bundling

end TaskMill
