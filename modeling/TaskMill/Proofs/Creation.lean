import Mathlib.Data.List.Basic
import TaskMill.Files.Change
import TaskMill.Proofs.Fallible
import TaskMill.Proofs.Tables
/-!
# TaskMill — making a file where nothing is yet

What is at a place after a change can be told from what was there before. So a file
made in a tree adds one entry and touches no other file: all that changes besides is
the time of the directory that it stands in (`Gains`). The path still leads to the new
file afterwards, so what is written to it then goes there as well.

Whether a path names something does not depend on what may be done with it: it is
asked with all access allowed (`unlocked`). Where there is something, nothing is made.
Three refusals tell so. The first comes from a directory on the way that may not be
searched; the next where the path asks for a directory by a slash at its end, since no
file can be made there; only then is the place found to be taken
(`createNew_of_unlocked_find`).

## Results

* `Files.IsTree.gains_of_createNew`, `Files.Gains.gains_of_write` — what making a file
  and writing to it change.
* `Files.createNew_of_unlocked_find` — a file is not made where there is something.
-/

namespace TaskMill

/-- Whether a route ends in a name and a slash, so that it can lead to nothing but a
directory. -/
def Route.asksForDirectory (route : Route) : Bool :=
  route.toDirectory && route.names.getLast?.any fun last => last ≠ "." && last ≠ ".."

/-- Whether a path ends in a name and a slash. -/
def Path.asksForDirectory (p : Path) : Bool :=
  p.route.toOption.any Route.asksForDirectory

/-- What an entry holds and what may be done with it, without its time. -/
def FileEntry.undated (entry : FileEntry) : Content × Access :=
  (entry.content, entry.access)

theorem FileEntry.isDirectory_of_undated {entry other : FileEntry}
    (h : entry.undated = other.undated) : entry.isDirectory = other.isDirectory := by
  unfold isDirectory
  rw [(Prod.mk.inj h).1]

/-- A path that starts with something else than a slash has a name in it. -/
theorem Path.isAbsolute_of_names_eq_nil {p : Path} {route : Route} (hRoute : p.route = .ok route)
    (hNames : route.names = []) : route.isAbsolute = true := by
  simp only [Path.route] at hRoute
  split_ifs at hRoute with _ hEmpty _
  obtain rfl := Except.ok.inj hRoute
  show p.isAbsolute = true
  unfold isAbsolute
  cases hChars : p.text.toList with
  | nil => simp [hChars] at hEmpty
  | cons c cs =>
    by_cases hSlash : c = '/'
    · simp [hSlash]
    · simp only [hChars, segments, hSlash, if_false] at hNames
      cases hRest : segments cs <;> simp [hRest] at hNames

namespace Files

variable {fs fs' : Files} {home place other : List String} {entry : FileEntry} {p : Path}
  {now : Int} {bytes : List UInt8}

-- ---------------------------------------------------------------------------
-- What is at a place
-- ---------------------------------------------------------------------------

private theorem lookup_replaced (entries : List (List String × FileEntry)) :
    (entries.map fun (there, old) =>
        if there = place then (there, entry) else (there, old)).lookup other =
      if other = place then (entries.lookup place).map fun _ => entry
      else entries.lookup other := by
  induction entries with
  | nil => simp
  | cons first rest ih =>
    obtain ⟨there, old⟩ := first
    simp only [List.map_cons]
    by_cases hThere : there = place
    · subst hThere
      by_cases hOther : other = there
      · simp [hOther]
      · simp only [if_true, List.lookup_cons, beq_eq_false_iff_ne.mpr hOther, ih, if_neg hOther]
    · by_cases hOther : other = there
      · subst hOther
        simp [hThere]
      · simp only [if_neg hThere, List.lookup_cons, beq_eq_false_iff_ne.mpr hOther, ih,
          beq_eq_false_iff_ne.mpr (Ne.symm hThere)]

theorem get?_put :
    (fs.put place entry).get? other = if other = place then some entry else fs.get? other := by
  unfold put get?
  split_ifs with hKnown hOther hOther
  · obtain ⟨old, hOld⟩ := Option.isSome_iff_exists.mp (Table.isSome_lookup_iff.mpr hKnown)
    rw [lookup_replaced, if_pos hOther, hOld, Option.map_some]
  · rw [lookup_replaced, if_neg hOther]
  · subst hOther
    rw [List.lookup_append, Table.lookup_eq_none_iff.mpr hKnown, Option.none_or,
      List.lookup_cons_self]
  · have hNone : [(place, entry)].lookup other = none := by
      simpa [Table.lookup_eq_none_iff] using hOther
    rw [List.lookup_append, hNone, Option.or_none]

theorem get?_date {time : Int} : (fs.date place time).get? other =
    if other = place then (fs.get? place).map fun entry => { entry with modified := time }
    else fs.get? other := by
  unfold date
  cases hPlace : fs.get? place with
  | none =>
    split_ifs with hOther
    · rw [hOther, hPlace, Option.map_none]
    · rfl
  | some entry => simp only [get?_put, Option.map_some]

-- ---------------------------------------------------------------------------
-- Trees
-- ---------------------------------------------------------------------------

/-- Every entry stands in a directory. -/
structure IsTree (fs : Files) : Prop where
  root   : (fs.get? []).any FileEntry.isDirectory = true
  parent : ∀ place, (fs.get? place).isSome = true →
    (fs.get? place.dropLast).any FileEntry.isDirectory = true

/-- Every file is what it was, its time included. -/
def KeepsFiles (fs fs' : Files) : Prop :=
  ∀ place entry, fs.get? place = some entry → entry.isDirectory = false →
    fs'.get? place = some entry

/-- A file has been made, and no other file was touched. -/
structure Gains (fs : Files) (place : List String) (bytes : List UInt8) (fs' : Files) : Prop where
  vacant : fs.get? place = none
  parent : (fs.get? place.dropLast).any FileEntry.isDirectory = true
  made   : (fs'.get? place).map FileEntry.undated = some (.file bytes, .full)
  others : ∀ other, other ≠ place →
    (fs'.get? other).map FileEntry.undated = (fs.get? other).map FileEntry.undated
  keeps  : fs.KeepsFiles fs'

/-- What is somewhere is not where nothing is. -/
theorem ne_of_vacant (hVacant : fs.get? place = none) (hEntry : fs.get? other = some entry) :
    other ≠ place := by
  rintro rfl
  rw [hVacant] at hEntry
  cases hEntry

theorem gains_insert (hVacant : fs.get? place = none)
    (hParent : (fs.get? place.dropLast).any FileEntry.isDirectory = true) :
    fs.Gains place bytes (fs.insert now place (.file bytes)) := by
  have hNe : place ≠ place.dropLast := by
    intro hSame
    rw [← hSame, hVacant] at hParent
    cases hParent
  have hAfter (other : List String) (hOther : other ≠ place) :
      (fs.insert now place (.file bytes)).get? other =
        if other = place.dropLast then
          (fs.get? other).map fun entry => { entry with modified := now }
        else fs.get? other := by
    unfold insert
    rw [get?_date, get?_put, get?_put, if_neg hNe.symm, if_neg hOther]
    split_ifs with hAbove
    · rw [hAbove]
    · rfl
  refine ⟨hVacant, hParent, ?_, ?_, ?_⟩
  · unfold insert
    rw [get?_date, if_neg hNe, get?_put, if_pos rfl, Option.map_some]
    rfl
  · intro other hOther
    rw [hAfter other hOther]
    split_ifs
    · rw [Option.map_map]
      rfl
    · rfl
  · intro other entry hEntry hFile
    have hOther : other ≠ place := ne_of_vacant hVacant hEntry
    have hBeside : other ≠ place.dropLast := by
      intro hSame
      rw [← hSame, hEntry, Option.any_some, hFile] at hParent
      cases hParent
    rw [hAfter other hOther, if_neg hBeside, hEntry]

/-- What was there is there still, but for its time. -/
theorem Gains.exists_entry (h : fs.Gains place bytes fs') (hEntry : fs.get? other = some entry) :
    ∃ entry', fs'.get? other = some entry' ∧ entry'.undated = entry.undated := by
  have hSame := h.others other (ne_of_vacant h.vacant hEntry)
  rw [hEntry, Option.map_some] at hSame
  exact Option.map_eq_some_iff.mp hSame

theorem fitting_isPrefix (fs : Files) (bytes : List UInt8) : fs.fitting bytes <+: bytes := by
  unfold fitting
  cases fs.capacity with
  | none => exact List.prefix_rfl
  | some capacity => exact List.take_prefix _ _

/-- What is written to the new file is all that is written: as much of it as there is
room for. -/
theorem Gains.gains_of_write (h : fs.Gains place bytes fs') (now : Int) (more : List UInt8) :
    ∃ kept, kept <+: more ∧ fs.Gains place (bytes ++ kept) (fs'.write now place more).2 ∧
      ((fs'.write now place more).1 = .ok () → kept = more) := by
  obtain ⟨entry, hEntry, hUndated⟩ := Option.map_eq_some_iff.mp h.made
  obtain ⟨hContent, hAccess⟩ := Prod.mk.inj hUndated
  have hWrite : fs'.write now place more =
      (if fs'.fitting more = more then .ok () else .error .noSpace,
        fs'.put place { entry with
          content := .file (bytes ++ fs'.fitting more), modified := now }) := by
    simp only [write, hEntry, hContent]
  refine ⟨fs'.fitting more, fs'.fitting_isPrefix more, ?_, ?_⟩
  · rw [hWrite]
    refine ⟨h.vacant, h.parent, ?_, fun other hOther => ?_, fun other old hOld hFile => ?_⟩
    · rw [get?_put, if_pos rfl, Option.map_some, FileEntry.undated, hAccess]
    · rw [get?_put, if_neg hOther]
      exact h.others other hOther
    · rw [get?_put, if_neg (ne_of_vacant h.vacant hOld)]
      exact h.keeps other old hOld hFile
  · rw [hWrite]
    intro hWritten
    by_contra hPart
    rw [if_neg hPart] at hWritten
    cases hWritten

/-- A tree stays a tree. -/
theorem Gains.isTree (h : fs.Gains place bytes fs') (hTree : fs.IsTree) : fs'.IsTree := by
  have hStays (other : List String) (hOther : (fs.get? other).any FileEntry.isDirectory = true) :
      (fs'.get? other).any FileEntry.isDirectory = true := by
    cases hEntry : fs.get? other with
    | none =>
      rw [hEntry] at hOther
      cases hOther
    | some entry =>
      obtain ⟨entry', hEntry', hUndated⟩ := h.exists_entry hEntry
      rw [hEntry, Option.any_some] at hOther
      rw [hEntry', Option.any_some, FileEntry.isDirectory_of_undated hUndated, hOther]
  refine ⟨hStays [] hTree.root, fun other hSome => hStays _ ?_⟩
  by_cases hPlace : other = place
  · rw [hPlace]
    exact h.parent
  · have hBefore : (fs.get? other).isSome = true := by
      have hSame := congrArg Option.isSome (h.others other hPlace)
      rwa [Option.isSome_map, Option.isSome_map, hSome, eq_comm] at hSame
    exact hTree.parent other hBefore

-- ---------------------------------------------------------------------------
-- Where a path leads
-- ---------------------------------------------------------------------------

/-- A step can be taken from a directory that may be searched. -/
theorem directory_of_step {name : String} (h : fs.step place name = .ok other) :
    ∃ entry, fs.get? place = some entry ∧ entry.isDirectory = true ∧
      entry.access.search = true := by
  unfold step at h
  cases hPlace : fs.get? place with
  | none => simp [hPlace] at h
  | some entry =>
    refine ⟨entry, rfl, ?_⟩
    cases hDirectory : entry.isDirectory with
    | false => simp [hPlace, hDirectory] at h
    | true =>
      cases hSearch : entry.access.search with
      | false => simp [hPlace, hDirectory, hSearch] at h
      | true => exact ⟨rfl, rfl⟩

/-- A step taken from a place can be answered by staying there. -/
theorem step_dot {name : String} (h : fs.step place name = .ok other) :
    fs.step place "." = .ok place := by
  obtain ⟨entry, hEntry, hDirectory, hSearch⟩ := directory_of_step h
  simp [step, hEntry, hDirectory, hSearch]

/-- Which step is denied does not depend on where it would lead. -/
theorem step_dot_of_denied {name : String} (h : fs.step place name = .error .denied) :
    fs.step place "." = .error .denied := by
  unfold step at h ⊢
  cases hPlace : fs.get? place with
  | none =>
    rw [hPlace] at h
    cases h
  | some entry =>
    simp only [hPlace] at h ⊢
    split_ifs at h ⊢ <;> first | rfl | cases h

/-- A step to where nothing is leads from a directory to a place in it. -/
theorem IsTree.parent_of_step (hTree : fs.IsTree) {name : String}
    (h : fs.step place name = .ok other) (hVacant : fs.get? other = none) :
    (fs.get? other.dropLast).any FileEntry.isDirectory = true := by
  obtain ⟨entry, hEntry, hDirectory, hSearch⟩ := directory_of_step h
  simp only [step, hEntry, hDirectory, hSearch] at h
  split_ifs at h with hDot hDots hLong
  · obtain rfl := Except.ok.inj h
    rw [hVacant] at hEntry
    cases hEntry
  · obtain rfl := Except.ok.inj h
    have hAbove := hTree.parent place (by rw [hEntry]; rfl)
    rw [hVacant] at hAbove
    cases hAbove
  · obtain rfl := Except.ok.inj h
    rw [List.dropLast_concat, hEntry]
    exact hDirectory

/-- The ways that could be gone can be gone still. -/
theorem Gains.step (h : fs.Gains place bytes fs') {here : List String} {name : String}
    (hStep : fs.step here name = .ok other) : fs'.step here name = .ok other := by
  obtain ⟨entry, hEntry, -⟩ := directory_of_step hStep
  obtain ⟨entry', hEntry', hUndated⟩ := h.exists_entry hEntry
  have hDirectory := FileEntry.isDirectory_of_undated hUndated
  have hAccess : entry'.access = entry.access := (Prod.mk.inj hUndated).2
  simp only [Files.step, hEntry] at hStep
  simp only [Files.step, hEntry', hDirectory, hAccess]
  exact hStep

theorem Gains.follow (h : fs.Gains place bytes fs') {here : List String} {names : List String}
    (hFollow : fs.follow here names = .ok other) : fs'.follow here names = .ok other := by
  induction names generalizing here with
  | nil => exact hFollow
  | cons name rest ih =>
    unfold Files.follow at hFollow ih ⊢
    rw [List.foldlM_cons] at hFollow ⊢
    obtain ⟨next, hNext, hRest⟩ := Except.bind_eq_ok hFollow
    rw [h.step hNext]
    exact ih hRest

theorem IsTree.parent_of_filePlace (hTree : fs.IsTree)
    (h : fs.filePlace home p = .ok (place, none)) :
    fs.get? place = none ∧ (fs.get? place.dropLast).any FileEntry.isDirectory = true := by
  unfold filePlace at h
  obtain ⟨route, hRoute, h⟩ := Except.bind_eq_ok h
  cases hLast : route.names.getLast? with
  | none =>
    -- the path is that of the root, where something is
    have hAbsolute := Path.isAbsolute_of_names_eq_nil hRoute (List.getLast?_eq_none_iff.mp hLast)
    simp only [hLast, startOf, hAbsolute, if_true] at h
    have hRoot : fs.get? [] = none := (Prod.mk.inj (Except.ok.inj h)).2
    have hTop := hTree.root
    rw [hRoot] at hTop
    cases hTop
  | some last =>
    simp only [hLast] at h
    obtain ⟨parent, hParent, h⟩ := Except.bind_eq_ok h
    obtain ⟨_, -, h⟩ := Except.bind_eq_ok h
    split_ifs at h with hAsks
    · cases h
    · obtain ⟨found, hStep, h⟩ := Except.bind_eq_ok h
      obtain ⟨rfl, hVacant⟩ := Prod.mk.inj (Except.ok.inj h)
      exact ⟨hVacant, hTree.parent_of_step hStep hVacant⟩

/-- The path of the new file leads to it. -/
theorem Gains.filePlace (h : fs.Gains place bytes fs')
    (hPlace : fs.filePlace home p = .ok (place, none)) :
    fs'.filePlace home p = .ok (place, fs'.get? place) := by
  unfold Files.filePlace at hPlace ⊢
  obtain ⟨route, hRoute, hPlace⟩ := Except.bind_eq_ok hPlace
  simp only [hRoute, bind, Except.bind]
  cases hLast : route.names.getLast? with
  | none =>
    simp only [hLast] at hPlace
    obtain ⟨rfl, -⟩ := Prod.mk.inj (Except.ok.inj hPlace)
    rfl
  | some last =>
    simp only [hLast] at hPlace ⊢
    obtain ⟨parent, hParent, hPlace⟩ := Except.bind_eq_ok hPlace
    obtain ⟨_, hStay, hPlace⟩ := Except.bind_eq_ok hPlace
    simp only [h.follow hParent, h.step hStay]
    split_ifs at hPlace ⊢ with hAsks
    · cases hPlace
    · obtain ⟨found, hStep, hPlace⟩ := Except.bind_eq_ok hPlace
      obtain ⟨rfl, -⟩ := Prod.mk.inj (Except.ok.inj hPlace)
      simp only [h.step hStep]
      rfl

theorem IsTree.gains_of_createNew (hTree : fs.IsTree) (h : fs.createNew now home p = .ok fs') :
    ∃ place, fs.filePlace home p = .ok (place, none) ∧ fs.Gains place [] fs' := by
  unfold createNew at h
  obtain ⟨⟨place, found⟩, hPlace, h⟩ := Except.bind_eq_ok h
  cases found with
  | some entry => cases h
  | none =>
    obtain ⟨hVacant, hParent⟩ := hTree.parent_of_filePlace hPlace
    simp only [make] at h
    split_ifs at h
    obtain rfl := Except.ok.inj h
    exact ⟨place, hPlace, gains_insert hVacant hParent⟩

-- ---------------------------------------------------------------------------
-- Where there is something
-- ---------------------------------------------------------------------------

theorem find_eq_ok_iff : fs.find home p = .ok (place, entry) ↔
    ∃ route, p.route = .ok route ∧ fs.follow (startOf home route) route.names = .ok place ∧
      fs.get? place = some entry ∧ (route.toDirectory && !entry.isDirectory) = false := by
  constructor
  · intro h
    unfold find at h
    obtain ⟨route, hRoute, h⟩ := Except.bind_eq_ok h
    obtain ⟨found, hFollow, h⟩ := Except.bind_eq_ok h
    cases hFound : fs.get? found with
    | none => simp [hFound] at h
    | some there =>
      simp only [hFound] at h
      split_ifs at h with hKind
      · cases h
      · obtain ⟨rfl, rfl⟩ := Prod.mk.inj (Except.ok.inj h)
        exact ⟨route, hRoute, hFollow, hFound, by simpa using hKind⟩
  · rintro ⟨route, hRoute, hFollow, hEntry, hKind⟩
    unfold find
    simp only [hRoute, hFollow, hEntry, hKind, bind, Except.bind]
    rfl

theorem filePlace_of_find (h : fs.find home p = .ok (place, entry)) :
    fs.filePlace home p =
      if p.asksForDirectory then .error .isDirectory else .ok (place, some entry) := by
  obtain ⟨route, hRoute, hFollow, hEntry, -⟩ := find_eq_ok_iff.mp h
  have hAsks : p.asksForDirectory = route.asksForDirectory := by
    rw [Path.asksForDirectory, hRoute]
    rfl
  unfold filePlace
  simp only [hRoute, hAsks, Route.asksForDirectory, bind, Except.bind]
  cases hLast : route.names.getLast? with
  | none =>
    rw [List.getLast?_eq_none_iff.mp hLast] at hFollow
    obtain rfl := Except.ok.inj hFollow
    rw [Option.any_none, Bool.and_false, if_neg Bool.false_ne_true, ← hEntry]
    rfl
  | some last =>
    rw [← List.dropLast_append_getLast? last hLast, follow, List.foldlM_append] at hFollow
    obtain ⟨parent, hParent, hFollow⟩ := Except.bind_eq_ok hFollow
    rw [List.foldlM_cons] at hFollow
    obtain ⟨next, hStep, hEnd⟩ := Except.bind_eq_ok hFollow
    obtain rfl := Except.ok.inj hEnd
    have hUp : fs.follow (startOf home route) route.names.dropLast = .ok parent := hParent
    simp only [hUp, step_dot hStep, hStep, Option.any_some]
    rw [← hEntry]
    split_ifs <;> rfl

/-- **Nothing is made where there is something** that can be found; which refusal this
is depends on the path. -/
theorem createNew_of_find (h : fs.find home p = .ok (place, entry)) :
    fs.createNew now home p =
      .error (if p.asksForDirectory then .isDirectory else .alreadyExists) := by
  unfold createNew
  rw [filePlace_of_find h]
  split_ifs <;> rfl

/-- What may not be looked for may not be made. -/
theorem filePlace_of_find_denied (h : fs.find home p = .error .denied) :
    fs.filePlace home p = .error .denied := by
  unfold find at h
  rcases Except.bind_eq_error_iff.mp h with hRoute | ⟨route, hRoute, h⟩
  · simp only [Path.route] at hRoute
    split_ifs at hRoute <;> cases hRoute
  rcases Except.bind_eq_error_iff.mp h with hFollow | ⟨found, -, h⟩
  · unfold filePlace
    simp only [hRoute, bind, Except.bind]
    cases hLast : route.names.getLast? with
    | none =>
      rw [List.getLast?_eq_none_iff.mp hLast] at hFollow
      cases hFollow
    | some last =>
      rw [← List.dropLast_append_getLast? last hLast, follow, List.foldlM_append] at hFollow
      rcases Except.bind_eq_error_iff.mp hFollow with hUp | ⟨parent, hParent, hFollow⟩
      · have hUp : fs.follow (startOf home route) route.names.dropLast = .error .denied := hUp
        simp only [hUp]
      · have hParent : fs.follow (startOf home route) route.names.dropLast = .ok parent := hParent
        rw [List.foldlM_cons] at hFollow
        rcases Except.bind_eq_error_iff.mp hFollow with hStep | ⟨_, -, hEnd⟩
        · simp only [hParent, step_dot_of_denied hStep]
        · cases hEnd
  · cases hFound : fs.get? found with
    | none =>
      rw [hFound] at h
      cases h
    | some there =>
      simp only [hFound] at h
      split_ifs at h <;> cases h

-- ---------------------------------------------------------------------------
-- Whether or not it may be looked for
-- ---------------------------------------------------------------------------

/-- The same files, with which everything may be done. -/
def unlocked (fs : Files) : Files :=
  { fs with
    entries := fs.entries.map fun (place, entry) => (place, { entry with access := .full }) }

theorem get?_unlocked : fs.unlocked.get? place =
    (fs.get? place).map fun entry => { entry with access := .full } := by
  simp only [unlocked, get?]
  induction fs.entries with
  | nil => rfl
  | cons first rest ih =>
    obtain ⟨there, entry⟩ := first
    by_cases hThere : place = there
    · simp [hThere]
    · simp only [List.map_cons, List.lookup_cons, beq_eq_false_iff_ne.mpr hThere, ih]

theorem step_of_unlocked {name : String} (h : fs.unlocked.step place name = .ok other) :
    fs.step place name = .ok other ∨ fs.step place name = .error .denied := by
  obtain ⟨opened, hOpened, hDirectory, -⟩ := directory_of_step h
  rw [get?_unlocked] at hOpened
  obtain ⟨entry, hEntry, rfl⟩ := Option.map_eq_some_iff.mp hOpened
  have hOpen : entry.isDirectory = true := hDirectory
  simp only [step, get?_unlocked, hEntry, Option.map_some, hDirectory] at h
  simp only [step, hEntry, hOpen]
  cases entry.access.search with
  | true => exact .inl h
  | false => exact .inr rfl

theorem follow_of_unlocked {names : List String} (h : fs.unlocked.follow place names = .ok other) :
    fs.follow place names = .ok other ∨ fs.follow place names = .error .denied := by
  induction names generalizing place with
  | nil => exact .inl h
  | cons name rest ih =>
    unfold follow at h ih ⊢
    rw [List.foldlM_cons] at h ⊢
    obtain ⟨next, hNext, hRest⟩ := Except.bind_eq_ok h
    rcases step_of_unlocked hNext with hStep | hDenied
    · rw [hStep]
      exact ih hRest
    · rw [hDenied]
      exact .inr rfl

/-- What is there is found, or it may not be looked for. -/
theorem find_of_unlocked (h : fs.unlocked.find home p = .ok (place, entry)) :
    (∃ found, fs.find home p = .ok (place, found)) ∨ fs.find home p = .error .denied := by
  obtain ⟨route, hRoute, hFollow, hEntry, hKind⟩ := find_eq_ok_iff.mp h
  rcases follow_of_unlocked hFollow with hPlace | hDenied
  · rw [get?_unlocked] at hEntry
    obtain ⟨found, hFound, rfl⟩ := Option.map_eq_some_iff.mp hEntry
    exact .inl ⟨found, find_eq_ok_iff.mpr ⟨route, hRoute, hPlace, hFound, hKind⟩⟩
  · right
    unfold find
    simp only [hRoute, bind, Except.bind, hDenied]

/-- **Nothing is made where there is something.** -/
theorem createNew_of_unlocked_find (h : fs.unlocked.find home p = .ok (place, entry)) :
    fs.createNew now home p =
      .error (if fs.find home p = .error .denied then .denied
        else if p.asksForDirectory then .isDirectory else .alreadyExists) := by
  rcases find_of_unlocked h with ⟨found, hFound⟩ | hDenied
  · have hNot : fs.find home p ≠ .error .denied := by simp [hFound]
    rw [createNew_of_find hFound, if_neg hNot]
  · rw [createNew, filePlace_of_find_denied hDenied, if_pos hDenied]
    rfl

end Files

end TaskMill
