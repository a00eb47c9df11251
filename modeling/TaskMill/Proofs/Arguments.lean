import TaskMill.CommandLine.Parse
import TaskMill.Proofs.Fallible
/-!
# TaskMill — what arguments ask for

Which switches an argument turns on can be told from the argument alone
(`Switch.ofArgument`), as long as no `--` stands before it: what was read before
decides only whether it is accepted. So the modes asked for can be read off a list
of arguments without following the reader (`Switch.ofArguments`), however options are
clustered, repeated and mixed.

An argument that is the value of the option before it turns nothing on: one that
looks like an option is taken as an option.

Each conflict of two modes is declared on one side only. Together the declarations
make any two modes exclude each other (`Switch.excludes_iff`), so of the four flags of
an accepted command line one at most is set.

## Results

* `ArgumentReader.adds_take` — what one argument adds.
* `Given.adds_ofArguments`   — what all arguments have given.
* `Switch.excludes_iff`      — which options exclude each other.
* `CommandLine.parse_spec`   — an accepted list of arguments asks for one mode at most.
-/

namespace TaskMill

-- ---------------------------------------------------------------------------
-- Arguments by themselves
-- ---------------------------------------------------------------------------

/-- The switches that the letters behind a dash turn on. A letter that is no switch
takes the others for its value. -/
def Switch.ofLetters : List Char → List Switch
  | [] => []
  | letter :: rest =>
    match CommandOption.letters.lookup letter with
    | some (.switch switch) => switch :: ofLetters rest
    | _ => []

/-- The switch that a name behind two dashes turns on. -/
def Switch.ofName (body : List Char) : List Switch :=
  match CommandOption.names.lookup (String.ofList (body.takeWhile (· ≠ '='))) with
  | some (.switch switch) => [switch]
  | _ => []

/-- The switches that an argument turns on. -/
def Switch.ofArgument (argument : String) : List Switch :=
  match argument.toList with
  | '-' :: '-' :: body => ofName body
  | '-' :: letters => ofLetters letters
  | _ => []

/-- The switches that arguments turn on, up to the end of the options. -/
def Switch.ofArguments (arguments : List String) : List Switch :=
  (arguments.takeWhile (· ≠ "--")).flatMap ofArgument

-- ---------------------------------------------------------------------------
-- What is given
-- ---------------------------------------------------------------------------

namespace Given

variable {g g' g'' : Given} {more later : List Switch}

/-- A limit, where one is given, is at least one second. -/
def Limited (g : Given) : Prop := ∀ n, g.timeout = some n → 1 ≤ n.toNat

/-- Some switches are turned on, and limits stay possible. -/
structure Adds (g : Given) (more : List Switch) (g' : Given) : Prop where
  switches : g'.switches = g.switches ++ more
  limited  : g.Limited → g'.Limited

theorem Adds.refl (g : Given) : Adds g [] g :=
  ⟨(List.append_nil _).symm, id⟩

theorem Adds.trans (h : Adds g more g') (h' : Adds g' later g'') : Adds g (more ++ later) g'' where
  switches := by rw [h'.switches, h.switches, List.append_assoc]
  limited := h'.limited ∘ h.limited

theorem le_toNat_seconds? {value : String} {n : UInt64} (h : seconds? value = some n) :
    1 ≤ n.toNat := by
  unfold seconds? at h
  simp only [Option.bind_eq_bind, Option.bind_eq_some_iff] at h
  obtain ⟨count, -, hCount⟩ := h
  split_ifs at hCount with hRange
  obtain rfl := Option.some.inj hCount
  have hLt : count < 18446744073709551616 := hRange.2
  rw [UInt64.toNat_ofNat']
  omega

theorem adds_turnOn {switch : Switch} (h : g.turnOn switch = .ok g') : Adds g [switch] g' := by
  unfold turnOn at h
  split at h
  · cases h
  · obtain rfl := Except.ok.inj h
    exact ⟨rfl, id⟩

theorem adds_assign {setting : Setting} {value : String} (h : g.assign setting value = .ok g') :
    Adds g [] g' := by
  unfold assign at h
  split at h
  · cases h
  · cases setting with
    | file =>
      simp only at h
      split at h
      · cases h
      · obtain rfl := Except.ok.inj h
        exact ⟨(List.append_nil _).symm, id⟩
    | level =>
      simp only at h
      split at h
      · obtain rfl := Except.ok.inj h
        exact ⟨(List.append_nil _).symm, id⟩
      · cases h
    | timeout =>
      simp only at h
      split at h
      case h_1 n hSeconds =>
        obtain rfl := Except.ok.inj h
        refine ⟨(List.append_nil _).symm, fun _ m hm => ?_⟩
        obtain rfl : n = m := Option.some.inj hm
        exact le_toNat_seconds? hSeconds
      case h_2 => cases h

end Given

-- ---------------------------------------------------------------------------
-- One argument
-- ---------------------------------------------------------------------------

namespace ArgumentReader

variable {r t u : ArgumentReader} {more later : List Switch}

/-- What is given grows, and there are options as before. -/
structure Adds (r : ArgumentReader) (more : List Switch) (t : ArgumentReader) : Prop
    extends r.given.Adds more t.given where
  onlyTask : t.onlyTask = r.onlyTask

theorem Adds.refl (r : ArgumentReader) : Adds r [] r :=
  ⟨.refl r.given, rfl⟩

theorem Adds.trans (h : Adds r more t) (h' : Adds t later u) : Adds r (more ++ later) u :=
  ⟨h.toAdds.trans h'.toAdds, h'.onlyTask.trans h.onlyTask⟩

theorem adds_settle (h : r.settle = .ok t) : Adds r [] t := by
  unfold settle at h
  split at h
  · obtain rfl := Except.ok.inj h
    exact .refl r
  · cases h
  · cases hAssign : r.given.assign _ _ with
    | error misuse =>
      rw [hAssign] at h
      cases h
    | ok given =>
      rw [hAssign] at h
      obtain rfl := Except.ok.inj h
      exact ⟨Given.adds_assign hAssign, rfl⟩

theorem adds_turnOn {switch : Switch} (h : r.turnOn switch = .ok t) : Adds r [switch] t := by
  unfold turnOn at h
  obtain ⟨settled, hSettle, h⟩ := Except.bind_eq_ok h
  obtain ⟨given, hOn, h⟩ := Except.bind_eq_ok h
  obtain rfl := Except.ok.inj h
  exact (adds_settle hSettle).trans ⟨Given.adds_turnOn hOn, rfl⟩

theorem adds_assign {setting : Setting} {value : Option String}
    (h : r.assign setting value = .ok t) : Adds r [] t := by
  unfold assign at h
  obtain ⟨settled, hSettle, h⟩ := Except.bind_eq_ok h
  have hSettled := adds_settle hSettle
  cases value with
  | none =>
    obtain rfl := Except.ok.inj h
    exact ⟨hSettled.toAdds, hSettled.onlyTask⟩
  | some value =>
    obtain ⟨given, hAssign, h⟩ := Except.bind_eq_ok h
    obtain rfl := Except.ok.inj h
    exact ⟨hSettled.toAdds.trans (Given.adds_assign hAssign), hSettled.onlyTask⟩

theorem stop_ne_ok {reason : Misuse} : r.stop reason ≠ .ok t := by
  intro h
  obtain ⟨settled, -, h⟩ := Except.bind_eq_ok h
  cases h

theorem adds_takeTask {name : String} (h : r.takeTask name = .ok t) : Adds r [] t := by
  unfold takeTask at h
  split_ifs at h with hTask
  · cases h
  · obtain ⟨settled, hSettle, h⟩ := Except.bind_eq_ok h
    obtain rfl := Except.ok.inj h
    have hSettled := adds_settle hSettle
    exact ⟨⟨hSettled.switches, hSettled.limited⟩, hSettled.onlyTask⟩

theorem adds_takeWord {word : String} (h : r.takeWord word = .ok t) : Adds r [] t := by
  unfold takeWord at h
  split at h
  · obtain rfl := Except.ok.inj h
    exact ⟨.refl r.given, rfl⟩
  · exact adds_takeTask h

theorem adds_takeLetters {letters : List Char} (h : r.takeLetters letters = .ok t) :
    Adds r (Switch.ofLetters letters) t := by
  induction letters generalizing r with
  | nil =>
    obtain rfl := Except.ok.inj h
    exact .refl r
  | cons letter rest ih =>
    unfold takeLetters at h
    unfold Switch.ofLetters
    cases hLetter : CommandOption.letters.lookup letter with
    | none => simp [hLetter] at h
    | some option =>
      simp only [hLetter] at h
      cases option with
      | setting setting => exact adds_assign h
      | help => exact absurd h stop_ne_ok
      | version => exact absurd h stop_ne_ok
      | switch switch =>
        cases hOn : r.turnOn switch with
        | error misuse => simp [hOn] at h
        | ok next =>
          simp only [hOn] at h
          exact (adds_turnOn hOn).trans (ih h)

theorem adds_takeName {body : List Char} (h : r.takeName body = .ok t) :
    Adds r (Switch.ofName body) t := by
  unfold takeName at h
  unfold Switch.ofName
  split at h
  case h_1 => cases h
  case h_2 setting hName =>
    rw [hName]
    exact adds_assign h
  case h_3 => cases h
  case h_4 switch hName _ =>
    rw [hName]
    exact adds_turnOn h
  case h_5 => exact absurd h stop_ne_ok
  case h_6 => exact absurd h stop_ne_ok

theorem adds_take {argument : String} (hOptions : r.onlyTask = false) (hNe : argument ≠ "--")
    (h : r.take argument = .ok t) : Adds r (Switch.ofArgument argument) t := by
  unfold take at h
  simp only [hOptions, Bool.false_eq_true, if_false] at h
  unfold Switch.ofArgument
  split at h
  case h_1 hChars => exact absurd (String.toList_inj.mp hChars) hNe
  case h_2 body _ hChars =>
    rw [hChars]
    exact adds_takeName h
  case h_3 letter rest _ hLetter hChars =>
    rw [hChars]
    split
    case h_1 body hBody =>
      cases hBody
      exact absurd rfl hLetter
    case h_2 letters _ hLetters =>
      cases hLetters
      exact adds_takeLetters h
    case h_3 hNone => exact absurd rfl (hNone _)
  case h_4 hNone =>
    split
    case h_1 body hBody => exact absurd hBody (hNone _ _)
    case h_2 letters _ hLetters =>
      cases letters with
      | nil => exact adds_takeWord h
      | cons letter rest => exact absurd hLetters (hNone letter rest)
    case h_3 => exact adds_takeWord h

theorem take_end (hOptions : r.onlyTask = false) :
    r.take "--" = .ok { r with onlyTask := true } := by
  unfold take
  rw [hOptions]
  rfl

theorem adds_take_of_onlyTask {argument : String} (hOnly : r.onlyTask = true)
    (h : r.take argument = .ok t) : Adds r [] t := by
  unfold take at h
  rw [if_pos hOnly] at h
  exact adds_takeTask h

-- ---------------------------------------------------------------------------
-- All arguments
-- ---------------------------------------------------------------------------

theorem adds_foldlM_of_onlyTask {arguments : List String} (hOnly : r.onlyTask = true)
    (h : arguments.foldlM take r = .ok t) : Adds r [] t := by
  induction arguments generalizing r with
  | nil =>
    obtain rfl := Except.ok.inj h
    exact .refl r
  | cons argument rest ih =>
    rw [List.foldlM_cons] at h
    obtain ⟨next, hTake, hRest⟩ := Except.bind_eq_ok h
    have hNext := adds_take_of_onlyTask hOnly hTake
    exact hNext.trans (ih (hNext.onlyTask.trans hOnly) hRest)

theorem adds_foldlM {arguments : List String} (hOptions : r.onlyTask = false)
    (h : arguments.foldlM take r = .ok t) :
    r.given.Adds (Switch.ofArguments arguments) t.given := by
  induction arguments generalizing r with
  | nil =>
    obtain rfl := Except.ok.inj h
    exact .refl r.given
  | cons argument rest ih =>
    rw [List.foldlM_cons] at h
    obtain ⟨next, hTake, hRest⟩ := Except.bind_eq_ok h
    unfold Switch.ofArguments
    by_cases hEnd : argument = "--"
    · subst hEnd
      rw [take_end hOptions] at hTake
      obtain rfl := Except.ok.inj hTake
      exact (adds_foldlM_of_onlyTask rfl hRest).toAdds
    · have hNext := adds_take hOptions hEnd hTake
      rw [List.takeWhile_cons_of_pos (by simpa using hEnd), List.flatMap_cons]
      exact hNext.toAdds.trans (ih (hNext.onlyTask.trans hOptions) hRest)

end ArgumentReader

theorem Given.adds_ofArguments {arguments : List String} {g : Given}
    (h : ofArguments arguments = .ok g) : Adds .nothing (Switch.ofArguments arguments) g := by
  unfold ofArguments at h
  obtain ⟨r, hRead, h⟩ := Except.bind_eq_ok h
  obtain ⟨settled, hSettle, h⟩ := Except.bind_eq_ok h
  obtain rfl := Except.ok.inj h
  have hRead := ArgumentReader.adds_foldlM rfl hRead
  have hSettle := (ArgumentReader.adds_settle hSettle).toAdds
  have hBoth := hRead.trans hSettle
  rwa [List.append_nil] at hBoth

-- ---------------------------------------------------------------------------
-- Modes
-- ---------------------------------------------------------------------------

/-- **Any two modes exclude each other**, and no other options do. -/
theorem Switch.excludes_iff {a b : Switch} :
    a.excludes b = true ↔ ∃ first second, a = .mode first ∧ b = .mode second ∧ first ≠ second := by
  rcases a with (_ | _ | _ | _) | _ | _ | _ <;> rcases b with (_ | _ | _ | _) | _ | _ | _ <;>
    simp [excludes, conflicts]

theorem Given.eq_of_mem {g : Given} (hClear : g.isContradictory = false) {first second : Mode}
    (hFirst : .mode first ∈ g.switches) (hSecond : .mode second ∈ g.switches) : first = second := by
  by_contra hNe
  have hExcludes : Switch.excludes (.mode first) (.mode second) = true :=
    Switch.excludes_iff.mpr ⟨first, second, rfl, rfl, hNe⟩
  have hBoth : g.isContradictory = true :=
    List.any_eq_true.mpr ⟨_, hFirst, List.any_eq_true.mpr ⟨_, hSecond, hExcludes⟩⟩
  rw [hClear] at hBoth
  cases hBoth

theorem Given.commandLine_spec {g : Given} {c : CommandLine} (h : g.commandLine = .ok c) :
    g.isContradictory = false ∧ c.timeout = g.timeout ∧
      ∀ mode, c.asksFor mode = true ↔ .mode mode ∈ g.switches := by
  unfold commandLine at h
  split_ifs at h with hContradictory
  obtain rfl := Except.ok.inj h
  refine ⟨Bool.not_eq_true _ ▸ hContradictory, rfl, fun mode => ?_⟩
  cases mode <;> exact decide_eq_true_iff

namespace CommandLine

variable {c : CommandLine} {arguments : List String}

/-- Where one mode at most is asked for, that is the mode. -/
theorem mode_eq_some_iff
    (hOne : ∀ first second, c.asksFor first = true → c.asksFor second = true → first = second)
    {mode : Mode} : c.mode = some mode ↔ c.asksFor mode = true := by
  constructor
  · exact List.find?_some
  · intro hAsked
    obtain ⟨found, hFound⟩ : ∃ found, c.mode = some found := by
      rw [← Option.isSome_iff_exists, CommandLine.mode, List.find?_isSome]
      exact ⟨mode, by cases mode <;> simp, hAsked⟩
    rw [hFound, hOne found mode (List.find?_some hFound) hAsked]

/-- **An accepted list of arguments** asks for one mode at most, which is that of the
command line, and for no limit below one second. -/
theorem parse_spec (h : parse arguments = .ok c) :
    (∀ mode, c.asksFor mode = true ↔ .mode mode ∈ Switch.ofArguments arguments) ∧
      (∀ first second, c.asksFor first = true → c.asksFor second = true → first = second) ∧
      (∀ mode, c.mode = some mode ↔ c.asksFor mode = true) ∧
      ∀ n, c.timeout = some n → 1 ≤ n.toNat := by
  unfold parse at h
  obtain ⟨g, hGiven, h⟩ := Except.bind_eq_ok h
  have hAdds := Given.adds_ofArguments hGiven
  have hSwitches : g.switches = Switch.ofArguments arguments := hAdds.switches
  have hLimited : g.Limited := hAdds.limited nofun
  obtain ⟨hClear, hTimeout, hAsked⟩ := Given.commandLine_spec h
  have hOne : ∀ first second, c.asksFor first = true → c.asksFor second = true → first = second :=
    fun first second hFirst hSecond =>
      Given.eq_of_mem hClear ((hAsked first).mp hFirst) ((hAsked second).mp hSecond)
  exact ⟨hSwitches ▸ hAsked, hOne, fun mode => mode_eq_some_iff hOne, hTimeout ▸ hLimited⟩

end CommandLine

end TaskMill
