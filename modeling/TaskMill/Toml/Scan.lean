import TaskMill.Toml.Token
/-!
# TaskMill — scanning tokens

A scanner reads a value from the beginning of a list of tokens and leaves what
follows. Repetition is bounded by the tokens: a step that is to be repeated
must have read something, so a repetition ends after at most one step for each
token.
-/

namespace TaskMill.Toml

/-- Reads a value off the beginning of a list of tokens, or fails. -/
abbrev Scan (α : Type) : Type := StateT (List Token) Option α

/-- Whether a character may stand in a text without being escaped: anything but
the controls, of which the tab is allowed. -/
def isPlain (c : Char) : Bool :=
  c = '\t' || (0x20 ≤ c.toNat && c.toNat != 0x7F)

namespace Scan

/-- What the next token is; it is left where it is. -/
def peek : Scan (Option TokenKind) := return (← get).head?.map Token.kind

/-- Reads a token of a kind, if one comes next. -/
def accept (kind : TokenKind) : Scan Bool := do
  match ← get with
  | token :: rest =>
    if token.kind = kind then
      set rest
      return true
    else return false
  | [] => return false

/-- Reads a token of a kind, which must come next. -/
def expect (kind : TokenKind) : Scan Unit := do
  unless ← accept kind do failure

/-- Repeats `step` on a value until it yields a result. -/
def repeating {α β : Type} (step : α → Scan (α ⊕ β)) (a : α) : Scan β := fun tokens =>
  match step a tokens with
  | none => none
  | some (.inr b, rest) => some (b, rest)
  | some (.inl next, rest) =>
    if rest.length < tokens.length then repeating step next rest else none
termination_by tokens => tokens.length

/-- Reads blanks within a line. -/
def blanks : Scan Unit := do
  let _ ← accept .blank

/-- Reads a comment, if one comes next; it must be plain. -/
def comment : Scan Unit := do
  match ← get with
  | ⟨.comment, text⟩ :: rest =>
    unless text.all isPlain do failure
    set rest
  | _ => return

/-- Reads a line break, if one comes next; a carriage return alone is none. -/
def lineBreak : Scan Bool := do
  match ← get with
  | ⟨.lineBreak, text⟩ :: rest =>
    if text = ['\r'] then failure
    set rest
    return true
  | _ => return false

/-- Reads what may follow on a line after all that counts. -/
def lineEnd : Scan Unit := do
  blanks
  comment
  unless (← get).isEmpty do
    unless ← lineBreak do failure

/-- Reads blanks, line breaks and comments. -/
def gap : Scan Unit :=
  repeating (fun _ => do
    blanks
    comment
    if ← lineBreak then return .inl () else return .inr ()) ()

end Scan

end TaskMill.Toml
