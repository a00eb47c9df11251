import TaskMill.Proofs.JsonLayout
import TaskMill.Proofs.JsonOutput
/-!
# TaskMill — records are read back

A record is written as an object in which two tagged layers hold the event, and
what is read back from that object is the record: each field is found under its
name, a number fits the width it came from, and an identifier is found again in
its digits. Together with the texts of JSON values, which are read back in either
layout, this makes a text of every record from which the record is read.

Instants are taken as they come: that an instant is found again in its own text is
assumed.

## Results

* `EventId.parse?_text` — an identifier is found again in its text.
* `Event.ofJson?_toJson` — an event is found again in its JSON value.
* `EventRecord.reads_back` — a record is found again in its text, on one line or
  on several, and the text on one line holds no line break.
-/

namespace TaskMill

-- ---------------------------------------------------------------------------
-- Identifiers
-- ---------------------------------------------------------------------------

theorem Text.length_hexPadded (width n : Nat) : (hexPadded width n).length = width := by
  induction width generalizing n with
  | zero => rfl
  | succ width ih => rw [hexPadded, List.length_append, ih, List.length_singleton]

/-- Padded digits denote a number up to their count. -/
theorem Text.readDigits_hexPadded (width n : Nat) :
    readDigits hexDigit? 16 (hexPadded width n) = some (n % 16 ^ width) := by
  induction width generalizing n with
  | zero => simp [hexPadded, readDigits, Nat.mod_one]
  | succ width ih =>
    have hFront := ih (n / 16)
    have hLast : hexDigit? (hexDigit (n % 16)) = some (n % 16) :=
      hexDigit?_hexDigit _ (Nat.mod_lt _ (by decide))
    unfold readDigits at hFront ⊢
    rw [hexPadded, List.foldlM_append, hFront]
    simp only [List.foldlM_cons, List.foldlM_nil, hLast, Option.bind_eq_bind, Option.bind_some,
      Option.map_some, Option.pure_def]
    rw [Nat.pow_succ, Nat.mul_comm (16 ^ width) 16, Nat.mod_mul, Nat.add_comm]

namespace EventId

section Groups

variable {a b c d e : List Char} (ha : a.length = 8) (hb : b.length = 4) (hc : c.length = 4)
  (hd : d.length = 4) (he : e.length = 12)

include ha hb hc hd he

/-- Digits in groups denote what they denote without the hyphens. -/
theorem ofGroups?_groups : ofGroups? (a ++ '-' :: b ++ '-' :: c ++ '-' :: d ++ '-' :: e) =
    ofDigits? (a ++ b ++ c ++ d ++ e) := by
  unfold ofGroups?
  rw [if_pos]
  · simp [List.drop_append, List.drop_eq_nil_of_le, ha, hb, hc, hd]
  · simp [List.getElem?_append, ha, hb, hc, hd, he]

/-- Digits in groups are in neither braces nor behind a scheme. -/
theorem parse?_groups :
    parse? (String.ofList (a ++ '-' :: b ++ '-' :: c ++ '-' :: d ++ '-' :: e)) =
      ofDigits? (a ++ b ++ c ++ d ++ e) := by
  rw [← ofGroups?_groups ha hb hc hd he]
  generalize hText : a ++ '-' :: b ++ '-' :: c ++ '-' :: d ++ '-' :: e = cs
  have hLength : cs.length = 36 := by simp [← hText, ha, hb, hc, hd, he]
  have hScheme : (cs.take 9).map Char.toLower ≠ "urn:uuid:".toList := by
    have hTake : cs.take 9 = a ++ ['-'] := by simp [← hText, List.take_append, ha]
    rw [hTake]
    intro hSame
    -- where a scheme has its last colon, there is a hyphen
    have hLast := congrArg List.getLast? hSame
    simp at hLast
  unfold parse?
  simp only [String.toList_ofList]
  rw [if_neg (by omega), if_neg (by omega), if_neg hScheme]

end Groups

theorem ofDigits?_hexPadded (id : EventId) :
    ofDigits? (Text.hexPadded 32 id.value.toNat) = some id := by
  have hSmall : id.value.toNat < 16 ^ 32 := id.value.isLt
  rw [ofDigits?, if_pos (Text.length_hexPadded _ _), Text.readDigits_hexPadded,
    Nat.mod_eq_of_lt hSmall, Option.map_some, BitVec.ofNat_toNat]
  simp

/-- **An identifier is found again in its text.** -/
theorem parse?_text (id : EventId) : parse? id.text = some id := by
  have hDigits := Text.length_hexPadded 32 id.value.toNat
  have hRead := ofDigits?_hexPadded id
  unfold text
  generalize Text.hexPadded 32 id.value.toNat = digits at hDigits hRead
  have hSplit : ∀ n m, (digits.drop n).take m ++ digits.drop (n + m) = digits.drop n := by
    intro n m
    rw [← List.drop_drop, List.take_append_drop]
  rw [parse?_groups (by simp; omega) (by simp; omega) (by simp; omega) (by simp; omega)
    (by simp; omega), ← hRead]
  simp only [List.append_assoc, hSplit, List.take_append_drop]

end EventId

-- ---------------------------------------------------------------------------
-- Numbers
-- ---------------------------------------------------------------------------

theorem count_eq (bits : Nat) : Word.count bits = 2 ^ bits := by
  rw [Word.count, Nat.one_shiftLeft]

theorem word64?_wordJson (n : UInt64) : (wordJson n).word64? = some n := by
  have hHolds : Word.holds 64 n.toNat = true := by
    unfold Word.holds
    rw [count_eq, decide_eq_true_eq]
    exact ⟨Int.natCast_nonneg _, Int.ofNat_lt.mpr n.toNat_lt⟩
  rw [wordJson, Json.word64?, Json.int?, Option.bind_some, if_pos hHolds, Int.toNat_natCast,
    UInt64.ofNat_toNat]

theorem int32?_toInt (code : Int32) : (Json.int code.toInt).int32? = some code := by
  have hHolds : Word.holdsSigned 32 code.toInt = true := by
    unfold Word.holdsSigned
    rw [count_eq, decide_eq_true_eq]
    exact ⟨code.le_toInt, code.toInt_lt⟩
  rw [Json.int32?, Json.int?, Option.bind_some, if_pos hHolds, Int32.ofInt_toInt]

-- ---------------------------------------------------------------------------
-- Events
-- ---------------------------------------------------------------------------

theorem LayerReading.layer?_tagged (r : LayerReading) {tag : String} (hTag : tag ≠ "data")
    (names : List String) (name : String) (content : Json) :
    r.layer? tag names (tagged tag name content) = some (name, content, .deferred) := by
  have hOther : (tag == "data") = false := beq_eq_false_iff_ne.mpr hTag
  simp [layer?, tagged, Json.get?, name?, List.lookup_cons, hOther]

theorem optional?_int32 (exitCode : Option Int32) :
    Json.optional? Json.int32? (some ((exitCode.map fun code => .int code.toInt).getD .null)) =
      some exitCode := by
  cases exitCode with
  | none => rfl
  | some code => exact congrArg (Option.map some) (int32?_toInt code)

/-- A task event is a name and its fields, and is found again in them however they
are read. -/
theorem TaskEvent.exists_tagged (e : TaskEvent) (r : LayerReading) :
    ∃ name fields, e.toJson = tagged "event" name fields ∧ ofFields? r name fields = some e := by
  cases e with
  | started name command => exact ⟨_, _, rfl, rfl⟩
  | skipped name reason => exact ⟨_, _, rfl, rfl⟩
  | output name stream content =>
    have hFields : ∀ s : String, ofFields? r "Output" (.obj [("name", .str name),
        ("stream", .str s), ("content", .str content)]) = (Stream.ofName? s).bind fun stream =>
          some (output name stream content) := fun _ => rfl
    exact ⟨_, _, rfl, by rw [hFields, Stream.ofName?_name, Option.bind_some]⟩
  | completed name success exitCode durationMs =>
    have hFields : ∀ code duration : Json, ofFields? r "Completed" (.obj [("name", .str name),
        ("success", .bool success), ("exit_code", code), ("duration_ms", duration)]) =
          (Json.optional? Json.int32? (some code)).bind fun exitCode =>
            duration.word64?.bind fun durationMs =>
              some (completed name success exitCode durationMs) := fun _ _ => rfl
    exact ⟨_, _, rfl, by
      rw [hFields, optional?_int32, Option.bind_some, word64?_wordJson, Option.bind_some]⟩
  | timedOut name timeoutSecs =>
    have hFields : ∀ timeout : Json, ofFields? r "TimedOut" (.obj [("name", .str name),
        ("timeout_secs", timeout)]) = timeout.word64?.bind fun timeoutSecs =>
          some (timedOut name timeoutSecs) := fun _ => rfl
    exact ⟨_, _, rfl, by rw [hFields, word64?_wordJson, Option.bind_some]⟩

theorem RunEvent.exists_tagged (e : RunEvent) :
    ∃ name fields, e.toJson = tagged "event" name fields ∧ ofFields? name fields = some e := by
  cases e with
  | planned target taskCount =>
    have hFields : ∀ count : Json, ofFields? "Planned" (.obj [("target", .str target),
        ("task_count", count)]) = count.word64?.bind fun taskCount =>
          some (planned target taskCount) := fun _ => rfl
    exact ⟨_, _, rfl, by rw [hFields, word64?_wordJson, Option.bind_some]⟩
  | completed target success durationMs =>
    have hFields : ∀ duration : Json, ofFields? "Completed" (.obj [("target", .str target),
        ("success", .bool success), ("duration_ms", duration)]) = duration.word64?.bind
          fun durationMs => some (completed target success durationMs) := fun _ => rfl
    exact ⟨_, _, rfl, by rw [hFields, word64?_wordJson, Option.bind_some]⟩
  | cancelled target task =>
    cases task with
    | none => exact ⟨_, _, rfl, rfl⟩
    | some name => exact ⟨_, _, rfl, rfl⟩

/-- **An event is found again in its JSON value.** -/
theorem Event.ofJson?_toJson (e : Event) : ofJson? e.toJson = some e := by
  cases e with
  | task event =>
    obtain ⟨name, fields, hJson, hFields⟩ := event.exists_tagged .deferred
    rw [toJson, hJson, ofJson?, LayerReading.layer?_tagged _ (by decide)]
    simp only [Option.bind_eq_bind, Option.bind_some]
    rw [LayerReading.layer?_tagged _ (by decide), Option.bind_some, hFields]
    rfl
  | run event =>
    obtain ⟨name, fields, hJson, hFields⟩ := event.exists_tagged
    rw [toJson, hJson, ofJson?, LayerReading.layer?_tagged _ (by decide)]
    simp only [Option.bind_eq_bind, Option.bind_some]
    rw [LayerReading.layer?_tagged _ (by decide), Option.bind_some, hFields]
    rfl

-- ---------------------------------------------------------------------------
-- Records
-- ---------------------------------------------------------------------------

namespace EventRecord

variable {r : EventRecord}

theorem ofJson?_toJson (hInstant : Timestamp.parse? r.timestamp.text = some r.timestamp) :
    ofJson? r.toJson = some r := by
  have hFields : ∀ (id instant event : Json), ofJson? (.obj [("id", id), ("timestamp", instant),
      ("source", .obj [("target", .str r.source.target)]), ("category", event)]) =
        id.text?.bind fun idText => (EventId.parse? idText).bind fun id =>
          instant.text?.bind fun instantText => (Timestamp.parse? instantText).bind fun instant =>
            (Event.ofJson? event).bind fun event =>
              some ⟨id, instant, r.source.target, event⟩ := fun _ _ _ => rfl
  rw [toJson, hFields, Event.ofJson?_toJson]
  simp only [Json.text?, Option.bind_some, EventId.parse?_text, hInstant]

theorem clean_compact (r : EventRecord) : Json.Clean r.toJson.compact.toList := by
  rw [Json.compact, String.toList_ofList]
  exact Json.clean_compactText r.plain_toJson

/-- **A record is found again in its text**, on one line or on several, whatever
its event says; and the text on one line is one line. -/
theorem reads_back (r : EventRecord)
    (hInstant : Timestamp.parse? r.timestamp.text = some r.timestamp) :
    (Json.parse? r.toJson.compact).bind ofJson? = some r ∧
    (Json.parse? r.toJson.pretty).bind ofJson? = some r ∧
    '\n' ∉ r.toJson.compact.toList ∧ '\r' ∉ r.toJson.compact.toList ∧
    Text.lines (r.toJson.compact ++ "\n") = [r.toJson.compact] := by
  have hFeed : '\n' ∉ r.toJson.compact.toList :=
    fun hMem => absurd (r.clean_compact _ hMem) (by decide)
  have hRet : '\r' ∉ r.toJson.compact.toList :=
    fun hMem => absurd (r.clean_compact _ hMem) (by decide)
  refine ⟨?_, ?_, hFeed, hRet, ?_⟩
  · rw [Json.parse?_compact r.plain_toJson, Option.bind_some, ofJson?_toJson hInstant]
  · rw [Json.parse?_pretty r.plain_toJson, Option.bind_some, ofJson?_toJson hInstant]
  · have hLines : Text.lines (String.join ([r.toJson.compact].map (· ++ "\n"))) =
        [r.toJson.compact] := Text.lines_join (by simp [hFeed, hRet])
    simpa using hLines

/-- The name of the task holds a quote, a backslash and a line break, no exit code
is told, and the duration is the longest there is. -/
theorem reads_back_completed :
    let r : EventRecord := ⟨⟨0x67e55044⟩, ⟨1714979289, 500000000⟩, ⟨Event.taskTarget,
      .task (.completed "\"\\\r\n" false none 18446744073709551615)⟩⟩
    Timestamp.parse? r.timestamp.text = some r.timestamp ∧
    (Json.parse? r.toJson.compact).bind ofJson? = some r ∧
    (Json.parse? r.toJson.pretty).bind ofJson? = some r ∧ '\n' ∉ r.toJson.compact.toList := by
  intro r
  have hInstant : Timestamp.parse? r.timestamp.text = some r.timestamp := by decide +kernel
  obtain ⟨hCompact, hPretty, hFeed, -⟩ := reads_back r hInstant
  exact ⟨hInstant, hCompact, hPretty, hFeed⟩

end EventRecord

end TaskMill
