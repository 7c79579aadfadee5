import IssueRelay.Proofs.Issue.Severity
import IssueRelay.Proofs.Json.Record

/-!
# Issue records survive writing and reading

What is written for a record reads as the same record, down to the places of its flows. Only the
severity needs care: writing turns it into a text and reading folds the case of the known words, so
exactly the severities that some text names come back. Reading gives no other ones; hence writing
what was read is a normal form (`IssueRelay.written_records_read_back`).
-/

namespace IssueRelay

open Json

namespace Severity

/-- Whether some text names a severity. -/
def IsRead (severity : Severity) : Prop :=
  ∃ raw, severity = ofText raw

/-- The severities that come back are those that reading can give. -/
theorem read?_toJson_iff {severity : Severity} :
    read? severity.toJson = some severity ↔ severity.IsRead := by
  simp only [read?, toJson, text?_text, Option.map_some, Option.some.injEq]
  refine ⟨fun same => ⟨_, same.symm⟩, ?_⟩
  rintro ⟨raw, rfl⟩
  exact ofText_text_ofText raw

/-- Any text may stand for a severity, and nothing else. -/
theorem required?_eq_some_iff {field : Option Json} {severity : Severity} :
    required? read? field = some severity ↔
      ∃ raw, field = some (.text raw) ∧ severity = ofText raw := by
  simp only [required?, read?, Option.bind_eq_some_iff, Option.map_eq_some_iff, text?_eq_some_iff]
  constructor
  · rintro ⟨_, present, raw, rfl, same⟩
    exact ⟨raw, present, same.symm⟩
  · rintro ⟨raw, present, rfl⟩
    exact ⟨_, present, raw, rfl, rfl⟩

end Severity

namespace TextRange

/-- What is read as a range is exactly what its fields are read as. -/
theorem read?_eq_some_iff {json : Json} {range : TextRange} :
    read? json = some range ↔ ∃ field, fields? fieldNames 4 json = some field ∧
      required? word32? (field "startLine") = some range.startLine ∧
      required? word32? (field "startColumn") = some range.startColumn ∧
      required? word32? (field "endLine") = some range.endLine ∧
      required? word32? (field "endColumn") = some range.endColumn := by
  cases range
  simp [read?, Option.bind_eq_some_iff]

/-- A range that is written comes back. -/
@[simp] theorem read?_toJson (range : TextRange) : read? range.toJson = some range := by
  refine read?_eq_some_iff.mpr ⟨_, fields?_record (by simp), ?_, ?_, ?_, ?_⟩ <;>
    exact required?_of_eq rfl (word32?_ofWord _)

end TextRange

namespace Location

/-- What is read as a location is exactly what its fields are read as. -/
theorem read?_eq_some_iff {json : Json} {location : Location} :
    read? json = some location ↔ ∃ field, fields? fieldNames 0 json = some field ∧
      option? TextRange.read? (field "range") = some location.range ∧
      option? text? (field "message") = some location.message := by
  cases location
  simp [read?, Option.bind_eq_some_iff]

/-- A location that is written comes back. -/
@[simp] theorem read?_toJson (location : Location) : read? location.toJson = some location := by
  refine read?_eq_some_iff.mpr ⟨_, fields?_record (by simp), ?_, ?_⟩
  · exact nullable?_orNull (fun _ => Json.noConfusion) fun given _ => TextRange.read?_toJson given
  · exact nullable?_orNull (fun _ => Json.noConfusion) fun given _ => text?_text given

end Location

namespace Flow

/-- What is read as a flow is exactly what its locations are read as. -/
theorem read?_eq_some_iff {json : Json} {flow : Flow} :
    read? json = some flow ↔ ∃ field, fields? fieldNames 0 json = some field ∧
      default? [] (list? Location.read?) (field "locations") = some flow.locations := by
  cases flow
  simp [read?, Option.bind_eq_some_iff]

/-- A flow that is written comes back. -/
theorem read?_toJson (flow : Flow) : read? flow.toJson = some flow := by
  refine read?_eq_some_iff.mpr ⟨_, fields?_record (by simp), ?_⟩
  exact list?_ofList fun location _ => Location.read?_toJson location

/-- Flows come back in their order. -/
@[simp] theorem list?_toJson (flows : List Flow) :
    list? read? (.ofList toJson flows) = some flows :=
  list?_ofList fun flow _ => read?_toJson flow

end Flow

namespace Issue

/-- What is read as an issue is exactly what its fields are read as. -/
theorem read?_eq_some_iff {json : Json} {issue : Issue} :
    read? json = some issue ↔ ∃ field, fields? fieldNames 4 json = some field ∧
      required? text? (field "ruleKey") = some issue.ruleKey ∧
      required? text? (field "message") = some issue.message ∧
      required? Severity.read? (field "severity") = some issue.severity ∧
      required? TextRange.read? (field "range") = some issue.range ∧
      default? [] (list? Flow.read?) (field "flows") = some issue.flows := by
  cases issue
  simp [read?, Option.bind_eq_some_iff]

/-- The severity of an issue that is read is that of the text in its field. -/
theorem severity_of_read? {json : Json} {issue : Issue} (read : read? json = some issue) :
    ∃ field raw, fields? fieldNames 4 json = some field ∧ field "severity" = some (.text raw) ∧
      issue.severity = .ofText raw := by
  obtain ⟨field, fields, parts⟩ := read?_eq_some_iff.mp read
  have severity : required? Severity.read? (field "severity") = some issue.severity := by
    simp only [parts]
  obtain ⟨raw, written, named⟩ := Severity.required?_eq_some_iff.mp severity
  exact ⟨field, raw, fields, written, named⟩

/-- An issue comes back if its severity does. -/
theorem read?_toJson {issue : Issue} (isRead : issue.severity.IsRead) :
    read? issue.toJson = some issue :=
  read?_eq_some_iff.mpr ⟨_, fields?_record (by simp),
    required?_of_eq rfl (text?_text _), required?_of_eq rfl (text?_text _),
    required?_of_eq rfl (Severity.read?_toJson_iff.mpr isRead),
    required?_of_eq rfl (TextRange.read?_toJson _),
    default?_of_eq rfl (Flow.list?_toJson _)⟩

end Issue

namespace TaintIssue

/-- What is read as a taint issue is exactly what its fields are read as. -/
theorem read?_eq_some_iff {json : Json} {issue : TaintIssue} :
    read? json = some issue ↔ ∃ field, fields? fieldNames 5 json = some field ∧
      required? text? (field "key") = some issue.key ∧
      required? text? (field "ruleKey") = some issue.ruleKey ∧
      required? text? (field "message") = some issue.message ∧
      required? Severity.read? (field "severity") = some issue.severity ∧
      required? TextRange.read? (field "range") = some issue.range ∧
      default? [] (list? Flow.read?) (field "flows") = some issue.flows ∧
      default? false truth? (field "resolved") = some issue.resolved := by
  cases issue
  simp [read?, Option.bind_eq_some_iff, -Bool.exists_bool]

/-- The severity of a taint issue that is read is that of the text in its field. -/
theorem severity_of_read? {json : Json} {issue : TaintIssue} (read : read? json = some issue) :
    ∃ field raw, fields? fieldNames 5 json = some field ∧ field "severity" = some (.text raw) ∧
      issue.severity = .ofText raw := by
  obtain ⟨field, fields, parts⟩ := read?_eq_some_iff.mp read
  have severity : required? Severity.read? (field "severity") = some issue.severity := by
    simp only [parts]
  obtain ⟨raw, written, named⟩ := Severity.required?_eq_some_iff.mp severity
  exact ⟨field, raw, fields, written, named⟩

/-- A taint issue comes back if its severity does. -/
theorem read?_toJson {issue : TaintIssue} (isRead : issue.severity.IsRead) :
    read? issue.toJson = some issue :=
  read?_eq_some_iff.mpr ⟨_, fields?_record (by simp),
    required?_of_eq rfl (text?_text _), required?_of_eq rfl (text?_text _),
    required?_of_eq rfl (text?_text _),
    required?_of_eq rfl (Severity.read?_toJson_iff.mpr isRead),
    required?_of_eq rfl (TextRange.read?_toJson _),
    default?_of_eq rfl (Flow.list?_toJson _), default?_of_eq rfl (truth?_bool _)⟩

end TaintIssue

/-- Reading a value and writing what was read. -/
def Json.rewrite {α : Type} (read : Reader α) (write : α → Json) (json : Json) : Option Json :=
  (read json).map write

/-- What it means for records of a kind to survive writing and reading. -/
structure SurvivesWriting {α : Type} (names : List String) (least : Nat) (read : Reader α)
    (write : α → Json) (severity : α → Severity) : Prop where
  /-- Of all records, those come back whose severity some text names. -/
  comesBack : ∀ record, read (write record) = some record ↔ (severity record).IsRead
  /-- What was read comes back. -/
  readAgain : ∀ json record, read json = some record → read (write record) = some record
  /-- The first round reaches a form that further rounds leave as it is. -/
  settles : ∀ json normal, rewrite read write json = some normal →
    rewrite read write normal = some normal
  /-- One round puts a known severity in upper case and keeps any other. -/
  severityWritten : ∀ json record, read json = some record →
    ∃ before after raw, fields? names least json = some before ∧
      fields? names least (write record) = some after ∧ before "severity" = some (.text raw) ∧
      after "severity" =
        some (.text (if raw.toUpper ∈ Severity.words then raw.toUpper else raw))

/-- It is enough that records with a severity that some text names come back, and that the severity
is read from its field and written there. -/
theorem SurvivesWriting.of_severity {α : Type} {names : List String} {least : Nat}
    {read : Reader α} {write : α → Json} {severity : α → Severity}
    (comesBack : ∀ record, (severity record).IsRead → read (write record) = some record)
    (isRead : ∀ json record, read json = some record →
      ∃ field raw, fields? names least json = some field ∧
        field "severity" = some (.text raw) ∧ severity record = .ofText raw)
    (isWritten : ∀ record, ∃ field, fields? names least (write record) = some field ∧
      field "severity" = some (severity record).toJson) :
    SurvivesWriting names least read write severity := by
  have known json record (once : read json = some record) : (severity record).IsRead :=
    have ⟨_, raw, _, _, named⟩ := isRead json record once
    ⟨raw, named⟩
  have readAgain json record (once : read json = some record) :
      read (write record) = some record :=
    comesBack record (known json record once)
  refine ⟨fun record => ⟨known _ record, comesBack record⟩, readAgain, ?_, ?_⟩
  · intro json normal written
    obtain ⟨record, once, rfl⟩ := Option.map_eq_some_iff.mp written
    rw [rewrite, readAgain json record once, Option.map_some]
  · intro json record once
    obtain ⟨before, raw, fields, given, named⟩ := isRead json record once
    obtain ⟨after, others, written⟩ := isWritten record
    refine ⟨before, after, raw, fields, others, given, ?_⟩
    rw [written, named, Severity.toJson, Severity.text_ofText]

/-- **Issue records survive writing and reading.** An issue or a taint issue comes back from what
is written for it exactly if its severity is one that reading can give. What was read always comes
back, so one round of reading and writing leads to a form that no further round changes; in it a
known severity stands in upper case and an unknown one as it was. -/
theorem written_records_read_back :
    SurvivesWriting Issue.fieldNames 4 Issue.read? Issue.toJson Issue.severity ∧
      SurvivesWriting TaintIssue.fieldNames 5 TaintIssue.read? TaintIssue.toJson
        TaintIssue.severity := by
  constructor
  · exact .of_severity (fun _ => Issue.read?_toJson) (fun _ _ => Issue.severity_of_read?)
      fun _ => ⟨_, fields?_record (by simp), rfl⟩
  · exact .of_severity (fun _ => TaintIssue.read?_toJson)
      (fun _ _ => TaintIssue.severity_of_read?) fun _ => ⟨_, fields?_record (by simp), rfl⟩

/-- A taint issue in array form without resolution, its severity in mixed case. It has a flow whose
places have a range and a message, only one of them, or neither, and a flow without places. -/
def mixedCase : Json :=
  .arr [.text "T1", .text "java:S2076", .text "injection", .text "mAjor",
    .arr [.int 4, .int 0, .int 4, .int 17],
    .arr [
      .record [("locations", .arr [
        .arr [.arr [.int 2, .int 8, .int 2, .int 15], .text "source"],
        .record [("range", .arr [.int 3, .int 0, .int 3, .int 4]), ("message", .null)],
        .record [("message", .text "sink")],
        .arr []])],
      .arr []]]

/-- What is read from the record comes back from what is written for it, every place of its flows
included. -/
theorem mixed_case_settles : ∃ issue, TaintIssue.read? mixedCase = some issue ∧
    issue.severity = .major ∧
    issue.flows = [
      ⟨[⟨some ⟨2, 8, 2, 15⟩, some "source"⟩, ⟨some ⟨3, 0, 3, 4⟩, none⟩, ⟨none, some "sink"⟩,
        ⟨none, none⟩]⟩,
      ⟨[]⟩] ∧
    TaintIssue.read? issue.toJson = some issue ∧
    rewrite TaintIssue.read? TaintIssue.toJson issue.toJson = some issue.toJson := by
  have once : TaintIssue.read? mixedCase = some {
      key := "T1", ruleKey := "java:S2076", message := "injection", severity := .major,
      range := ⟨4, 0, 4, 17⟩
      flows := [
        ⟨[⟨some ⟨2, 8, 2, 15⟩, some "source"⟩, ⟨some ⟨3, 0, 3, 4⟩, none⟩, ⟨none, some "sink"⟩,
          ⟨none, none⟩]⟩,
        ⟨[]⟩]
      resolved := false } := by
    decide +kernel
  have survives := written_records_read_back.2
  exact ⟨_, once, rfl, rfl, survives.readAgain _ _ once,
    survives.settles mixedCase _ (by rw [rewrite, once, Option.map_some])⟩

end IssueRelay
