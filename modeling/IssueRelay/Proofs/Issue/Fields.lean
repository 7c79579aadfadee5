import IssueRelay.Proofs.Json.Alike

/-!
# The fields of the issue records

What each record declares of its fields: their names in the order of its array form, the defaults
of those that may be left out, and the records inside them. The readers depend on nothing else
(`IssueRelay.records_read_from_their_fields`).
-/

namespace IssueRelay

open Json

namespace TextRange

/-- A range needs all of its fields. -/
def decls : List FieldDecl :=
  [.plain "startLine" none, .plain "startColumn" none, .plain "endLine" none,
    .plain "endColumn" none]

/-- A range is read from its four fields. -/
theorem readsFields : ReadsFields decls read? := by
  refine .of_build (by decide) (fun _ => rfl) ?_ fun field => ?_
  · intro left right agree
    simp only [Fields.Agree, decls, List.forall_mem_cons, FieldDecl.name_plain] at agree
    obtain ⟨startLine, startColumn, endLine, endColumn, _⟩ := agree
    simp only [required?_of_plain startLine, required?_of_plain startColumn,
      required?_of_plain endLine, required?_of_plain endColumn]
  · simp +contextual [decls, required?]

end TextRange

namespace Location

/-- What a location lacks is null. -/
def decls : List FieldDecl :=
  [.nested "range" (some .null) TextRange.decls, .plain "message" (some .null)]

/-- A location is read from its fields, which it may lack. -/
theorem readsFields : ReadsFields decls read? := by
  refine .of_build (by decide) (fun _ => rfl) ?_ fun field => ?_
  · intro left right agree
    simp only [Fields.Agree, decls, List.forall_mem_cons, FieldDecl.name_plain,
      FieldDecl.name_nested] at agree
    obtain ⟨range, message, _⟩ := agree
    simp only [option?_of_nested TextRange.readsFields range, option?_of_plain message]
  · simp [decls]

end Location

namespace Flow

/-- A flow has no locations by default. -/
def decls : List FieldDecl :=
  [.listed "locations" (some (.arr [])) Location.decls]

/-- A flow is read from its locations. -/
theorem readsFields : ReadsFields decls read? := by
  refine .of_build (by decide) (fun _ => rfl) ?_ fun field => ?_
  · intro left right agree
    simp only [Fields.Agree, decls, List.forall_mem_cons, FieldDecl.name_listed] at agree
    obtain ⟨locations, _⟩ := agree
    simp only [default?_of_listed Location.readsFields locations]
  · simp [decls]

end Flow

namespace Issue

/-- An issue has no flows by default. -/
def decls : List FieldDecl :=
  [.plain "ruleKey" none, .plain "message" none, .plain "severity" none,
    .nested "range" none TextRange.decls, .listed "flows" (some (.arr [])) Flow.decls]

/-- An issue is read from its fields, with ranges and flows read as records of their own. -/
theorem readsFields : ReadsFields decls read? := by
  refine .of_build (by decide) (fun _ => rfl) ?_ fun field => ?_
  · intro left right agree
    simp only [Fields.Agree, decls, List.forall_mem_cons, FieldDecl.name_plain,
      FieldDecl.name_nested, FieldDecl.name_listed] at agree
    obtain ⟨ruleKey, message, severity, range, flows, _⟩ := agree
    simp only [required?_of_plain ruleKey, required?_of_plain message, required?_of_plain severity,
      required?_of_nested TextRange.readsFields range, default?_of_listed Flow.readsFields flows]
  · simp +contextual [decls, required?]

end Issue

namespace TaintIssue

/-- A taint issue has no flows and is not resolved by default. -/
def decls : List FieldDecl :=
  [.plain "key" none, .plain "ruleKey" none, .plain "message" none, .plain "severity" none,
    .nested "range" none TextRange.decls, .listed "flows" (some (.arr [])) Flow.decls,
    .plain "resolved" (some (.bool false))]

/-- A taint issue is read from its fields, with ranges and flows read as records of their own. -/
theorem readsFields : ReadsFields decls read? := by
  refine .of_build (by decide) (fun _ => rfl) ?_ fun field => ?_
  · intro left right agree
    simp only [Fields.Agree, decls, List.forall_mem_cons, FieldDecl.name_plain,
      FieldDecl.name_nested, FieldDecl.name_listed] at agree
    obtain ⟨key, ruleKey, message, severity, range, flows, resolved, _⟩ := agree
    simp only [required?_of_plain key, required?_of_plain ruleKey, required?_of_plain message,
      required?_of_plain severity, required?_of_nested TextRange.readsFields range,
      default?_of_listed Flow.readsFields flows, default?_of_plain (truth?_bool false) resolved]
  · simp +contextual [decls, required?]

end TaintIssue

namespace ServerIssue

/-- A server issue has no line and is not resolved by default. -/
def decls : List FieldDecl :=
  [.plain "key" none, .plain "ruleKey" none, .plain "message" none, .plain "line" (some .null),
    .plain "resolved" (some (.bool false))]

/-- A server issue is read from its fields. -/
theorem readsFields : ReadsFields decls read? := by
  refine .of_build (by decide) (fun _ => rfl) ?_ fun field => ?_
  · intro left right agree
    simp only [Fields.Agree, decls, List.forall_mem_cons, FieldDecl.name_plain] at agree
    obtain ⟨key, ruleKey, message, line, resolved, _⟩ := agree
    simp only [required?_of_plain key, required?_of_plain ruleKey, required?_of_plain message,
      option?_of_plain line, default?_of_plain (truth?_bool false) resolved]
  · simp +contextual [decls, required?]

end ServerIssue

/-- A page needs its issues. -/
def pageDecls (inner : List FieldDecl) : List FieldDecl :=
  [.listed "issues" none inner]

/-- A page is read from its list of issues, each read as a record of its own. -/
theorem issuesPage?_readsFields {α : Type} {read : Reader α} {inner : List FieldDecl}
    (inside : ReadsFields inner read) : ReadsFields (pageDecls inner) (issuesPage? read) := by
  refine .of_build (List.nodup_singleton _) (fun _ => rfl) ?_ fun field => ?_
  · intro left right agree
    simp only [Fields.Agree, pageDecls, List.forall_mem_cons, FieldDecl.name_listed] at agree
    exact required?_of_listed inside agree.1
  · simp +contextual [pageDecls, required?]

/-- **Records are read from their fields.** For each record, and for a page of records, all that
counts are the declared fields: where members stand, what else there is, whether a default is
written, and whether the values stand in an object or an array, makes no difference at any depth;
a required field that is lacking, a field that is repeated and a value too many are errors. -/
theorem records_read_from_their_fields :
    ReadsFields TextRange.decls TextRange.read? ∧ ReadsFields Location.decls Location.read? ∧
      ReadsFields Flow.decls Flow.read? ∧ ReadsFields Issue.decls Issue.read? ∧
      ReadsFields TaintIssue.decls TaintIssue.read? ∧
      ReadsFields ServerIssue.decls ServerIssue.read? ∧
      ReadsFields (pageDecls TaintIssue.decls) (issuesPage? TaintIssue.read?) ∧
      ReadsFields (pageDecls ServerIssue.decls) (issuesPage? ServerIssue.read?) :=
  ⟨TextRange.readsFields, Location.readsFields, Flow.readsFields, Issue.readsFields,
    TaintIssue.readsFields, ServerIssue.readsFields, issuesPage?_readsFields TaintIssue.readsFields,
    issuesPage?_readsFields ServerIssue.readsFields⟩

end IssueRelay
