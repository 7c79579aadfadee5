import IssueRelay.CodeAction
import IssueRelay.Proofs.Cache.Provenance
import IssueRelay.Proofs.Cache.Silence
import IssueRelay.Proofs.Issue.RoundTrip

/-!
# Code actions and current issues

An editor asks for actions on diagnostics that it may have had for long. Each is looked up anew, so
one that leads to no current issue is offered nothing; and the diagnostics that have just been
published are offered what their issues allow, no more and no less
(`IssueRelay.CodeAction.actions_match_issues`).
-/

namespace IssueRelay

/-- What actions have to know of an issue; its key is that on the server, if it has one. -/
structure Actionable where
  ruleKey : String
  message : String
  range : TextRange
  flows : List Flow
  key : Option String
  deriving DecidableEq, Repr

/-- A local issue has a key if it is known to the server. -/
def LocalIssue.actionable (found : LocalIssue) : Actionable where
  ruleKey := found.issue.ruleKey
  message := found.issue.message
  range := found.issue.range
  flows := found.issue.flows
  key := found.status.key

/-- A taint issue always has a key. -/
def TaintIssue.actionable (issue : TaintIssue) : Actionable where
  ruleKey := issue.ruleKey
  message := issue.message
  range := issue.range
  flows := issue.flows
  key := some issue.key

/-- Whether relative references can be resolved against a URL. -/
def Url.CanBeBase (url : Url) : Prop :=
  ∃ segments, url.path = .rooted segments

namespace Binding

variable {server : Binding} {key : String}

/-- The page of an issue has the key in its query. -/
theorem query_of_issueUrl {page : Url} (resolved : server.issueUrl key = .ok page) :
    page.query = some (Form.encode
      ([("id", server.projectKey), ("issues", key), ("open", key)] ++ server.branchPair)) := by
  rw [issueUrl] at resolved
  cases base : server.serverUrl.resolve ["project", "issues"] with
  | error error =>
    rw [base] at resolved
    cases resolved
  | ok below =>
    rw [base] at resolved
    cases resolved
    rfl

/-- An issue has a page exactly if the server's URL can be a base. -/
theorem exists_issueUrl_iff :
    (∃ page, server.issueUrl key = .ok page) ↔ server.serverUrl.CanBeBase := by
  cases path : server.serverUrl.path with
  | flat text => simp [issueUrl, Url.resolve, path, Url.CanBeBase]
  | rooted segments => simp [issueUrl, Url.resolve, path, Url.CanBeBase]

end Binding

namespace Cache

variable {cache : Cache} {uri : Url} {diagnostic : Diagnostic}

/-- The issue that a diagnostic leads to, as far as actions are concerned. -/
def actionableFor? (cache : Cache) (uri : Url) (diagnostic : Diagnostic) : Option Actionable :=
  match cache.issueFor? uri diagnostic with
  | some found => some found.actionable
  | none => (cache.taintFor? uri diagnostic).map TaintIssue.actionable

/-- A diagnostic was made of an issue that is current for a file. -/
inductive MadeOf (cache : Cache) (uri : Url) : Diagnostic → Actionable → Prop
  | found (id : IssueId) (found : LocalIssue) (seen : cache.issue? uri id = some found) :
      MadeOf cache uri (.ofLocal uri id found.issue) found.actionable
  | taint (issue : TaintIssue) (stored : issue ∈ cache.taint.get uri) :
      MadeOf cache uri (.ofTaint uri issue) issue.actionable

/-- Every diagnostic that is shown is made of an issue of its file. -/
theorem exists_madeOf_of_shown (distinct : (cache.current uri).Distinct)
    (shown : diagnostic ∈ cache.shown uri) : ∃ issue, MadeOf cache uri diagnostic issue := by
  rcases Diagnostic.mem_ofIssues shown with ⟨id, found, entry, rfl⟩ | ⟨issue, stored, rfl⟩
  · exact ⟨_, .found id found (distinct.get?_eq_some_iff.mpr entry)⟩
  · exact ⟨_, .taint issue stored⟩

/-- With different keys for different taint issues, a diagnostic leads to what it was made of. -/
theorem actionableFor?_of_madeOf {issue : Actionable} (made : MadeOf cache uri diagnostic issue)
    (distinct : ((cache.taint.get uri).map TaintIssue.key).Nodup) :
    cache.actionableFor? uri diagnostic = some issue := by
  cases made with
  | found id found seen => rw [actionableFor?, issueFor?_ofLocal, seen]
  | taint issue stored =>
    obtain ⟨found, _, resolved, _, exact⟩ := cache.exists_taintFor?_ofTaint uri uri stored
    rw [actionableFor?, issueFor?_ofTaint, resolved, exact distinct, Option.map_some]

/-- Places that belong to a diagnostic come from the flows of its issue. -/
theorem MadeOf.flows_ne_nil {issue : Actionable} (made : MadeOf cache uri diagnostic issue)
    (related : diagnostic.related.isSome) : issue.flows ≠ [] := by
  have places : diagnostic.related = Diagnostic.relatedPlaces uri issue.flows := by
    cases made <;> rfl
  intro none
  rw [places, none] at related
  cases related

/-- What a diagnostic names is not current for a file. -/
inductive Stale (cache : Cache) (uri : Url) (diagnostic : Diagnostic) : Prop
  | foreign (other : diagnostic.source ≠ some Diagnostic.localSource)
      (alien : diagnostic.source ≠ some Diagnostic.taintSource)
  | id (source : diagnostic.source = some Diagnostic.localSource)
      (gone : ∀ content id, diagnostic.dataText? = some content →
        IssueId.ofText? content = some id → cache.issue? uri id = none)
  | key (source : diagnostic.source = some Diagnostic.taintSource)
      (gone : ∀ key, diagnostic.dataText? = some key →
        ∀ issue ∈ cache.taint.get uri, issue.key ≠ key)

/-- A diagnostic of another source leads to nothing. -/
theorem actionableFor?_of_source (other : diagnostic.source ≠ some Diagnostic.localSource)
    (alien : diagnostic.source ≠ some Diagnostic.taintSource) :
    cache.actionableFor? uri diagnostic = none := by
  rw [actionableFor?, issueFor?, if_neg other, taintFor?, if_neg alien, Option.map_none]

/-- A local diagnostic leads to no taint issue. -/
theorem actionableFor?_of_local (source : diagnostic.source = some Diagnostic.localSource) :
    cache.actionableFor? uri diagnostic =
      (cache.issueFor? uri diagnostic).map LocalIssue.actionable := by
  have alien : ¬ diagnostic.source = some Diagnostic.taintSource := by
    rw [source]
    decide
  rw [actionableFor?, taintFor?, if_neg alien]
  cases cache.issueFor? uri diagnostic <;> rfl

/-- A taint diagnostic leads to no local issue. -/
theorem actionableFor?_of_taint (source : diagnostic.source = some Diagnostic.taintSource) :
    cache.actionableFor? uri diagnostic =
      (cache.taintFor? uri diagnostic).map TaintIssue.actionable := by
  have other : ¬ diagnostic.source = some Diagnostic.localSource := by
    rw [source]
    decide
  rw [actionableFor?, issueFor?, if_neg other]

/-- A stale diagnostic leads to nothing. -/
theorem actionableFor?_of_stale (stale : Stale cache uri diagnostic) :
    cache.actionableFor? uri diagnostic = none := by
  cases stale with
  | foreign other alien => exact actionableFor?_of_source other alien
  | id source gone =>
    rw [actionableFor?_of_local source, Option.map_eq_none_iff, issueFor?, if_pos source]
    simp only [Option.bind_eq_bind, Option.bind_eq_none_iff]
    exact fun content text id => gone content id text
  | key source gone =>
    rw [actionableFor?_of_taint source, Option.map_eq_none_iff, taintFor?, if_pos source]
    simp only [Option.bind_eq_bind, Option.bind_eq_none_iff, List.find?_eq_none,
      decide_eq_true_eq]
    exact gone

/-- A local diagnostic leads nowhere in a file for which it was not published. -/
theorem actionableFor?_of_elsewhere (past : Chronicle cache)
    (few : past.reports.length < UInt64.size) {file : Url} (different : file ≠ uri)
    {list : List Diagnostic} (published : (file, list) ∈ publications past.effects)
    (shown : diagnostic ∈ list) (source : diagnostic.source = some Diagnostic.localSource) :
    cache.actionableFor? uri diagnostic = none := by
  rw [actionableFor?_of_local source, Option.map_eq_none_iff, Option.eq_none_iff_forall_ne_some]
  intro found resolved
  obtain ⟨report, made, rfl, rfl⟩ := past.report_of_published published shown source
  exact different (past.issueFor?_of_report few made resolved).1.symm

end Cache

namespace CodeAction

variable {cache : Cache} {server : Option Binding} {uri : Url} {diagnostic : Diagnostic}

/-- The commands for a diagnostic are those for the issue to which it leads. -/
theorem commandsFor_eq :
    commandsFor cache server uri diagnostic =
      match cache.actionableFor? uri diagnostic with
      | some issue =>
        (locationsCommand? uri issue.ruleKey issue.message issue.range issue.flows).toList
          ++ (openCommand? server issue.ruleKey issue.key).toList
      | none => [] := by
  rw [commandsFor, Cache.actionableFor?]
  cases cache.issueFor? uri diagnostic with
  | some found => rfl
  | none => cases cache.taintFor? uri diagnostic <;> rfl

/-- The actions for two lists of diagnostics stand one after the other. -/
theorem forDiagnostics_append (left right : List Diagnostic) :
    forDiagnostics cache server uri (left ++ right) =
      forDiagnostics cache server uri left ++ forDiagnostics cache server uri right :=
  List.flatMap_append

/-- The actions for one diagnostic are its commands, each with the diagnostic. -/
theorem forDiagnostics_singleton :
    forDiagnostics cache server uri [diagnostic] =
      (commandsFor cache server uri diagnostic).map ({ command := ·, diagnostic }) :=
  List.flatMap_singleton _ _

/-- A diagnostic that leads to no issue is offered nothing. -/
theorem forDiagnostics_of_none (none : cache.actionableFor? uri diagnostic = none) :
    forDiagnostics cache server uri [diagnostic] = [] := by
  rw [forDiagnostics_singleton, commandsFor_eq, none, List.map_nil]

section Commands

variable {ruleKey message : String} {range : TextRange} {flows : List Flow} {key : Option String}
  {command : EditorCommand}

/-- Showing the locations is offered exactly where there are flows. -/
theorem locationsCommand?_eq_some_iff :
    locationsCommand? uri ruleKey message range flows = some command ↔
      flows ≠ [] ∧ command = .showAllLocations uri ruleKey message range flows := by
  cases flows <;> simp [locationsCommand?, eq_comm]

/-- Opening the issue is offered exactly with a server and a key that make an address. -/
theorem openCommand?_eq_some_iff :
    openCommand? server ruleKey key = some command ↔
      ∃ binding issueKey page, server = some binding ∧ key = some issueKey ∧
        binding.issueUrl issueKey = .ok page ∧ command = .openInServer ruleKey page := by
  cases server with
  | none => simp [openCommand?]
  | some binding =>
    cases key with
    | none => simp [openCommand?]
    | some issueKey =>
      cases resolved : binding.issueUrl issueKey <;>
        simp [openCommand?, resolved, Except.toOption, eq_comm]

end Commands

/-- The name of the command that shows all locations. -/
def locationsName : String :=
  "hansei.showAllLocations"

/-- The name of the command that opens an issue. -/
def openName : String :=
  "hansei.openIssueInServer"

/-- The command for the locations goes by its own name. -/
theorem name_of_locationsCommand? {ruleKey message : String} {range : TextRange}
    {flows : List Flow} {command : EditorCommand}
    (offered : command ∈ locationsCommand? uri ruleKey message range flows) :
    command.name = locationsName := by
  rw [(locationsCommand?_eq_some_iff.mp offered).2]
  rfl

/-- The command that opens an issue goes by its own name. -/
theorem name_of_openCommand? {ruleKey : String} {key : Option String} {command : EditorCommand}
    (offered : command ∈ openCommand? server ruleKey key) : command.name = openName := by
  obtain ⟨_, _, _, _, _, _, rfl⟩ := openCommand?_eq_some_iff.mp offered
  rfl

/-- At most one command shows locations, and at most one after it opens the issue. -/
def AtMostOneEach (diagnostic : Diagnostic) (actions : List CodeAction) : Prop :=
  ∃ locations page : Option EditorCommand,
    actions = (locations.toList ++ page.toList).map ({ command := ·, diagnostic }) ∧
      (∀ command ∈ locations, command.name = locationsName) ∧
      ∀ command ∈ page, command.name = openName

/-- A diagnostic gets each of the two actions at most once. -/
theorem atMostOneEach :
    AtMostOneEach diagnostic (forDiagnostics cache server uri [diagnostic]) := by
  rw [forDiagnostics_singleton, commandsFor_eq]
  cases cache.actionableFor? uri diagnostic with
  | none => exact ⟨none, none, rfl, by simp, by simp⟩
  | some issue =>
    exact ⟨_, _, rfl, fun _ => name_of_locationsCommand?, fun _ => name_of_openCommand?⟩

/-- What is offered for an issue, and when. -/
structure Offers (server : Option Binding) (diagnostic : Diagnostic) (issue : Actionable)
    (actions : List CodeAction) : Prop where
  /-- Its locations can be shown if it has flows. -/
  locations : (∃ action ∈ actions, action.command.name = locationsName) ↔ issue.flows ≠ []
  /-- They can whenever the diagnostic has related places. -/
  related : diagnostic.related.isSome →
    ∃ action ∈ actions, action.command.name = locationsName
  /-- The argument gives back its range and its flows. -/
  argument : ∀ action ∈ actions, action.command.name = locationsName →
    ∃ field, Json.fields? ["uri", "ruleKey", "message", "range", "flows"] 5
        action.command.argument = some field ∧
      Json.required? TextRange.read? (field "range") = some issue.range ∧
      Json.required? (Json.list? Flow.read?) (field "flows") = some issue.flows
  /-- It can be opened if it has a key and there is a server whose URL can be a base. -/
  page : (∃ action ∈ actions, action.command.name = openName) ↔
    issue.key.isSome ∧ ∃ binding, server = some binding ∧ binding.serverUrl.CanBeBase
  /-- The link is that of its key. -/
  link : ∀ action ∈ actions, action.command.name = openName →
    ∃ binding key page, server = some binding ∧ issue.key = some key ∧
      binding.issueUrl key = .ok page ∧ action.command.argument = page.toJson ∧
      page.query = some (Form.encode
        ([("id", binding.projectKey), ("issues", key), ("open", key)] ++ binding.branchPair))

/-- The actions on a diagnostic that leads to an issue. -/
theorem mem_forDiagnostics {issue : Actionable}
    (leads : cache.actionableFor? uri diagnostic = some issue) {action : CodeAction} :
    action ∈ forDiagnostics cache server uri [diagnostic] ↔
      action.diagnostic = diagnostic ∧
        (locationsCommand? uri issue.ruleKey issue.message issue.range issue.flows =
            some action.command ∨
          openCommand? server issue.ruleKey issue.key = some action.command) := by
  rw [forDiagnostics_singleton, commandsFor_eq, leads]
  simp only [List.mem_map, List.mem_append, Option.mem_toList]
  constructor
  · rintro ⟨command, offered, rfl⟩
    exact ⟨rfl, offered⟩
  · rintro ⟨rfl, offered⟩
    exact ⟨action.command, offered, rfl⟩

/-- A diagnostic that leads to an issue gets the actions of this issue. -/
theorem offers_of_leads {issue : Actionable}
    (leads : cache.actionableFor? uri diagnostic = some issue)
    (fromFlows : diagnostic.related.isSome → issue.flows ≠ []) :
    Offers server diagnostic issue (forDiagnostics cache server uri [diagnostic]) := by
  have locations action (member : action ∈ forDiagnostics cache server uri [diagnostic])
      (name : action.command.name = locationsName) :
      issue.flows ≠ [] ∧ action.command =
        .showAllLocations uri issue.ruleKey issue.message issue.range issue.flows := by
    rcases ((mem_forDiagnostics leads).mp member).2 with offered | offered
    · exact locationsCommand?_eq_some_iff.mp offered
    · exact absurd (name.symm.trans (name_of_openCommand? offered)) (by decide)
  have page action (member : action ∈ forDiagnostics cache server uri [diagnostic])
      (name : action.command.name = openName) :
      openCommand? server issue.ruleKey issue.key = some action.command := by
    rcases ((mem_forDiagnostics leads).mp member).2 with offered | offered
    · exact absurd (name.symm.trans (name_of_locationsCommand? offered)) (by decide)
    · exact offered
  have shows (flows : issue.flows ≠ []) :
      ∃ action ∈ forDiagnostics cache server uri [diagnostic],
        action.command.name = locationsName :=
    ⟨⟨_, diagnostic⟩, (mem_forDiagnostics leads).mpr
      ⟨rfl, .inl (locationsCommand?_eq_some_iff.mpr ⟨flows, rfl⟩)⟩, rfl⟩
  refine ⟨⟨?_, shows⟩, fun related => shows (fromFlows related), ?_, ⟨?_, ?_⟩, ?_⟩
  · rintro ⟨action, member, name⟩
    exact (locations action member name).1
  · intro action member name
    rw [(locations action member name).2]
    exact ⟨_, Json.fields?_record (by simp), Json.required?_of_eq rfl (TextRange.read?_toJson _),
      Json.required?_of_eq rfl (Flow.list?_toJson _)⟩
  · rintro ⟨action, member, name⟩
    obtain ⟨binding, key, below, bound, keyed, resolved, _⟩ :=
      openCommand?_eq_some_iff.mp (page action member name)
    exact ⟨keyed ▸ rfl, binding, bound, Binding.exists_issueUrl_iff.mp ⟨below, resolved⟩⟩
  · rintro ⟨hasKey, binding, bound, base⟩
    obtain ⟨key, keyed⟩ := Option.isSome_iff_exists.mp hasKey
    obtain ⟨below, resolved⟩ := Binding.exists_issueUrl_iff.mpr base
    exact ⟨⟨_, diagnostic⟩, (mem_forDiagnostics leads).mpr ⟨rfl, .inr
      (openCommand?_eq_some_iff.mpr ⟨binding, key, below, bound, keyed, resolved, rfl⟩)⟩, rfl⟩
  · intro action member name
    obtain ⟨binding, key, below, bound, keyed, resolved, same⟩ :=
      openCommand?_eq_some_iff.mp (page action member name)
    rw [same]
    exact ⟨binding, key, below, bound, keyed, resolved, rfl, Binding.query_of_issueUrl resolved⟩

/-- **Actions match the current issues.** In every state that a cache can reach, whatever
diagnostics an editor sends for a file, each is offered its own actions: at most one to show
locations and then at most one to open a page. There is none for a diagnostic from elsewhere, one
whose identifier or key is not current for the file, and, while there are fewer reports than
identifiers, a local one that was published for another file. A diagnostic that has just been
published for the file is offered exactly what its issue allows. -/
theorem actions_match_issues {cache : Cache} (past : Cache.Chronicle cache)
    (server : Option Binding) (uri : Url) :
    (∀ left right, forDiagnostics cache server uri (left ++ right) =
        forDiagnostics cache server uri left ++ forDiagnostics cache server uri right) ∧
      (∀ diagnostic, AtMostOneEach diagnostic (forDiagnostics cache server uri [diagnostic])) ∧
      (∀ diagnostic, cache.Stale uri diagnostic →
        forDiagnostics cache server uri [diagnostic] = []) ∧
      (past.reports.length < UInt64.size →
        ∀ file ≠ uri, ∀ list, (file, list) ∈ Cache.publications past.effects →
          ∀ diagnostic ∈ list, diagnostic.source = some Diagnostic.localSource →
            forDiagnostics cache server uri [diagnostic] = []) ∧
      ∀ action, action.Possible cache →
        (((Cache.act action cache).1.taint.get uri).map TaintIssue.key).Nodup →
          ∀ list, (uri, list) ∈ Cache.publications (Cache.act action cache).2 →
            ∀ diagnostic ∈ list, ∃ issue,
              (Cache.act action cache).1.MadeOf uri diagnostic issue ∧
                Offers server diagnostic issue
                  (forDiagnostics (Cache.act action cache).1 server uri [diagnostic]) := by
  refine ⟨forDiagnostics_append, fun _ => atMostOneEach, ?_, ?_, ?_⟩
  · exact fun _ stale => forDiagnostics_of_none (Cache.actionableFor?_of_stale stale)
  · intro few file different list published diagnostic shown source
    exact forDiagnostics_of_none
      (Cache.actionableFor?_of_elsewhere past few different published shown source)
  · intro action possible keys list published diagnostic shown
    rw [past.publications_act action possible] at published
    obtain ⟨shownFile, _, same⟩ := List.mem_map.mp published
    obtain ⟨rfl, rfl⟩ := Prod.mk.inj same
    have distinct := ((past.next action possible).refines shownFile).current_holds.distinct
    obtain ⟨issue, made⟩ := Cache.exists_madeOf_of_shown distinct shown
    exact ⟨issue, made,
      offers_of_leads (Cache.actionableFor?_of_madeOf made keys) made.flows_ne_nil⟩

/-- A file whose taint issues are being refreshed. -/
def refreshing : Cache :=
  (Cache.act (.schedule Cache.project Cache.mainDocument) .empty).1

/-- A vulnerability with a flow through a place of the text and one that is not in it. -/
def injection : TaintIssue :=
  { Cache.vulnerability "T" with
    flows := [⟨[
      { range := some ⟨1, 4, 1, 9⟩, message := some "source" },
      { range := none, message := some "sink" }]⟩] }

/-- The end of the refresh, which brings the vulnerability. -/
def answer : Cache.Action :=
  .finish ⟨0, Cache.mainFile⟩ (some [injection])

/-- The diagnostic of the vulnerability has a related place, its locations can be shown, and its
page can be opened. -/
theorem vulnerability_can_be_opened :
    ∃ diagnostic, (∃ list, (Cache.mainFile, list) ∈ Cache.publications
        (Cache.act answer refreshing).2 ∧ diagnostic ∈ list) ∧
      diagnostic.related = some [
        { uri := Cache.mainFile, span := ⟨⟨0, 4⟩, ⟨0, 9⟩⟩, message := "source" }] ∧
      ∃ issue, issue.flows = injection.flows ∧ issue.key = some "T" ∧
        let actions := forDiagnostics (Cache.act answer refreshing).1 (some Cache.project)
          Cache.mainFile [diagnostic]
        Offers (some Cache.project) diagnostic issue actions ∧
          actions.map (·.command.name) = [locationsName, openName] := by
  let past : Cache.Chronicle refreshing := Cache.Chronicle.beginning.next
    (.schedule Cache.project Cache.mainDocument) trivial
  obtain ⟨_, _, _, _, justPublished⟩ :=
    actions_match_issues past (some Cache.project) Cache.mainFile
  have possible : answer.Possible refreshing := by decide
  have published : (Cache.mainFile, (Cache.act answer refreshing).1.shown Cache.mainFile) ∈
      Cache.publications (Cache.act answer refreshing).2 := by
    rw [past.publications_act answer possible]
    exact List.mem_cons_self
  have shown : Diagnostic.ofTaint Cache.mainFile injection ∈
      (Cache.act answer refreshing).1.shown Cache.mainFile :=
    (Diagnostic.ofIssues_perm _ _ _).mem_iff.mpr
      (List.mem_append_right _ (List.mem_map_of_mem (by decide)))
  obtain ⟨issue, made, offers⟩ := justPublished answer possible (by decide) _ published _ shown
  have leads := Cache.actionableFor?_of_madeOf made (by decide)
  have found : (Cache.act answer refreshing).1.actionableFor? Cache.mainFile
      (.ofTaint Cache.mainFile injection) = some injection.actionable := by
    decide
  obtain rfl := Option.some.inj (leads.symm.trans found)
  exact ⟨_, ⟨_, published, shown⟩, by decide, _, rfl, rfl, offers, by decide +kernel⟩

end CodeAction
end IssueRelay
