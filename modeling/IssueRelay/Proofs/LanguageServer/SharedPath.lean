import IssueRelay.Proofs.Document.RelativePath
import IssueRelay.Proofs.LanguageServer.Agreement
import IssueRelay.Proofs.LanguageServer.DebouncedPass
import IssueRelay.Proofs.Remote.Query

/-!
# Files that go by the same path

A server knows a file by its relative path, and so does the history of earlier analyses. Two files
below the root never have the same relative path, nor have two files outside it; but the steps from
the root to one file may spell the path of the URL of another outside
(`IssueRelay.LanguageServer.server_data_stays_with_file`). Files with different paths are kept
apart: what is learnt under the path of one makes no difference to the issues of the other.
-/

namespace IssueRelay

open FilePath (Component joined)

/-! ## Paths without their leading slashes -/

namespace Url

/-- A slash in front stays a slash when percent-encoding is undone. -/
theorem decodeText_cons_slash (rest : List Char) :
    Percent.decodeText (String.ofList ('/' :: rest)) =
      FilePath.slash :: Percent.decodeText (String.ofList rest) := by
  have noPercent : FilePath.slash ≠ '%'.toUInt8 := by decide
  have octets : Utf8.encode (String.ofList ('/' :: rest)) =
      FilePath.slash :: Utf8.encode (String.ofList rest) := by
    simp [Utf8.encode]
    rfl
  rw [Percent.decodeText, octets, Percent.decode_cons_of_ne noPercent]
  rfl

/-- Slashes in front do not change the steps of a path. -/
theorem steps_withoutLeadingSlashes (path : String) :
    FilePath.steps (Percent.decodeText (withoutLeadingSlashes path)) =
      FilePath.steps (Percent.decodeText path) := by
  have dropped : ∀ chars : List Char,
      FilePath.steps (Percent.decodeText (String.ofList (chars.dropWhile (· = '/')))) =
        FilePath.steps (Percent.decodeText (String.ofList chars)) := by
    intro chars
    induction chars with
    | nil => rfl
    | cons first rest ih =>
        by_cases slashed : first = '/'
        · subst slashed
          rw [decodeText_cons_slash, FilePath.steps_cons, ← ih]
          rfl
        · rw [List.dropWhile_cons_of_neg (by simpa using slashed)]
  rw [withoutLeadingSlashes, dropped, String.ofList_toList]

/-- The path of a URL leads the same way without its leading slashes. -/
theorem components_of_bare {uri : Url} (isLocal : uri.IsLocal) :
    uri.decodedPath.components = .root :: FilePath.steps (Percent.decodeText uri.bare) := by
  rw [FilePath.components_of_rooted (isRooted_decodedPath isLocal), bare,
    steps_withoutLeadingSlashes]
  rfl

/-! ## Relative paths of two files -/

/-- A URL of a file as it was read, without a host and with a well-formed path. -/
structure NamesFile (uri : Url) : Prop where
  read : ∃ text, parse text = .ok uri
  file : uri.scheme = "file"
  hostless : uri.host = none
  wellFormed : ∃ text, uri.decodedPath = .ofText text

/-- The URL of a file without a host is local. -/
theorem NamesFile.isLocal {uri : Url} (names : uri.NamesFile) : uri.IsLocal := by
  obtain ⟨text, read⟩ := names.read
  exact (isLocal_iff_of_parse read names.file).mpr names.hostless

/-- Whether the steps from a root to a file spell the path of the URL of another, which is outside
the root. -/
def TakenFor (root : FilePath) (inside outside : Url) : Prop :=
  ∃ rest, inside.decodedPath.components = root.components ++ rest ∧
    ¬root.components <+: outside.decodedPath.components ∧ joined rest = outside.bare

end Url

section TwoFiles

variable {root : FilePath} {own other : Url}

/-- Two files below the root with the same text of steps have the same path. -/
theorem components_eq_of_both_below (rooted : root.isRooted = true) (ownNames : own.NamesFile)
    (otherNames : other.NamesFile) {rest others : List Component}
    (below : own.LiesBelow root rest) (otherBelow : other.LiesBelow root others)
    (same : joined rest = joined others) :
    own.decodedPath.components = other.decodedPath.components := by
  obtain ⟨_, wellFormed⟩ := ownNames.wellFormed
  obtain ⟨_, otherWellFormed⟩ := otherNames.wellFormed
  have steps := FilePath.components_ofText_joined (isStep_of_liesBelow rooted below)
    (encode_text_of_liesBelow rooted below wellFormed)
  have otherSteps := FilePath.components_ofText_joined (isStep_of_liesBelow rooted otherBelow)
    (encode_text_of_liesBelow rooted otherBelow otherWellFormed)
  rw [same, otherSteps] at steps
  rw [below.2, otherBelow.2, steps]

/-- A file is outside the root exactly if no steps lead from the root to it. -/
theorem not_prefix_iff (names : other.NamesFile) :
    ¬root.components <+: other.decodedPath.components ↔ ∀ rest, ¬other.LiesBelow root rest :=
  ⟨fun apart rest below => apart ⟨rest, below.2.symm⟩,
    fun apart ⟨rest, whole⟩ => apart rest ⟨names.isLocal, whole.symm⟩⟩

/-- A file below the root that is taken for one outside of it goes by the same relative path. -/
theorem relativePath_eq_of_takenFor (ownNames : own.NamesFile) (otherNames : other.NamesFile)
    (taken : Url.TakenFor root own other) :
    relativePath (some root) own = relativePath (some root) other := by
  obtain ⟨rest, whole, apart, spelled⟩ := taken
  rw [relativePath_of_liesBelow ⟨ownNames.isLocal, whole⟩,
    relativePath_of_not_liesBelow ((not_prefix_iff otherNames).mp apart), spelled]

/-- Two files have the same relative path exactly if one of them is taken for the other. -/
theorem relativePath_eq_iff (rooted : root.isRooted = true) (ownNames : own.NamesFile)
    (otherNames : other.NamesFile)
    (different : own.decodedPath.components ≠ other.decodedPath.components) :
    relativePath (some root) own = relativePath (some root) other ↔
      Url.TakenFor root own other ∨ Url.TakenFor root other own := by
  constructor
  · intro same
    rcases relativePath_cases root own with ⟨rest, below, known⟩ | ⟨apart, known⟩ <;>
      rcases relativePath_cases root other with
        ⟨others, otherBelow, otherKnown⟩ | ⟨otherApart, otherKnown⟩ <;>
      rw [known, otherKnown] at same
    · exact absurd (components_eq_of_both_below rooted ownNames otherNames below otherBelow same)
        different
    · exact .inl ⟨rest, below.2, (not_prefix_iff otherNames).mpr otherApart, same⟩
    · exact .inr ⟨others, otherBelow.2, (not_prefix_iff ownNames).mpr apart, same.symm⟩
    · -- Outside the root both are known by what their URLs spell, and that tells the components.
      refine absurd ?_ different
      rw [Url.components_of_bare ownNames.isLocal, Url.components_of_bare otherNames.isLocal, same]
  · rintro (taken | taken)
    · exact relativePath_eq_of_takenFor ownNames otherNames taken
    · exact (relativePath_eq_of_takenFor otherNames ownNames taken).symm

end TwoFiles

/-! ## What is learnt of other files -/

namespace LanguageServer

open Transition

variable {root : FilePath} {file : Url} {path : String}

/-- The workspace keeps its root unless it is opened anew. -/
theorem root_happen {move : Move} (kept : ∀ root, move ≠ .openWorkspace root)
    (server : LanguageServer) : (happen move server).1.root = server.root := by
  have prepared : (move.prepare server).root = server.root := by
    cases move with
    | openWorkspace root => exact absurd rfl (kept root)
    | reconfigure config tokens =>
        let configured := configure config tokens server
        obtain ⟨debouncer, left⟩ := foldl_waitFor
          ((configured.documents.snapshots configured.root).map Document.uri) configured
        exact (congrArg LanguageServer.root left :)
    | changeDocument changed version contents =>
        rw [Move.prepare, edit]
        split <;> rfl
    | _ => rfl
  cases fires : move.fires server with
  | true =>
      rw [happen_of_fires server fires]
      exact (still_each_beginPass _ _).root.trans prepared
  | false => exact (still_of_not_fires server fires).root.trans prepared

/-- The root stays as long as no other workspace is opened. -/
theorem root_run {moves : List Move} (kept : ∀ root, .openWorkspace root ∉ moves)
    (server : LanguageServer) : (run moves server).1.root = server.root := by
  induction moves generalizing server with
  | nil => rfl
  | cons move rest ih =>
      have first := root_happen (fun root same => kept root (same ▸ List.mem_cons_self)) server
      rw [run, each_cons, andThen_apply, ← run]
      exact (ih (fun root member => kept root (List.mem_cons_of_mem _ member)) _).trans first

/-- A server whose workspace has just been opened. -/
def opened (root : FilePath) : LanguageServer :=
  openWorkspace (some root) initial

/-- A server whose workspace has just been opened agrees with itself, under any path that the file
does not go by. -/
theorem agree_opened (apart : relativePath (some root) file ≠ path) :
    Agree file path (opened root) (opened root) where
  cache := .refl file _
  history _ _ := rfl
  apart := apart
  passesApart := List.forall_mem_nil _
  root := rfl
  binding := rfl
  engine := rfl
  documents := rfl
  debouncer := rfl
  passes := rfl
  nextPass := rfl
  fetches := rfl
  nextFetch := rfl

/-- A server agrees with itself on a file after it has learnt something under another path. -/
theorem Agree.learn {server : LanguageServer} (agree : Agree file path server server)
    (answer : Option (List ServerIssue)) :
    Agree file path server (LanguageServer.learn path answer server) := by
  cases answer with
  | none => exact agree
  | some issues =>
      exact { agree with history := fun other different =>
        (History.get_update_of_ne _ issues different).symm }

/-- What is learnt under a path makes no difference to a file with another one. -/
theorem run_learn (apart : relativePath (some root) file ≠ path) {before later : List Move}
    (kept : ∀ root, .openWorkspace root ∉ before ++ later) (answer : Option (List ServerIssue)) :
    let server := (run before (opened root)).1
    (run later (learn path answer server)).1.cache.current file =
        (run later server).1.cache.current file ∧
      (run later (learn path answer server)).2.filter (Effect.concerns file) =
        (run later server).2.filter (Effect.concerns file) := by
  intro server
  have early : ∀ root, .openWorkspace root ∉ before :=
    fun root member => kept root (List.mem_append_left _ member)
  have late : ∀ root, .openWorkspace root ∉ later :=
    fun root member => kept root (List.mem_append_right _ member)
  have agree := (concurs_run early _ _ (agree_opened apart)).1
  obtain ⟨after, told⟩ := concurs_run late _ _ (agree.learn answer)
  exact ⟨after.cache.current.symm, told.symm⟩

/-- **Data of one file and another.** Two files without a host, with well-formed and different
paths, have the same relative path only if the steps from the root to one of them spell the path of
the URL of the other, which is outside the root. With different relative paths they are asked for
under different addresses; and while both are open, what is learnt under the path of one makes no
difference to the issues of the other, at any later time: neither to the server keys and resolutions
that these are given, nor to anything that is told of them. -/
theorem server_data_stays_with_file (rooted : root.isRooted = true) {own other : Url}
    (ownNames : own.NamesFile) (otherNames : other.NamesFile)
    (different : own.decodedPath.components ≠ other.decodedPath.components) :
    (relativePath (some root) own = relativePath (some root) other ↔
        Url.TakenFor root own other ∨ Url.TakenFor root other own) ∧
      (relativePath (some root) own ≠ relativePath (some root) other →
        (∀ (server : Binding) (endpoint : Endpoint), server.serverUrl.IsBase →
          PageRequest.pageUrl server endpoint (relativePath (some root) own) ≠
            PageRequest.pageUrl server endpoint (relativePath (some root) other)) ∧
        ∀ before later : List Move, (∀ root, .openWorkspace root ∉ before ++ later) →
          let server := (run before (opened root)).1
          ∀ ownDocument otherDocument : Document,
            server.document? own = some ownDocument →
            server.document? other = some otherDocument →
            ownDocument.relativePath = relativePath (some root) own ∧
              otherDocument.relativePath = relativePath (some root) other ∧
              ∀ answer : Option (List ServerIssue),
                let learnt := learn otherDocument.relativePath answer server
                (run later learnt).1.cache.current own = (run later server).1.cache.current own ∧
                  (run later learnt).2.filter (Effect.concerns own) =
                    (run later server).2.filter (Effect.concerns own)) := by
  refine ⟨relativePath_eq_iff rooted ownNames otherNames different, fun apart => ⟨?_, ?_⟩⟩
  · exact fun server endpoint isBase same => apart (Binding.pageUrl_injective isBase endpoint same)
  · intro before later kept server ownDocument otherDocument ownOpen otherOpen
    have keeps : server.root = some root :=
      root_run (fun root member => kept root (List.mem_append_left _ member)) (opened root)
    have known : ∀ {uri : Url} {document : Document}, server.document? uri = some document →
        document.relativePath = relativePath (some root) uri := by
      intro uri document found
      obtain ⟨stored, _, rfl⟩ := Option.map_eq_some_iff.mp found
      rw [DocumentStore.documentOf, keeps]
    refine ⟨known ownOpen, known otherOpen, fun answer => ?_⟩
    rw [known otherOpen]
    exact run_learn apart kept answer

/-- The root of a workspace. -/
def project : FilePath :=
  .ofText "/work/project"

/-- The URL of a file by the names on the way to it. -/
def fileAt (names : List String) : Url where
  scheme := "file"
  authority := some (Url.fileAuthority none)
  path := .rooted names
  query := none
  fragment := none

/-- An issue on the first line of a file. -/
def firstLineIssue : Issue where
  ruleKey := "r:1"
  message := "m"
  severity := .major
  range := { startLine := 1, startColumn := 0, endLine := 1, endColumn := 1 }
  flows := []

/-- What a server knows of such an issue, which somebody has resolved. -/
def resolvedThere : ServerIssue where
  key := "K1"
  ruleKey := "r:1"
  message := "m"
  line := some 1
  resolved := true

/-- Two files are opened in the editor, and the second is analyzed with a binding. -/
def openTwo (first second : Url) : List Move :=
  [.openText first 1 "", .openText second 1 "", .bind (some Binding.crowded), .embedEngine,
    .analyze second]

/-- What is learnt of one file below the root makes no difference to the file beside it. -/
theorem neighbours_kept_apart :
    let own := fileAt ["work", "project", "a.rs"]
    let beside := fileAt ["work", "project", "b.rs"]
    project.isRooted = true ∧ own.NamesFile ∧ beside.NamesFile ∧
      own.decodedPath.components ≠ beside.decodedPath.components ∧
      relativePath (some project) own = "a.rs" ∧ relativePath (some project) beside = "b.rs" ∧
      let server := (run (openTwo beside own) (opened project)).1
      let learnt := learn (relativePath (some project) beside) (some [resolvedThere]) server
      (run [.reportIssue 0 firstLineIssue] learnt).1.cache.current own =
        (run [.reportIssue 0 firstLineIssue] server).1.cache.current own := by
  intro own beside
  have rooted : project.isRooted = true := rfl
  have ownNames : own.NamesFile :=
    ⟨⟨"file:///work/project/a.rs", rfl⟩, rfl, rfl, "/work/project/a.rs", by cbv⟩
  have besideNames : beside.NamesFile :=
    ⟨⟨"file:///work/project/b.rs", rfl⟩, rfl, rfl, "/work/project/b.rs", by cbv⟩
  have different : own.decodedPath.components ≠ beside.decodedPath.components := by
    cbv
    decide
  have ownPath : relativePath (some project) own = "a.rs" := by cbv
  have besidePath : relativePath (some project) beside = "b.rs" := by cbv
  have apart : relativePath (some project) own ≠ relativePath (some project) beside := by
    rw [ownPath, besidePath]
    decide
  obtain ⟨_, keptApart⟩ := server_data_stays_with_file rooted ownNames besideNames different
  obtain ⟨_, named, learns⟩ := (keptApart apart).2 (openTwo beside own)
    [.reportIssue 0 firstLineIssue] (by simp [openTwo]) _ _ rfl rfl
  rw [named] at learns
  exact ⟨rooted, ownNames, besideNames, different, ownPath, besidePath, (learns _).1⟩

/-- The steps to a file below the root may spell the path of a file outside it: the server key and
the resolution that are known of the one are given to the issue of the other. -/
theorem outer_file_gets_inner_key :
    let inner := fileAt ["work", "project", "a.rs"]
    let outer := fileAt ["a.rs"]
    project.isRooted = true ∧ inner.NamesFile ∧ outer.NamesFile ∧
      inner.decodedPath.components ≠ outer.decodedPath.components ∧
      relativePath (some project) inner = relativePath (some project) outer ∧
      let server := (run (openTwo inner outer) (opened project)).1
      let learnt := learn (relativePath (some project) inner) (some [resolvedThere]) server
      (server.document? inner).isSome = true ∧ (server.document? outer).isSome = true ∧
        ((run [.reportIssue 0 firstLineIssue] server).1.cache.issue? outer ⟨1⟩).map
            LocalIssue.status = some { key := none, resolved := false } ∧
        ((run [.reportIssue 0 firstLineIssue] learnt).1.cache.issue? outer ⟨1⟩).map
            LocalIssue.status = some { key := some "K1", resolved := true } := by
  have innerNames : (fileAt ["work", "project", "a.rs"]).NamesFile :=
    ⟨⟨"file:///work/project/a.rs", rfl⟩, rfl, rfl, "/work/project/a.rs", by cbv⟩
  have outerNames : (fileAt ["a.rs"]).NamesFile :=
    ⟨⟨"file:///a.rs", rfl⟩, rfl, rfl, "/a.rs", by cbv⟩
  have different : (fileAt ["work", "project", "a.rs"]).decodedPath.components ≠
      (fileAt ["a.rs"]).decodedPath.components := by
    cbv
    decide
  exact ⟨rfl, innerNames, outerNames, different, by cbv, by cbv, by cbv, by cbv, by cbv⟩

end LanguageServer
end IssueRelay
