import IssueRelay.Proofs.Url.FilePath
import IssueRelay.Url.Parser

/-!
# URLs of files as they are read

Whatever text spells it, a URL of a file has segments, and never this machine as its host: the name
of this machine is read as no host. So a URL that was read names a local file exactly when it has no
host (`IssueRelay.Url.isLocal_iff_of_parse`).
-/

namespace IssueRelay.Url

/-- A URL of a file in the form that reading gives it. -/
structure IsFile (url : Url) : Prop where
  segments : ∃ first rest, url.path = .rooted (first :: rest)
  host : url.host ≠ some (.domain "localhost")

/-- Without its empty first segment, a path still has segments. -/
theorem dropEmptyHead_ne_nil (segments : List String) : dropEmptyHead segments ≠ [] := by
  rw [dropEmptyHead]
  split
  · exact List.cons_ne_nil _ _
  · assumption

/-- The letter of a drive does away with the host. -/
theorem host_build (host : Option Host) (rest : List Char) :
    (readFile.build host rest).host = none ∨ (readFile.build host rest).host = host := by
  cases drive : (readSegments "file" [] (splitTail rest).1).2 with
  | true =>
      exact .inl (congrArg (fun (saw : Bool) => if saw then none else host) drive)
  | false =>
      exact .inr (congrArg (fun (saw : Bool) => if saw then none else host) drive)

/-- What is built of a host and a path is the URL of a file, unless the host is the local one by
name. -/
theorem isFile_build {host : Option Host} (foreign : host ≠ some (.domain "localhost"))
    (rest : List Char) : (readFile.build host rest).IsFile where
  segments := by
    obtain ⟨first, others, kept⟩ :=
      List.exists_cons_of_ne_nil (dropEmptyHead_ne_nil
        (PathReading.readAll true ⟨[], false⟩ (splitSegments true (splitTail rest).1)).closed)
    exact ⟨first, others, congrArg Path.rooted kept⟩
  host := by
    rcases host_build host rest with none | same
    · rw [none]
      nofun
    · rwa [same]

/-- The name of this machine is read as no host. -/
theorem readFileHost_ne_localhost {written : List Char} {host : Option Host}
    (read : readFileHost written = .ok host) : host ≠ some (.domain "localhost") := by
  rw [readFileHost] at read
  split at read
  · cases read
    nofun
  · cases web : Host.ofWeb written with
    | error error =>
        rw [web] at read
        cases read
    | ok found =>
        rw [web] at read
        cases read
        split
        · nofun
        · rename_i foreign
          exact fun same => foreign (Option.some.inj same)

/-- What is read after the scheme of files is the URL of a file. -/
theorem isFile_of_readFile {rest : List Char} {url : Url} (read : readFile rest = .ok url) :
    url.IsFile := by
  have hostless : (none : Option Host) ≠ some (.domain "localhost") := nofun
  rw [readFile.eq_def] at read
  split at read
  · rename_i first second after
    split at read
    · dsimp only at read
      split at read
      · cases read
        exact isFile_build hostless after
      · cases host : readFileHost (after.take (authorityLength true after)) with
        | error error =>
            rw [host] at read
            cases read
        | ok found =>
            rw [host] at read
            cases read
            exact isFile_build (readFileHost_ne_localhost host) _
    · split at read
      all_goals
        cases read
        exact isFile_build hostless _
  all_goals
    cases read
    exact isFile_build hostless _

/-- A URL with an authority keeps the scheme that it is read with. -/
theorem scheme_of_readWithAuthority {scheme : String} {rest : List Char} {url : Url}
    (read : readWithAuthority scheme rest = .ok url) : url.scheme = scheme := by
  rw [readWithAuthority] at read
  cases authority : readAuthority scheme rest with
  | error error =>
      rw [authority] at read
      cases read
  | ok found =>
      rw [authority] at read
      cases read
      rfl

/-- A text that spells a URL of a file is read as such, whatever else it holds. -/
theorem isFile_of_parse {text : String} {url : Url} (read : parse text = .ok url)
    (file : url.scheme = "file") : url.IsFile := by
  rw [parse] at read
  dsimp only at read
  split at read
  · rename_i scheme rest _
    split_ifs at read with isFile special
    · exact isFile_of_readFile read
    · exact absurd ((scheme_of_readWithAuthority read).symm.trans file) isFile
    · split at read
      · exact absurd ((scheme_of_readWithAuthority read).symm.trans file) isFile
      all_goals
        cases read
        exact absurd file isFile
  · cases read

/-- A URL of a file names a local file exactly when it has no host. -/
theorem isLocal_iff_of_parse {text : String} {url : Url} (read : parse text = .ok url)
    (file : url.scheme = "file") : url.IsLocal ↔ url.host = none := by
  have isFile := isFile_of_parse read file
  constructor
  · rintro ⟨_, hostless | machine⟩
    · exact hostless
    · exact absurd machine isFile.host
  · exact fun hostless => ⟨isFile.segments, .inl hostless⟩

end IssueRelay.Url
