import IssueRelay.Dictionary
import IssueRelay.Document.Basic

/-!
# Open documents

The texts that an editor has open. An update that is older than the stored version is refused and
changes nothing; an update of a file that is not open opens it.
-/

namespace IssueRelay

/-- A text and its version. -/
structure OpenText where
  version : Int32
  content : String
  deriving DecidableEq, Repr

/-- The open texts by file. -/
structure DocumentStore where
  texts : Dictionary Url OpenText

namespace DocumentStore

/-- No open texts. -/
def empty : DocumentStore :=
  ⟨∅⟩

/-- Opens a file, whatever was known of it. -/
def openText (store : DocumentStore) (uri : Url) (version : Int32) (content : String) :
    DocumentStore :=
  ⟨store.texts.insert uri { version, content }⟩

/-- The store with a newer text of a file; none if the text is older than the stored one. -/
def update? (store : DocumentStore) (uri : Url) (version : Int32) (content : String) :
    Option DocumentStore :=
  match store.texts.get? uri with
  | some stored =>
    if version < stored.version then none else some (store.openText uri version content)
  | none => some (store.openText uri version content)

/-- Closes a file. -/
def close (store : DocumentStore) (uri : Url) : DocumentStore :=
  ⟨store.texts.erase uri⟩

/-- Whether a file is open. -/
def contains (store : DocumentStore) (uri : Url) : Bool :=
  store.texts.contains uri

/-- An open text as a document of the workspace. -/
def documentOf (root : Option FilePath) (uri : Url) (stored : OpenText) : Document where
  uri := uri
  version := stored.version
  relativePath := relativePath root uri
  content := stored.content

/-- The document of an open file. -/
def snapshot? (store : DocumentStore) (root : Option FilePath) (uri : Url) : Option Document :=
  (store.texts.get? uri).map (documentOf root uri)

/-- The documents of all open files, in the order of the texts of their URLs. -/
def snapshots (store : DocumentStore) (root : Option FilePath) : List Document :=
  (store.texts.entries.map fun (uri, stored) => documentOf root uri stored).mergeSort
    fun left right => left.uri.text ≤ right.uri.text

/-- An opened file has the text it was opened with. -/
@[simp] theorem snapshot?_openText_self (store : DocumentStore) (root : Option FilePath)
    (uri : Url) (version : Int32) (content : String) :
    (store.openText uri version content).snapshot? root uri =
      some (documentOf root uri { version, content }) := by
  simp [snapshot?, openText]

/-- Opening a file leaves the others as they are. -/
theorem snapshot?_openText_of_ne (store : DocumentStore) (root : Option FilePath)
    {uri other : Url} (version : Int32) (content : String) (different : other ≠ uri) :
    (store.openText uri version content).snapshot? root other = store.snapshot? root other := by
  simp [snapshot?, openText, Dictionary.get?_insert_of_ne _ _ different]

/-- A closed file has no text. -/
@[simp] theorem snapshot?_close_self (store : DocumentStore) (root : Option FilePath) (uri : Url) :
    (store.close uri).snapshot? root uri = none := by
  simp [snapshot?, close]

/-- Closing a file leaves the others as they are. -/
theorem snapshot?_close_of_ne (store : DocumentStore) (root : Option FilePath) {uri other : Url}
    (different : other ≠ uri) :
    (store.close uri).snapshot? root other = store.snapshot? root other := by
  simp [snapshot?, close, Dictionary.get?_erase_of_ne _ different]

/-- The open files are those that have a text. -/
theorem contains_eq_isSome_snapshot? (store : DocumentStore) (root : Option FilePath) (uri : Url) :
    store.contains uri = (store.snapshot? root uri).isSome := by
  simp [contains, Dictionary.contains, snapshot?]

/-- Opening a file opens no other. -/
theorem contains_openText (store : DocumentStore) (uri : Url) (version : Int32) (content : String)
    (other : Url) :
    (store.openText uri version content).contains other =
      (decide (other = uri) || store.contains other) := by
  by_cases same : other = uri
  · simp [contains, Dictionary.contains, openText, same]
  · simp [contains, Dictionary.contains, openText, Dictionary.get?_insert_of_ne _ _ same, same]

/-- Closing a file closes no other. -/
theorem contains_close (store : DocumentStore) (uri other : Url) :
    (store.close uri).contains other = (decide (other ≠ uri) && store.contains other) := by
  by_cases same : other = uri
  · simp [contains, Dictionary.contains, close, same]
  · simp [contains, Dictionary.contains, close, Dictionary.get?_erase_of_ne _ same, same]

/-- A document of a file is there only while the file is open. -/
theorem contains_of_snapshot? {store : DocumentStore} {root : Option FilePath} {uri : Url}
    {document : Document} (found : store.snapshot? root uri = some document) :
    store.contains document.uri = true := by
  obtain ⟨stored, present, rfl⟩ := Option.map_eq_some_iff.mp found
  simp [contains, Dictionary.contains, documentOf, present]

/-- An update is refused exactly when its version is below the stored one. -/
theorem update?_eq_none_iff (store : DocumentStore) (uri : Url) (version : Int32)
    (content : String) :
    store.update? uri version content = none ↔
      ∃ stored, store.texts.get? uri = some stored ∧ version < stored.version := by
  unfold update?
  cases store.texts.get? uri with
  | none => simp
  | some stored => by_cases older : version < stored.version <;> simp [older]

/-- An update that is accepted opens the file with the text given. -/
theorem eq_openText_of_update? {store updated : DocumentStore} {uri : Url} {version : Int32}
    {content : String} (accepted : store.update? uri version content = some updated) :
    updated = store.openText uri version content := by
  unfold update? at accepted
  split at accepted
  · split at accepted
    · cases accepted
    · exact (Option.some.inj accepted).symm
  · exact (Option.some.inj accepted).symm

end DocumentStore
end IssueRelay
