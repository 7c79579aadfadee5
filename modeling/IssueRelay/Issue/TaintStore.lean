import IssueRelay.Dictionary
import IssueRelay.Issue.Basic
import IssueRelay.Url.Basic

/-!
# Taint issues by file

What the server said last about each file, in the server's order and without the issues that are
resolved. A file without issues has no entry.
-/

namespace IssueRelay

/-- The unresolved taint issues of each file. -/
structure TaintStore where
  issues : Dictionary Url (List TaintIssue)

namespace TaintStore

/-- No taint issues. -/
def empty : TaintStore :=
  ⟨∅⟩

/-- The taint issues of a file. -/
def get (store : TaintStore) (file : Url) : List TaintIssue :=
  (store.issues.get? file).getD []

/-- Forgets the taint issues of a file. -/
def remove (store : TaintStore) (file : Url) : TaintStore :=
  ⟨store.issues.erase file⟩

/-- Replaces the taint issues of a file by the unresolved ones among those given. -/
def reload (store : TaintStore) (file : Url) (issues : List TaintIssue) : TaintStore :=
  match issues.filter (!·.resolved) with
  | [] => store.remove file
  | unresolved => ⟨store.issues.insert file unresolved⟩

/-- A file has no taint issues once they have been removed. -/
@[simp] theorem get_remove_self (store : TaintStore) (file : Url) :
    (store.remove file).get file = [] := by
  simp [get, remove]

/-- Removing the taint issues of one file leaves those of all others. -/
theorem get_remove_of_ne (store : TaintStore) {file other : Url} (different : other ≠ file) :
    (store.remove file).get other = store.get other := by
  simp [get, remove, Dictionary.get?_erase_of_ne _ different]

/-- After a reload a file has the unresolved issues of those given, in their order. -/
@[simp] theorem get_reload_self (store : TaintStore) (file : Url) (issues : List TaintIssue) :
    (store.reload file issues).get file = issues.filter (!·.resolved) := by
  unfold reload
  split
  · simp_all
  · simp [get]

/-- Reloading one file leaves the taint issues of all others. -/
theorem get_reload_of_ne (store : TaintStore) {file other : Url} (issues : List TaintIssue)
    (different : other ≠ file) : (store.reload file issues).get other = store.get other := by
  unfold reload
  split
  · exact get_remove_of_ne store different
  · simp [get, Dictionary.get?_insert_of_ne _ _ different]

end TaintStore
end IssueRelay
