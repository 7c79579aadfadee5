import IssueRelay.Document.Store
import IssueRelay.Proofs.Dictionary
import IssueRelay.Transition
import Mathlib.Data.List.Induction

/-!
# Open documents after any calls

An editor opens, updates and closes files, and analyses take documents, in any order. What is stored
of a file depends on the calls on this file alone. These are cut at the last opening, or at the
first update of a file that was not open: of the texts given since then the store holds the last one
whose version was not below any before it, and that version is the greatest of them
(`IssueRelay.DocumentStore.keeps_newest_accepted`). A document that has been taken stays what it
was.
-/

namespace IssueRelay

/-! ## Texts one after the other -/

namespace OpenText

/-- The last text of a list whose version is not below that of any before it. -/
def IsNewest (given : List OpenText) (newest : OpenText) : Prop :=
  ∃ earlier later, given = earlier ++ newest :: later ∧
    (∀ text ∈ earlier, text.version ≤ newest.version) ∧
      ∀ between outdated rest, later = between ++ outdated :: rest →
        ∃ text ∈ earlier ++ newest :: between, outdated.version < text.version

/-- The stored text after a newer one has been offered. -/
def offered (stored next : OpenText) : OpenText :=
  if next.version < stored.version then stored else next

/-- The version that is kept is the greatest. -/
theorem version_le_foldl_offered (text : OpenText) (texts : List OpenText) :
    ∀ given ∈ text :: texts, given.version ≤ (texts.foldl offered text).version := by
  induction texts using List.reverseRecOn with
  | nil => simp
  | append_singleton texts next ih =>
      intro given member
      rw [List.foldl_append, List.foldl_cons, List.foldl_nil, offered]
      rw [← List.cons_append, List.mem_append, List.mem_singleton] at member
      split
      · rename_i older
        rcases member with earlier | rfl
        · exact ih given earlier
        · exact Int32.le_of_lt older
      · rename_i newer
        rcases member with earlier | rfl
        · exact Int32.le_trans (ih given earlier) (Int32.not_lt.mp newer)
        · exact Int32.le_refl _

/-- One more text is the newest, unless it is below the newest so far. -/
theorem IsNewest.next {given : List OpenText} {newest : OpenText}
    (isNewest : IsNewest given newest)
    (greatest : ∀ text ∈ given, text.version ≤ newest.version) (next : OpenText) :
    IsNewest (given ++ [next]) (newest.offered next) := by
  obtain ⟨earlier, later, rfl, notBelow, outdated⟩ := isNewest
  rw [offered]
  split
  · rename_i older
    refine ⟨earlier, later ++ [next], by simp, notBelow, fun between text rest cut => ?_⟩
    rcases List.eq_nil_or_concat rest with rfl | ⟨rest, last, rfl⟩
    · obtain ⟨rfl, same⟩ := List.append_inj' cut rfl
      cases same
      exact ⟨newest, by simp, older⟩
    · rw [List.concat_eq_append, ← List.cons_append, ← List.append_assoc] at cut
      exact outdated between text rest (List.append_inj' cut rfl).1
  · rename_i newer
    refine ⟨earlier ++ newest :: later, [], by simp, fun text member => ?_, by simp⟩
    exact Int32.le_trans (greatest text member) (Int32.not_lt.mp newer)

/-- What is kept is the newest. -/
theorem isNewest_foldl_offered (text : OpenText) (texts : List OpenText) :
    IsNewest (text :: texts) (texts.foldl offered text) := by
  induction texts using List.reverseRecOn with
  | nil => exact ⟨[], [], rfl, by simp, by simp⟩
  | append_singleton texts next ih =>
      rw [List.foldl_append]
      exact ih.next (version_le_foldl_offered text texts) next

end OpenText

namespace DocumentStore

/-! ## Calls -/

/-- What is asked of the store: by an editor, or by an analysis that takes documents. -/
inductive Call
  | openText (uri : Url) (version : Int32) (content : String)
  | update (uri : Url) (version : Int32) (content : String)
  | close (uri : Url)
  | take (root : Option FilePath) (uri : Url)
  | takeAll (root : Option FilePath)
  deriving DecidableEq

/-- What is handed out: whether an update has been accepted, or documents. -/
inductive Reply
  | verdict (accepted : Bool)
  | documents (taken : List Document)
  deriving DecidableEq

/-- What a call does. A refused update leaves the store as it is. -/
def perform : Call → Transition DocumentStore Reply
  | .openText uri version content => .change fun store => store.openText uri version content
  | .update uri version content => fun store =>
    match store.update? uri version content with
    | some updated => (updated, [.verdict true])
    | none => (store, [.verdict false])
  | .close uri => .change fun store => store.close uri
  | .take root uri => fun store => (store, [.documents (store.snapshot? root uri).toList])
  | .takeAll root => fun store => (store, [.documents (store.snapshots root)])

/-- What a sequence of calls does. -/
def run : List Call → Transition DocumentStore Reply :=
  Transition.each perform

namespace Call

/-- Whether a call opens, updates or closes a file. -/
def concerns (uri : Url) : Call → Bool
  | .openText other _ _ | .update other _ _ | .close other => other = uri
  | .take .. | .takeAll _ => false

/-- Whether a call opens a file. -/
def isOpening : Call → Bool
  | .openText .. => true
  | _ => false

/-- Whether a call closes a file. -/
def isClosing : Call → Bool
  | .close _ => true
  | _ => false

/-- The text that an update gives. -/
def updated? : Call → Option OpenText
  | .update _ version content => some { version, content }
  | _ => none

/-- The text that an opening or an update gives. -/
def given? : Call → Option OpenText
  | .openText _ version content | .update _ version content => some { version, content }
  | _ => none

end Call

/-- The calls that open, update or close a file, in order. -/
def callsOn (uri : Url) (calls : List Call) : List Call :=
  calls.filter (Call.concerns uri)

/-- The texts that a file was given since it was opened last, by the calls on it. The first of them
comes from an opening, or from an update of a file that had not been named before or was closed; all
others come from updates. -/
def GivenSinceOpened (calls : List Call) (given : List OpenText) : Prop :=
  ∃ before first updates text texts, calls = before ++ first :: updates ∧
    (first.isOpening ∨ ∀ call, before.getLast? = some call → call.isClosing) ∧
    first.given? = some text ∧ updates.map Call.updated? = texts.map some ∧ given = text :: texts

/-! ## What is stored of one file -/

/-- What is stored of a file after a call on it. -/
def Call.storedAfter : Option OpenText → Call → Option OpenText
  | _, .openText _ version content => some { version, content }
  | none, .update _ version content => some { version, content }
  | some stored, .update _ version content => some (stored.offered { version, content })
  | _, .close _ => none
  | stored, .take .. | stored, .takeAll _ => stored

/-- An update is refused if its version is below the stored one, and otherwise stored. -/
theorem perform_update (store : DocumentStore) (uri : Url) (version : Int32) (content : String) :
    (∃ stored, store.texts.get? uri = some stored ∧ version < stored.version ∧
        perform (.update uri version content) store = (store, [.verdict false])) ∨
      ((∀ stored, store.texts.get? uri = some stored → ¬ version < stored.version) ∧
        perform (.update uri version content) store =
          (store.openText uri version content, [.verdict true])) := by
  cases outcome : store.update? uri version content with
  | none =>
      obtain ⟨stored, found, older⟩ := (update?_eq_none_iff ..).mp outcome
      exact .inl ⟨stored, found, older, by simp only [perform, outcome]⟩
  | some updated =>
      refine .inr ⟨fun stored found older => ?_, ?_⟩
      · rw [(update?_eq_none_iff ..).mpr ⟨stored, found, older⟩] at outcome
        cases outcome
      · simp only [perform, outcome, eq_openText_of_update? outcome]

/-- An update is refused exactly if its version is below that of the document. -/
theorem refused_iff (store : DocumentStore) (root : Option FilePath) (uri : Url) (version : Int32)
    (content : String) :
    (perform (.update uri version content) store).2 = [.verdict false] ↔
      ∃ document, store.snapshot? root uri = some document ∧ version < document.version := by
  rcases perform_update store uri version content with
    ⟨stored, present, older, refused⟩ | ⟨newer, accepted⟩
  · rw [refused]
    refine ⟨fun _ => ⟨documentOf root uri stored, ?_, older⟩, fun _ => rfl⟩
    rw [snapshot?, present, Option.map_some]
  · have differ : [Reply.verdict true] ≠ [.verdict false] := by decide
    rw [accepted]
    refine ⟨fun refused => absurd refused differ, ?_⟩
    rintro ⟨document, snapshot, older⟩
    obtain ⟨stored, present, rfl⟩ := Option.map_eq_some_iff.mp snapshot
    exact absurd older (newer stored present)

/-- An update that is refused changes nothing. -/
theorem refused_or_accepted (store : DocumentStore) (uri : Url) (version : Int32)
    (content : String) :
    perform (.update uri version content) store = (store, [.verdict false]) ∨
      (perform (.update uri version content) store).2 = [.verdict true] := by
  rcases perform_update store uri version content with ⟨_, _, _, refused⟩ | ⟨_, accepted⟩
  · exact .inl refused
  · exact .inr (congrArg Prod.snd accepted)

/-- Opening a file stores its text and leaves the others. -/
theorem get?_openText (store : DocumentStore) (uri other : Url) (version : Int32)
    (content : String) :
    (store.openText other version content).texts.get? uri =
      if other = uri then some { version, content } else store.texts.get? uri := by
  by_cases same : other = uri
  · simp [openText, same]
  · simp [openText, same, Dictionary.get?_insert_of_ne _ _ (Ne.symm same)]

/-- Closing a file forgets its text and no other. -/
theorem get?_close (store : DocumentStore) (uri other : Url) :
    (store.close other).texts.get? uri = if other = uri then none else store.texts.get? uri := by
  by_cases same : other = uri
  · simp [close, same]
  · simp [close, same, Dictionary.get?_erase_of_ne _ (Ne.symm same)]

/-- A call changes what is stored of the file that it is on, and of no other. -/
theorem get?_perform (call : Call) (store : DocumentStore) (uri : Url) :
    (perform call store).1.texts.get? uri =
      if call.concerns uri then call.storedAfter (store.texts.get? uri)
      else store.texts.get? uri := by
  cases call with
  | openText other version content =>
      simp [perform, get?_openText, Call.concerns, Call.storedAfter]
  | update other version content =>
      rcases perform_update store other version content with
        ⟨stored, found, older, refused⟩ | ⟨newer, accepted⟩
      · rw [refused]
        by_cases same : other = uri
        · subst same
          simp [Call.concerns, found, Call.storedAfter, OpenText.offered, older]
        · simp [Call.concerns, same]
      · rw [accepted, get?_openText]
        by_cases same : other = uri
        · subst same
          cases found : store.texts.get? other with
          | none => simp [Call.concerns, Call.storedAfter]
          | some stored =>
              simp [Call.concerns, Call.storedAfter, OpenText.offered, newer stored found]
        · simp [Call.concerns, same]
  | close other => simp [perform, get?_close, Call.concerns, Call.storedAfter]
  | take root other => simp [perform, Call.concerns]
  | takeAll root => simp [perform, Call.concerns]

/-- What is stored of a file comes from the calls on it, one after the other. -/
theorem get?_run (calls : List Call) (store : DocumentStore) (uri : Url) :
    (run calls store).1.texts.get? uri =
      (callsOn uri calls).foldl Call.storedAfter (store.texts.get? uri) := by
  induction calls generalizing store with
  | nil => rfl
  | cons call rest ih =>
      rw [run, Transition.each_cons, Transition.andThen_apply]
      refine (ih _).trans ?_
      rw [get?_perform, callsOn, callsOn, List.filter_cons]
      by_cases concerned : call.concerns uri
      · simp [concerned]
      · simp [concerned]

/-- A file is open after a call on it unless the call closes it. -/
theorem isSome_storedAfter {call : Call} {uri : Url} (concerned : call.concerns uri = true)
    (stored : Option OpenText) : (call.storedAfter stored).isSome = !call.isClosing := by
  cases call with
  | openText | close => rfl
  | update => cases stored <;> rfl
  | take | takeAll => cases concerned

/-- After calls on a file, a text is stored exactly if there was a call and the last one did not
close it. -/
theorem isSome_foldl_storedAfter {uri : Url} {calls : List Call}
    (concerned : ∀ call ∈ calls, call.concerns uri = true) :
    (calls.foldl Call.storedAfter none).isSome = true ↔
      ∃ last, calls.getLast? = some last ∧ last.isClosing = false := by
  rcases List.eq_nil_or_concat calls with rfl | ⟨before, last, rfl⟩
  · simp
  · have own : last.concerns uri = true := concerned last (by simp)
    simp [isSome_storedAfter own]

/-! ## The texts that were given -/

/-- Updates offer their texts one after the other to the one that is stored. -/
theorem foldl_storedAfter_updates {updates : List Call} {texts : List OpenText}
    (given : updates.map Call.updated? = texts.map some) (text : OpenText) :
    updates.foldl Call.storedAfter (some text) = some (texts.foldl OpenText.offered text) := by
  induction updates generalizing text texts with
  | nil =>
      rw [List.map_nil, eq_comm, List.map_eq_nil_iff] at given
      rw [given]
      rfl
  | cons update rest ih =>
      cases texts with
      | nil => cases given
      | cons next others =>
          obtain ⟨first, remaining⟩ := List.cons.inj given
          cases update with
          | update uri version content =>
              cases first
              exact ih remaining _
          | openText | close | take | takeAll => cases first

/-- What is stored comes from the texts given since the file was opened last. -/
theorem foldl_storedAfter_of_given {calls : List Call} {given : List OpenText}
    (since : GivenSinceOpened calls given) :
    ∃ text texts, given = text :: texts ∧
      calls.foldl Call.storedAfter none = some (texts.foldl OpenText.offered text) := by
  obtain ⟨before, first, updates, text, texts, rfl, opens, gives, follow, rfl⟩ := since
  refine ⟨text, texts, rfl, ?_⟩
  have opened : first.storedAfter (before.foldl Call.storedAfter none) = some text := by
    cases first with
    | openText uri version content => exact gives
    | update uri version content =>
        have closed : before.foldl Call.storedAfter none = none := by
          rcases List.eq_nil_or_concat before with rfl | ⟨others, last, rfl⟩
          · rfl
          · have closing : last.isClosing = true := by simpa [Call.isOpening] using opens
            cases last with
            | close => simp [Call.storedAfter]
            | openText | update | take | takeAll => cases closing
        rw [closed]
        exact gives
    | close | take | takeAll => cases gives
  rw [List.foldl_append, List.foldl_cons, opened, foldl_storedAfter_updates follow]

/-- A file that is open has been given texts since it was opened. -/
theorem exists_givenSinceOpened {uri : Url} {calls : List Call}
    (concerned : ∀ call ∈ calls, call.concerns uri = true)
    (isOpen : (calls.foldl Call.storedAfter none).isSome = true) :
    ∃ given, GivenSinceOpened calls given := by
  induction calls using List.reverseRecOn with
  | nil => cases isOpen
  | append_singleton calls last ih =>
      have own : last.concerns uri = true := concerned last (by simp)
      cases last with
      | openText other version content =>
          exact ⟨_, calls, _, [], _, [], rfl, .inl rfl, rfl, rfl, rfl⟩
      | update other version content =>
          have others : ∀ call ∈ calls, call.concerns uri = true := fun call member =>
            concerned call (List.mem_append_left _ member)
          -- An update of an open file goes on with its texts; of any other file, it is the first.
          by_cases already : (calls.foldl Call.storedAfter none).isSome = true
          · obtain ⟨_, before, first, updates, text, texts, rfl, opens, gives, follow, _⟩ :=
              ih others already
            exact ⟨_, before, first, updates ++ [.update other version content], text,
              texts ++ [⟨version, content⟩], by simp, opens, gives,
              by simp [follow, Call.updated?], rfl⟩
          · refine ⟨_, calls, _, [], _, [], rfl, .inr fun call listed => ?_, rfl, rfl, rfl⟩
            by_contra stays
            exact already ((isSome_foldl_storedAfter others).mpr
              ⟨call, listed, Bool.eq_false_iff.mpr stays⟩)
      | close other => simp [Call.storedAfter] at isOpen
      | take | takeAll => cases own

/-! ## Stores after any calls -/

/-- No call stores a file twice. -/
theorem distinct_perform {store : DocumentStore} (distinct : store.texts.Distinct) (call : Call) :
    (perform call store).1.texts.Distinct := by
  cases call with
  | openText uri version content => exact distinct.insert _ _
  | update uri version content =>
      rcases perform_update store uri version content with ⟨_, _, _, refused⟩ | ⟨_, accepted⟩
      · rw [refused]
        exact distinct
      · rw [accepted]
        exact distinct.insert _ _
  | close uri => exact distinct.erase _
  | take | takeAll => exact distinct

/-- No sequence of calls stores a file twice. -/
theorem distinct_run (calls : List Call) {store : DocumentStore} (distinct : store.texts.Distinct) :
    (run calls store).1.texts.Distinct := by
  induction calls generalizing store with
  | nil => exact distinct
  | cons call rest ih => exact ih (distinct_perform distinct call)

/-- All open files are listed, each with the document that is taken of it alone. -/
theorem mem_snapshots {store : DocumentStore} (distinct : store.texts.Distinct)
    (root : Option FilePath) (document : Document) :
    document ∈ store.snapshots root ↔ store.snapshot? root document.uri = some document := by
  rw [snapshots, List.mem_mergeSort, List.mem_map, snapshot?, Option.map_eq_some_iff]
  constructor
  · rintro ⟨⟨uri, stored⟩, member, rfl⟩
    exact ⟨stored, distinct.get?_eq_some_iff.mpr member, rfl⟩
  · rintro ⟨stored, found, same⟩
    exact ⟨(document.uri, stored), Dictionary.mem_entries_of_get? found, same⟩

/-- **The newest accepted text.** After any calls a file is open exactly if the last call on it does
not close it. The store then holds, of the texts given since the file was opened, the last whose
version was not below any before it, and no version among them is greater. An update is refused
exactly if its version is below the stored one; a refused update leaves the whole store as it is.
Calls on other files change nothing, and a document that was taken stays what it was, whatever is
done afterwards. -/
theorem keeps_newest_accepted (calls : List Call) (uri : Url) (root : Option FilePath) :
    let store := (run calls .empty).1
    (store.contains uri = true ↔
        ∃ last, (callsOn uri calls).getLast? = some last ∧ last.isClosing = false) ∧
      (store.contains uri = true → ∃ given, GivenSinceOpened (callsOn uri calls) given) ∧
      (∀ given, GivenSinceOpened (callsOn uri calls) given →
        ∃ newest, OpenText.IsNewest given newest ∧
          (∀ text ∈ given, text.version ≤ newest.version) ∧
          store.snapshot? root uri = some (documentOf root uri newest)) ∧
      (∀ document, document ∈ store.snapshots root ↔
        store.snapshot? root document.uri = some document) ∧
      (∀ version content,
        ((perform (.update uri version content) store).2 = [.verdict false] ↔
          ∃ document, store.snapshot? root uri = some document ∧ version < document.version) ∧
        ((perform (.update uri version content) store).2 = [.verdict false] →
          (perform (.update uri version content) store).1 = store) ∧
        ((perform (.update uri version content) store).2 ≠ [.verdict false] →
          (perform (.update uri version content) store).2 = [.verdict true])) ∧
      (∀ call, call.concerns uri = false →
        (perform call store).1.snapshot? root uri = store.snapshot? root uri ∧
        (perform call store).1.contains uri = store.contains uri) ∧
      ∀ later,
        (run (calls ++ .take root uri :: later) .empty).2 =
          (run calls .empty).2 ++
            .documents (store.snapshot? root uri).toList :: (run later store).2 ∧
        (run (calls ++ .takeAll root :: later) .empty).2 =
          (run calls .empty).2 ++ .documents (store.snapshots root) :: (run later store).2 := by
  intro store
  have concerned : ∀ call ∈ callsOn uri calls, call.concerns uri = true := fun call member =>
    (List.mem_filter.mp member).2
  have found : store.texts.get? uri = (callsOn uri calls).foldl Call.storedAfter none :=
    get?_run calls .empty uri
  have opened : store.contains uri = ((callsOn uri calls).foldl Call.storedAfter none).isSome := by
    rw [contains, Dictionary.contains, found]
  refine ⟨?_, fun isOpen => ?_, fun given since => ?_, mem_snapshots (distinct_run calls ?_) root,
    fun version content => ?_, fun call elsewhere => ?_, fun later => ⟨?_, ?_⟩⟩
  · rw [opened, isSome_foldl_storedAfter concerned]
  · exact exists_givenSinceOpened concerned (opened ▸ isOpen)
  · obtain ⟨text, texts, rfl, stored⟩ := foldl_storedAfter_of_given since
    refine ⟨_, OpenText.isNewest_foldl_offered text texts,
      OpenText.version_le_foldl_offered text texts, ?_⟩
    rw [snapshot?, found, stored, Option.map_some]
  · exact Dictionary.distinct_empty
  · refine ⟨refused_iff store root uri version content, ?_, ?_⟩
    · intro refused
      rcases refused_or_accepted store uri version content with unchanged | accepted
      · rw [unchanged]
      · rw [accepted] at refused
        cases refused
    · intro unrefused
      rcases refused_or_accepted store uri version content with unchanged | accepted
      · exact absurd (congrArg Prod.snd unchanged) unrefused
      · exact accepted
  · have same : (perform call store).1.texts.get? uri = store.texts.get? uri := by
      rw [get?_perform, elsewhere, if_neg Bool.false_ne_true]
    constructor
    · rw [snapshot?, snapshot?, same]
    · rw [contains, contains, Dictionary.contains, Dictionary.contains, same]
  · rw [run, Transition.each_append, Transition.each_cons]
    rfl
  · rw [run, Transition.each_append, Transition.each_cons]
    rfl

end DocumentStore
end IssueRelay
