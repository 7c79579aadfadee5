import IssueRelay.Proofs.Cache.Frame
import IssueRelay.Proofs.Cache.WaitingCommit
import IssueRelay.Proofs.LanguageServer.Relay

/-!
# Tidy servers

A file is at rest when it is neither open nor analyzed. A server is tidy if it has forgotten every
such file: there are no issues of it, and the editor has been shown none, or has been shown that
there are none any more. Refreshes are begun for open files only, so those of a closed file are
forgotten even while it is still analyzed. Until it is cleared or found open, a file that has just
been closed, or a pass over which has just ended, is exempt.
-/

namespace IssueRelay.LanguageServer

open Transition

/-- A file is neither open nor analyzed: no engine is at work on it, and no commit of a pass over it
waits for a refresh. -/
structure AtRest (server : LanguageServer) (file : Url) : Prop where
  closed : server.documents.contains file = false
  disengaged : server.passes.any (·.document.uri = file) = false
  unwaiting : server.cache.waiting.any (·.file = file) = false

instance (server : LanguageServer) (file : Url) : Decidable (AtRest server file) :=
  decidable_of_iff
    (server.documents.contains file = false ∧
      server.passes.any (·.document.uri = file) = false ∧
      server.cache.waiting.any (·.file = file) = false)
    ⟨fun ⟨closed, disengaged, unwaiting⟩ => ⟨closed, disengaged, unwaiting⟩,
      fun ⟨closed, disengaged, unwaiting⟩ => ⟨closed, disengaged, unwaiting⟩⟩

/-- There are no issues of a file, and the editor shows none. -/
structure Forgotten (cache : Cache) (past : List Effect) (file : Url) : Prop where
  committed : cache.committed.get? file = none
  inProgress : cache.inProgress.get? file = none
  shown : ∀ list, lastPublished? file past = some list → list = []

/-- No refresh of a file counts, and there are no taint issues of it. -/
structure Unrefreshed (cache : Cache) (file : Url) : Prop where
  registered : cache.registered.get? file = none
  taint : cache.taint.get file = []

/-- No closed file is refreshed and all files at rest are forgotten, but for one that may be exempt;
and the file that is watched, if there is one, is at rest. -/
structure Tidy (watched exempt : Option Url) (server : LanguageServer) (past : List Effect) :
    Prop where
  reached : Nonempty (Cache.Chronicle server.cache)
  numbered : ∀ pass ∈ server.passes, pass.number < server.nextPass
  distinct : (server.passes.map Pass.number).Nodup
  quiet : ∀ file, watched = some file → AtRest server file ∧ Unrefreshed server.cache file
  unrefreshed : ∀ file, exempt ≠ some file → server.documents.contains file = false →
    Unrefreshed server.cache file
  forgotten : ∀ file, exempt ≠ some file → AtRest server file → Forgotten server.cache past file

variable {server other : LanguageServer} {past effects : List Effect} {file : Url}
  {watched exempt : Option Url}

/-- In the beginning the server is tidy. -/
theorem tidy_initial : Tidy none none initial [] where
  reached := ⟨.beginning⟩
  numbered := fun _ member => nomatch member
  distinct := List.nodup_nil
  quiet := fun _ watched => nomatch watched
  unrefreshed := fun _ _ _ => ⟨rfl, rfl⟩
  forgotten := fun _ _ _ => ⟨rfl, rfl, fun _ published => nomatch published⟩

/-! ## Files that nothing happens to -/

/-- A forgotten file that is not touched, and for which nothing is published, stays forgotten. -/
theorem Forgotten.of_untouched {before after : Cache} (forgotten : Forgotten before past file)
    (untouched : Cache.Untouched before after file)
    (unpublished : ∀ publication ∈ publications effects, publication.1 ≠ file) :
    Forgotten after (past ++ effects) file where
  committed := untouched.committed.trans forgotten.committed
  inProgress := untouched.inProgress.trans forgotten.inProgress
  shown := by
    rw [lastPublished?_append_of_unpublished unpublished]
    exact forgotten.shown

/-- A file without a refresh that is not touched stays without one. -/
theorem Unrefreshed.of_untouched {before after : Cache} (unrefreshed : Unrefreshed before file)
    (untouched : Cache.Untouched before after file) : Unrefreshed after file where
  registered := untouched.registered.trans unrefreshed.registered
  taint := untouched.taint.trans unrefreshed.taint

/-- A file at rest stays so while its documents, its passes and its commits do. -/
theorem AtRest.of_untouched (rest : AtRest server file)
    (documents : other.documents = server.documents) (passes : other.passes = server.passes)
    (untouched : Cache.Untouched server.cache other.cache file) : AtRest other file where
  closed := by
    rw [documents]
    exact rest.closed
  disengaged := by
    rw [passes]
    exact rest.disengaged
  unwaiting := untouched.waiting.trans rest.unwaiting

/-- A server stays tidy when nothing happens to any file. -/
theorem Tidy.of_untouched (tidy : Tidy watched exempt server past)
    (reached : Nonempty (Cache.Chronicle other.cache))
    (documents : other.documents = server.documents) (passes : other.passes = server.passes)
    (nextPass : server.nextPass ≤ other.nextPass)
    (untouched : ∀ file, Cache.Untouched server.cache other.cache file)
    (unpublished : publications effects = []) : Tidy watched exempt other (past ++ effects) where
  reached := reached
  numbered := by
    rw [passes]
    exact fun pass member => (tidy.numbered pass member).trans_le nextPass
  distinct := by
    rw [passes]
    exact tidy.distinct
  quiet := by
    intro file watching
    obtain ⟨rest, unrefreshed⟩ := tidy.quiet file watching
    exact ⟨rest.of_untouched documents passes (untouched file),
      unrefreshed.of_untouched (untouched file)⟩
  unrefreshed := by
    rw [documents]
    intro file counts closed
    exact (tidy.unrefreshed file counts closed).of_untouched (untouched file)
  forgotten := by
    intro file counts rest
    have before := rest.of_untouched documents.symm passes.symm (untouched file).symm
    apply (tidy.forgotten file counts before).of_untouched (untouched file)
    rw [unpublished]
    exact fun _ published => nomatch published

/-- A server stays tidy when nothing changes of it but what is not known of files. -/
theorem Tidy.of_same (tidy : Tidy watched exempt server past) (cache : other.cache = server.cache)
    (documents : other.documents = server.documents) (passes : other.passes = server.passes)
    (nextPass : server.nextPass ≤ other.nextPass) : Tidy watched exempt other past := by
  have same : Tidy watched exempt other (past ++ []) := by
    apply tidy.of_untouched _ documents passes nextPass _ rfl
    · rw [cache]
      exact tidy.reached
    · rw [cache]
      exact .refl server.cache
  rwa [List.append_nil] at same

/-- A change of nothing that tidiness is about keeps the server tidy. -/
theorem preserves_change {update : LanguageServer → LanguageServer}
    (cache : ∀ server, (update server).cache = server.cache)
    (documents : ∀ server, (update server).documents = server.documents)
    (passes : ∀ server, (update server).passes = server.passes)
    (nextPass : ∀ server, (update server).nextPass = server.nextPass) :
    Preserves (Tidy watched exempt) (change update) := by
  intro server past tidy
  rw [change_apply, List.append_nil]
  exact tidy.of_same (cache server) (documents server) (passes server) (nextPass server).ge

/-- A server stays tidy when it brings about what shows the editor nothing. -/
theorem preserves_emit (unpublished : publications effects = []) :
    Preserves (Tidy watched exempt) (emit effects) :=
  fun server _ tidy =>
    tidy.of_untouched tidy.reached rfl rfl le_rfl (.refl server.cache) unpublished

/-- A file need not be exempt if it is forgotten. -/
theorem Tidy.of_forgotten (tidy : Tidy watched (some file) server past)
    (unrefreshed : server.documents.contains file = false → Unrefreshed server.cache file)
    (forgotten : AtRest server file → Forgotten server.cache past file) :
    Tidy watched none server past where
  reached := tidy.reached
  numbered := tidy.numbered
  distinct := tidy.distinct
  quiet := tidy.quiet
  unrefreshed := by
    intro other _ closed
    by_cases same : some file = some other
    · rw [← Option.some.inj same] at closed ⊢
      exact unrefreshed closed
    · exact tidy.unrefreshed other same closed
  forgotten := by
    intro other _ rest
    by_cases same : some file = some other
    · rw [← Option.some.inj same] at rest ⊢
      exact forgotten rest
    · exact tidy.forgotten other same rest

/-- An open file need not be exempt. -/
theorem Tidy.of_open (tidy : Tidy watched (some file) server past)
    (opened : server.documents.contains file = true) : Tidy watched none server past := by
  have unclosed : server.documents.contains file ≠ false := by simp [opened]
  exact tidy.of_forgotten (fun closed => (unclosed closed).elim)
    fun rest => (unclosed rest.closed).elim

/-- On a tidy server, no refresh of a closed file counts. -/
theorem Tidy.unrefreshed_of_closed (tidy : Tidy watched none server past)
    (closed : server.documents.contains file = false) : Unrefreshed server.cache file :=
  tidy.unrefreshed file (Option.some_ne_none file).symm closed

/-- On a tidy server, a file at rest is forgotten. -/
theorem Tidy.forgotten_of_atRest (tidy : Tidy watched none server past)
    (rest : AtRest server file) : Forgotten server.cache past file :=
  tidy.forgotten file (Option.some_ne_none file).symm rest

/-- A tidy server is tidy but for any file. -/
theorem Tidy.exempting (tidy : Tidy watched none server past) (file : Url) :
    Tidy watched (some file) server past where
  reached := tidy.reached
  numbered := tidy.numbered
  distinct := tidy.distinct
  quiet := tidy.quiet
  unrefreshed := fun _ _ => tidy.unrefreshed_of_closed
  forgotten := fun _ _ => tidy.forgotten_of_atRest

/-! ## Actions on the cache -/

/-- A file without a refresh that counts is not being refreshed. -/
theorem Unrefreshed.unfinished? {cache : Cache} (unrefreshed : Unrefreshed cache file) :
    cache.unfinished? file = none := by
  rw [Cache.unfinished?, unrefreshed.registered]
  rfl

/-- Of a closed file, commits do not begin to wait. -/
theorem Unrefreshed.waiting_act {cache : Cache} (unrefreshed : Unrefreshed cache file)
    (idle : cache.waiting.any (·.file = file) = false) (action : Cache.Action) :
    (Cache.act action cache).1.waiting.any (·.file = file) = false := by
  apply List.any_eq_false.mpr
  intro pending member same
  rcases Cache.mem_waiting_act member with earlier | ⟨_, unfinished⟩
  · exact List.any_eq_false.mp idle pending earlier same
  · rw [of_decide_eq_true same, unrefreshed.unfinished?] at unfinished
    cases unfinished

/-- Refreshes and taint issues come to files for which a refresh begins or is registered. -/
theorem Unrefreshed.act {cache : Cache} (unrefreshed : Unrefreshed cache file)
    {action : Cache.Action}
    (unbegun : ∀ refresh ∈ Cache.begun (Cache.act action cache).2, refresh.file ≠ file) :
    Unrefreshed (Cache.act action cache).1 file := by
  obtain ⟨unregistered, untainted⟩ := unrefreshed
  cases Cache.refreshChange cache action with
  | start refresh begins fresh idle silent clears left =>
      have different := unbegun refresh (by rw [begins]; exact List.mem_singleton_self refresh)
      rw [left]
      exact ⟨(Dictionary.get?_insert_of_ne _ _ (Ne.symm different)).trans unregistered, untainted⟩
  | finish refresh answer same begins clears registered running taint nextGeneration =>
      have left : (cache.taintAfter refresh answer).get file = cache.taint.get file := by
        apply Cache.get_taintAfter
        rintro issues _ counts rfl
        rw [unregistered] at counts
        cases counts
      exact ⟨by rw [registered, unregistered], by rw [taint, left, untainted]⟩
  | clear cleared clears begins silent registered running taint nextGeneration =>
      constructor
      · rw [registered]
        by_cases same : file = cleared
        · rw [same, Dictionary.get?_erase_self]
        · rw [Dictionary.get?_erase_of_ne _ same, unregistered]
      · rw [taint]
        by_cases same : file = cleared
        · rw [same, TaintStore.get_remove_self]
        · rw [TaintStore.get_remove_of_ne _ same, untainted]
  | none begins silent clears registered running taint nextGeneration =>
      exact ⟨by rw [registered, unregistered], by rw [taint, untainted]⟩

/-- A server stays tidy when something happens to a file that is exempt, open or under an engine.
Refreshes may begin for open files. -/
theorem Tidy.act (tidy : Tidy watched exempt server past) (action : Cache.Action)
    (possible : action.Possible server.cache)
    (begins : ∀ refresh ∈ Cache.begun (Cache.act action server.cache).2,
      server.documents.contains refresh.file = true)
    (covered : ∀ file, action.subject? = some file → exempt = some file ∨
      server.documents.contains file = true ∨
      server.passes.any (·.document.uri = file) = true) :
    Tidy watched exempt (onCache (Cache.act action) server).1
      (past ++ (onCache (Cache.act action) server).2) := by
  obtain ⟨chronicle⟩ := tidy.reached
  have unbegun : ∀ file, server.documents.contains file = false →
      ∀ refresh ∈ Cache.begun (Cache.act action server.cache).2, refresh.file ≠ file := by
    rintro file closed refresh begun rfl
    have opened := begins refresh begun
    rw [closed] at opened
    cases opened
  have shows := publications_onCache server (Cache.act action)
  obtain ⟨fetches, nextFetch, left⟩ := onCache_fst server (Cache.act action)
  rw [left]
  -- A watched file is closed, so nothing that happens to it engages it again.
  refine ⟨⟨chronicle.next action possible⟩, tidy.numbered, tidy.distinct, ?_, ?_, ?_⟩
  · intro file watching
    obtain ⟨⟨closed, disengaged, unwaiting⟩, unrefreshed⟩ := tidy.quiet file watching
    exact ⟨⟨closed, disengaged, unrefreshed.waiting_act unwaiting action⟩,
      unrefreshed.act (unbegun file closed)⟩
  · intro file counts closed
    exact (tidy.unrefreshed file counts closed).act (unbegun file closed)
  · intro file counts rest
    have elsewhere : action.subject? ≠ some file := by
      intro subject
      rcases covered file subject with exempted | opened | analyzed
      · exact counts exempted
      · rw [rest.closed] at opened
        cases opened
      · rw [rest.disengaged] at analyzed
        cases analyzed
    have untouched := Cache.untouched_act elsewhere server.cache
    have before : AtRest server file := rest.of_untouched rfl rfl untouched.symm
    apply (tidy.forgotten file counts before).of_untouched untouched
    rw [shows]
    exact chronicle.not_published_of_elsewhere possible elsewhere

/-- The exempt file may be acted on in any way that begins no refresh. -/
theorem preserves_act {action : Cache.Action} (subject : action.subject? = some file)
    (possible : ∀ cache, action.Possible cache)
    (unbegun : ∀ cache, Cache.begun (Cache.act action cache).2 = []) :
    Preserves (Tidy watched (some file)) (onCache (Cache.act action)) := by
  intro server past tidy
  apply tidy.act action (possible server.cache)
  · rw [unbegun]
    exact fun _ begun => nomatch begun
  · rw [subject]
    exact fun other same => .inl same

/-- A file that is cleared is forgotten, whatever was known of it. -/
theorem clear_tidies :
    Ensures (Tidy watched (some file)) (Tidy watched none) (onCache (Cache.clear file)) := by
  intro server past tidy
  have clears : Preserves (Tidy watched (some file)) (onCache (Cache.act (.clear file))) :=
    preserves_act rfl (fun _ => trivial) fun cache => Cache.begun_act cache (.clear file)
  have shows := publications_onCache server (Cache.clear file)
  rw [Cache.publications_clear, Cache.shown_clear, Diagnostic.ofIssues_empty] at shows
  obtain ⟨fetches, nextFetch, left⟩ := onCache_fst server (Cache.clear file)
  rw [Cache.clear_fst] at left
  apply (clears server past tidy).of_forgotten
  · rw [Cache.act, left]
    exact fun _ => ⟨Dictionary.get?_erase_self _ _, TaintStore.get_remove_self _ _⟩
  · rw [Cache.act, left]
    intro _
    refine ⟨Dictionary.get?_erase_self _ _, Dictionary.get?_erase_self _ _, ?_⟩
    intro list published
    rw [lastPublished?_append_of_published shows] at published
    exact (Option.some.inj published).symm

/-- A file is settled, and need not be exempt any more. -/
theorem settle_tidies :
    Ensures (Tidy watched (some file)) (Tidy watched none) (settle file) := by
  intro server past tidy
  rw [settle, inspect_apply]
  cases opened : server.documents.contains file with
  | true => exact preserves_idle server past (tidy.of_open opened)
  | false => exact clear_tidies server past tidy

end IssueRelay.LanguageServer
