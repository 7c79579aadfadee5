import IssueRelay.Proofs.Debouncer.History
import IssueRelay.Proofs.LanguageServer.ClosedFile
import IssueRelay.Proofs.LanguageServer.PassStart

/-!
# Debounced passes

The task that waits for a file knows only which file it is; what it analyzes is the text at the
moment at which it runs. Nothing but an event of the file itself or a new configuration changes that
text or the moment, so an edit that is accepted is analyzed as it was made when its delay has
elapsed, and an outdated one changes nothing
(`IssueRelay.LanguageServer.accepted_edit_analyzed_once`).
-/

namespace IssueRelay.LanguageServer

open Transition

/-! ## The tasks that run -/

/-- The documents of the tasks whose deadline has come. -/
def dueDocuments (server : LanguageServer) : List Document :=
  server.debouncer.fire.2.filterMap fun timer => server.document? timer.file

/-- Passes that begin leave the documents. -/
theorem document?_of_still {first server : LanguageServer} {past : List Effect}
    (still : Still first server past) (file : Url) :
    server.document? file = first.document? file := by
  rw [document?, document?, still.root, still.documents]

/-- Analyzing a file begins a pass over its document, if it has one. -/
theorem analyze_of_still {first server : LanguageServer} {past : List Effect}
    (still : Still first server past) (file : Url) :
    analyze file server = each beginPass (first.document? file).toList server := by
  have same := document?_of_still still file
  rw [analyze, inspect_apply, same]
  cases first.document? file with
  | none => rfl
  | some document => rw [Option.toList_some, each_cons, each_nil, andThen_idle]

/-- The tasks that run begin passes over the documents that their files had before. -/
theorem each_analyze {first server : LanguageServer} {past : List Effect}
    (still : Still first server past) (timers : List (Timer Unit)) :
    each (fun timer => analyze timer.file) timers server =
      each beginPass (timers.filterMap fun timer => first.document? timer.file) server := by
  induction timers generalizing server past with
  | nil => rfl
  | cons timer rest ih =>
      have left := still_analyze timer.file server past still
      have split : (timer :: rest).filterMap (fun timer => first.document? timer.file) =
          (first.document? timer.file).toList ++
            rest.filterMap fun timer => first.document? timer.file := by
        rw [List.filterMap_cons]
        cases first.document? timer.file <;> rfl
      rw [each_cons, andThen_apply, ih left, split, each_append, andThen_apply,
        analyze_of_still still]

/-- Tasks run for open files only. -/
theorem contains_of_mem_dueDocuments {server : LanguageServer} {document : Document}
    (due : document ∈ dueDocuments server) :
    server.documents.contains document.uri = true := by
  obtain ⟨timer, _, found⟩ := List.mem_filterMap.mp due
  exact DocumentStore.contains_of_snapshot? found

/-- Running the tasks whose deadline has come is beginning passes over the present documents of
their files. -/
theorem fireTimers_eq (server : LanguageServer) :
    fireTimers server =
      each beginPass (dueDocuments server)
        { server with debouncer := server.debouncer.fire.1 } := by
  let fired := { server with debouncer := server.debouncer.fire.1 }
  have still : Still fired fired [] := ⟨rfl, rfl, rfl⟩
  exact each_analyze still server.debouncer.fire.2

/-! ## Moves -/

/-- The text of a file is the last of those given, and the file waits for its analysis, unless the
change is outdated. -/
def edit (file : Url) (version : Int32) (contents : List String) (server : LanguageServer) :
    LanguageServer :=
  match contents.getLast?.bind (server.documents.update? file version) with
  | some documents => { server with documents }.waitFor file
  | none => server

namespace Move

/-- What a move changes before any task runs, of the open texts, the sleeping tasks and the
configuration. -/
def prepare : Move → LanguageServer → LanguageServer
  | .openWorkspace root => LanguageServer.openWorkspace root
  | .start config tokens => configure config tokens
  | .reconfigure config tokens => fun server =>
    let configured := configure config tokens server
    ((configured.documents.snapshots configured.root).map Document.uri).foldl
      (fun server file => server.waitFor file) configured
  | .openDocument file version content | .openText file version content => fun server =>
    { server with documents := server.documents.openText file version content }
  | .changeDocument file version contents => edit file version contents
  | .saveDocument file => waitFor file
  | .closeDocument file => fun server =>
    { server with
      debouncer := server.debouncer.cancel file
      documents := server.documents.close file }
  | .passTime milliseconds => fun server =>
    { server with debouncer := server.debouncer.advance milliseconds }
  | _ => id

/-- Whether tasks whose deadline has come run in a move. -/
def fires (server : LanguageServer) : Move → Bool
  | .changeDocument file version contents =>
    (contents.getLast?.bind (server.documents.update? file version)).isSome
  | .saveDocument _ | .reconfigure _ _ | .passTime _ => true
  | _ => false

/-- The documents over which passes are begun in a move because a deadline has come. -/
def debounced (move : Move) (server : LanguageServer) : List Document :=
  if move.fires server then dueDocuments (move.prepare server) else []

end Move

section Happen

variable (server : LanguageServer)

section Edit

variable {file : Url} {version : Int32} {contents : List String} {documents : DocumentStore}

/-- A change that is accepted stores the text and makes the file wait. -/
theorem edit_of_updated
    (updated : contents.getLast?.bind (server.documents.update? file version) = some documents) :
    edit file version contents server = { server with documents }.waitFor file := by
  rw [edit, updated]

/-- A change that is refused does nothing. -/
theorem edit_of_refused
    (refused : contents.getLast?.bind (server.documents.update? file version) = none) :
    edit file version contents server = server := by
  rw [edit, refused]

/-- A change that is accepted is an edit, after which the tasks that are due run. -/
theorem changeDocument_of_updated
    (updated : contents.getLast?.bind (server.documents.update? file version) = some documents) :
    changeDocument file version contents server =
      fireTimers (edit file version contents server) := by
  rw [changeDocument, inspect_apply, edit, updated]
  rfl

/-- A change that is refused makes no task run. -/
theorem changeDocument_of_refused
    (refused : contents.getLast?.bind (server.documents.update? file version) = none) :
    changeDocument file version contents server = (server, []) := by
  rw [changeDocument, inspect_apply, refused]
  rfl

end Edit

/-- In the moves in which tasks run, all else is done before. -/
theorem happen_of_fires {move : Move} (fires : move.fires server = true) :
    happen move server =
      each beginPass (move.debounced server)
        { move.prepare server with debouncer := (move.prepare server).debouncer.fire.1 } := by
  rw [Move.debounced, if_pos fires, ← fireTimers_eq]
  cases move with
  | changeDocument file version contents =>
      obtain ⟨documents, updated⟩ := Option.isSome_iff_exists.mp fires
      exact changeDocument_of_updated server updated
  | saveDocument file => rfl
  | reconfigure config tokens => rfl
  | passTime milliseconds => rfl
  | _ => cases fires

/-- The passes that begin because a deadline has come begin as passes do. -/
theorem startsAll_of_fires {move : Move} (fires : move.fires server = true) :
    StartsAll (move.debounced server)
      { move.prepare server with debouncer := (move.prepare server).debouncer.fire.1 }
      (happen move server).1 (happen move server).2 := by
  rw [happen_of_fires server fires]
  apply startsAll_each_beginPass
  rw [Move.debounced, if_pos fires]
  intro document due
  have opened : (move.prepare server).documents.contains document.uri = true :=
    contains_of_mem_dueDocuments due
  exact opened

/-- Passes that begin in turn touch no text and no sleeping task. -/
theorem still_each_beginPass (documents : List Document) :
    Still server (each beginPass documents server).1 (each beginPass documents server).2 :=
  preserves_each (fun document _ => still_beginPass document) server [] ⟨rfl, rfl, rfl⟩

/-- Whatever keeps a changed server still is no further change to its texts and sleeping tasks. -/
theorem still_after_change {update : LanguageServer → LanguageServer}
    {rest : Transition LanguageServer Effect} (keeps : Preserves (Still (update server)) rest) :
    Still (update server) ((change update).andThen rest server).1
      ((change update).andThen rest server).2 :=
  keeps (update server) [] ⟨rfl, rfl, rfl⟩

/-- The moves in which no task runs do nothing else to the open texts and the sleeping tasks. -/
theorem still_of_not_fires {move : Move} (idle : move.fires server = false) :
    Still (move.prepare server) (happen move server).1 (happen move server).2 := by
  have start : Still (move.prepare server) (move.prepare server) [] := ⟨rfl, rfl, rfl⟩
  cases move with
  | openWorkspace root => exact start
  | start config tokens => exact ⟨rfl, rfl, rfl⟩
  | reconfigure config tokens => cases idle
  | embedEngine => exact ⟨rfl, rfl, rfl⟩
  | openDocument file version content =>
      refine still_after_change server (ensures_inspect fun server => ?_)
      split
      · exact still_beginFetch _ _ _ _
      · exact still_analyze file
  | changeDocument file version contents =>
      have refused := Option.isNone_iff_eq_none.mp (Option.isSome_eq_false_iff.mp idle)
      rw [happen, changeDocument_of_refused server refused, Move.prepare,
        edit_of_refused server refused]
      exact ⟨rfl, rfl, rfl⟩
  | saveDocument file => cases idle
  | closeDocument file => exact still_after_change server (still_onCache _)
  | passTime milliseconds => cases idle
  | reportIssue number issue =>
      refine ensures_inspect (fun server => ?_) server [] start
      split
      · exact still_onCache _
      · exact preserves_idle
  | endPass number succeeded => exact still_endPass number succeeded server [] start
  | endHistory number answer => exact still_endHistory number answer server [] start
  | endRefresh number answer => exact still_endRefresh number answer server [] start
  | bind binding => exact ⟨rfl, rfl, rfl⟩
  | openText file version content => exact start
  | fetchHistory file binding path => exact still_beginFetch _ _ _ _ server [] start
  | analyze file => exact still_analyze file server [] start
  | finishRefresh refresh answer =>
      refine ensures_inspect (fun server => ?_) server [] start
      split
      · exact still_onCache _
      · exact preserves_idle
  | resume pending =>
      refine ensures_inspect (fun server => ?_) server [] start
      split
      · exact still_resume pending
      · exact preserves_idle

/-- What a move leaves of the open texts and the sleeping tasks. -/
theorem happen_settings (move : Move) :
    (happen move server).1.documents = (move.prepare server).documents ∧
      (happen move server).1.debouncer =
        if move.fires server then (move.prepare server).debouncer.fire.1
        else (move.prepare server).debouncer := by
  cases fires : move.fires server with
  | true =>
      rw [happen_of_fires server fires]
      have still := still_each_beginPass
        { move.prepare server with debouncer := (move.prepare server).debouncer.fire.1 }
        (move.debounced server)
      exact ⟨still.documents, still.debouncer⟩
  | false =>
      have still := still_of_not_fires server fires
      exact ⟨still.documents, still.debouncer⟩

end Happen

/-! ## The file of an edit -/

section Consistent

open Debouncer (Consistent consistent_withDelay)

variable {server : LanguageServer}

/-- Files that begin to wait keep the sleeping tasks consistent. -/
theorem consistent_foldl_waitFor (files : List Url) (consistent : Consistent server.debouncer) :
    Consistent (files.foldl (fun server file => server.waitFor file) server).debouncer := by
  induction files generalizing server with
  | nil => exact consistent
  | cons file rest ih => exact ih (consistent.schedule file ())

/-- What a move changes at first keeps the sleeping tasks consistent. -/
theorem consistent_prepare (consistent : Consistent server.debouncer) (move : Move) :
    Consistent (move.prepare server).debouncer := by
  cases move with
  | start config tokens => exact consistent.setDelay config.analyzer.debounce
  | reconfigure config tokens =>
      exact consistent_foldl_waitFor _ (consistent.setDelay config.analyzer.debounce)
  | changeDocument file version contents =>
      rw [Move.prepare, edit]
      split
      · exact consistent.schedule file ()
      · exact consistent
  | saveDocument file => exact consistent.schedule file ()
  | closeDocument file => exact consistent.cancel file
  | passTime milliseconds => exact consistent.advance milliseconds
  | _ => exact consistent

/-- Every move keeps the sleeping tasks consistent. -/
theorem consistent_happen (consistent : Consistent server.debouncer) (move : Move) :
    Consistent (happen move server).1.debouncer := by
  have prepared := consistent_prepare consistent move
  rw [(happen_settings server move).2]
  split
  · exact prepared.fire
  · exact prepared

/-- Every sequence of moves keeps the sleeping tasks consistent. -/
theorem consistent_run (consistent : Consistent server.debouncer) (moves : List Move) :
    Consistent (run moves server).1.debouncer := by
  induction moves generalizing server with
  | nil => exact consistent
  | cons move rest ih =>
      rw [run, each_cons, andThen_apply, ← run]
      exact ih (consistent_happen consistent move)

end Consistent

namespace Move

/-- The time that passes in a move. -/
def milliseconds : Move → Nat
  | .passTime milliseconds => milliseconds
  | _ => 0

/-- Whether a move is an event of a file whose text has a version, or a new configuration. A change
that is outdated or empty is none. -/
def disturbs (file : Url) (version : Int32) : Move → Bool
  | .openDocument opened _ _ | .openText opened _ _ => opened = file
  | .changeDocument changed newer contents =>
    changed = file && !contents.isEmpty && !decide (newer < version)
  | .saveDocument saved => saved = file
  | .closeDocument closed => closed = file
  | .reconfigure _ _ => true
  | _ => false

end Move

/-- The time that passes in a sequence of moves. -/
def elapsed (moves : List Move) : Nat :=
  (moves.map Move.milliseconds).sum

/-- The documents over which passes are begun because a deadline has come, in a sequence of moves.
-/
def debouncedIn : List Move → LanguageServer → List Document
  | [], _ => []
  | move :: rest, server => move.debounced server ++ debouncedIn rest (happen move server).1

/-- The passes that engines are handed because a deadline has come, in a sequence of moves. -/
def handedIn : List Move → LanguageServer → List Pass
  | [], _ => []
  | move :: rest, server =>
    (if move.fires server then (handed (happen move server).2).map Prod.fst else []) ++
      handedIn rest (happen move server).1

/-- While there is an engine, it is handed every pass that begins because a deadline has come. -/
theorem documents_handedIn {moves : List Move} {server : LanguageServer}
    (engaged : ∀ earlier, earlier <+: moves → (run earlier server).1.engine ≠ .program .none) :
    (handedIn moves server).map Pass.document = debouncedIn moves server := by
  induction moves generalizing server with
  | nil => rfl
  | cons move rest ih =>
      have later : (handedIn rest (happen move server).1).map Pass.document =
          debouncedIn rest (happen move server).1 :=
        ih fun earlier begins =>
          engaged (move :: earlier) ((List.prefix_cons_inj move).mpr begins)
      rw [handedIn, debouncedIn, List.map_append, later]
      congr 1
      cases fires : move.fires server with
      | true =>
          have starts := startsAll_of_fires server fires
          have engine : (move.prepare server).engine ≠ .program .none := by
            rw [← starts.engine]
            exact engaged [move] ((List.prefix_cons_inj move).mpr (List.nil_prefix))
          rw [if_pos rfl, (starts.handed engine).2, List.map_map, List.map_map]
          exact documents_nextPassesOver _ _
      | false => rw [Move.debounced, fires]; rfl

/-- The versions and texts of the documents of a file. -/
def textsOf (file : Url) (documents : List Document) : List OpenText :=
  (documents.filter (·.uri = file)).map fun document =>
    { version := document.version, content := document.content }

/-- A file has a text, and a task or none is awaited for it. -/
structure Awaits (file : Url) (text : OpenText) (timer : Option (Timer Unit))
    (server : LanguageServer) : Prop where
  consistent : server.debouncer.Consistent
  text : server.documents.texts.get? file = some text
  awaited : server.debouncer.awaited? file = timer

section Awaits

variable {file : Url} {text : OpenText} {timer : Option (Timer Unit)} {server : LanguageServer}

/-- The texts of a file are found part by part. -/
theorem textsOf_append (left right : List Document) :
    textsOf file (left ++ right) = textsOf file left ++ textsOf file right := by
  rw [textsOf, textsOf, textsOf, List.filter_append, List.map_append]

/-- The documents of a file that are due are those of its own tasks that run. -/
theorem dueDocuments_of_file (server : LanguageServer) (file : Url) :
    (dueDocuments server).filter (·.uri = file) =
      (server.debouncer.fire.2.filter (·.file = file)).filterMap fun timer =>
        server.document? timer.file := by
  rw [dueDocuments, List.filter_filterMap, List.filterMap_filter]
  apply List.filterMap_congr
  intro timer _
  have named : ∀ document, server.document? timer.file = some document →
      document.uri = timer.file := by
    intro document found
    obtain ⟨stored, _, rfl⟩ := Option.map_eq_some_iff.mp found
    rfl
  cases found : server.document? timer.file with
  | none => simp
  | some document => rw [Option.filter_some, named document found]

/-- A file is due with the text that it has, and only if the deadline of its task has come. -/
theorem Awaits.texts_due (awaits : Awaits file text timer server) :
    textsOf file (dueDocuments server) =
      if timer.any (Debouncer.isDue server.debouncer.now) then [text] else [] := by
  have present : server.document? file = some (DocumentStore.documentOf server.root file text) := by
    rw [document?, DocumentStore.snapshot?, awaits.text]
    rfl
  rw [textsOf, dueDocuments_of_file, awaits.consistent.fired_of_file, awaits.awaited]
  cases timer with
  | none => rfl
  | some timer =>
      obtain ⟨_, own⟩ := Debouncer.mem_awaited_of_awaited? awaits.awaited
      rw [Option.filter_some, Option.any_some]
      split
      · rw [Option.toList_some, List.filterMap_cons, own, present]
        rfl
      · rfl

/-- Storing the text of another file leaves what is awaited for the file. -/
theorem Awaits.openText (awaits : Awaits file text timer server) {opened : Url}
    (different : file ≠ opened) (version : Int32) (content : String) :
    Awaits file text timer
      { server with documents := server.documents.openText opened version content } where
  consistent := awaits.consistent
  text := (Dictionary.get?_insert_of_ne _ _ different).trans awaits.text
  awaited := awaits.awaited

/-- Another file that begins to wait leaves what is awaited for the file. -/
theorem Awaits.waitFor (awaits : Awaits file text timer server) {other : Url}
    (different : file ≠ other) : Awaits file text timer (server.waitFor other) where
  consistent := awaits.consistent.schedule other ()
  text := awaits.text
  awaited := by
    rw [LanguageServer.waitFor, awaits.consistent.awaited?_schedule, if_neg different]
    exact awaits.awaited

/-- A change that disturbs nothing is one of another file, or it is refused. -/
theorem Awaits.edit (awaits : Awaits file text timer server) {changed : Url} {version : Int32}
    {contents : List String}
    (undisturbed :
      (Move.changeDocument changed version contents).disturbs file text.version = false) :
    Awaits file text timer (edit changed version contents server) := by
  cases updated : contents.getLast?.bind (server.documents.update? changed version) with
  | none =>
      rw [edit_of_refused server updated]
      exact awaits
  | some documents =>
      obtain ⟨content, last, accepted⟩ := Option.bind_eq_some_iff.mp updated
      have different : file ≠ changed := by
        rintro rfl
        have newer : ¬ version < text.version := by
          intro older
          have refused := (server.documents.update?_eq_none_iff file version content).mpr
            ⟨text, awaits.text, older⟩
          rw [refused] at accepted
          cases accepted
        have nonempty : contents ≠ [] := by
          rintro rfl
          cases last
        simp [Move.disturbs, newer, nonempty] at undisturbed
      rw [edit_of_updated server updated, DocumentStore.eq_openText_of_update? accepted]
      exact (awaits.openText different version content).waitFor different

/-- What an undisturbing move changes at first leaves the text of a file and the task awaited for
it. -/
theorem Awaits.prepare (awaits : Awaits file text timer server) {move : Move}
    (undisturbed : move.disturbs file text.version = false) :
    Awaits file text timer (move.prepare server) := by
  have consistent := consistent_prepare awaits.consistent move
  have other : ∀ {opened : Url}, decide (opened = file) = false → file ≠ opened :=
    fun differs same => of_decide_eq_false differs same.symm
  cases move with
  | start config tokens => exact ⟨consistent, awaits.text, awaits.awaited⟩
  | reconfigure config tokens => cases undisturbed
  | openDocument opened version content => exact awaits.openText (other undisturbed) _ _
  | openText opened version content => exact awaits.openText (other undisturbed) _ _
  | changeDocument changed version contents => exact awaits.edit undisturbed
  | saveDocument saved => exact awaits.waitFor (other undisturbed)
  | closeDocument closed =>
      refine ⟨consistent, ?_, ?_⟩
      · exact (Dictionary.get?_erase_of_ne _ (other undisturbed)).trans awaits.text
      · rw [Move.prepare, awaits.consistent.awaited?_cancel, if_neg (other undisturbed)]
        exact awaits.awaited
  | passTime milliseconds => exact ⟨consistent, awaits.text, awaits.awaited⟩
  | _ => exact ⟨consistent, awaits.text, awaits.awaited⟩

/-- Time passes in an undisturbing move before any task runs. -/
theorem now_prepare (server : LanguageServer) {move : Move} {version : Int32}
    (undisturbed : move.disturbs file version = false) :
    (move.prepare server).debouncer.now = server.debouncer.now + move.milliseconds := by
  cases move with
  | reconfigure config tokens => cases undisturbed
  | changeDocument changed version contents =>
      rw [Move.prepare, LanguageServer.edit]
      split
      · exact Debouncer.now_apply (.schedule changed ()) server.debouncer
      · rfl
  | saveDocument saved => exact Debouncer.now_apply (.schedule saved ()) server.debouncer
  | closeDocument closed => exact Debouncer.now_apply (.cancel closed) server.debouncer
  | _ => rfl

/-- What runs of a file now and what runs of it later, if nothing disturbs it, is its text once,
when its deadline has come. -/
theorem Awaits.texts_fired {fired : LanguageServer} {later : List Move}
    (awaits : Awaits file text timer server)
    (documents : fired.documents = server.documents)
    (debouncer : fired.debouncer = server.debouncer.fire.1)
    (rest : ∀ timer, Awaits file text timer fired →
      timer.any (Debouncer.isDue fired.debouncer.now) = false →
      textsOf file (debouncedIn later fired) =
        if timer.any (Debouncer.isDue (fired.debouncer.now + elapsed later)) then [text] else []) :
    textsOf file (dueDocuments server ++ debouncedIn later fired) =
      if timer.any (Debouncer.isDue (server.debouncer.now + elapsed later)) then [text]
      else [] := by
  have now : fired.debouncer.now = server.debouncer.now := by
    obtain ⟨_, kept⟩ := server.debouncer.fire_fst
    rw [debouncer, kept]
  have left : Awaits file text (timer.filter (!Debouncer.isDue server.debouncer.now ·)) fired := by
    refine ⟨?_, ?_, ?_⟩
    · rw [debouncer]
      exact awaits.consistent.fire
    · rw [documents]
      exact awaits.text
    · rw [debouncer, awaits.consistent.awaited?_fire, awaits.awaited]
  rw [textsOf_append, awaits.texts_due]
  cases timer with
  | none => exact rest none left rfl
  | some timer =>
      rw [Option.any_some, Option.any_some]
      cases due : Debouncer.isDue server.debouncer.now timer with
      | true =>
          -- The task runs now, and none is left that could run later.
          have remains : Debouncer.isDue (server.debouncer.now + elapsed later) timer = true := by
            by_contra early
            have before := Debouncer.isDue_mono (Nat.le_add_right server.debouncer.now _)
              (Bool.eq_false_iff.mpr early)
            rw [due] at before
            cases before
          rw [Option.filter_some, due] at left
          rw [rest none left rfl, remains]
          rfl
      | false =>
          rw [Option.filter_some, due] at left
          rw [← now] at due ⊢
          exact rest (some timer) left due

/-- The text of an undisturbed file is analyzed once, when its deadline has come. -/
theorem Awaits.texts_debounced (awaits : Awaits file text timer server)
    (early : timer.any (Debouncer.isDue server.debouncer.now) = false) {later : List Move}
    (undisturbed : ∀ move ∈ later, move.disturbs file text.version = false) :
    textsOf file (debouncedIn later server) =
      if timer.any (Debouncer.isDue (server.debouncer.now + elapsed later)) then [text]
      else [] := by
  induction later generalizing server timer with
  | nil =>
      rw [elapsed, List.map_nil, List.sum_nil, Nat.add_zero, early]
      rfl
  | cons move rest ih =>
      have first := undisturbed move List.mem_cons_self
      have others := fun other member => undisturbed other (List.mem_cons_of_mem _ member)
      have prepared := awaits.prepare first
      obtain ⟨documents, debouncer⟩ := happen_settings server move
      have time : server.debouncer.now + elapsed (move :: rest) =
          (move.prepare server).debouncer.now + elapsed rest := by
        rw [now_prepare server first, Nat.add_assoc]
        rfl
      rw [debouncedIn, Move.debounced, time]
      cases fires : move.fires server with
      | true =>
          rw [fires] at debouncer
          exact prepared.texts_fired documents debouncer fun timer left early =>
            ih left early others
      | false =>
          -- Time passes only in moves in which tasks run, so no deadline comes here.
          have still : move.milliseconds = 0 := by
            cases move with
            | passTime milliseconds => cases fires
            | _ => rfl
          have now := now_prepare server first
          rw [still, Nat.add_zero] at now
          rw [fires] at debouncer
          have left : Awaits file text timer (happen move server).1 := by
            refine ⟨?_, ?_, ?_⟩
            · rw [debouncer]
              exact prepared.consistent
            · rw [documents]
              exact prepared.text
            · rw [debouncer]
              exact prepared.awaited
          have time : (happen move server).1.debouncer.now = server.debouncer.now := by
            rw [debouncer]
            exact now
          have later := ih left (by rwa [time]) others
          rw [time, ← now] at later
          exact later

end Awaits

/-- Whatever has happened to a server, a change of a file that has a text and is not outdated is
analyzed as it was made: if nothing disturbs the file, then exactly one pass over it is begun
because a deadline has come, when the delay in force at the change has elapsed and not before, and
what it analyzes is the last of the texts given, in their version; while there is an engine, it is
handed exactly this pass. An outdated change changes nothing at all and begins no pass. In a move in
which deadlines come, passes begin over the documents of the tasks that are due, one after the
other, when all else has been done: each takes the next number, and is handed to the engine or,
without one, succeeds at once. In any other move the tasks sleep on. -/
theorem accepted_edit_analyzed_once (moves : List Move) (file : Url) (version : Int32)
    (contents : List String) :
    let server := (run moves initial).1
    let change := Move.changeDocument file version contents
    (∀ content later, contents.getLast? = some content →
      (∀ stored, server.documents.texts.get? file = some stored → ¬ version < stored.version) →
      (∀ move ∈ later, move.disturbs file version = false) →
      let analyzed :=
        if server.debouncer.delay ≠ Debouncer.forever ∧
          server.debouncer.delay.toNat ≤ elapsed later
        then [{ version, content }] else []
      textsOf file (debouncedIn (change :: later) server) = analyzed ∧
        ((∀ earlier, earlier <+: change :: later →
            (run earlier server).1.engine ≠ .program .none) →
          textsOf file ((handedIn (change :: later) server).map Pass.document) = analyzed)) ∧
    (∀ stored, server.documents.texts.get? file = some stored → version < stored.version →
      happen change server = (server, [])) ∧
    (∀ (move : Move) (state : LanguageServer), move.fires state = true →
      let ready :=
        { move.prepare state with debouncer := (move.prepare state).debouncer.fire.1 }
      happen move state = each beginPass (move.debounced state) ready ∧
        StartsAll (move.debounced state) ready (happen move state).1 (happen move state).2 ∧
        (ready.engine ≠ .program .none →
          handed (happen move state).2 =
            (ready.nextPassesOver (move.debounced state)).map (·, ready.engine))) ∧
    ∀ (move : Move) (state : LanguageServer), move.fires state = false →
      (happen move state).1.debouncer = (move.prepare state).debouncer := by
  intro server change
  have consistent : server.debouncer.Consistent :=
    consistent_run (Debouncer.consistent_withDelay _) moves
  refine ⟨?_, ?_, ?_, fun move state sleeps => (still_of_not_fires state sleeps).debouncer⟩
  · intro content later last newer undisturbed analyzed
    obtain ⟨documents, accepted⟩ : ∃ documents,
        server.documents.update? file version content = some documents := by
      apply Option.ne_none_iff_exists'.mp
      intro refused
      obtain ⟨stored, present, older⟩ :=
        (server.documents.update?_eq_none_iff file version content).mp refused
      exact newer stored present older
    have updated : contents.getLast?.bind (server.documents.update? file version) =
        some documents := by
      rw [last]
      exact accepted
    have fires : change.fires server = true := by
      rw [Move.fires, updated]
      rfl
    obtain ⟨left, debouncer⟩ := happen_settings server change
    rw [fires] at debouncer
    have prepared : change.prepare server = { server with documents }.waitFor file :=
      edit_of_updated server updated
    -- Whatever was awaited for the file, the task of this change takes its place.
    have awaits : Awaits file { version, content }
        (some (server.debouncer.nextTimer file ())) (change.prepare server) := by
      rw [prepared]
      refine ⟨consistent.schedule file (), ?_, ?_⟩
      · rw [DocumentStore.eq_openText_of_update? accepted]
        exact Dictionary.get?_insert_self _ _ _
      · rw [LanguageServer.waitFor, consistent.awaited?_schedule, if_pos rfl]
    have now : (change.prepare server).debouncer.now = server.debouncer.now := by
      rw [prepared]
      exact Debouncer.now_apply (.schedule file ()) server.debouncer
    have due : Debouncer.isDue (server.debouncer.now + elapsed later)
        (server.debouncer.nextTimer file ()) = true ↔
          server.debouncer.delay ≠ Debouncer.forever ∧
            server.debouncer.delay.toNat ≤ elapsed later := by
      rw [Debouncer.isDue, Debouncer.nextTimer, Debouncer.deadline?]
      split <;> simp [*]
    have once : textsOf file (debouncedIn (change :: later) server) = analyzed := by
      rw [debouncedIn, Move.debounced, if_pos fires,
        awaits.texts_fired left debouncer fun timer rest early =>
          rest.texts_debounced early undisturbed, now]
      exact if_congr due rfl rfl
    exact ⟨once, fun engaged => by rw [documents_handedIn engaged, once]⟩
  · intro stored present older
    apply changeDocument_of_refused
    cases contents.getLast? with
    | none => rfl
    | some content =>
        exact (server.documents.update?_eq_none_iff file version content).mpr
          ⟨stored, present, older⟩
  · intro move state fires ready
    have starts := startsAll_of_fires state fires
    exact ⟨happen_of_fires state fires, starts, fun engine => (starts.handed engine).2⟩

end IssueRelay.LanguageServer
