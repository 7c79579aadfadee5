import IssueRelay.Proofs.Cache.OwnHistory

/-!
# Two caches with the same history of a file

If the same has happened to a file in two chronicles, whatever has happened to other files in
between, then both agree on the file but for the identifiers of its issues
(`IssueRelay.Cache.agreeThroughout_of_own`). What carries this is that the caches mirror one another
under identifiers in the same order and under other generations, which are only compared.
-/

namespace IssueRelay.Cache

open Transition

variable {own other : Cache} {f : IssueId → IssueId} {g h : Nat → Nat} {file : Url}
  {ids : List IssueId} {left : Chronicle own} {right : Chronicle other}

/-- Only the generations that the cache knows of a file matter. -/
theorem Mirrors.congr (mirrors : Mirrors f g file own other) {generations : List Nat}
    (names : Names file ids generations own) (same : ∀ generation ∈ generations,
      g generation = h generation) : Mirrors f h file own other where
  inProgress := mirrors.inProgress
  committed := mirrors.committed
  taint := mirrors.taint
  registered := by
    rw [mirrors.registered]
    exact Option.map_congr fun generation found =>
      same generation (names.registered generation found)
  running := by
    rw [mirrors.running]
    refine List.map_congr_left fun refresh member => ?_
    obtain ⟨live, of⟩ := List.mem_filter.mp member
    rw [Refresh.renumber, Refresh.renumber,
      same refresh.generation (names.running refresh live (of_decide_eq_true of))]
  waiting := by
    rw [mirrors.waiting]
    refine List.map_congr_left fun pending member => ?_
    obtain ⟨waits, of⟩ := List.mem_filter.mp member
    rw [WaitingCommit.renumber, WaitingCommit.renumber,
      same pending.generation (names.waiting pending waits (of_decide_eq_true of))]

/-! ## Chronicles that are alike -/

/-- Two chronicles tell the same of a file, under other identifiers and generations. -/
structure Alike (f : IssueId → IssueId) (g : Nat → Nat) (file : Url) (left : Chronicle own)
    (right : Chronicle other) : Prop where
  mirrors : Mirrors f g file own other
  generations : (left.generationsOf file).map g = right.generationsOf file
  published : right.publishedOf file =
    (left.publishedOf file).map (List.map (Diagnostic.rename f))
  fetched : fetchesOf file right.effects = fetchesOf file left.effects
  returned : right.returnedOf file = left.returnedOf file

/-- Before anything has happened a file is alike to itself, however it is renamed. -/
theorem alike_beginning : Alike f g file .beginning .beginning :=
  ⟨mirrors_empty, rfl, rfl, rfl, rfl⟩

section Elsewhere

variable (alike : Alike f g file left right) {action : Action}
  (elsewhere : action.subject? ≠ some file)

include alike elsewhere

/-- What happens to another file keeps the file alike, whichever of the chronicles it happens in. -/
theorem Alike.of_elsewhere {possible : action.Possible own} :
    Alike f g file (left.next action possible) right where
  mirrors := alike.mirrors.of_elsewhere elsewhere
  generations := by rw [left.generationsOf_next_of_elsewhere elsewhere, alike.generations]
  published := by rw [left.publishedOf_next_of_elsewhere elsewhere, alike.published]
  fetched := by rw [left.fetchesOf_next_of_elsewhere elsewhere, alike.fetched]
  returned := by rw [left.returnedOf_next_of_elsewhere elsewhere, alike.returned]

/-- What happens to another file in the second chronicle keeps the file alike. -/
theorem Alike.of_elsewhere_other {possible : action.Possible other} :
    Alike f g file left (right.next action possible) where
  mirrors := alike.mirrors.of_elsewhere_other elsewhere
  generations := by rw [right.generationsOf_next_of_elsewhere elsewhere, alike.generations]
  published := by rw [right.publishedOf_next_of_elsewhere elsewhere, alike.published]
  fetched := by rw [right.fetchesOf_next_of_elsewhere elsewhere, alike.fetched]
  returned := by rw [right.returnedOf_next_of_elsewhere elsewhere, alike.returned]

end Elsewhere

/-- Alike files have as many generations as one another, so no two of them are taken to one. -/
theorem Alike.injective (alike : Alike f g file left right) :
    Set.InjOn g {generation | generation ∈ left.generationsOf file} :=
  List.inj_on_of_nodup_map (alike.generations ▸ right.nodup_generationsOf)

/-- The refreshes that go on for alike files correspond. -/
theorem Alike.unfinished? (alike : Alike f g file left right) :
    other.unfinished? file = (own.unfinished? file).map g :=
  alike.mirrors.unfinished? alike.injective left right (left.names file)

/-- Alike files are refreshed at the same time. -/
theorem Alike.isUpdating (alike : Alike f g file left right) :
    other.isUpdating file = own.isUpdating file :=
  alike.mirrors.isUpdating alike.injective left right (left.names file)

/-- An action on the file that is possible now speaks of a refresh of the file, if of any. -/
theorem Chronicle.mem_generationsOf_of_possible (past : Chronicle own) {action : Action}
    (subject : action.subject? = some file) (possible : action.Possible own) :
    ∀ generation ∈ action.generation?, generation ∈ past.generationsOf file := by
  intro generation speaks
  have names := past.names file
  cases action with
  | resume pending =>
      cases speaks
      exact names.waiting pending possible.1 (Option.some.inj subject)
  | finish refresh answer =>
      cases speaks
      exact names.running refresh possible (Option.some.inj subject)
  | _ => cases speaks

section Subject

variable (alike : Alike f g file left right) {action : Action}
  (subject : action.subject? = some file) (possible : action.Possible own)
  (possibleThere : (action.renumber g).Possible other)

include alike subject possible

/-- An action begins corresponding refreshes for alike files. -/
theorem Alike.begun_act (next : g own.nextGeneration = other.nextGeneration) :
    ((begun (act action own).2).map Refresh.generation).map g =
      (begun (act (action.renumber g) other).2).map Refresh.generation := by
  rw [Cache.begun_act, Cache.begun_act]
  cases action with
  | schedule server document =>
      obtain rfl := Option.some.inj subject
      dsimp only [Action.renumber]
      rw [alike.isUpdating]
      split
      · rfl
      · rw [List.map_singleton, List.map_singleton, List.map_singleton, next]
  | _ => rfl

/-- An action begins the same fetches for alike files. -/
theorem Alike.fetchesOf_act :
    fetchesOf file (act (action.renumber g) other).2 = fetchesOf file (act action own).2 := by
  rw [Cache.fetchesOf_act, Cache.fetchesOf_act]
  cases action with
  | schedule server document =>
      dsimp only [Action.renumber]
      rw [alike.isUpdating]
  | _ => rfl

/-- An action returns the same calls for alike files. -/
theorem Alike.returned_act :
    Cache.returned (act (action.renumber g) other).2 = Cache.returned (act action own).2 := by
  rw [Cache.returned_act, Cache.returned_act]
  cases action with
  | succeed succeeded ticket =>
      obtain rfl := Option.some.inj subject
      dsimp only [Action.renumber]
      rw [alike.unfinished?, Option.isNone_map]
  | _ => rfl

include possibleThere

/-- An action shows one of two alike files exactly if it shows the other. -/
theorem Alike.shownBy? : right.shownBy? (action.renumber g) = left.shownBy? action := by
  cases action with
  | succeed succeeded ticket =>
      obtain rfl := Option.some.inj subject
      simp only [Action.renumber, Chronicle.shownBy?]
      rw [alike.unfinished?, Option.isNone_map]
  | finish refresh answer =>
      obtain rfl := Option.some.inj subject
      cases answer with
      | none => rfl
      | some issues =>
          have known := (left.names refresh.file).running refresh possible rfl
          have counts : refresh.renumber g ∈ right.begunSinceClear refresh.file ↔
              refresh ∈ left.begunSinceClear refresh.file := by
            rw [← left.registered_iff possible]
            exact (right.registered_iff possibleThere).symm.trans
              (alike.mirrors.registered_iff alike.injective (left.names refresh.file) known)
          simp only [Action.renumber, Chronicle.shownBy?]
          change (if refresh.renumber g ∈ right.begunSinceClear refresh.file then
            some refresh.file else none) = _
          simp only [counts]
  | _ => rfl

/-- What happens to the file in both keeps them alike, if its next refresh is numbered right. -/
theorem Alike.next (keeps : KeepsOrder f ids)
    (within : ∀ name ∈ (left.next action possible).idsOf file, name ∈ ids)
    (renamed : ((left.next action possible).idsOf file).map f =
      (right.next (action.renumber g) possibleThere).idsOf file)
    (follows : (left.idsOf file).map f = right.idsOf file)
    (next : g own.nextGeneration = other.nextGeneration) :
    Alike f g file (left.next action possible)
      (right.next (action.renumber g) possibleThere) := by
  have subjectThere : (action.renumber g).subject? = some file := by
    rw [Action.subject?_renumber, subject]
  have namesAfter := (left.next action possible).names file
  have names : Names file ids (left.generationsOf file) own :=
    (left.names file).mono fun name member => within name (left.idsOf_subset_next member)
  have reports : action.isReport = true → own.nextId ∈ ids ∧ f own.nextId = other.nextId := by
    intro reports
    rw [left.idsOf_next_of_subject subject, reports] at within
    rw [left.idsOf_next_of_subject subject, right.idsOf_next_of_subject subjectThere,
      Action.isReport_renumber, reports, List.map_append, follows] at renamed
    have last := List.append_cancel_left renamed
    exact ⟨within _ (List.mem_append_right _ (List.mem_singleton_self _)),
      List.singleton_inj.mp last⟩
  have mirrors : Mirrors f g file (act action own).1 (act (action.renumber g) other).1 := by
    refine mirrors_act alike.mirrors left right keeps alike.injective names subject possible ?_ next
    intro report reported
    apply reports
    rw [← Action.isSome_reported? own, reported]
    rfl
  have current : ∀ name ∈ ((act action own).1.current file).keys, name ∈ ids :=
    fun name member => within name (namesAfter.current name member)
  have shown : (act (action.renumber g) other).1.shown file =
      ((act action own).1.shown file).map (Diagnostic.rename f) := mirrors.shown keeps current
  refine ⟨mirrors, ?_, ?_, ?_, ?_⟩
  · rw [left.generationsOf_next_of_subject subject,
      right.generationsOf_next_of_subject subjectThere, List.map_append, alike.generations,
      alike.begun_act subject possible next]
  · rw [left.publishedOf_next_of_subject subject, right.publishedOf_next_of_subject subjectThere,
      alike.published, alike.shownBy? subject possible possibleThere, shown, List.map_append,
      List.map_map]
    rfl
  · rw [Chronicle.effects, Chronicle.effects, fetchesOf_append, fetchesOf_append, alike.fetched,
      alike.fetchesOf_act subject possible]
  · rw [left.returnedOf_next_of_subject subject, right.returnedOf_next_of_subject subjectThere,
      alike.returned, alike.returned_act subject possible]

end Subject

/-- The next refresh of either cache can be numbered right, since it has not begun. -/
theorem Alike.numbered (alike : Alike f g file left right) :
    Alike f (Function.update g own.nextGeneration other.nextGeneration) file left right := by
  have same : ∀ generation ∈ left.generationsOf file,
      g generation = Function.update g own.nextGeneration other.nextGeneration generation := by
    intro generation member
    refine (Function.update_of_ne ?_ _ _).symm
    rintro rfl
    exact left.nextGeneration_notMem_generationsOf member
  refine ⟨alike.mirrors.congr (left.names file) same, ?_, alike.published, alike.fetched,
    alike.returned⟩
  rw [← alike.generations]
  exact (List.map_congr_left same).symm

/-- Actions in the same place of the history are the same but for generations. -/
theorem Alike.renumber_eq (alike : Alike f g file left right) {action actionThere : Action}
    (subject : action.subject? = some file) (possible : action.Possible own)
    (subjectThere : actionThere.subject? = some file) (possibleThere : actionThere.Possible other)
    (same : action.renumber (left.generationsOf file).idxOf =
      actionThere.renumber (right.generationsOf file).idxOf) :
    actionThere = action.renumber g := by
  have known := left.mem_generationsOf_of_possible subject possible
  have knownThere := right.mem_generationsOf_of_possible subjectThere possibleThere
  have back : ∀ generation ∈ right.generationsOf file,
      ((right.generationsOf file)[(right.generationsOf file).idxOf generation]?).getD 0 =
        generation := by
    intro generation member
    rw [List.getElem?_idxOf member, Option.getD_some]
  calc actionThere
      = (actionThere.renumber (right.generationsOf file).idxOf).renumber
          fun place => ((right.generationsOf file)[place]?).getD 0 := by
        rw [Action.renumber_renumber]
        conv_lhs => rw [← actionThere.renumber_id]
        exact Action.renumber_congr fun generation speaks =>
          (back generation (knownThere generation speaks)).symm
    _ = (action.renumber (left.generationsOf file).idxOf).renumber
          fun place => ((right.generationsOf file)[place]?).getD 0 := by rw [same]
    _ = action.renumber g := by
        rw [Action.renumber_renumber]
        refine Action.renumber_congr fun generation speaks => ?_
        rw [Function.comp_apply, ← alike.generations, List.getElem?_map,
          List.getElem?_idxOf (known generation speaks), Option.map_some, Option.getD_some]

/-- A file to which the same has happened has as many identifiers in either chronicle. -/
theorem length_idsOf_eq (same : left.own file = right.own file) :
    (left.idsOf file).length = (right.idsOf file).length := by
  rw [left.length_idsOf, right.length_idsOf, same]

/-- The same was reported before the last action. -/
theorem map_idsOf_of_next {action actionThere : Action} {possible : action.Possible own}
    {possibleThere : actionThere.Possible other} (subject : action.subject? = some file)
    (subjectThere : actionThere.subject? = some file) (same : left.own file = right.own file)
    (renamed : ((left.next action possible).idsOf file).map f =
      (right.next actionThere possibleThere).idsOf file) :
    (left.idsOf file).map f = right.idsOf file := by
  rw [left.idsOf_next_of_subject subject, right.idsOf_next_of_subject subjectThere,
    List.map_append] at renamed
  exact List.append_inj_left renamed ((List.length_map _).trans (length_idsOf_eq same))

/-- Chronicles in which the same has happened to a file are alike. -/
theorem exists_alike (keeps : KeepsOrder f ids) (left : Chronicle own) (right : Chronicle other)
    (same : left.own file = right.own file) (within : ∀ name ∈ left.idsOf file, name ∈ ids)
    (renamed : (left.idsOf file).map f = right.idsOf file) : ∃ g, Alike f g file left right := by
  -- What happens to other files is skipped on either side until both go on with the file.
  induction left generalizing other right with
  | beginning =>
      induction right with
      | beginning => exact ⟨id, alike_beginning⟩
      | @next other right action possible ih =>
          by_cases subject : action.subject? = some file
          · rw [right.own_next_of_subject subject] at same
            simp [Chronicle.own] at same
          · rw [right.own_next_of_elsewhere subject] at same
            rw [right.idsOf_next_of_elsewhere subject] at renamed
            obtain ⟨g, alike⟩ := ih same renamed
            exact ⟨g, alike.of_elsewhere_other subject⟩
  | @next own left action possible ih =>
      by_cases subject : action.subject? = some file
      · induction right with
        | beginning =>
            rw [left.own_next_of_subject subject] at same
            simp [Chronicle.own] at same
        | @next other right actionThere possibleThere ihThere =>
            by_cases subjectThere : actionThere.subject? = some file
            · rw [left.own_next_of_subject subject, right.own_next_of_subject subjectThere] at same
              obtain ⟨before, last⟩ := List.append_inj' same rfl
              have follows := map_idsOf_of_next subject subjectThere before renamed
              obtain ⟨g, alike⟩ := ih right before
                (fun name member => within name (left.idsOf_subset_next member)) follows
              have numbered := alike.numbered
              obtain rfl := numbered.renumber_eq subject possible subjectThere possibleThere
                (List.singleton_inj.mp last)
              exact ⟨_, numbered.next subject possible possibleThere keeps within renamed follows
                (Function.update_self _ _ _)⟩
            · rw [right.own_next_of_elsewhere subjectThere] at same
              rw [right.idsOf_next_of_elsewhere subjectThere] at renamed
              obtain ⟨g, alike⟩ := ihThere same renamed
              exact ⟨g, alike.of_elsewhere_other subjectThere⟩
      · rw [left.own_next_of_elsewhere subject] at same
        rw [left.idsOf_next_of_elsewhere subject] at within renamed
        obtain ⟨g, alike⟩ := ih right same within renamed
        exact ⟨g, alike.of_elsewhere subject⟩

/-! ## What can be seen of a file -/

/-- Two chronicles agree on all that can be seen of a file, under other identifiers. -/
structure Agrees (file : Url) (rename : IssueId → IssueId) (left : Chronicle own)
    (right : Chronicle other) : Prop where
  published : right.publishedOf file =
    (left.publishedOf file).map (List.map (Diagnostic.rename rename))
  count : other.count file = own.count file
  issues : (other.current file).inOrder = (own.current file).inOrder.map (Prod.map rename id)
  taint : other.taint.get file = own.taint.get file
  isUpdating : other.isUpdating file = own.isUpdating file
  fetched : fetchesOf file right.effects = fetchesOf file left.effects
  returned : right.returnedOf file = left.returnedOf file

/-- Alike files agree once their identifiers are renamed in order. -/
theorem Alike.agrees (alike : Alike f g file left right) (keeps : KeepsOrder f ids)
    (within : ∀ name ∈ left.idsOf file, name ∈ ids) : Agrees file f left right where
  published := alike.published
  count := by rw [count, count, alike.mirrors.current, IssueSet.size_rename]
  issues := by
    rw [alike.mirrors.current, IssueSet.inOrder_rename keeps fun name member =>
      within name ((left.names file).current name member)]
  taint := alike.mirrors.taint
  isUpdating := alike.isUpdating
  fetched := alike.fetched
  returned := alike.returned

/-- Whether one renaming of a file's identifiers, in their order, makes two chronicles agree on the
file whenever the same has happened to it in both. -/
def AgreeThroughout (file : Url) (left : Chronicle own) (right : Chronicle other) : Prop :=
  ∃ rename, KeepsOrder rename (left.idsOf file) ∧
    (left.idsOf file).map rename = right.idsOf file ∧
    ∀ {before beforeThere : Cache} (past : Chronicle before) (pastThere : Chronicle beforeThere),
      past.Begins left → pastThere.Begins right → past.own file = pastThere.own file →
        Agrees file rename past pastThere

section Renaming

variable (few : left.reports.length < UInt64.size) (fewThere : right.reports.length < UInt64.size)

include few

/-- The same place in the reports on the file gives each identifier its counterpart. -/
theorem map_idsOf_of_begins {before beforeThere : Cache} {past : Chronicle before}
    {pastThere : Chronicle beforeThere} (begins : past.Begins left)
    (beginsThere : pastThere.Begins right) (same : past.own file = pastThere.own file) :
    (past.idsOf file).map (counterpart (left.idsOf file) (right.idsOf file)) =
      pastThere.idsOf file :=
  map_counterpart (left.ascending_idsOf few).nodup begins.idsOf beginsThere.idsOf
    (length_idsOf_eq same)

include fewThere

/-- Where the same has happened to a file, its identifiers correspond in order. -/
theorem keepsOrder_of_own (same : left.own file = right.own file) :
    KeepsOrder (counterpart (left.idsOf file) (right.idsOf file)) (left.idsOf file) :=
  keepsOrder_counterpart (left.ascending_idsOf few) (right.ascending_idsOf fewThere)
    (length_idsOf_eq same)

/-- A file to which the same has happened is alike, for some renaming of identifiers and
generations. -/
theorem exists_alike_of_own (same : left.own file = right.own file) :
    ∃ f g, Alike f g file left right :=
  ⟨_, exists_alike (keepsOrder_of_own few fewThere same) left right same (fun _ member => member)
    (map_idsOf_of_begins few .refl .refl same)⟩

/-- A file to which the same has happened agrees at all corresponding points of the chronicles. -/
theorem agreeThroughout_of_own (same : left.own file = right.own file) :
    AgreeThroughout file left right := by
  have keeps := keepsOrder_of_own few fewThere same
  refine ⟨_, keeps, map_idsOf_of_begins few .refl .refl same, ?_⟩
  intro before beforeThere past pastThere begins beginsThere sameBefore
  have within : ∀ name ∈ past.idsOf file, name ∈ left.idsOf file :=
    fun name member => begins.idsOf.subset member
  obtain ⟨g, alike⟩ := exists_alike keeps past pastThere sameBefore within
    (map_idsOf_of_begins few begins beginsThere sameBefore)
  exact alike.agrees keeps within

end Renaming

end IssueRelay.Cache
