import IssueRelay.Proofs.Cache.Coherence

/-!
# The first secret

An editor is told once that a secret has been found. Whether and when depends on what it is shown
and on what is said of earlier sessions, in order (`IssueRelay.Cache.Chronicle.sightings`): the
message stands directly before the first list that is made from an unresolved secret, unless an
earlier session is said before to have announced one
(`IssueRelay.Cache.first_secret_announced_once`).
-/

namespace IssueRelay

/-- A secret is an issue of the rules of one repository. -/
theorem Issue.isSecret_iff (issue : Issue) :
    issue.isSecret = true ↔
      issue.ruleKey = "secrets" ∨ ∃ rule, issue.ruleKey = "secrets:" ++ rule := by
  have split := List.takeWhile_append_dropWhile (p := (· ≠ ':')) (l := issue.ruleKey.toList)
  rw [isSecret, repository, decide_eq_true_eq, ← String.toList_inj, String.toList_ofList]
  constructor
  · intro secret
    rw [secret] at split
    cases rest : issue.ruleKey.toList.dropWhile (· ≠ ':') with
    | nil =>
        rw [rest, List.append_nil] at split
        exact .inl (String.toList_inj.mp split.symm)
    | cons colon rule =>
        have stops := List.head?_dropWhile_not (· ≠ ':') issue.ruleKey.toList
        rw [rest] at stops
        have same : colon = ':' := by simpa using stops
        rw [rest, same] at split
        refine .inr ⟨String.ofList rule, String.toList_inj.mp ?_⟩
        rw [← split, String.toList_append, String.toList_ofList (l := rule)]
        exact (List.append_assoc "secrets".toList [':'] rule).symm
  · rintro (whole | ⟨rule, prefixed⟩)
    · rw [whole]
      rfl
    · rw [prefixed, String.toList_append]
      rfl

namespace Cache

open Transition

/-- Whether a set of issues contains a secret that nobody has resolved. -/
def BearsSecret (issues : IssueSet) : Prop :=
  ∃ id found, issues.get? id = some found ∧ found.status.resolved = false ∧
    (found.issue.ruleKey = "secrets" ∨ ∃ rule, found.issue.ruleKey = "secrets:" ++ rule)

/-- A set shows a secret exactly if it has an unresolved issue of a rule for secrets. -/
theorem showsSecret_iff {issues : IssueSet} (distinct : issues.Distinct) :
    issues.showsSecret = true ↔ BearsSecret issues := by
  rw [IssueSet.showsSecret, List.any_eq_true, BearsSecret]
  constructor
  · rintro ⟨⟨id, found⟩, entry, secret⟩
    obtain ⟨unresolved, isSecret⟩ := Bool.and_eq_true_iff.mp secret
    exact ⟨id, found, distinct.get?_eq_some_iff.mpr entry, by simpa using unresolved,
      found.issue.isSecret_iff.mp isSecret⟩
  · rintro ⟨id, found, present, unresolved, secret⟩
    refine ⟨(id, found), distinct.get?_eq_some_iff.mp present, ?_⟩
    rw [Bool.and_eq_true_iff, unresolved]
    exact ⟨rfl, found.issue.isSecret_iff.mpr secret⟩

/-! ## Messages -/

/-- What an editor is told: that a secret has been found, or the diagnostics of a file. -/
inductive Message
  | secretDetected
  | list (file : Url) (diagnostics : List Diagnostic)

/-- Whether a message says that a secret has been found. -/
def Message.isAnnouncement : Message → Bool
  | .secretDetected => true
  | .list _ _ => false

/-- What an editor is told by effects, in order. -/
def messages (effects : List Effect) : List Message :=
  effects.filterMap fun
    | .announceSecret => some .secretDetected
    | .publish file diagnostics => some (.list file diagnostics)
    | _ => none

@[simp] theorem messages_append (left right : List Effect) :
    messages (left ++ right) = messages left ++ messages right :=
  List.filterMap_append

/-- What bears on the announcement: what is said of earlier sessions, and the lists that are shown,
with the local issues that each is made from. -/
inductive Sighting
  | seeded (seen : Bool)
  | shown (file : Url) (issues : IssueSet) (diagnostics : List Diagnostic)

namespace Sighting

/-- Whether something shows a secret. -/
def showsSecret : Sighting → Bool
  | .seeded _ => false
  | .shown _ issues _ => issues.showsSecret

/-- Whether there is nothing to announce any more after something. -/
def settles : Sighting → Bool
  | .seeded seen => seen
  | .shown _ issues _ => issues.showsSecret

/-- The list that is shown. -/
def list? : Sighting → Option Message
  | .seeded _ => none
  | .shown file _ diagnostics => some (.list file diagnostics)

end Sighting

/-- The lists among what bears on the announcement. -/
def lists (sightings : List Sighting) : List Message :=
  sightings.filterMap Sighting.list?

@[simp] theorem lists_append (left right : List Sighting) :
    lists (left ++ right) = lists left ++ lists right :=
  List.filterMap_append

/-- Lists are no announcements. -/
theorem countP_lists (sightings : List Sighting) :
    (lists sightings).countP Message.isAnnouncement = 0 := by
  apply List.countP_eq_zero.mpr
  intro message member
  obtain ⟨sighting, _, shown⟩ := List.mem_filterMap.mp member
  cases sighting with
  | seeded seen => cases shown
  | shown file issues diagnostics =>
      obtain rfl := Option.some.inj shown
      exact Bool.false_ne_true

/-- An announcement, if there is one to be made. -/
def announcement (isDue : Bool) : List Message :=
  if isDue then [.secretDetected] else []

/-! ## What actions announce -/

/-- What an outcome shows is announced before if it is the first secret, and remembered. -/
structure Announces (before : Cache) (sighting : Option Sighting)
    (outcome : Cache × List Effect) : Prop where
  seen : outcome.1.secretSeen = (before.secretSeen || sighting.any Sighting.settles)
  told : messages outcome.2 =
    announcement (!before.secretSeen && sighting.any Sighting.showsSecret) ++
      lists sighting.toList

variable (cache : Cache) (file : Url)

/-- Showing issues announces a secret if they bear one and none has been seen. -/
theorem display_announces (issues : IssueSet) (taint : List TaintIssue) :
    Announces cache (some (.shown file issues (Diagnostic.ofIssues file issues taint)))
      (display file issues taint cache) := by
  refine ⟨by rw [display_fst]; rfl, ?_⟩
  unfold display
  cases secret : issues.showsSecret <;> cases seen : cache.secretSeen <;>
    simp [messages, announcement, lists, Sighting.showsSecret, Sighting.list?, secret]

/-- What a cache shows of a file. -/
def sightingOf : Sighting :=
  .shown file (cache.current file) (cache.shown file)

/-- A publication shows what it leaves. -/
theorem publish_announces :
    Announces cache (some ((publish file cache).1.sightingOf file)) (publish file cache) := by
  obtain ⟨seen, left⟩ := publish_fst cache file
  have same : (publish file cache).1.sightingOf file = cache.sightingOf file := by
    rw [left]
    rfl
  rw [same]
  exact display_announces cache file (cache.current file) (cache.taint.get file)

variable {cache}

section Parts

variable {first second : Transition Cache Effect} {sighting : Option Sighting}

/-- What shows nothing before does not matter. -/
theorem Announces.after (quiet : Announces cache none (first cache))
    (announces : Announces (first cache).1 sighting (second (first cache).1)) :
    Announces cache sighting (first.andThen second cache) := by
  have kept : (first cache).1.secretSeen = cache.secretSeen := by simpa using quiet.seen
  have silent : messages (first cache).2 = [] := by
    simpa [announcement, lists] using quiet.told
  rw [andThen_apply]
  refine ⟨?_, ?_⟩
  · rw [announces.seen, kept]
  · rw [messages_append, silent, List.nil_append, announces.told, kept]

/-- What shows nothing after does not matter. -/
theorem Announces.before (announces : Announces cache sighting (first cache))
    (quiet : Announces (first cache).1 none (second (first cache).1)) :
    Announces cache sighting (first.andThen second cache) := by
  have kept : (second (first cache).1).1.secretSeen = (first cache).1.secretSeen := by
    simpa using quiet.seen
  have silent : messages (second (first cache).1).2 = [] := by
    simpa [announcement, lists] using quiet.told
  rw [andThen_apply]
  refine ⟨?_, ?_⟩
  · rw [kept, announces.seen]
  · rw [messages_append, silent, List.append_nil, announces.told]

end Parts

/-- What neither tells the editor anything nor touches the record announces nothing. -/
theorem announces_none {outcome : Cache × List Effect}
    (kept : outcome.1.secretSeen = cache.secretSeen) (silent : messages outcome.2 = []) :
    Announces cache none outcome :=
  ⟨by simpa using kept, by simpa [announcement, lists] using silent⟩

/-- What an action says of earlier sessions. -/
def Action.seed? : Action → Option Bool
  | .seedSecretSeen seen => some seen
  | _ => none

/-- A commit announces what it shows. -/
theorem commit_announces (file : Url) :
    Announces cache (some ((commit file cache).1.sightingOf file)) (commit file cache) := by
  have kept : (commitIssues file cache).secretSeen = cache.secretSeen := by
    unfold commitIssues
    split <;> rfl
  exact (announces_none kept rfl).after (publish_announces (commitIssues file cache) file)

/-- A call that returns tells the editor nothing more. -/
theorem returned_announces (ticket : Nat) :
    Announces cache none (emit [.returned ticket] cache) :=
  announces_none rfl rfl

/-- An answer that counts is shown with the issues of its file, after a remark. -/
theorem applyRefresh_announces {refresh : Refresh} (issues : List TaintIssue)
    (registered : cache.registered.get? refresh.file = some refresh.generation) :
    Announces cache (some ((applyRefresh refresh issues cache).1.sightingOf refresh.file))
      (applyRefresh refresh issues cache) := by
  have silent : ∀ cache : Cache, Announces cache none (remarkTaint refresh.file cache) := by
    intro cache
    apply announces_none (by rw [remarkTaint_fst])
    rw [remarkTaint, inspect_apply]
    cases cache.taint.get refresh.file <;> rfl
  have reloads : Announces cache none (change (reloadTaint refresh.file issues) cache) :=
    announces_none rfl rfl
  rw [applyRefresh, inspect_apply, if_pos registered]
  exact reloads.after ((silent _).after (publish_announces _ refresh.file))

namespace Chronicle

/-- What bears on the announcement in an action: what it shows, or what it says of earlier
sessions. -/
def sighting? (past : Chronicle cache) (action : Action) : Option Sighting :=
  ((past.shownBy? action).map (act action cache).1.sightingOf).or (action.seed?.map .seeded)

/-- What has borne on the announcement, in order. -/
def sightings : {cache : Cache} → Chronicle cache → List Sighting
  | _, .beginning => []
  | _, .next past action _ => past.sightings ++ (past.sighting? action).toList

section Acts

variable {past : Chronicle cache} {action : Action}

/-- An action that shows a file announces what it shows of it. -/
theorem announces_of_shown {file : Url} (shows : past.shownBy? action = some file)
    (announces : Announces cache (some ((act action cache).1.sightingOf file)) (act action cache)) :
    Announces cache (past.sighting? action) (act action cache) := by
  rw [sighting?, shows]
  exact announces

/-- An action that shows nothing announces nothing. -/
theorem announces_of_hidden (hidden : past.shownBy? action = none) (unsaid : action.seed? = none)
    (announces : Announces cache none (act action cache)) :
    Announces cache (past.sighting? action) (act action cache) := by
  rw [sighting?, hidden, unsaid]
  exact announces

end Acts

/-- An action announces the first secret before it shows it. -/
theorem act_announces (past : Chronicle cache) (action : Action)
    (possible : action.Possible cache) :
    Announces cache (past.sighting? action) (act action cache) := by
  cases action with
  | start | fail => exact announces_of_hidden rfl rfl (announces_none rfl rfl)
  | seedSecretSeen seen =>
      refine ⟨rfl, ?_⟩
      cases seen <;> simp [act, messages, announcement, lists, sighting?, shownBy?, Action.seed?,
        Sighting.showsSecret, Sighting.list?]
  | report document issue =>
      apply announces_of_shown rfl
      have adds : Announces cache none
          (announceId.andThen (change (addIssue document issue)) cache) := announces_none rfl rfl
      exact adds.after (publish_announces (addIssue document issue cache) document.uri)
  | reportTracked document issue known =>
      apply announces_of_shown rfl
      have kept : (trackIssues document.uri known (addIssue document issue cache)).secretSeen =
          cache.secretSeen := by
        unfold trackIssues
        split <;> rfl
      have adds : Announces cache none
          (announceId.andThen ((change (addIssue document issue)).andThen
            (change (trackIssues document.uri known))) cache) := announces_none kept rfl
      exact adds.after (publish_announces _ document.uri)
  | succeed file ticket =>
      cases unfinished : cache.unfinished? file with
      | some generation =>
          apply announces_of_hidden (by simp [shownBy?, unfinished]) rfl
          rw [act, succeed_of_unfinished cache ticket unfinished]
          exact announces_none rfl rfl
      | none =>
          apply announces_of_shown (by simp [shownBy?, unfinished]; rfl)
          rw [act, succeed_of_finished cache ticket unfinished]
          exact (commit_announces file).before (returned_announces ticket)
  | resume pending =>
      apply announces_of_shown rfl
      have waited : Announces cache none
          (change (fun cache => { cache with waiting := cache.waiting.erase pending }) cache) :=
        announces_none rfl rfl
      exact waited.after
        ((commit_announces pending.file).before (returned_announces pending.ticket))
  | clear file =>
      apply announces_of_shown rfl
      have same : sightingOf (act (.clear file) cache).1 file =
          .shown file ∅ (Diagnostic.ofIssues file ∅ []) := by
        rw [act, clear_fst]
        simp [sightingOf, shown, current]
      have forgets : Announces cache none (change (fun cache =>
        { cache with
          registered := cache.registered.erase file
          committed := cache.committed.erase file
          inProgress := cache.inProgress.erase file
          taint := cache.taint.remove file }) cache) := announces_none rfl rfl
      rw [same]
      exact forgets.after (display_announces _ file ∅ [])
  | schedule server document =>
      apply announces_of_hidden rfl rfl
      cases updating : cache.isUpdating document.uri with
      | true =>
          rw [act, scheduleOne_of_updating cache server updating]
          exact announces_none rfl rfl
      | false =>
          rw [act, scheduleOne_of_idle cache server updating]
          exact announces_none rfl rfl
  | finish refresh answer =>
      cases answer with
      | none => exact announces_of_hidden rfl rfl (announces_none rfl rfl)
      | some issues =>
          by_cases registered : cache.registered.get? refresh.file = some refresh.generation
          · have shows : past.shownBy? (.finish refresh (some issues)) = some refresh.file :=
              if_pos ((past.registered_iff possible).mp registered)
            have ends : Announces (applyRefresh refresh issues cache).1 none
                (change (fun cache => { cache with running := cache.running.filter (· ≠ refresh) })
                  (applyRefresh refresh issues cache).1) := announces_none rfl rfl
            exact announces_of_shown shows ((applyRefresh_announces issues registered).before ends)
          · apply announces_of_hidden _ rfl
            · rw [act, endRefresh_of_unregistered cache _ registered]
              exact announces_none rfl rfl
            · exact if_neg (mt (past.registered_iff possible).mpr registered)

/-- The record says whether there is nothing to announce any more. -/
theorem secretSeen_eq (past : Chronicle cache) :
    cache.secretSeen = past.sightings.any Sighting.settles := by
  induction past with
  | beginning => rfl
  | @next cache past action possible ih =>
      rw [(past.act_announces action possible).seen, sightings, List.any_append, ih]
      cases past.sighting? action <;> simp

/-- What one more action tells the editor: the announcement, if it is the first sighting of a
secret, and then the list that is shown. -/
theorem messages_next (past : Chronicle cache) (action : Action)
    (possible : action.Possible cache) :
    messages (past.next action possible).effects =
      messages past.effects ++
        (announcement (!past.sightings.any Sighting.settles &&
          (past.sighting? action).any Sighting.showsSecret) ++
            lists (past.sighting? action).toList) := by
  rw [effects, messages_append, (past.act_announces action possible).told, secretSeen_eq]

/-- As long as no secret is shown, the editor is told nothing but the lists. -/
theorem messages_of_unshown (past : Chronicle cache)
    (unshown : ∀ sighting ∈ past.sightings, sighting.showsSecret = false) :
    messages past.effects = lists past.sightings := by
  induction past with
  | beginning => rfl
  | @next cache past action possible ih =>
      have earlier := ih fun sighting member => unshown sighting (List.mem_append_left _ member)
      have last : (past.sighting? action).any Sighting.showsSecret = false := by
        cases now : past.sighting? action with
        | none => rfl
        | some sighting =>
            apply unshown
            rw [sightings, now]
            exact List.mem_append_right _ (List.mem_singleton_self sighting)
      rw [messages_next, earlier, last, Bool.and_false, sightings, lists_append]
      rfl

/-- The first secret that is shown is announced, if that is not settled before, and then nothing is
announced any more. -/
theorem messages_of_shown (past : Chronicle cache) {before after : List Sighting}
    {sighting : Sighting} (split : past.sightings = before ++ sighting :: after)
    (secret : sighting.showsSecret = true)
    (first : ∀ earlier ∈ before, earlier.showsSecret = false) :
    messages past.effects =
      lists before ++ announcement (!before.any Sighting.settles) ++ lists (sighting :: after) := by
  induction past generalizing after with
  | beginning => simp [sightings] at split
  | @next cache past action possible ih =>
      rw [sightings] at split
      cases now : past.sighting? action with
      | none =>
          rw [now, Option.toList_none, List.append_nil] at split
          rw [messages_next, ih split, now]
          simp [announcement, lists]
      | some last =>
          rw [now, Option.toList_some] at split
          rw [messages_next, now]
          rcases List.eq_nil_or_concat after with rfl | ⟨rest, final, rfl⟩
          · obtain ⟨rfl, same⟩ := List.append_inj' split rfl
            obtain rfl := List.singleton_inj.mp same
            rw [past.messages_of_unshown first]
            simp [secret]
          · -- The first secret was shown before, so it has settled the matter already.
            rw [List.concat_eq_append, ← List.cons_append, ← List.append_assoc] at split
            obtain ⟨earlier, same⟩ := List.append_inj' split rfl
            obtain rfl := List.singleton_inj.mp same
            have settled : past.sightings.any Sighting.settles = true := by
              rw [earlier]
              cases sighting <;> simp_all [Sighting.showsSecret, Sighting.settles]
            rw [ih earlier, settled, List.concat_eq_append, ← List.cons_append, lists_append,
              List.append_assoc]
            rfl

/-- What is shown is shown as a reader sees it, and no reader sees an identifier twice. -/
theorem distinct_of_sighting (past : Chronicle cache) {file : Url} {issues : IssueSet}
    {diagnostics : List Diagnostic} (shown : .shown file issues diagnostics ∈ past.sightings) :
    issues.Distinct := by
  induction past with
  | beginning => cases shown
  | @next cache past action possible ih =>
      rw [sightings] at shown
      rcases List.mem_append.mp shown with earlier | last
      · exact ih earlier
      · rcases Option.or_eq_some_iff.mp (Option.mem_toList.mp last) with shows | ⟨_, said⟩
        · obtain ⟨shownFile, _, same⟩ := Option.map_eq_some_iff.mp shows
          obtain ⟨rfl, rfl, _⟩ := Sighting.shown.inj same
          exact ((past.next action possible).refines shownFile).current_holds.distinct
        · obtain ⟨_, _, same⟩ := Option.map_eq_some_iff.mp said
          cases same

end Chronicle

/-- Where the first unresolved secret is shown among what has borne on the announcement. -/
structure FirstSecret (sightings before : List Sighting) (file : Url) (issues : IssueSet)
    (diagnostics : List Diagnostic) (after : List Sighting) : Prop where
  split : sightings = before ++ .shown file issues diagnostics :: after
  bears : BearsSecret issues
  first : ∀ file issues diagnostics, .shown file issues diagnostics ∈ before → ¬ BearsSecret issues

namespace Chronicle

variable {cache : Cache} (past : Chronicle cache)

/-- What shows a secret is a list that is made from one. -/
theorem showsSecret_iff_bears {sighting : Sighting} (member : sighting ∈ past.sightings) :
    sighting.showsSecret = true ↔
      ∃ file issues diagnostics, sighting = .shown file issues diagnostics ∧
        BearsSecret issues := by
  cases sighting with
  | seeded seen => simp [Sighting.showsSecret]
  | shown file issues diagnostics =>
      rw [Sighting.showsSecret, showsSecret_iff (past.distinct_of_sighting member)]
      constructor
      · exact fun bears => ⟨file, issues, diagnostics, rfl, bears⟩
      · rintro ⟨_, _, _, same, bears⟩
        cases same
        exact bears

/-- What comes before the first secret shows none. -/
theorem unshown_of_first {before : List Sighting} (among : before ⊆ past.sightings)
    (first : ∀ file issues diagnostics,
      .shown file issues diagnostics ∈ before → ¬ BearsSecret issues) :
    ∀ earlier ∈ before, earlier.showsSecret = false := by
  intro earlier member
  apply Bool.eq_false_iff.mpr
  intro secret
  obtain ⟨_, _, _, rfl, bears⟩ := (past.showsSecret_iff_bears (among member)).mp secret
  exact first _ _ _ member bears

/-- As long as no secret is shown, only an earlier session can have announced one. -/
theorem any_settles_iff {before : List Sighting}
    (unshown : ∀ earlier ∈ before, earlier.showsSecret = false) :
    before.any Sighting.settles = true ↔ .seeded true ∈ before := by
  rw [List.any_eq_true]
  constructor
  · rintro ⟨sighting, member, settles⟩
    cases sighting with
    | seeded seen => exact settles ▸ member
    | shown file issues diagnostics =>
        exact (Bool.eq_false_iff.mp (unshown _ member) settles).elim
  · exact fun member => ⟨_, member, rfl⟩

/-- The messages around the first secret that is shown. -/
theorem messages_of_first {before after : List Sighting} {file : Url} {issues : IssueSet}
    {diagnostics : List Diagnostic}
    (first : FirstSecret past.sightings before file issues diagnostics after) :
    (.seeded true ∉ before →
      messages past.effects =
        lists before ++ .secretDetected :: .list file diagnostics :: lists after) ∧
      (.seeded true ∈ before →
        messages past.effects = lists before ++ .list file diagnostics :: lists after) := by
  obtain ⟨split, bears, unborne⟩ := first
  have among : before ⊆ past.sightings := split ▸ List.subset_append_left _ _
  have unshown := past.unshown_of_first among unborne
  have member : .shown file issues diagnostics ∈ past.sightings := by simp [split]
  have secret := (past.showsSecret_iff_bears member).mpr ⟨file, issues, diagnostics, rfl, bears⟩
  have told := past.messages_of_shown split secret unshown
  constructor
  · intro unsaid
    rw [told, Bool.eq_false_iff.mpr (mt (any_settles_iff unshown).mp unsaid), List.append_assoc]
    rfl
  · intro said
    rw [told, (any_settles_iff unshown).mpr said, List.append_assoc]
    rfl

/-- Either no secret has been shown, or one has been shown first. -/
theorem unshown_or_first :
    (∀ sighting ∈ past.sightings, sighting.showsSecret = false) ∨
      ∃ before file issues diagnostics after,
        FirstSecret past.sightings before file issues diagnostics after := by
  cases found : past.sightings.find? Sighting.showsSecret with
  | none =>
      refine .inl fun sighting member => ?_
      simpa using List.find?_eq_none.mp found sighting member
  | some sighting =>
      obtain ⟨secret, before, after, split, unshown⟩ := List.find?_eq_some_iff_append.mp found
      have member : sighting ∈ past.sightings := List.mem_of_find?_eq_some found
      obtain ⟨file, issues, diagnostics, rfl, bears⟩ :=
        (past.showsSecret_iff_bears member).mp secret
      refine .inr ⟨before, file, issues, diagnostics, after, split, bears, ?_⟩
      intro other others list shown borne
      have among : .shown other others list ∈ past.sightings :=
        split ▸ List.mem_append_left _ shown
      have shows := (past.showsSecret_iff_bears among).mpr ⟨other, others, list, rfl, borne⟩
      simpa [shows] using unshown _ shown

end Chronicle

/-- **The first secret.** If a list has been shown that is made from an unresolved secret, the
editor is told so directly before the first of them and never else, unless it was said before that
an earlier session has done so; then, and if no such list has been shown, it is told nothing but
the lists. -/
theorem first_secret_announced_once {cache : Cache} (past : Chronicle cache) :
    (∀ before file issues diagnostics after,
      FirstSecret past.sightings before file issues diagnostics after →
        (.seeded true ∉ before →
          messages past.effects =
            lists before ++ .secretDetected :: .list file diagnostics :: lists after) ∧
        (.seeded true ∈ before →
          messages past.effects = lists before ++ .list file diagnostics :: lists after)) ∧
      ((∀ file issues diagnostics, .shown file issues diagnostics ∈ past.sightings →
          ¬ BearsSecret issues) →
        messages past.effects = lists past.sightings) ∧
      (messages past.effects).countP Message.isAnnouncement ≤ 1 ∧
      (.secretDetected ∈ messages past.effects ↔
        ∃ before file issues diagnostics after,
          FirstSecret past.sightings before file issues diagnostics after ∧
            .seeded true ∉ before) := by
  have unannounced : ∀ sightings, .secretDetected ∉ lists sightings := by
    intro sightings member
    exact List.countP_eq_zero.mp (countP_lists sightings) _ member rfl
  refine ⟨fun before file issues diagnostics after => past.messages_of_first, fun unborne => ?_,
    ?_, ?_⟩
  · exact past.messages_of_unshown (past.unshown_of_first (List.Subset.refl _) unborne)
  · rcases past.unshown_or_first with unshown | ⟨before, file, issues, diagnostics, after, first⟩
    · rw [past.messages_of_unshown unshown, countP_lists]
      exact Nat.zero_le 1
    · obtain ⟨announced, silent⟩ := past.messages_of_first first
      by_cases said : .seeded true ∈ before
      · rw [silent said, List.countP_append, List.countP_cons, countP_lists, countP_lists]
        exact Nat.zero_le 1
      · rw [announced said, List.countP_append, List.countP_cons, List.countP_cons, countP_lists,
          countP_lists]
        exact Nat.le_refl 1
  · constructor
    · intro told
      rcases past.unshown_or_first with unshown | ⟨before, file, issues, diagnostics, after, first⟩
      · rw [past.messages_of_unshown unshown] at told
        exact (unannounced _ told).elim
      · refine ⟨before, file, issues, diagnostics, after, first, fun said => ?_⟩
        rw [(past.messages_of_first first).2 said, List.mem_append, List.mem_cons] at told
        rcases told with earlier | same | later
        · exact unannounced _ earlier
        · cases same
        · exact unannounced _ later
    · rintro ⟨before, file, issues, diagnostics, after, first, unsaid⟩
      rw [(past.messages_of_first first).1 unsaid]
      exact List.mem_append_right _ List.mem_cons_self

end Cache
end IssueRelay
