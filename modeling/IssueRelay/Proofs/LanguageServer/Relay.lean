import IssueRelay.LanguageServer.Event
import IssueRelay.Proofs.Cache.Operation

/-!
# What the server relays

What happens to the cache of a server changes nothing else of it but the fetches that are open, and
an editor is shown the lists that the cache publishes, in the same order.
-/

namespace IssueRelay.LanguageServer

open Transition

/-- The lists of diagnostics that an editor is shown among effects, with their files. -/
def publications (effects : List Effect) : List (Url × List Diagnostic) :=
  effects.filterMap fun
    | .publish file diagnostics => some (file, diagnostics)
    | _ => none

/-- The publications of effects are found part by part. -/
@[simp] theorem publications_append (left right : List Effect) :
    publications (left ++ right) = publications left ++ publications right :=
  List.filterMap_append

/-- The list of diagnostics that an editor was shown last of a file. -/
def lastPublished? (file : Url) (effects : List Effect) : Option (List Diagnostic) :=
  ((publications effects).reverse.find? (·.1 = file)).map Prod.snd

variable {file : Url} {before after : List Effect}

/-- A file for which nothing is published keeps the list that was published last. -/
theorem lastPublished?_append_of_unpublished
    (unpublished : ∀ publication ∈ publications after, publication.1 ≠ file) :
    lastPublished? file (before ++ after) = lastPublished? file before := by
  have absent : (publications after).reverse.find? (·.1 = file) = none := by
    apply List.find?_eq_none.mpr
    intro publication published
    simpa using unpublished publication (List.mem_reverse.mp published)
  rw [lastPublished?, publications_append, List.reverse_append, List.find?_append, absent]
  rfl

/-- A list that is published for a file is the last one. -/
theorem lastPublished?_append_of_published {list : List Diagnostic}
    (published : publications after = [(file, list)]) :
    lastPublished? file (before ++ after) = some list := by
  simp [lastPublished?, published]

variable (server : LanguageServer)

/-- Passing on an effect of the cache changes the open fetches only. -/
theorem relay_fst (effect : Cache.Effect) :
    ∃ fetches nextFetch, (relay effect server).1 = { server with fetches, nextFetch } := by
  cases effect <;> exact ⟨_, _, rfl⟩

/-- Passing on an effect of the cache publishes what the effect publishes. -/
theorem publications_relay (effect : Cache.Effect) :
    publications (relay effect server).2 = Cache.publications [effect] := by
  cases effect <;> rfl

/-- Passing on effects of the cache changes the open fetches only. -/
theorem relays_fst (effects : List Cache.Effect) :
    ∃ fetches nextFetch, (each relay effects server).1 = { server with fetches, nextFetch } := by
  induction effects generalizing server with
  | nil => exact ⟨_, _, rfl⟩
  | cons effect rest ih =>
      obtain ⟨fetches, nextFetch, first⟩ := relay_fst server effect
      rw [each_cons, andThen_apply, first]
      exact ih _

/-- Passing on effects of the cache publishes what they publish. -/
theorem publications_relays (effects : List Cache.Effect) :
    publications (each relay effects server).2 = Cache.publications effects := by
  induction effects generalizing server with
  | nil => rfl
  | cons effect rest ih =>
      rw [each_cons, andThen_apply, publications_append, publications_relay, ih,
        ← Cache.publications_append]
      rfl

/-- What happens in the cache changes, beside it, the open fetches only. -/
theorem onCache_fst (step : Transition Cache Cache.Effect) :
    ∃ fetches nextFetch, (onCache step server).1 =
      { server with cache := (step server.cache).1, fetches, nextFetch } :=
  relays_fst { server with cache := (step server.cache).1 } (step server.cache).2

/-- What happens in the cache publishes what the cache publishes. -/
theorem publications_onCache (step : Transition Cache Cache.Effect) :
    publications (onCache step server).2 = Cache.publications (step server.cache).2 :=
  publications_relays { server with cache := (step server.cache).1 } (step server.cache).2

/-- A change of the cache without effects is a change of the server without effects. -/
theorem onCache_of_silent {step : Transition Cache Cache.Effect} {cache : Cache}
    (silent : step server.cache = (cache, [])) :
    onCache step server = ({ server with cache }, []) := by
  rw [onCache, silent]
  rfl

end IssueRelay.LanguageServer
