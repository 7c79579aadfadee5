import Mathlib
import IssueRelay.Document.Basic
import IssueRelay.Proofs.Url.Reading

/-!
# Paths relative to the root of a workspace

A file below the root is known by the steps that lead to it from there, whichever way the root is
spelled; any other document is known by the path of its URL as written
(`IssueRelay.relativePath_strips_root`). Whether a file lies below the root is asked of the path
that its URL spells and not of the scheme, so the root is also taken from the path of a URL that is
none of a file (`IssueRelay.root_taken_from_other_scheme`).
-/

namespace IssueRelay

open FilePath (Component joined)

/-! ## Below the root and elsewhere -/

namespace Url

/-- The path of a URL as written, without the slashes it begins with. -/
def bare (uri : Url) : String :=
  withoutLeadingSlashes uri.path.text

/-- Whether steps lead from a root to the file that a URL names. -/
def LiesBelow (uri : Url) (root : FilePath) (rest : List Component) : Prop :=
  uri.IsLocal ∧ uri.decodedPath.components = root.components ++ rest

end Url

variable {uri : Url} {root : FilePath} {rest : List Component}

/-- Without a root, a document is known by the path of its URL. -/
theorem relativePath_none (uri : Url) : relativePath none uri = uri.bare :=
  rfl

/-- Below the root, a document is known by the steps that lead to it. -/
theorem relativePath_of_liesBelow (below : uri.LiesBelow root rest) :
    relativePath (some root) uri = joined rest := by
  obtain ⟨path, named, same⟩ := Url.filePath?_of_isLocal below.1
  have steps : path.below? root = some rest :=
    FilePath.below?_eq_some_iff.mpr (same.trans below.2)
  simp [relativePath, named, steps, joined]

/-- Elsewhere, a document is known by the path of its URL. -/
theorem relativePath_of_not_liesBelow (apart : ∀ rest, ¬uri.LiesBelow root rest) :
    relativePath (some root) uri = uri.bare := by
  have none : (uri.filePath?.bind fun path => path.below? root) = none := by
    refine Option.eq_none_iff_forall_ne_some.mpr fun rest found => ?_
    obtain ⟨path, named, steps⟩ := Option.bind_eq_some_iff.mp found
    have isLocal : uri.IsLocal := by
      by_contra elsewhere
      rw [Url.filePath?_of_not_isLocal elsewhere] at named
      cases named
    obtain ⟨other, again, same⟩ := Url.filePath?_of_isLocal isLocal
    cases named.symm.trans again
    exact apart rest ⟨isLocal, same.symm.trans (FilePath.below?_eq_some_iff.mp steps)⟩
  simp only [relativePath, Option.bind_eq_bind, Option.bind_some, none]
  rfl

/-- A document is known in one of the two ways. -/
theorem relativePath_cases (root : FilePath) (uri : Url) :
    (∃ rest, uri.LiesBelow root rest ∧ relativePath (some root) uri = joined rest) ∨
      (∀ rest, ¬uri.LiesBelow root rest) ∧ relativePath (some root) uri = uri.bare := by
  by_cases below : ∃ rest, uri.LiesBelow root rest
  · obtain ⟨rest, below⟩ := below
    exact .inl ⟨rest, below, relativePath_of_liesBelow below⟩
  · have apart := not_exists.mp below
    exact .inr ⟨apart, relativePath_of_not_liesBelow apart⟩

/-- With a root, a document is known by the path of its URL exactly if it does not lie below the
root or its steps spell the same text. -/
theorem relativePath_eq_bare_iff :
    relativePath (some root) uri = uri.bare ↔
      ∀ rest, uri.LiesBelow root rest → joined rest = uri.bare := by
  constructor
  · exact fun same rest below => (relativePath_of_liesBelow below).symm.trans same
  · intro same
    rcases relativePath_cases root uri with ⟨rest, below, known⟩ | ⟨_, known⟩
    · exact known.trans (same rest below)
    · exact known

/-! ## Steps below a root -/

/-- The steps below an absolute root are steps of the path that the URL spells. -/
theorem mem_steps_of_liesBelow (rooted : root.isRooted = true) (below : uri.LiesBelow root rest)
    {step : Component} (member : step ∈ rest) :
    step ∈ FilePath.steps uri.decodedPath.octets := by
  have whole := below.2
  rw [FilePath.components_of_rooted (Url.isRooted_decodedPath below.1),
    FilePath.components_of_rooted rooted, List.cons_append] at whole
  rw [(List.cons.inj whole).2]
  exact List.mem_append_right _ member

/-- What leads from an absolute root to a document are steps. -/
theorem isStep_of_liesBelow (rooted : root.isRooted = true) (below : uri.LiesBelow root rest) :
    ∀ step ∈ rest, step.IsStep :=
  fun _ member => FilePath.isStep_of_mem_steps (mem_steps_of_liesBelow rooted below member)

/-- If the path that a URL spells is well-formed, so are the steps below a root. -/
theorem encode_text_of_liesBelow (rooted : root.isRooted = true) (below : uri.LiesBelow root rest)
    {text : String} (wellFormed : uri.decodedPath = .ofText text) :
    ∀ step ∈ rest, Utf8.encode step.text = step.octets := by
  intro step member
  have listed := mem_steps_of_liesBelow rooted below member
  rw [wellFormed] at listed
  exact FilePath.encode_text_of_mem_steps listed

/-- What a document is known by, for the steps that lead to it from an absolute root. -/
structure KnownBySteps (root : FilePath) (uri : Url) (rest : List Component) : Prop where
  text : relativePath (some root) uri = joined rest
  noEmptySegment : rest ≠ [] → [] ∉ (relativePath (some root) uri).toList.splitOn '/'
  noSlashFirst : rest ≠ [] → (relativePath (some root) uri).toList.head? ≠ some '/'
  noSlashLast : rest ≠ [] → (relativePath (some root) uri).toList.getLast? ≠ some '/'
  restored : ∀ text, uri.decodedPath = .ofText text →
    root.components ++ (FilePath.ofText (relativePath (some root) uri)).components =
      uri.decodedPath.components
  respelled : ∀ other : FilePath, other.components = root.components →
    relativePath (some other) uri = relativePath (some root) uri
  voidInside : ∀ left right piece, root.octets = left ++ FilePath.slash :: right →
    FilePath.isVoid piece = true →
    relativePath (some ⟨left ++ FilePath.slash :: (piece ++ FilePath.slash :: right)⟩) uri =
      relativePath (some root) uri
  voidLast : ∀ piece, FilePath.isVoid piece = true →
    relativePath (some ⟨root.octets ++ FilePath.slash :: piece⟩) uri =
      relativePath (some root) uri

/-- A document below an absolute root is known by the steps that lead to it. -/
theorem knownBySteps_of_liesBelow (rooted : root.isRooted = true)
    (below : uri.LiesBelow root rest) : KnownBySteps root uri rest := by
  have text := relativePath_of_liesBelow below
  have areSteps := isStep_of_liesBelow rooted below
  have noEmpty : rest ≠ [] → [] ∉ (relativePath (some root) uri).toList.splitOn '/' := by
    intro present member
    rw [text, FilePath.splitOn_joined areSteps present] at member
    obtain ⟨step, listed, empty⟩ := List.mem_map.mp member
    exact (areSteps step listed).text_ne_empty (String.toList_eq_nil_iff.mp empty)
  have respelled : ∀ other : FilePath, other.components = root.components →
      relativePath (some other) uri = relativePath (some root) uri := by
    intro other same
    have again : uri.LiesBelow other rest := ⟨below.1, same ▸ below.2⟩
    rw [relativePath_of_liesBelow again, text]
  exact {
    text
    noEmptySegment := noEmpty
    noSlashFirst := fun present first => noEmpty present (Split.nil_mem_splitOn_of_head? first)
    noSlashLast := fun present last => noEmpty present (Split.nil_mem_splitOn_of_getLast? last)
    restored := by
      intro whole wellFormed
      rw [text, below.2, FilePath.components_ofText_joined areSteps
        (encode_text_of_liesBelow rooted below wellFormed)]
    respelled
    voidInside := by
      intro left right piece spelled void
      obtain ⟨octets⟩ := root
      cases spelled
      exact respelled _ (FilePath.components_insert_void void rooted)
    voidLast := fun piece void => respelled _ (FilePath.components_append_void void rooted) }

/-! ## Documents that were read -/

/-- **Paths relative to the root.** Below an absolute root, a file without a host is known by the
steps that lead to it: the root is left out whole, step by step and not letter by letter. Outside
the root, on another host, or without a root, it is known by the path of its URL. A URL of another
scheme is treated alike, so it is known by its path only if no steps lead to it from the root, or if
they spell this path. -/
theorem relativePath_strips_root {text : String} {uri : Url} (read : Url.parse text = .ok uri)
    {root : FilePath} (rooted : root.isRooted = true) :
    (uri.scheme = "file" → uri.host = none →
        (∀ rest, uri.decodedPath.components = root.components ++ rest →
          KnownBySteps root uri rest) ∧
        (¬root.components <+: uri.decodedPath.components →
          relativePath (some root) uri = uri.bare)) ∧
      (uri.scheme = "file" → uri.host ≠ none → relativePath (some root) uri = uri.bare) ∧
      (uri.scheme ≠ "file" →
        (∀ rest, uri.LiesBelow root rest → KnownBySteps root uri rest) ∧
        (relativePath (some root) uri = uri.bare ↔
          ∀ rest, uri.LiesBelow root rest → joined rest = uri.bare)) ∧
      relativePath none uri = uri.bare := by
  refine ⟨fun file hostless => ⟨fun rest whole => ?_, fun apart => ?_⟩, fun file elsewhere => ?_,
    fun _ => ⟨fun rest => knownBySteps_of_liesBelow rooted, relativePath_eq_bare_iff⟩,
    relativePath_none uri⟩
  · have isLocal := (Url.isLocal_iff_of_parse read file).mpr hostless
    exact knownBySteps_of_liesBelow rooted ⟨isLocal, whole⟩
  · exact relativePath_of_not_liesBelow fun rest below => apart ⟨rest, below.2.symm⟩
  · refine relativePath_of_not_liesBelow fun rest below => ?_
    exact elsewhere ((Url.isLocal_iff_of_parse read file).mp below.1)

example : relativePath (some (.ofText "/work/pro"))
    ⟨"file", none, .rooted ["work", "project", "a"], none, none⟩ = "work/project/a" := by cbv

/-- The URL of a file below `/work/project`. -/
def spaced : Url where
  scheme := "file"
  authority := some (Url.fileAuthority none)
  path := .rooted ["work", "project", "src", "a%20b.py"]
  query := none
  fragment := none

/-- A file below the root is known by its names, with percent-encoding undone. -/
theorem escaped_space_below_root :
    Url.parse "file:///work/project/src/a%20b.py" = .ok spaced ∧
      (FilePath.ofText "/work/project").isRooted = true ∧
      relativePath (some (.ofText "/work/project")) spaced = "src/a b.py" := by
  have read : Url.parse "file:///work/project/src/a%20b.py" = .ok spaced := rfl
  have rooted : (FilePath.ofText "/work/project").isRooted = true := rfl
  have whole : spaced.decodedPath.components = (FilePath.ofText "/work/project").components ++
      [.name (Utf8.encode "src"), .name (Utf8.encode "a b.py")] := by cbv
  have known := ((relativePath_strips_root read rooted).1 rfl rfl).1 _ whole
  exact ⟨read, rooted, known.text.trans (by cbv)⟩

/-- The root is also taken from the path of a URL that is none of a file. -/
theorem root_taken_from_other_scheme :
    ∃ uri, Url.parse "git:/work/project/x.py" = .ok uri ∧ uri.scheme ≠ "file" ∧
      (FilePath.ofText "/work/project").isRooted = true ∧
      uri.bare = "work/project/x.py" ∧
      relativePath (some (.ofText "/work/project")) uri = "x.py" :=
  ⟨⟨"git", none, .rooted ["work", "project", "x.py"], none, none⟩, rfl, by decide, rfl, rfl, by cbv⟩

end IssueRelay
