import Mathlib.Data.List.Count
import Mathlib.Data.List.Perm.Basic
import IssueRelay.Proofs.Json.Record

/-!
# Values that read as the same record

A record is declared by its fields: their names in order, what stands for a field that is left out,
and which values of a field are alike. From the declaration follows which values are alike as
records (`IssueRelay.Json.Alike`): members may change places, others may be added, defaults may be
left out, values may be replaced by values alike, and the values may stand in an array instead. A
reader that builds a record from its fields alone cannot tell such values apart, and it fails where
a field is lacking, repeated or surplus (`IssueRelay.Json.ReadsFields.of_build`).
-/

namespace IssueRelay.Json

/-- A field of a record. -/
structure FieldDecl where
  /-- The name of its member in an object. -/
  name : String
  /-- The value that stands for it where it is left out, unless it has to be there. -/
  absent : Option Json
  /-- Which of its values are alike. -/
  Alike : Json → Json → Prop

namespace FieldDecl

/-- Whether the field has to be there. -/
def isRequired (decl : FieldDecl) : Bool :=
  decl.absent.isNone

/-- The value of a field, from what is written for it. -/
def value (decl : FieldDecl) (written : Option Json) : Option Json :=
  written.or decl.absent

/-- What is written for a field in one place means the same as what is written in another. -/
def Agrees (decl : FieldDecl) (left right : Option Json) : Prop :=
  decl.value left = decl.value right ∨ ∃ one ∈ left, ∃ other ∈ right, decl.Alike one other

end FieldDecl

/-- An array holds the values of fields in their order: those that an object gives, and defaults for
what it leaves out. From some place on it may stop, if only defaults would follow. -/
inductive InOrder (members : List (String × Json)) : List FieldDecl → List Json → Prop
  | stop (decls : List FieldDecl)
      (defaults : ∀ decl ∈ decls, ∃ value, decl.absent = some value ∧
        decl.value (members.lookup decl.name) = some value) :
      InOrder members decls []
  | next (decl : FieldDecl) (decls : List FieldDecl) (value : Json) (items : List Json)
      (given : decl.value (members.lookup decl.name) = some value)
      (others : InOrder members decls items) :
      InOrder members (decl :: decls) (value :: items)

/-- Lists whose values are alike place by place. -/
inductive ItemsAlike (Same : Json → Json → Prop) : Json → Json → Prop
  | intro (left right : List Json) (items : List.Forall₂ Same left right) :
      ItemsAlike Same (.arr left) (.arr right)

/-- Values that are alike as records with the declared fields. -/
inductive Alike (decls : List FieldDecl) : Json → Json → Prop
  | refl (json : Json) : Alike decls json json
  | symm (left right : Json) (same : Alike decls left right) : Alike decls right left
  | trans (first second third : Json) (one : Alike decls first second)
      (other : Alike decls second third) : Alike decls first third
  /-- Members may change places. -/
  | permute (left right : List (Option String × Json)) (permuted : left.Perm right) :
      Alike decls (.obj left) (.obj right)
  /-- Any member may be added whose name is no field. -/
  | ignore (name : String) (json : Json) (members : List (Option String × Json))
      (foreign : ∀ decl ∈ decls, decl.name ≠ name) :
      Alike decls (.obj ((some name, json) :: members)) (.obj members)
  /-- A default may be written. -/
  | spellOut (decl : FieldDecl) (json : Json) (members : List (Option String × Json))
      (declared : decl ∈ decls) (default : decl.absent = some json)
      (leftOut : ∀ member ∈ members, member.1 ≠ some decl.name) :
      Alike decls (.obj ((some decl.name, json) :: members)) (.obj members)
  /-- A value of a field may be replaced by one like it. -/
  | within (decl : FieldDecl) (left right : Json) (members : List (Option String × Json))
      (declared : decl ∈ decls) (same : decl.Alike left right) :
      Alike decls (.obj ((some decl.name, left) :: members))
        (.obj ((some decl.name, right) :: members))
  /-- The values of the fields may stand in an array. -/
  | inOrder (members : List (String × Json)) (items : List Json)
      (once : ∀ decl ∈ decls, (members.map Prod.fst).count decl.name ≤ 1)
      (listed : InOrder members decls items) :
      Alike decls (.record members) (.arr items)

namespace FieldDecl

/-- A field whose values stand for themselves. -/
def plain (name : String) (absent : Option Json) : FieldDecl :=
  ⟨name, absent, Eq⟩

/-- A field that holds a record, or null where its reader allows it. -/
def nested (name : String) (absent : Option Json) (inner : List FieldDecl) : FieldDecl :=
  ⟨name, absent, Json.Alike inner⟩

/-- A field that holds a list of records. -/
def listed (name : String) (absent : Option Json) (inner : List FieldDecl) : FieldDecl :=
  ⟨name, absent, ItemsAlike (Json.Alike inner)⟩

variable (field : String) (absent : Option Json) (inner : List FieldDecl)

@[simp] theorem name_plain : (plain field absent).name = field :=
  rfl

@[simp] theorem name_nested : (nested field absent inner).name = field :=
  rfl

@[simp] theorem name_listed : (listed field absent inner).name = field :=
  rfl

@[simp] theorem isRequired_plain : (plain field absent).isRequired = absent.isNone :=
  rfl

@[simp] theorem isRequired_nested : (nested field absent inner).isRequired = absent.isNone :=
  rfl

@[simp] theorem isRequired_listed : (listed field absent inner).isRequired = absent.isNone :=
  rfl

end FieldDecl

/-- A reader of records knows nothing but the declared fields. -/
structure ReadsFields {α : Type} (decls : List FieldDecl) (read : Reader α) : Prop where
  /-- Values that are alike read as the same record, or both as none. -/
  alike : ∀ left right, Alike decls left right → read left = read right
  /-- The values of an object that reads can be listed in full, and the array reads the same. -/
  inFull : ∀ members record, read (.obj members) = some record →
    ∃ named items, Json.obj members = .record named ∧ InOrder named decls items ∧
      items.length = decls.length ∧ read (.arr items) = some record
  /-- An object that lacks a required field reads as no record. -/
  lacking : ∀ members, ∀ decl ∈ decls, decl.isRequired →
    (∀ member ∈ members, member.1 ≠ some decl.name) → read (.obj members) = none
  /-- An object that repeats a field reads as no record. -/
  repeated : ∀ members, ∀ decl ∈ decls,
    1 < (members.map Prod.fst).count (some decl.name) → read (.obj members) = none
  /-- An array with more values than there are fields reads as no record. -/
  surplus : ∀ items, decls.length < items.length → read (.arr items) = none

/-! ## What is written for the fields -/

section Lookup

variable {name : String} {value : Json}

/-- What is found under a name is the value of its first member. -/
theorem lookup_eq_head? (name : String) (named : List (String × Json)) :
    named.lookup name = (named.filter (·.1 == name)).head?.map Prod.snd := by
  induction named with
  | nil => rfl
  | cons member named ih =>
    rw [List.lookup_cons, List.filter_cons, Bool.beq_comm]
    cases member.1 == name <;> simp [ih]

/-- A name that is used once finds its value in whatever order the members stand. -/
theorem lookup_of_perm {left right : List (String × Json)} (permuted : left.Perm right)
    (once : (left.map Prod.fst).count name ≤ 1) : left.lookup name = right.lookup name := by
  have few : (left.filter (·.1 == name)).length ≤ 1 := by
    rwa [← List.countP_eq_length_filter, ← Function.comp_def (· == name) Prod.fst,
      ← List.countP_map, ← List.count_eq_countP]
  have same := permuted.filter (·.1 == name)
  rw [lookup_eq_head?, lookup_eq_head?]
  generalize left.filter (·.1 == name) = found at few same
  match found, few with
  | [], _ => rw [List.nil_perm.mp same]
  | [_], _ => rw [List.singleton_perm.mp same]

/-- A member under another name is not found. -/
theorem lookup_cons_of_ne {other : String} {named : List (String × Json)}
    (different : name ≠ other) : ((other, value) :: named).lookup name = named.lookup name := by
  rw [List.lookup_cons, beq_false_of_ne different]

/-- Reading a list in another order reads the same values in another order. -/
theorem mapM_of_perm {α β : Type} {read : α → Option β} {left right : List α} {values : List β}
    (permuted : left.Perm right) (reads : right.mapM read = some values) :
    ∃ others, left.mapM read = some others ∧ others.Perm values := by
  obtain ⟨others, items, permuted⟩ :=
    List.perm_comp_forall₂ permuted (mapM_eq_some_iff.mp reads)
  exact ⟨others, mapM_eq_some_iff.mpr items, permuted⟩

/-- Members whose names are texts can be split off in front. -/
theorem namedMembers?_append (front : List (String × Json))
    (members : List (Option String × Json)) :
    namedMembers? (front.map (fun member => (some member.1, member.2)) ++ members) =
      (namedMembers? members).map (front ++ ·) := by
  rw [namedMembers?, List.mapM_append, ← namedMembers?, namedMembers?_map_some, ← namedMembers?]
  cases namedMembers? members <;> rfl

/-- An object all of whose names are texts has these members and no others. -/
theorem eq_of_namedMembers? {members : List (Option String × Json)} {named : List (String × Json)}
    (spelled : namedMembers? members = some named) :
    members = named.map fun member => (some member.1, member.2) := by
  rw [← List.forall₂_eq_eq_eq, List.forall₂_map_right_iff]
  refine (mapM_eq_some_iff.mp spelled).imp ?_
  rintro ⟨name, value⟩ member same
  obtain ⟨text, rfl, rfl⟩ := Option.map_eq_some_iff.mp same
  rfl

end Lookup

/-! ## What a record is read from -/

/-- What is written for the fields of a record means the same. -/
def Fields.Agree (decls : List FieldDecl) (left right : Fields) : Prop :=
  ∀ decl ∈ decls, decl.Agrees (left decl.name) (right decl.name)

/-- Whether no field is given twice. -/
def Once (decls : List FieldDecl) (named : List (String × Json)) : Prop :=
  ∀ decl ∈ decls, (named.map Prod.fst).count decl.name ≤ 1

instance (decls : List FieldDecl) (named : List (String × Json)) : Decidable (Once decls named) :=
  inferInstanceAs (Decidable (∀ decl ∈ decls, _))

/-- What is written for the declared fields; in an array the required ones have to be there. -/
def declared? (decls : List FieldDecl) : Reader Fields :=
  fields? (decls.map (·.name)) (decls.countP (·.isRequired))

variable {decls : List FieldDecl}

/-- An object gives what is found under its names, if all of them are texts and no field is given
twice. -/
theorem declared?_obj (members : List (Option String × Json)) :
    declared? decls (.obj members) = (namedMembers? members).bind fun named =>
      if Once decls named then some fun name => named.lookup name else none := by
  simp only [declared?, fields?, Once, List.all_map, List.all_eq_true, decide_eq_true_eq,
    Function.comp_apply]
  rfl

/-- Objects with members `left` and `right`, all under names that spell texts, agree on the fields
if these are given as often and mean the same. -/
theorem agree_of_named {left right : List (String × Json)}
    (once : Once decls left ↔ Once decls right)
    (agree : Once decls left → Fields.Agree decls (left.lookup ·) (right.lookup ·)) :
    Option.Rel (Fields.Agree decls)
      (if Once decls left then some fun name => left.lookup name else none)
      (if Once decls right then some fun name => right.lookup name else none) := by
  by_cases given : Once decls left
  · rw [if_pos given, if_pos (once.mp given)]
    exact .some (agree given)
  · rw [if_neg given, if_neg (given ∘ once.mpr)]
    exact .none

/-- In another order the members of an object mean the same. -/
theorem agree_permute {left right : List (Option String × Json)} (permuted : left.Perm right) :
    Option.Rel (Fields.Agree decls) (declared? decls (.obj left))
      (declared? decls (.obj right)) := by
  rw [declared?_obj, declared?_obj]
  cases spelled : namedMembers? right with
  | none =>
    cases others : namedMembers? left with
    | none => exact .none
    | some named =>
      obtain ⟨_, reads, _⟩ := mapM_of_perm permuted.symm others
      exact absurd (spelled.symm.trans reads) nofun
  | some named =>
    obtain ⟨others, reads, permuted⟩ := mapM_of_perm permuted spelled
    rw [namedMembers?, reads]
    refine agree_of_named ?_ fun once decl declared => ?_
    · simp only [Once, (permuted.map Prod.fst).count_eq]
    · exact .inl (congrArg decl.value (lookup_of_perm permuted (once decl declared)))

/-- Objects that differ in their first members agree if they do so whatever the names of the other
members spell. -/
theorem agree_of_append (left right : List (String × Json))
    {members : List (Option String × Json)}
    (once : ∀ named, namedMembers? members = some named →
      (Once decls (left ++ named) ↔ Once decls (right ++ named)))
    (agree : ∀ named, namedMembers? members = some named → Once decls (left ++ named) →
      Fields.Agree decls ((left ++ named).lookup ·) ((right ++ named).lookup ·)) :
    Option.Rel (Fields.Agree decls)
      (declared? decls (.obj (left.map (fun member => (some member.1, member.2)) ++ members)))
      (declared? decls
        (.obj (right.map (fun member => (some member.1, member.2)) ++ members))) := by
  rw [declared?_obj, declared?_obj, namedMembers?_append, namedMembers?_append]
  cases spelled : namedMembers? members with
  | none => exact .none
  | some named => exact agree_of_named (once named spelled) (agree named spelled)

/-- A member whose name is no field means nothing. -/
theorem agree_ignore {name : String} {json : Json} {members : List (Option String × Json)}
    (foreign : ∀ decl ∈ decls, decl.name ≠ name) :
    Option.Rel (Fields.Agree decls) (declared? decls (.obj ((some name, json) :: members)))
      (declared? decls (.obj members)) := by
  refine agree_of_append [(name, json)] [] ?_ ?_
  · intro named _
    refine forall₂_congr fun decl declared => ?_
    simp [(foreign decl declared).symm]
  · intro named _ _ decl declared
    exact .inl (congrArg decl.value (lookup_cons_of_ne (foreign decl declared)))

section Named

variable (distinct : (decls.map (·.name)).Nodup)

include distinct

/-- A default that is spelled out means the same as one that is left out. -/
theorem agree_spellOut {decl : FieldDecl} {json : Json} {members : List (Option String × Json)}
    (declared : decl ∈ decls) (default : decl.absent = some json)
    (leftOut : ∀ member ∈ members, member.1 ≠ some decl.name) :
    Option.Rel (Fields.Agree decls) (declared? decls (.obj ((some decl.name, json) :: members)))
      (declared? decls (.obj members)) := by
  have lacks named (spelled : namedMembers? members = some named) :
      ∀ member ∈ named, decl.name ≠ member.1 := by
    rw [eq_of_namedMembers? spelled, List.forall_mem_map] at leftOut
    exact fun member given same => leftOut member given (congrArg some same.symm)
  refine agree_of_append [(decl.name, json)] [] ?_ ?_
  · intro named spelled
    refine forall₂_congr fun field _ => ?_
    by_cases same : decl.name = field.name
    · have none : (named.map Prod.fst).count field.name = 0 := by
        rw [List.count_eq_zero, ← same, List.mem_map]
        exact fun ⟨member, given, its⟩ => lacks named spelled member given its.symm
      simp [same, none]
    · simp [same]
  · intro named spelled _ field fieldDeclared
    left
    by_cases same : field.name = decl.name
    · obtain rfl := List.inj_on_of_nodup_map distinct fieldDeclared declared same
      have missing : named.lookup field.name = none :=
        List.lookup_eq_none_iff.mpr fun member given =>
          bne_iff_ne.mpr (lacks named spelled member given)
      simp [missing, FieldDecl.value, default]
    · exact congrArg field.value (lookup_cons_of_ne same)

/-- What is alike as a value of a field means the same there. -/
theorem agree_within {decl : FieldDecl} {left right : Json}
    {members : List (Option String × Json)} (declared : decl ∈ decls)
    (same : decl.Alike left right) :
    Option.Rel (Fields.Agree decls) (declared? decls (.obj ((some decl.name, left) :: members)))
      (declared? decls (.obj ((some decl.name, right) :: members))) := by
  refine agree_of_append [(decl.name, left)] [(decl.name, right)] ?_ ?_
  · intro named _
    simp [Once]
  · intro named _ _ field fieldDeclared
    by_cases again : field.name = decl.name
    · obtain rfl := List.inj_on_of_nodup_map distinct fieldDeclared declared again
      exact .inr ⟨left, List.lookup_cons_self, right, List.lookup_cons_self, same⟩
    · exact .inl (congrArg field.value
        ((lookup_cons_of_ne again).trans (lookup_cons_of_ne again).symm))

end Named

namespace InOrder

variable {members : List (String × Json)} {items : List Json}

/-- An array that lists fields in order has at most one value for each. -/
theorem length_le (listed : InOrder members decls items) : items.length ≤ decls.length := by
  induction listed with
  | stop => exact Nat.zero_le _
  | next _ _ _ _ _ _ ih => exact Nat.succ_le_succ ih

/-- An array that lists fields in order has a value for each that is required. -/
theorem required_le (listed : InOrder members decls items) :
    decls.countP (·.isRequired) ≤ items.length := by
  induction listed with
  | stop decls defaults =>
    have optional : ∀ decl ∈ decls, ¬ decl.isRequired := by
      intro decl declared
      obtain ⟨value, default, _⟩ := defaults decl declared
      simp [FieldDecl.isRequired, default]
    simp [List.countP_eq_zero.mpr optional]
  | next decl decls _ items _ _ ih =>
    rw [List.countP_cons, List.length_cons]
    split <;> omega

/-- Listed in order, the values of an object mean the same as under their names. -/
theorem agrees (distinct : (decls.map (·.name)).Nodup) (listed : InOrder members decls items) :
    Fields.Agree decls (members.lookup ·) (((decls.map (·.name)).zip items).lookup ·) := by
  induction listed with
  | stop decls defaults =>
    intro decl declared
    obtain ⟨value, default, given⟩ := defaults decl declared
    left
    rw [given, List.zip_nil_right]
    exact default.symm
  | next decl decls value items given _ ih =>
    obtain ⟨apart, distinct⟩ := List.nodup_cons.mp distinct
    intro field declared
    rcases List.mem_cons.mp declared with rfl | later
    · left
      rw [given, List.map_cons, List.zip_cons_cons]
      exact congrArg field.value List.lookup_cons_self.symm
    · have other : field.name ≠ decl.name := fun same =>
        apart (List.mem_map.mpr ⟨field, later, same⟩)
      simpa only [List.map_cons, List.zip_cons_cons, lookup_cons_of_ne other]
        using ih distinct field later

end InOrder

/-- An object and the array that lists its values in order mean the same. -/
theorem agree_inOrder (distinct : (decls.map (·.name)).Nodup) {members : List (String × Json)}
    {items : List Json} (once : Once decls members) (listed : InOrder members decls items) :
    Option.Rel (Fields.Agree decls) (declared? decls (.record members))
      (declared? decls (.arr items)) := by
  have fits : decls.countP (·.isRequired) ≤ items.length ∧
      items.length ≤ (decls.map (·.name)).length :=
    ⟨listed.required_le, (List.length_map _).symm ▸ listed.length_le⟩
  rw [record, declared?_obj, namedMembers?_map_some, Option.bind_some, if_pos once, declared?,
    fields?, if_pos fits]
  exact .some (listed.agrees distinct)

/-! ## Readers that build a record from its fields -/

/-- If all fields have values, these can be listed in full. -/
theorem InOrder.of_values {members : List (String × Json)}
    (given : ∀ decl ∈ decls, (decl.value (members.lookup decl.name)).isSome) :
    ∃ items, InOrder members decls items ∧ items.length = decls.length := by
  induction decls with
  | nil => exact ⟨[], .stop [] nofun, rfl⟩
  | cons decl decls ih =>
    obtain ⟨own, others⟩ := List.forall_mem_cons.mp given
    obtain ⟨value, present⟩ := Option.isSome_iff_exists.mp own
    obtain ⟨items, listed, full⟩ := ih others
    exact ⟨value :: items, .next decl decls value items present listed, congrArg (· + 1) full⟩

/-- A required field is read alike from what means the same. -/
theorem required?_of_agrees {α : Type} {read : Reader α} {name : String}
    {Same : Json → Json → Prop} {left right : Option Json}
    (respects : ∀ one other, Same one other → read one = read other)
    (agree : FieldDecl.Agrees ⟨name, none, Same⟩ left right) :
    required? read left = required? read right := by
  rcases agree with same | ⟨one, rfl, other, rfl, alike⟩
  · simp only [FieldDecl.value, Option.or_none] at same
    rw [same]
  · exact respects one other alike

/-- A field with a default is read alike from what means the same, if the default reads as what is
given for it. -/
theorem default?_of_agrees {α : Type} {read : Reader α} {name : String} {explicit : Json}
    {absent : α} {Same : Json → Json → Prop} {left right : Option Json}
    (default : read explicit = some absent)
    (respects : ∀ one other, Same one other → read one = read other)
    (agree : FieldDecl.Agrees ⟨name, some explicit, Same⟩ left right) :
    default? absent read left = default? absent read right := by
  have eq_value (written : Option Json) :
      default? absent read written = (written.or (some explicit)).bind read := by
    cases written <;> simp [default?, default]
  rcases agree with same | ⟨one, rfl, other, rfl, alike⟩
  · rw [eq_value, eq_value]
    exact congrArg (·.bind read) same
  · exact respects one other alike

/-- A list is read alike from values that are alike place by place. -/
theorem list?_of_itemsAlike {α : Type} {read : Reader α} {Same : Json → Json → Prop}
    (respects : ∀ one other, Same one other → read one = read other) (left right : Json)
    (alike : ItemsAlike Same left right) : list? read left = list? read right := by
  obtain ⟨left, right, items⟩ := alike
  rw [list?, list?]
  induction items with
  | nil => rfl
  | cons same _ ih => rw [List.mapM_cons, List.mapM_cons, respects _ _ same, ih]

/-- A value that is alike to null is null. -/
theorem Alike.null_iff {left right : Json} (alike : Alike decls left right) :
    left = .null ↔ right = .null := by
  induction alike with
  | refl => rfl
  | symm _ _ _ ih => exact ih.symm
  | trans _ _ _ _ _ one other => exact one.trans other
  | permute | ignore | spellOut | within | inOrder => exact ⟨nofun, nofun⟩

/-- What may be null is read alike from values that are alike. -/
theorem nullable?_of_alike {α : Type} {read : Reader α}
    (respects : ∀ one other, Alike decls one other → read one = read other) (left right : Json)
    (alike : Alike decls left right) : nullable? read left = nullable? read right := by
  have same := respects left right alike
  by_cases null : left = .null
  · rw [null, alike.null_iff.mp null]
  · have other := mt alike.null_iff.mpr null
    cases left <;> cases right <;> simp_all [nullable?]

/-- What is built from fields that mean the same is the same. -/
theorem bind_eq_of_rel {α β : Type} {Same : α → α → Prop} {build : α → Option β}
    (congruent : ∀ one other, Same one other → build one = build other) {left right : Option α}
    (same : Option.Rel Same left right) : left.bind build = right.bind build := by
  cases same with
  | none => rfl
  | some same => exact congruent _ _ same

/-- Where an object gives fields, its names are texts and no field is given twice. -/
theorem declared?_obj_eq_some {members : List (Option String × Json)} {field : Fields}
    (fields : declared? decls (.obj members) = some field) :
    ∃ named, members = named.map (fun member => (some member.1, member.2)) ∧ Once decls named ∧
      field = (named.lookup ·) := by
  rw [declared?_obj] at fields
  obtain ⟨named, spelled, given⟩ := Option.bind_eq_some_iff.mp fields
  obtain ⟨once, same⟩ := Option.ite_none_right_eq_some.mp given
  exact ⟨named, eq_of_namedMembers? spelled, once, (Option.some.inj same).symm⟩

/-- **Only the fields count.** A reader that builds its records from the declared fields, so that
fields that mean the same give the same record and a required field that is missing gives none,
reads alike values as the same record and fails on lacking, repeated and surplus fields. -/
theorem ReadsFields.of_build {α : Type} {read : Reader α} {build : Fields → Option α}
    (distinct : (decls.map (·.name)).Nodup)
    (reads : ∀ json, read json = (declared? decls json).bind build)
    (congruent : ∀ left right, Fields.Agree decls left right → build left = build right)
    (needs : ∀ field, ∀ decl ∈ decls, decl.isRequired → field decl.name = none →
      build field = none) :
    ReadsFields decls read := by
  have read_eq {left right : Json}
      (agree : Option.Rel (Fields.Agree decls) (declared? decls left) (declared? decls right)) :
      read left = read right := by
    rw [reads, reads, bind_eq_of_rel congruent agree]
  have alike left right (same : Alike decls left right) : read left = read right := by
    induction same with
    | refl => rfl
    | symm _ _ _ ih => exact ih.symm
    | trans _ _ _ _ _ one other => exact one.trans other
    | permute _ _ permuted => exact read_eq (agree_permute permuted)
    | ignore _ _ _ foreign => exact read_eq (agree_ignore foreign)
    | spellOut _ _ _ declared default leftOut =>
      exact read_eq (agree_spellOut distinct declared default leftOut)
    | within _ _ _ _ declared same => exact read_eq (agree_within distinct declared same)
    | inOrder _ _ once listed => exact read_eq (agree_inOrder distinct once listed)
  refine ⟨alike, ?_, ?_, ?_, ?_⟩
  · intro members record once
    obtain ⟨field, fields, built⟩ := Option.bind_eq_some_iff.mp ((reads _).symm.trans once)
    obtain ⟨named, rfl, single, rfl⟩ := declared?_obj_eq_some fields
    have given : ∀ decl ∈ decls, (decl.value (named.lookup decl.name)).isSome := by
      intro decl declared
      by_contra missing
      obtain ⟨leftOut, required⟩ : named.lookup decl.name = none ∧ decl.absent = none :=
        Option.or_eq_none_iff.mp (Option.not_isSome_iff_eq_none.mp missing)
      have none := needs (named.lookup ·) decl declared (by simp [FieldDecl.isRequired, required])
        leftOut
      exact absurd (none.symm.trans built) nofun
    -- The array is alike to the object, and values that are alike read the same.
    obtain ⟨items, listed, full⟩ := InOrder.of_values given
    refine ⟨named, items, rfl, listed, full, ?_⟩
    rw [← once]
    exact (alike _ _ (.inOrder named items single listed)).symm
  · intro members decl declared required leftOut
    rw [reads, Option.bind_eq_none_iff]
    intro field fields
    obtain ⟨named, rfl, _, rfl⟩ := declared?_obj_eq_some fields
    refine needs _ decl declared required (List.lookup_eq_none_iff.mpr fun member given => ?_)
    have other := leftOut _ (List.mem_map_of_mem given)
    exact bne_iff_ne.mpr fun same => other (congrArg some same.symm)
  · intro members decl declared twice
    rw [reads, Option.bind_eq_none_iff]
    intro field fields
    obtain ⟨named, rfl, once, _⟩ := declared?_obj_eq_some fields
    have single := once decl declared
    have spelled : (named.map fun member => (some member.1, member.2)).map Prod.fst =
        (named.map Prod.fst).map some := by
      rw [List.map_map, List.map_map]
      rfl
    rw [spelled, List.count_map_of_injective _ _ (fun _ _ => Option.some.inj)] at twice
    omega
  · intro items surplus
    have unfit : ¬ (decls.countP (·.isRequired) ≤ items.length ∧
        items.length ≤ (decls.map (·.name)).length) := by
      rw [List.length_map]
      omega
    rw [reads, declared?, fields?, if_neg unfit, Option.bind_none]

/-! ## Readers of fields of each kind -/

section Kinds

variable {α : Type} {read : Reader α} {name : String} {inner : List FieldDecl}
  {left right : Option Json}

/-- A required value is read alike from what means the same. -/
theorem required?_of_plain (agree : (FieldDecl.plain name none).Agrees left right) :
    required? read left = required? read right :=
  required?_of_agrees (fun _ _ => congrArg read) agree

/-- A value with a default is read alike from what means the same. -/
theorem default?_of_plain {explicit : Json} {absent : α} (default : read explicit = some absent)
    (agree : (FieldDecl.plain name (some explicit)).Agrees left right) :
    default? absent read left = default? absent read right :=
  default?_of_agrees default (fun _ _ => congrArg read) agree

/-- A value that may be null is read alike from what means the same. -/
theorem option?_of_plain (agree : (FieldDecl.plain name (some .null)).Agrees left right) :
    option? read left = option? read right :=
  default?_of_plain rfl agree

/-- A required record is read alike from what means the same. -/
theorem required?_of_nested (inside : ReadsFields inner read)
    (agree : (FieldDecl.nested name none inner).Agrees left right) :
    required? read left = required? read right :=
  required?_of_agrees inside.alike agree

/-- A record that may be null is read alike from what means the same. -/
theorem option?_of_nested (inside : ReadsFields inner read)
    (agree : (FieldDecl.nested name (some .null) inner).Agrees left right) :
    option? read left = option? read right :=
  default?_of_agrees rfl (nullable?_of_alike inside.alike) agree

/-- A required list of records is read alike from what means the same. -/
theorem required?_of_listed (inside : ReadsFields inner read)
    (agree : (FieldDecl.listed name none inner).Agrees left right) :
    required? (list? read) left = required? (list? read) right :=
  required?_of_agrees (list?_of_itemsAlike inside.alike) agree

/-- A list of records that may be left out is read alike from what means the same. -/
theorem default?_of_listed (inside : ReadsFields inner read)
    (agree : (FieldDecl.listed name (some (.arr [])) inner).Agrees left right) :
    default? [] (list? read) left = default? [] (list? read) right :=
  default?_of_agrees rfl (list?_of_itemsAlike inside.alike) agree

end Kinds

end IssueRelay.Json
