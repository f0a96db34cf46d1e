import PredicateSql.Json.Basic

/-!
Objects laid over objects. What a path of names leads to in the merged value is found in the upper
value if it has anything there; otherwise in the lower one, unless the upper value has something on
the way that is no object. Where both have objects these are merged.
-/
namespace PredicateSql

namespace Json

section Members

variable {α : Type}

theorem find?_append (name : String) (members more : List (String × α)) :
    find? name (members ++ more) = (find? name members).or (find? name more) := by
  induction members with
  | nil => rfl
  | cons entry rest ih =>
    simp only [List.cons_append, find?, ih]
    split <;> rfl

theorem find?_eq_none_iff {name : String} {members : List (String × α)} :
    find? name members = none ↔ ∀ entry ∈ members, entry.1 ≠ name := by
  induction members with
  | nil => simp [find?]
  | cons entry rest ih =>
    rw [find?, List.forall_mem_cons, ← ih]
    split
    next same => simp [same]
    next other => simp [other]

theorem find?_filter {name : String} (keep : String → Bool) (kept : keep name = true)
    (members : List (String × α)) :
    find? name (members.filter (keep ·.1)) = find? name members := by
  induction members with
  | nil => rfl
  | cons entry rest ih =>
    by_cases same : entry.1 = name
    · rw [List.filter_cons_of_pos (by rwa [same]), find?, find?, if_pos same, if_pos same]
    · rw [find?, if_neg same, List.filter_cons]
      split
      · rw [find?, if_neg same, ih]
      · exact ih

end Members

/-- The members of the lower object come first, each with what is laid over it. -/
theorem find?_merged (name : String) (lower upper : List (String × Json)) :
    find? name (mergeMembers lower upper) = (find? name lower).map fun value =>
      match find? name upper with
      | some above => merge value above
      | none => value := by
  induction lower with
  | nil => rfl
  | cons entry rest ih =>
    obtain ⟨key, value⟩ := entry
    simp only [mergeMembers, find?, ih]
    split
    next same =>
      subst same
      rfl
    next => rfl

def names (members : List (String × Json)) : List String :=
  members.map (·.1)

theorem find?_eq_none_iff_names {name : String} {members : List (String × Json)} :
    find? name members = none ↔ name ∉ names members := by
  rw [find?_eq_none_iff, names, List.mem_map]
  exact ⟨fun other ⟨entry, member, same⟩ => other entry member same,
    fun missing entry member same =>
    missing ⟨entry, member, same⟩⟩

theorem names_mergeMembers (lower upper : List (String × Json)) :
    names (mergeMembers lower upper) = names lower := by
  induction lower with
  | nil => rfl
  | cons entry rest ih => exact congrArg (entry.1 :: ·) ih

/-- The names of the upper object that are new follow those of the lower one. -/
theorem names_merge (lower upper : List (String × Json)) :
    names (mergeMembers lower upper ++ upper.filter fun (name, _) => (find? name lower).isNone) =
      names lower ++ (names upper).filter (· ∉ names lower) := by
  have new : (upper.filter fun (name, _) => (find? name lower).isNone) =
      upper.filter (·.1 ∉ names lower) :=
    List.filter_congr fun entry _ => by
      rw [Bool.eq_iff_iff, Option.isNone_iff_eq_none, find?_eq_none_iff_names, decide_eq_true_eq]
  rw [names, List.map_append, ← names, names_mergeMembers, new, names, names, List.filter_map]
  rfl

def isObject : Json → Bool
  | object _ => true
  | _ => false

/-- What is no object replaces whatever is below it. -/
theorem merge_closed {above : Json} (closed : above.isObject = false) (base : Json) :
    base.merge above = above := by
  cases above with
  | object upper => cases closed
  | _ => cases base <;> rfl

/-- What is no object is replaced by whatever is laid over it. -/
theorem closed_merge {base : Json} (closed : base.isObject = false) (above : Json) :
    base.merge above = above := by
  cases base with
  | object lower => cases closed
  | _ => rfl

/-- A member of an object that is laid over a value: what both have is merged. -/
theorem member?_merge {above : Json} (object : above.isObject = true) (base : Json)
    (name : String) :
    (base.merge above).member? name = (base.member? name).merge merge (above.member? name) := by
  cases base with
  | object lower =>
    cases above with
    | object upper =>
      rw [merge, member?, member?, member?]
      rw [find?_append, find?_merged]
      cases below : find? name lower with
      | some value =>
        rw [Option.map_some, Option.some_or]
        cases find? name upper <;> rfl
      | none =>
        rw [Option.map_none, Option.none_or, Option.merge_none_left]
        exact find?_filter (fun name => (find? name lower).isNone) (by rw [below]; rfl) upper
    | _ => cases object
  | _ =>
    rw [closed_merge rfl]
    exact Option.merge_none_left.symm

/-- What a path of names leads to. -/
def at? : Json → List String → Option Json
  | value, [] => some value
  | value, name :: rest => (value.member? name).bind fun inner => inner.at? rest

theorem at?_append (value : Json) (front rest : List String) :
    value.at? (front ++ rest) = (value.at? front).bind (·.at? rest) := by
  induction front generalizing value with
  | nil => rfl
  | cons name front ih => simp only [List.cons_append, at?, ih, Option.bind_assoc]

/-- Whatever a path leads through is an object. -/
def OpensAlong (value : Json) (path : List String) : Prop :=
  ∀ front inner, front <+: path → front ≠ path → value.at? front = some inner →
    inner.isObject = true

namespace OpensAlong

variable {value : Json} {name : String} {path : List String}

theorem isObject (h : value.OpensAlong (name :: path)) : value.isObject = true :=
  h [] value List.nil_prefix nofun rfl

theorem member (h : value.OpensAlong (name :: path)) {inner : Json}
    (found : value.member? name = some inner) :
    inner.OpensAlong path := by
  intro front deeper initial proper reached
  refine h (name :: front) deeper (List.prefix_cons_inj name |>.mpr initial)
    (by simpa using proper) ?_
  rw [at?, found, Option.bind_some, reached]

theorem of_at? {inner : Json} (reached : value.at? path = some inner) : value.OpensAlong path := by
  rintro front middle ⟨rest, rfl⟩ proper found
  rw [at?_append, found, Option.bind_some] at reached
  cases rest with
  | nil => exact absurd (List.append_nil front).symm proper
  | cons name rest =>
    cases middle with
    | object members => rfl
    | _ => cases reached

end OpensAlong

/-- Along a path on which the upper value has objects only, what both values have is merged. -/
theorem at?_merge {base above : Json} {path : List String} (opens : above.OpensAlong path) :
    (base.merge above).at? path = (base.at? path).merge merge (above.at? path) := by
  induction path generalizing base above with
  | nil => rfl
  | cons name path ih =>
    rw [at?, at?, at?, member?_merge opens.isObject]
    cases found : above.member? name with
    | none => rw [Option.merge_none_right, Option.bind_none, Option.merge_none_right]
    | some upper =>
      cases base.member? name with
      | none => rw [Option.merge_none_left, Option.bind_none, Option.merge_none_left]
      | some lower => exact ih (opens.member found)

/-- From something that is no object on, the upper value decides. -/
theorem at?_merge_of_closed {above value : Json} {front : List String}
    (reached : above.at? front = some value) (closed : value.isObject = false) (base : Json)
    (rest : List String) :
    (base.merge above).at? (front ++ rest) = above.at? (front ++ rest) := by
  have here : (base.merge above).at? front = some value := by
    rw [at?_merge (.of_at? reached), reached]
    cases base.at? front with
    | none => rfl
    | some lower => rw [Option.merge_some_some, merge_closed closed]
  rw [at?_append, at?_append, here, reached]

end Json

open Json

/-- A value that is laid over another one is merged into it along paths of names. Where the upper
value has something that is no object, or comes to it on the way, the upper value decides. Where it
has nothing and comes to objects only, the lower value decides. Where both have objects there is an
object with the names of both, none of them twice if none is twice in either. And where the upper
value has an object and the lower one has none, the upper value decides. -/
theorem objects_are_merged_along_paths (base above : Json) (path : List String) :
    ((∃ value, above.at? path = some value ∧ value.isObject = false) ∨
        (∃ front value,
          front <+: path ∧ front ≠ path ∧ above.at? front = some value ∧ value.isObject = false) →
      (base.merge above).at? path = above.at? path) ∧
    (above.at? path = none →
        (∀ front inner, front <+: path → above.at? front = some inner → inner.isObject = true) →
      (base.merge above).at? path = base.at? path) ∧
    (∀ lower upper, base.at? path = some (.object lower) → above.at? path = some (.object upper) →
      ∃ members, (base.merge above).at? path = some (.object members) ∧
        (∀ name, name ∈ names members ↔ name ∈ names lower ∨ name ∈ names upper) ∧
        ((names lower).Nodup → (names upper).Nodup → (names members).Nodup)) ∧
    ∀ upper, above.at? path = some (.object upper) →
      (∀ lower, base.at? path ≠ some (.object lower)) →
      (base.merge above).at? path = some (.object upper) := by
  refine ⟨?_, fun missing objects => ?_, fun lower upper below reached => ?_,
    fun upper reached other => ?_⟩
  · rintro (⟨value, reached, closed⟩ | ⟨front, value, ⟨rest, rfl⟩, -, reached, closed⟩)
    · rw [← List.append_nil path]
      exact at?_merge_of_closed reached closed base []
    · exact at?_merge_of_closed reached closed base rest
  · rw [at?_merge fun front inner initial _ => objects front inner initial, missing,
      Option.merge_none_right]
  · rw [at?_merge (.of_at? reached), below, reached]
    refine ⟨_, rfl, fun name => ?_, fun lowerNames upperNames => ?_⟩
    · rw [names_merge, List.mem_append, List.mem_filter, decide_eq_true_eq]
      by_cases old : name ∈ names lower <;> simp [old]
    · rw [names_merge, List.nodup_append]
      refine ⟨lowerNames, List.Pairwise.filter _ upperNames, fun name old other new same => ?_⟩
      have fresh := of_decide_eq_true (List.mem_filter.mp new).2
      exact fresh (same ▸ old)
  · rw [at?_merge (.of_at? reached), reached]
    cases below : base.at? path with
    | none => rfl
    | some lower =>
      cases lower with
      | object members => exact absurd below (other members)
      | _ => rw [Option.merge_some_some, closed_merge rfl]

namespace Json

def allFields : Json :=
  .object [("level", .string "info"), ("cipher", .object [("key", .string ""), ("size", .int 128)]),
    ("debug", .bool true)]

def someFields : Json :=
  .object [("debug", .object [("on", .bool true)]), ("cipher", .object [("size", .int 256)]),
    ("level", .string "warn")]

end Json

theorem some_fields_are_merged_into_all :
    let merged := allFields.merge someFields
    merged.at? ["level"] = some (.string "warn") ∧ merged.at? ["level", "text"] = none ∧
      someFields.at? ["cipher", "key"] = none ∧ merged.at? ["cipher", "key"] = some (.string "") ∧
      (∃ members, merged.at? ["cipher"] = some (.object members) ∧ ∀ name, name ∈ names members ↔
        name ∈ ["key", "size"] ∨ name ∈ ["size"]) ∧
      merged.at? ["debug"] = some (.object [("on", .bool true)]) := by
  intro merged
  obtain ⟨level, -⟩ := objects_are_merged_along_paths allFields someFields ["level"]
  obtain ⟨below, -⟩ := objects_are_merged_along_paths allFields someFields ["level", "text"]
  obtain ⟨-, key, -⟩ := objects_are_merged_along_paths allFields someFields ["cipher", "key"]
  obtain ⟨-, -, cipher, -⟩ := objects_are_merged_along_paths allFields someFields ["cipher"]
  obtain ⟨-, -, -, debug⟩ := objects_are_merged_along_paths allFields someFields ["debug"]
  obtain ⟨members, found, both, -⟩ := cipher _ _ rfl rfl
  have objects : ∀ front inner, front <+: ["cipher", "key"] → someFields.at? front = some inner →
      inner.isObject = true := by
    intro front inner initial found
    rcases List.prefix_cons_iff.mp initial with rfl | ⟨rest, rfl, within⟩
    · cases found
      rfl
    · rcases List.prefix_cons_iff.mp within with rfl | ⟨last, rfl, whole⟩
      · cases found
        rfl
      · obtain rfl := List.prefix_nil.mp whole
        cases found
  exact ⟨level (.inl ⟨_, rfl, rfl⟩),
    below (.inr ⟨["level"], _, ⟨["text"], rfl⟩, by decide, rfl, rfl⟩), rfl, key rfl objects,
    ⟨members, found, both⟩, debug _ rfl (fun _ same => nomatch same)⟩

end PredicateSql
