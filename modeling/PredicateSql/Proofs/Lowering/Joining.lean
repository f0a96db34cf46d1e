import Mathlib.Data.List.Infix
import PredicateSql.Proofs.Condition.Derivation
import PredicateSql.Proofs.Text.Paths

/-!
The joins of a lowering. They stand for the prefixes of the navigations that it follows: each prefix
is joined where it occurs first. The member paths of an expression are read off it from left to
right, without the conditions of subqueries, which have joins of their own.
-/
namespace PredicateSql

open Lowering

variable {n : Nat}

namespace Expr

mutual

/-- The member paths of an expression, from left to right. -/
def references : Expr → List MemberPath
  | binary _ left right => left.references ++ right.references
  | not e => e.references
  | convert e => e.references
  | member path => [path]
  | call .any receiver _ => receiverReferences receiver
  | call _ receiver args => receiverReferences receiver ++ argReferences args
  | constant _ => []
  | captured _ => []
  | modifier _ => []

def receiverReferences : Option Expr → List MemberPath
  | none => []
  | some e => e.references

def argReferences : List Expr → List MemberPath
  | [] => []
  | e :: rest => e.references ++ argReferences rest

end

theorem references_strip (e : Expr) : e.strip.references = e.references := by
  fun_induction strip e with
  | case1 e ih => rw [ih, references]
  | case2 e other => rfl

theorem references_of_member {e : Expr} {path : MemberPath} (member : e.strip = .member path) :
    e.references = [path] := by
  rw [← references_strip, member, references]

theorem receiverReferences_of_member {receiver : Option Expr} {path : MemberPath}
    (member : receiver.map strip = some (.member path)) :
    receiverReferences receiver = [path] := by
  obtain ⟨e, rfl, stripped⟩ := Option.map_eq_some_iff.mp member
  exact references_of_member stripped

end Expr

def MemberPath.prefixes (path : MemberPath) : List (List String) :=
  path.navigation.inits.tail

/-- Paths whose texts tell them apart. -/
def Canonical (walked : List String) : Prop :=
  walked ≠ [] ∧ ∀ segment ∈ walked, IsSegment segment

namespace MemberPath

theorem joined_inj {p q : List String} (pSegments : Canonical p) (qSegments : Canonical q)
    (same : joined p = joined q) : p = q :=
  (joined_eq_joined_iff pSegments.2 qSegments.2).mp same

theorem canonical_of_mem_prefixes {path : MemberPath} {p : List String}
    (member : p ∈ path.prefixes) : Canonical p := by
  obtain ⟨nonempty, initial⟩ : p ≠ [] ∧ p <+: path.navigation := by
    cases walked : path.navigation with
    | nil => simp [prefixes, walked] at member
    | cons segment rest =>
      simp only [prefixes, walked, List.inits_cons, List.tail_cons, List.mem_map,
        List.mem_inits] at member
      obtain ⟨q, initial, rfl⟩ := member
      exact ⟨nofun, List.prefix_cons_inj segment |>.mpr initial⟩
  refine ⟨nonempty, fun segment belongs => path.canonical segment ?_⟩
  exact List.mem_of_mem_dropLast (initial.mem belongs)

theorem canonical_of_mem_flatMap {paths : List MemberPath} {p : List String}
    (member : p ∈ paths.flatMap prefixes) : Canonical p := by
  obtain ⟨path, -, member⟩ := List.mem_flatMap.mp member
  exact canonical_of_mem_prefixes member

end MemberPath

/-- The paths joined in `t` are those joined in `s` with `ps` after them, each where it occurs
first. -/
def Joins (ps : List (List String)) (s t : Progress) : Prop :=
  ∀ before : List (List String), (∀ p ∈ before, Canonical p) →
    s.joins.map (·.path) = before.eraseDups.map MemberPath.joined →
    t.joins.map (·.path) = (before ++ ps).eraseDups.map MemberPath.joined

namespace Joins

variable {ps qs : List (List String)} {s t u : Progress}

theorem of_eq (same : t.joins = s.joins) : Joins [] s t := by
  intro before _ joined
  rw [same, List.append_nil, joined]

theorem trans (segments : ∀ p ∈ ps, Canonical p) (first : Joins ps s t) (second : Joins qs t u) :
    Joins (ps ++ qs) s u := by
  intro before canonical joined
  rw [← List.append_assoc]
  refine second (before ++ ps) ?_ (first before canonical joined)
  intro p member
  rcases List.mem_append.mp member with old | new
  · exact canonical p old
  · exact segments p new

end Joins

section Members

variable (context : LoweringContext n) {s t : Progress}

/-- A step joins the path it leads along, unless that is joined already. -/
theorem step_joins {owner next : Origin n} {p : List String} {segment : String}
    (canonical : Canonical p)
    (run : step context owner (MemberPath.joined p) segment s = (.ok next, t)) :
    Joins [p] s t := by
  intro before segments joined
  have found_iff : MemberPath.joined p ∈ s.joins.map (·.path) ↔ p ∈ before := by
    rw [joined, List.mem_map]
    constructor
    · rintro ⟨q, member, same⟩
      have belongs := List.mem_eraseDups.mp member
      rwa [← MemberPath.joined_inj (segments q belongs) canonical same]
    · exact fun member => ⟨p, List.mem_eraseDups.mpr member, rfl⟩
  obtain ⟨navigation, -, -, ⟨join, held, -, rfl⟩ | ⟨held, columns, -, -, rfl⟩⟩ :=
    (step_ok context).mp run
  · have member : p ∈ before := by
      rw [← found_iff]
      have path := List.find?_some held
      exact List.mem_map.mpr ⟨join, List.mem_of_find?_eq_some held, by simpa using path⟩
    rw [joined, List.eraseDups_append]
    simp [List.removeAll, member]
  · have absent : p ∉ before := by
      rw [← found_iff, List.mem_map]
      rintro ⟨join, member, same⟩
      have other := List.find?_eq_none.mp held join member
      simp [same] at other
    rw [List.eraseDups_append]
    simp [List.removeAll, absent, joined, List.eraseDups_cons, newJoin]

/-- A walk joins one path for each segment. -/
theorem walk_joins {walked segments : List String} {owner next : Origin n}
    (canonical : ∀ segment ∈ walked ++ segments, IsSegment segment)
    (run : walk context walked owner segments s = (.ok next, t)) :
    Joins (segments.inits.tail.map (walked ++ ·)) s t := by
  induction segments generalizing walked owner s with
  | nil =>
    obtain ⟨-, rfl⟩ := pure_ok.mp run
    exact .of_eq rfl
  | cons segment rest ih =>
    obtain ⟨middle, u, stepped, walked'⟩ := bind_ok.mp run
    have reached : Canonical (walked ++ [segment]) := by
      refine ⟨by simp, fun s member => canonical s ?_⟩
      simp only [List.mem_append, List.mem_cons, List.not_mem_nil, or_false] at member ⊢
      tauto
    have first := step_joins context reached stepped
    have others := ih (by simpa using canonical) walked'
    have whole := first.trans (by simpa using reached) others
    have inits : (segment :: rest).inits.tail.map (walked ++ ·) =
        [walked ++ [segment]] ++ rest.inits.tail.map (walked ++ [segment] ++ ·) := by
      cases rest <;> simp
    rwa [inits]

/-- Following the navigation of a path joins its prefixes. -/
theorem navigation_joins {origin next : Origin n} {path : MemberPath}
    (run : walk context [] origin path.navigation s = (.ok next, t)) :
    Joins path.prefixes s t := by
  have canonical : ∀ segment ∈ path.navigation, IsSegment segment :=
    fun segment member => path.canonical segment (List.mem_of_mem_dropLast member)
  have joins : Joins (path.navigation.inits.tail.map ([] ++ ·)) s t :=
    walk_joins context canonical run
  simpa only [MemberPath.prefixes, List.nil_append, List.map_id'] using joins

theorem resolveColumn_joins {origin : Origin n} {path : MemberPath} {c : ColumnRef}
    (run : resolveColumn context origin path s = (.ok c, t)) : Joins path.prefixes s t := by
  obtain ⟨-, owner, u, column, found, walked, -, looked, -⟩ := (resolveColumn_ok context).mp run
  have whole := (navigation_joins context walked).trans
    (fun _ => MemberPath.canonical_of_mem_prefixes) (.of_eq (lookup_kept looked).1)
  rwa [List.append_nil] at whole

theorem subquery_joins {origin : Origin n} {path : MemberPath} {q : Subquery n}
    (run : subquery context origin path s = (.ok q, t)) : Joins path.prefixes s t := by
  obtain ⟨u, walked, -, -, -, -, -, -, -, rfl⟩ := (subquery_ok context).mp run
  have whole := (navigation_joins context walked).trans
    (fun _ => MemberPath.canonical_of_mem_prefixes) (.of_eq rfl)
  rwa [List.append_nil] at whole

theorem literal_references {e : Expr} {v : Value} (value : literal context e = .ok v) :
    e.references = [] := by
  rw [← Expr.references_strip]
  rcases (literal_ok context).mp value with same | ⟨_, same, -⟩ <;> rw [same] <;> rfl

theorem isNullLiteral_references {e : Expr} (null : isNullLiteral context e = .ok true) :
    e.references = [] := by
  obtain ⟨v, value, -⟩ := (isNullLiteral_ok context).mp null
  exact literal_references context value

variable {context} in
/-- The null that an operand is compared with references nothing. -/
theorem nullTested?_references {op : BinaryOp} {left right e : Expr} {test : String}
    (tested : nullTested? context op left right = .ok (some (test, e))) :
    Expr.references (.binary op left right) = e.references := by
  rcases (nullTested?_some tested).2 with ⟨rfl, null⟩ | ⟨rfl, null⟩ <;>
    simp [Expr.references, isNullLiteral_references context null]

namespace Expr

/-- A call on a member, with arguments that reference nothing. -/
theorem references_of_call {method : Method} {receiver : Option Expr} {args : List Expr}
    {path : MemberPath} (member : receiver.map strip = some (.member path))
    (plain : argReferences args = []) : references (.call method receiver args) = [path] := by
  cases method <;> simp [references, receiverReferences_of_member member, plain]

theorem references_of_any {receiver : Option Expr} {args : List Expr} {path : MemberPath}
    (collection : receiver.map strip = some (.member path)) :
    references (.call .any receiver args) = [path] := by
  rw [references, receiverReferences_of_member collection]

variable {context} in
/-- A match of a member with a literal pattern. -/
theorem references_of_like {method : Method} {receiver : Option Expr} {pattern : Expr}
    {path : MemberPath} {v : Value} (member : receiver.map strip = some (.member path))
    (value : literal context pattern = .ok v) :
    references (.call method receiver [pattern]) = [path] :=
  references_of_call member (by simp [argReferences, literal_references context value])

variable {context} in
/-- A call on a collection of values, with a member as its argument. -/
theorem references_of_membership {receiver : Option Expr} {source arg : Expr} {path : MemberPath}
    {v : Value} (collection : receiver.map strip = some source)
    (value : literal context source = .ok v) (member : arg.strip = .member path) :
    references (.call .contains receiver [arg]) = [path] := by
  obtain ⟨e, rfl, rfl⟩ := Option.map_eq_some_iff.mp collection
  have plain := literal_references context value
  rw [references_strip] at plain
  simp [references, receiverReferences, argReferences, plain, references_of_member member]

theorem references_of_emptiness {receiver : Option Expr} {args : List Expr} {e : Expr}
    {path : MemberPath} (target : emptinessTarget? receiver args = some e)
    (member : e.strip = .member path) :
    references (.call .isNullOrEmpty receiver args) = [path] := by
  have found := references_of_member member
  rcases receiver with _ | source <;> rcases args with _ | ⟨arg, _ | ⟨extra, rest⟩⟩ <;>
    simp_all [emptinessTarget?, references, receiverReferences, argReferences]

end Expr

/-- The paths that the references of an expression lead along. -/
def Expr.prefixes (e : Expr) : List (List String) :=
  e.references.flatMap MemberPath.prefixes

theorem Expr.prefixes_strip (e : Expr) : e.strip.prefixes = e.prefixes := by
  rw [Expr.prefixes, Expr.prefixes, Expr.references_strip]

theorem emptinessColumn_joins {origin : Origin n} {receiver : Option Expr} {args : List Expr}
    {c : ColumnRef} (run : emptinessColumn context origin receiver args s = (.ok c, t)) :
    Joins (Expr.prefixes (.call .isNullOrEmpty receiver args)) s t := by
  obtain ⟨e, path, target, member, resolved⟩ := (emptinessColumn_ok context).mp run
  rw [Expr.prefixes, Expr.references_of_emptiness target member, List.flatMap_singleton]
  exact resolveColumn_joins context resolved

theorem readOperand_joins {origin : Origin n} {e : Expr} {o : Operand}
    (run : readOperand context origin e s = (.ok o, t)) : Joins e.prefixes s t := by
  rw [← Expr.prefixes_strip]
  rcases (readOperand_ok context).mp run with ⟨path, c, member, resolved, -⟩ | ⟨v, value, -, rfl⟩ |
    ⟨receiver, args, c, call, resolved, -⟩
  · rw [member, Expr.prefixes, Expr.references, List.flatMap_singleton]
    exact resolveColumn_joins context resolved
  · rw [Expr.prefixes_strip, Expr.prefixes, literal_references context value]
    exact .of_eq rfl
  · rw [call]
    exact emptinessColumn_joins context resolved

end Members

theorem Expr.canonical_of_mem_prefixes {e : Expr} {p : List String} (member : p ∈ e.prefixes) :
    Canonical p :=
  MemberPath.canonical_of_mem_flatMap member

/-- Joined are the paths that the references of a predicate lead along. -/
theorem Lowers.joins {context : LoweringContext n} {origin : Origin n} {e : Expr}
    {s t : Progress} {c : Condition n} (h : Lowers context origin e s c t) :
    Joins e.prefixes s t := by
  -- Two operands, one after the other.
  have both : ∀ {op left right} {s u t : Progress}, Joins (Expr.prefixes left) s u →
      Joins (Expr.prefixes right) u t → Joins (Expr.prefixes (.binary op left right)) s t := by
    intro op left right s u t first second
    have whole := first.trans (fun _ => Expr.canonical_of_mem_prefixes) second
    rwa [Expr.prefixes, Expr.prefixes, ← List.flatMap_append] at whole
  -- Anything that references one member.
  have single : ∀ {e path} {s t : Progress}, Expr.references e = [path] →
      Joins path.prefixes s t → Joins e.prefixes s t := by
    intro e path s t references joins
    rwa [Expr.prefixes, references, List.flatMap_singleton]
  induction h with
  | logical connective _ _ first second => exact both first second
  | comparison comparator untested leftRead rightRead leftBound rightBound =>
    exact both (readOperand_joins context leftRead) (readOperand_joins context rightRead)
  | nullTest comparator tested read =>
    rw [Expr.prefixes, nullTested?_references tested]
    exact readOperand_joins context read
  | inverted boolean run =>
    have joins := readOperand_joins context (readOperand_of_readBoolean? context boolean run)
    exact joins
  | not compound _ inner => exact inner
  | convert _ inner => exact inner
  | truth plain boolean run =>
    exact readOperand_joins context (readOperand_of_readBoolean? context boolean run)
  | like opening member column textual value bound =>
    exact single (Expr.references_of_like member value) (resolveColumn_joins context column)
  | membership collection value member column nonempty bound =>
    exact single (Expr.references_of_membership collection value member)
      (resolveColumn_joins context column)
  | emptyMembership collection value member column =>
    exact single (Expr.references_of_membership collection value member)
      (resolveColumn_joins context column)
  | hasValue member column =>
    exact single (Expr.references_of_call member rfl) (resolveColumn_joins context column)
  | any collection rows =>
    exact single (Expr.references_of_any collection) (subquery_joins context rows)
  | anyWhere collection rows _ inner =>
    have outer := subquery_joins context rows
    exact single (Expr.references_of_any collection) outer

end PredicateSql
