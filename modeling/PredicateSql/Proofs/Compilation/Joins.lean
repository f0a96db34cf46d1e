import Mathlib.Data.List.Nodup
import PredicateSql.Proofs.Compilation.Calls
import PredicateSql.Proofs.Lowering.Joining

/-!
The joins of a query are exactly what is referenced: one for each prefix of a navigation in an
accepted predicate or in the ordering that took effect, in the order of their first occurrence.
-/
namespace PredicateSql

variable {n : Nat}

/-- The member paths that an accepted call has resolved: an ordering counts if there was none
before. -/
def Compiler.callReferences (c : Compiler n) : Expr → List MemberPath
  | .modifier (.orderBy path) => if c.orderBy = none then [path] else []
  | .modifier (.orderByDescending path) => if c.orderBy = none then [path] else []
  | e => e.references

/-- The member paths that the accepted ones of some calls have resolved, in the order of the
calls. -/
def Compiler.references (c : Compiler n) : List Call → List MemberPath
  | [] => []
  | call :: rest =>
    match c.add call.bindings call.expr with
    | (.ok (), c') => c.callReferences call.expr ++ c'.references rest
    | (.error _, c') => c'.references rest

/-- Every path comes after the one that it continues. -/
def ParentsFirst (paths : List (List String)) : Prop :=
  ∀ earlier p segment, earlier ++ [p ++ [segment]] <+: paths → p ≠ [] → p ∈ earlier

namespace ParentsFirst

theorem concat {paths : List (List String)} {path : List String} (h : ParentsFirst paths)
    (parent : ∀ p segment, path = p ++ [segment] → p ≠ [] → p ∈ paths) :
    ParentsFirst (paths ++ [path]) := by
  intro earlier p segment initial nonempty
  rcases List.prefix_concat_iff.mp initial with whole | initial
  · obtain ⟨rfl, last⟩ := List.append_inj' whole rfl
    exact parent p segment (List.singleton_inj.mp last).symm nonempty
  · exact h earlier p segment initial nonempty

theorem of_concat {paths : List (List String)} {path : List String}
    (h : ParentsFirst (paths ++ [path])) : ParentsFirst paths :=
  fun earlier p segment initial => h earlier p segment (initial.trans (List.prefix_append _ _))

theorem append {paths others : List (List String)} (h : ParentsFirst paths)
    (h' : ParentsFirst others) : ParentsFirst (paths ++ others) := by
  induction others using List.reverseRecOn with
  | nil => rwa [List.append_nil]
  | append_singleton others path ih =>
    rw [← List.append_assoc]
    refine (ih h'.of_concat).concat fun p segment same nonempty => ?_
    have parent := h' others p segment (by rw [same]) nonempty
    exact List.mem_append_right _ parent

theorem eraseDups {paths : List (List String)} (h : ParentsFirst paths) :
    ParentsFirst paths.eraseDups := by
  induction paths using List.reverseRecOn with
  | nil => exact h
  | append_singleton paths path ih =>
    rw [List.eraseDups_append]
    by_cases member : path ∈ paths
    · simpa [List.removeAll, member] using ih h.of_concat
    · have last : ([path].removeAll paths).eraseDups = [path] := by
        simp [List.removeAll, member, List.eraseDups_cons]
      rw [last]
      refine (ih h.of_concat).concat fun p segment same nonempty => ?_
      exact List.mem_eraseDups.mpr (h paths p segment (by rw [same]) nonempty)

end ParentsFirst

theorem nodup_eraseDups {α : Type} [BEq α] [LawfulBEq α] (xs : List α) : xs.eraseDups.Nodup := by
  induction xs using List.reverseRecOn with
  | nil => simp
  | append_singleton xs x ih =>
    rw [List.eraseDups_append]
    by_cases member : x ∈ xs
    · simpa [List.removeAll, member] using ih
    · have last : ([x].removeAll xs).eraseDups = [x] := by
        simp [List.removeAll, member, List.eraseDups_cons]
      rw [last]
      refine ih.append (List.nodup_singleton x) ?_
      simpa using member

theorem MemberPath.parentsFirst_prefixes (path : MemberPath) : ParentsFirst path.prefixes := by
  rw [prefixes]
  induction path.navigation using List.reverseRecOn with
  | nil => simp [ParentsFirst]
  | append_singleton walked segment ih =>
    have longer : (walked ++ [segment]).inits.tail =
        walked.inits.tail ++ [walked ++ [segment]] := by
      cases walked <;> simp
    rw [longer]
    refine ih.concat fun p segment' same nonempty => ?_
    obtain ⟨rfl, -⟩ := List.append_inj' same rfl
    cases walked with
    | nil => exact absurd rfl nonempty
    | cons first rest => simp

theorem parentsFirst_flatMap (paths : List MemberPath) :
    ParentsFirst (paths.flatMap MemberPath.prefixes) := by
  induction paths with
  | nil => simp [ParentsFirst]
  | cons path rest ih =>
    rw [List.flatMap_cons]
    exact path.parentsFirst_prefixes.append ih

namespace Compiler

theorem callReferences_of_predicate (c : Compiler n) {e : Expr}
    (predicate : ∀ m, e ≠ .modifier m) : c.callReferences e = e.references := by
  cases e with
  | modifier m => exact absurd rfl (predicate m)
  | _ => rfl

theorem callReferences_of_ordering (c : Compiler n) {m : Modifier} {path : MemberPath}
    {descending : Bool} (ordering : m.ordering? = some (path, descending)) :
    c.callReferences (.modifier m) = if c.orderBy = none then [path] else [] := by
  cases m <;> cases ordering <;> rfl

/-- An accepted call joins what it references. -/
theorem Accepts.joins {c c' : Compiler n} {bindings : Bindings} {e : Expr}
    (accepts : c.Accepts bindings e c') :
    Joins ((c.callReferences e).flatMap MemberPath.prefixes) c.progress c'.progress := by
  cases accepts with
  | condition predicate derived =>
    rw [c.callReferences_of_predicate predicate]
    exact derived.joins
  | ordered ordering unset resolved =>
    have joins := resolveColumn_joins _ resolved
    rw [c.callReferences_of_ordering ordering, if_pos unset, List.flatMap_singleton]
    exact joins
  | ignored ordering set =>
    rw [c.callReferences_of_ordering ordering, if_neg set]
    exact .of_eq rfl
  | skip => exact .of_eq rfl
  | take => exact .of_eq rfl

/-- A sequence of calls joins what its accepted calls reference. -/
theorem after_joins (c : Compiler n) (calls : List Call) :
    Joins ((c.references calls).flatMap MemberPath.prefixes) c.progress
      (c.after calls).progress := by
  induction calls generalizing c with
  | nil => exact .of_eq rfl
  | cons call rest ih =>
    rcases run : c.add call.bindings call.expr with ⟨err | ⟨⟩, c'⟩
    · obtain ⟨⟨t, rfl⟩, -, -⟩ := rejects_of_add run
      simp only [references, after, run]
      exact ih (c.retreat t)
    · simp only [references, after, run, List.flatMap_append]
      exact (add_ok.mp run).joins.trans (fun _ => MemberPath.canonical_of_mem_flatMap) (ih c')

end Compiler

/-- The paths of the joins are the prefixes of what is referenced, each where it occurs first. So no
path is joined twice, and every path is joined after the one that it continues. -/
theorem joins_are_references (input : CompilerInput n) (registry : Registry) (calls : List Call) :
    let c := Compiler.start input registry
    let paths := ((c.references calls).flatMap MemberPath.prefixes).eraseDups
    (c.after calls).joins.map (·.path) = paths.map MemberPath.joined ∧
      ((c.after calls).joins.map (·.path)).Nodup ∧ ParentsFirst paths := by
  intro c paths
  have joined : (c.after calls).joins.map (·.path) = paths.map MemberPath.joined :=
    c.after_joins calls [] nofun rfl
  refine ⟨joined, ?_, (parentsFirst_flatMap _).eraseDups⟩
  rw [joined]
  refine (nodup_eraseDups _).map_on fun p pMember q qMember same => ?_
  have canonical : ∀ p ∈ paths, Canonical p := by
    intro p member
    obtain ⟨path, -, member⟩ := List.mem_flatMap.mp (List.mem_eraseDups.mp member)
    exact MemberPath.canonical_of_mem_prefixes member
  exact MemberPath.joined_inj (canonical p pMember) (canonical q qMember) same

end PredicateSql
