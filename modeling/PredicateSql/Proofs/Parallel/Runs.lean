import PredicateSql.Proofs.Lowering.Run
import PredicateSql.Proofs.Parallel.Pieces

/-!
Two lowerings side by side. They start from progress that is alike, and end in progress and with
outcomes that are alike.
-/
namespace PredicateSql

variable {n : Nat} {α α' β β' : Type} (shared : Shared)

structure Progress.Alike (s s' : Progress) : Prop where
  joins : List.Forall₂ (JoinClause.Alike shared) s.joins s'.joins
  pieces : List.Forall₂ (Token.Alike shared) s.buffer.tokens s'.buffer.tokens
  issued : s'.issued = s.issued
  enums : s'.enums = s.enums

/-- The lowerings run alike from progress that is alike, also where they fail. -/
def Parallel (R : α → α' → Prop) (x : Lowering α) (x' : Lowering α') : Prop :=
  ∀ s s' : Progress, s.Alike shared s' →
    (x s).2.Alike shared (x' s').2 ∧ OutcomesAlike shared R (x s).1 (x' s').1

variable {shared}

namespace Parallel

open Lowering

variable {R : α → α' → Prop} {S : β → β' → Prop}

theorem bind {x : Lowering α} {x' : Lowering α'} {f : α → Lowering β} {f' : α' → Lowering β'}
    (first : Parallel shared R x x') (second : ∀ a a', R a a' → Parallel shared S (f a) (f' a')) :
    Parallel shared S (x >>= f) (x' >>= f') := by
  intro s s' alike
  obtain ⟨middle, outcome⟩ := first s s' alike
  rw [bind_run, bind_run]
  generalize x s = r, x' s' = r' at middle outcome
  obtain ⟨result, t⟩ := r
  obtain ⟨result', t'⟩ := r'
  cases outcome with
  | ok result => exact second _ _ result t t' middle
  | error alike => exact ⟨middle, .error alike⟩

/-- Steps whose results nothing reads. -/
theorem seq {x : Lowering α} {x' : Lowering α'} {y : Lowering β} {y' : Lowering β'}
    (first : Parallel shared R x x') (second : Parallel shared S y y') :
    Parallel shared S (x >>= fun _ => y) (x' >>= fun _ => y') :=
  first.bind fun _ _ _ => second

theorem attempt {x : Except Error α} {x' : Except Error α'} (h : OutcomesAlike shared R x x') :
    Parallel shared R (Lowering.attempt x) (Lowering.attempt x') :=
  fun _ _ alike => ⟨alike, h⟩

theorem pure {a : α} {a' : α'} (result : R a a') :
    Parallel shared R (pure a : Lowering α) (pure a' : Lowering α') :=
  .attempt (.ok result)

theorem reject {cause cause' : Unsupported} (same : shared.words → cause' = cause) :
    Parallel shared R (Lowering.reject cause) (Lowering.reject cause') :=
  .attempt (.error ⟨rfl, fun words => by rw [same words]⟩)

/-- Nothing runs after a rejection. -/
theorem reject_bind {cause cause' : Unsupported} {f : α → Lowering β} {f' : α' → Lowering β'}
    (same : shared.words → cause' = cause) :
    Parallel shared S (Lowering.reject cause >>= f) (Lowering.reject cause' >>= f') :=
  bind (R := fun _ _ => False) (.reject same) fun _ _ impossible => impossible.elim

theorem lacks (cause : MissingMetadata) :
    Parallel shared R (Lowering.lacks cause) (Lowering.lacks cause) :=
  .attempt (.error (.refl _))

theorem push {t t' : Token} (piece : t.Alike shared t') :
    Parallel shared Eq (Lowering.push t) (Lowering.push t') := by
  intro s s' alike
  have written := List.rel_append alike.pieces (.cons piece .nil)
  exact ⟨⟨alike.joins, written, alike.issued, alike.enums⟩, .ok rfl⟩

theorem pushSql {text text' : String} (same : shared.texts → text' = text) :
    Parallel shared Eq (Lowering.pushSql text) (Lowering.pushSql text') :=
  .push (.sql same)

theorem mark : Parallel shared Eq Lowering.mark Lowering.mark :=
  fun _ _ alike => ⟨alike, .ok alike.pieces.length_eq⟩

theorem findJoin (path : String) :
    Parallel shared (Option.Rel (JoinClause.Alike shared)) (Lowering.findJoin path)
      (Lowering.findJoin path) :=
  fun _ _ alike => ⟨alike, .ok (find?_joins_alike alike.joins path)⟩

theorem addJoin {join join' : JoinClause} (joins : join.Alike shared join') :
    Parallel shared Eq (Lowering.addJoin join) (Lowering.addJoin join') := by
  intro s s' alike
  have joined := List.rel_append alike.joins (.cons joins .nil)
  exact ⟨⟨joined, alike.pieces, alike.issued, alike.enums⟩, .ok rfl⟩

theorem enumFor (e : Entity n) (property : String) :
    Parallel shared Eq (Lowering.enumFor e property) (Lowering.enumFor e property) := by
  intro s s' alike
  have found : s'.enums.enumFor e property = s.enums.enumFor e property := by rw [alike.enums]
  refine ⟨⟨alike.joins, alike.pieces, alike.issued, congrArg Prod.snd found⟩, .ok ?_⟩
  exact congrArg Prod.fst found.symm

/-- Joins and buffers of their own are alike as well. -/
theorem isolated {x x' : Lowering Unit} (inner : Parallel shared Eq x x') :
    Parallel shared (fun r r' => List.Forall₂ (JoinClause.Alike shared) r.1 r'.1 ∧
        List.Forall₂ (Token.Alike shared) r.2.tokens r'.2.tokens)
      (Lowering.isolated x) (Lowering.isolated x') := by
  intro s s' alike
  obtain ⟨after, outcome⟩ := inner { s with joins := [], buffer := .empty }
    { s' with joins := [], buffer := .empty } ⟨.nil, .nil, alike.issued, alike.enums⟩
  refine ⟨⟨alike.joins, alike.pieces, after.issued, after.enums⟩, ?_⟩
  exact outcome.map fun _ _ _ => ⟨after.joins, after.pieces⟩

/-- Spans that start at the same mark. -/
theorem bindSpan {context context' : LoweringContext n}
    (settings : context'.settings = context.settings) (start : Nat) :
    Parallel shared Eq (Lowering.bindSpan context start) (Lowering.bindSpan context' start) := by
  intro s s' alike
  obtain ⟨outcome, written⟩ :=
    TokenBuffer.forall₂_bindSpan alike.pieces start
      (Token.respects_alike shared ⟨s.enums, context.settings⟩)
  simp only [Lowering.bindSpan, alike.enums, settings]
  exact ⟨⟨alike.joins, written, alike.issued, rfl⟩, outcome⟩

theorem collapseBooleans {context context' : LoweringContext n}
    (spelled : shared.texts → context.dialect.SpellsLike context'.dialect) (start : Nat) :
    Parallel shared Eq (Lowering.collapseBooleans context start)
      (Lowering.collapseBooleans context' start) := by
  intro s s' alike
  have written := TokenBuffer.forall₂_collapseBooleans alike.pieces start fun pieces =>
    pieces.collapse spelled
  exact ⟨⟨alike.joins, written, alike.issued, alike.enums⟩, .ok rfl⟩

theorem freshAlias {context context' : LoweringContext n}
    (aliases : context'.aliases = context.aliases) :
    Parallel shared Eq (Lowering.freshAlias context) (Lowering.freshAlias context') := by
  intro s s' alike
  refine ⟨⟨alike.joins, alike.pieces, congrArg (· + 1) alike.issued, alike.enums⟩, .ok ?_⟩
  rw [aliases, alike.issued]

end Parallel
end PredicateSql
