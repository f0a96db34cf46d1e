import PredicateSql.Expr.Bindings
import PredicateSql.Expr.Basic
import PredicateSql.Schema.Registry
import PredicateSql.Sql.Alias
import PredicateSql.Sql.Join
import PredicateSql.Sql.TokenBuffer

/-!
The scope that a predicate is lowered in: where member paths start, which joins they have led to,
and the condition written so far. An error does not undo the state, so aliases that were handed out
and enumerations that were found stay so.
-/
namespace PredicateSql

/-- What stays the same throughout the lowering of one predicate. -/
structure LoweringContext (n : Nat) where
  schema : Schema n
  dialect : Dialect
  aliases : AliasSupply
  bindings : Bindings
  settings : Option Settings
  /-- Marks the literal that stands for an empty list of texts. -/
  emptyListTag : String

/-- Where member paths start: an entity, and the table name or alias of its rows. -/
structure Origin (n : Nat) where
  entity : Fin n
  qualifier : String
deriving DecidableEq, Repr

/-- What a lowering changes. -/
structure Progress where
  joins : List JoinClause
  buffer : TokenBuffer
  /-- How many aliases were handed out. -/
  issued : Nat
  enums : EnumRegistry

abbrev Lowering := ExceptT Error (StateM Progress)

namespace Lowering

def attempt {α : Type} (outcome : Except Error α) : Lowering α :=
  fun s => (outcome, s)

def reject {α : Type} (cause : Unsupported) : Lowering α :=
  attempt (.error (.unsupported cause))

def lacks {α : Type} (cause : MissingMetadata) : Lowering α :=
  attempt (.error (.metadata cause))

def push (t : Token) : Lowering Unit :=
  fun s => (.ok (), { s with buffer := s.buffer.push t })

def pushSql (text : String) : Lowering Unit :=
  push (.sql text)

def mark : Lowering Nat :=
  fun s => (.ok s.buffer.mark, s)

def bindSpan {n : Nat} (context : LoweringContext n) (start : Nat) : Lowering Unit :=
  fun s =>
    let (outcome, buffer) := s.buffer.bindSpan ⟨s.enums, context.settings⟩ start
    (outcome, { s with buffer := buffer })

def collapseBooleans {n : Nat} (context : LoweringContext n) (start : Nat) : Lowering Unit :=
  fun s => (.ok (), { s with buffer := s.buffer.collapseBooleans context.dialect start })

def freshAlias {n : Nat} (context : LoweringContext n) : Lowering String :=
  fun s => (.ok (context.aliases s.issued), { s with issued := s.issued + 1 })

def findJoin (path : String) : Lowering (Option JoinClause) :=
  fun s => (.ok (s.joins.find? (·.path = path)), s)

def addJoin (join : JoinClause) : Lowering Unit :=
  fun s => (.ok (), { s with joins := s.joins ++ [join] })

def enumFor {n : Nat} (e : Entity n) (property : String) : Lowering (Option EnumDef) :=
  fun s =>
    let (found, enums) := s.enums.enumFor e property
    (.ok found, { s with enums := enums })

/-- Runs a lowering with joins and a buffer of its own, which it returns; aliases and enumerations
are shared. -/
def isolated (x : Lowering Unit) : Lowering (List JoinClause × TokenBuffer) :=
  fun s =>
    let (outcome, inner) := x { s with joins := [], buffer := .empty }
    (outcome.map fun _ => (inner.joins, inner.buffer),
      { inner with joins := s.joins, buffer := s.buffer })

end Lowering

open Lowering

variable {n : Nat} (context : LoweringContext n)

/-- The columns that link an entity to the target of a navigation, the one of the target first: a
foreign key of the owner with the key of the target, or else a foreign key of the target with the
key of the owner. -/
def linkColumns (owner target : Entity n) (path : String) : Except Error (String × String) :=
  match owner.foreignKeyTo? target with
  | some fk => target.primaryKey.map fun key => (key.column, fk.column)
  | none =>
    match target.foreignKeyTo? owner with
    | some fk => owner.primaryKey.map fun key => (fk.column, key.column)
    | none =>
      .error (.metadata (.foreignKeyBetween owner.typeName target.typeName path))

/-- Joins the target of a navigation to the rows of its owner under a new alias. -/
def leftJoin (owner : Origin n) (target : Fin n) (path : String) : Lowering JoinClause := do
  let (targetColumn, ownerColumn) ←
    attempt (linkColumns (context.schema.entity owner.entity) (context.schema.entity target) path)
  let name ← freshAlias context
  let table := context.dialect.tableName (context.schema.entity target).table
  return ⟨path, name, .left, table, [⟨⟨name, targetColumn⟩, ⟨owner.qualifier, ownerColumn⟩⟩]⟩

/-- The origin that one segment leads to. A path that is joined already keeps its alias. -/
def step (owner : Origin n) (path segment : String) : Lowering (Origin n) := do
  let entity := context.schema.entity owner.entity
  match entity.navigationFor? segment with
  | none => lacks (.navigation entity.typeName segment)
  | some navigation =>
    if navigation.many then reject (.collectionNavigation segment)
    else
      match ← findJoin path with
      | some join => return ⟨navigation.target, join.aliasName⟩
      | none =>
        let join ← leftJoin context owner navigation.target path
        addJoin join
        return ⟨navigation.target, join.aliasName⟩

/-- Follows the segments of a navigation from `owner`, to which the segments `walked` have led. -/
def walk (walked : List String) (owner : Origin n) : List String → Lowering (Origin n)
  | [] => return owner
  | segment :: rest => do
    let walked := walked ++ [segment]
    let next ← step context owner (MemberPath.joined walked) segment
    walk walked next rest

/-- The column that a member path leads to. -/
def resolveColumn (origin : Origin n) (path : MemberPath) : Lowering ColumnRef := do
  if path.isEmpty then reject .emptyPath
  else
    let owner ← walk context [] origin path.navigation
    let entity := context.schema.entity owner.entity
    match entity.columnFor? path.property with
    | none =>
      if (entity.navigationFor? path.property).isSome then reject (.navigationAsValue path.text)
      else lacks (.property entity.typeName path.property)
    | some column =>
      let found ← if column.stringify then enumFor entity path.property else pure none
      return {
        qualifier := owner.qualifier
        column := column.column
        kind := column.kind
        stringify := found.map fun _ => EnumRegistry.keyOf entity path.property
        cipher := column.cipher }

end PredicateSql
