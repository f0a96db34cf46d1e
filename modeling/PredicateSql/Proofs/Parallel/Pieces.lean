import PredicateSql.Proofs.Buffer.Operations
import PredicateSql.Proofs.Condition.Scalars
import PredicateSql.Sql.Scope

/-!
Pieces of two conditions that correspond to each other. They may differ in texts and in the names of
rows, and errors in the words in which they show an expression.
-/
namespace PredicateSql

variable {n : Nat} {α α' β β' : Type}

/-- What two runs share beyond their course. -/
structure Shared where
  /-- Whether the texts are the same. -/
  texts : Prop
  /-- Whether expressions are shown in the same words. -/
  words : Prop

/-- The dialects spell literals, identifiers and tables in the same way; they may page in different
ways. -/
structure Dialect.SpellsLike (d d' : Dialect) : Prop where
  boolLiteral : d'.boolLiteral = d.boolLiteral
  quoteIdent : d'.quoteIdent = d.quoteIdent
  tableName : d'.tableName = d.tableName

theorem Dialect.SpellsLike.refl (d : Dialect) : d.SpellsLike d :=
  ⟨rfl, rfl, rfl⟩

inductive ErrorKind where
  | unsupported | unbound | unresolved | metadata | cipher | configuration
deriving DecidableEq, Repr

def Error.kind : Error → ErrorKind
  | .unsupported _ => .unsupported
  | .unbound _ => .unbound
  | .unresolved _ => .unresolved
  | .metadata _ => .metadata
  | .cipher _ => .cipher
  | .configuration _ => .configuration

variable (shared : Shared)

/-- Errors of one kind, which are the same if expressions are shown in the same words. -/
structure Error.Alike (e e' : Error) : Prop where
  kind : e'.kind = e.kind
  same : shared.words → e' = e

/-- Both succeed, with related results, or both fail. -/
inductive OutcomesAlike (R : α → α' → Prop) : Except Error α → Except Error α' → Prop
  | ok {a a'} (result : R a a') : OutcomesAlike R (.ok a) (.ok a')
  | error {e e'} (alike : e.Alike shared e') : OutcomesAlike R (.error e) (.error e')

/-! What corresponds to a piece of data differs from it in texts only, and not even there if texts
are shared. -/

inductive ColumnRef.Alike (c : ColumnRef) : ColumnRef → Prop
  | renamed {qualifier} (same : shared.texts → qualifier = c.qualifier) :
      Alike c { c with qualifier := qualifier }

inductive Origin.Alike (o : Origin n) : Origin n → Prop
  | renamed {qualifier} (same : shared.texts → qualifier = o.qualifier) :
      Alike o { o with qualifier := qualifier }

inductive JoinClause.Alike (j : JoinClause) : JoinClause → Prop
  | respelled {table equations} (same : shared.texts → table = j.table ∧ equations = j.equations) :
      Alike j { j with table := table, equations := equations }

inductive Token.Alike : Token → Token → Prop
  | sql {text text'} (same : shared.texts → text' = text) : Alike (.sql text) (.sql text')
  | column {c c'} (alike : c.Alike shared c') : Alike (.column c) (.column c')
  | refl (t : Token) : Alike t t

variable {shared}

theorem Error.Alike.refl (e : Error) : e.Alike shared e :=
  ⟨rfl, fun _ => rfl⟩

namespace OutcomesAlike

theorem refl (outcome : Except Error α) : OutcomesAlike shared Eq outcome outcome := by
  cases outcome with
  | error e => exact .error (.refl e)
  | ok a => exact .ok rfl

theorem map {R : α → α' → Prop} {S : β → β' → Prop} {x : Except Error α} {x' : Except Error α'}
    {f : α → β} {f' : α' → β'} (h : OutcomesAlike shared R x x')
    (mapped : ∀ a a', R a a' → S (f a) (f' a')) :
    OutcomesAlike shared S (x.map f) (x'.map f') := by
  cases h with
  | ok result => exact .ok (mapped _ _ result)
  | error alike => exact .error alike

theorem bind {R : α → α' → Prop} {S : β → β' → Prop} {x : Except Error α} {x' : Except Error α'}
    {f : α → Except Error β} {f' : α' → Except Error β'} (first : OutcomesAlike shared R x x')
    (second : ∀ a a', R a a' → OutcomesAlike shared S (f a) (f' a')) :
    OutcomesAlike shared S (x >>= f) (x' >>= f') := by
  cases first with
  | ok result => exact second _ _ result
  | error alike => exact .error alike

/-- Without their particulars the outcomes are the same. -/
theorem mapError_kind {x x' : Except Error α} (h : OutcomesAlike shared Eq x x') :
    x'.mapError Error.kind = x.mapError Error.kind := by
  cases h with
  | ok result => rw [result]
  | error alike => exact congrArg Except.error alike.kind

theorem eq_of_words {x x' : Except Error α} (words : shared.words)
    (h : OutcomesAlike shared Eq x x') :
    x' = x := by
  cases h with
  | ok result => rw [result]
  | error alike => rw [alike.same words]

end OutcomesAlike

/-! ### Pieces of data -/

theorem ColumnRef.Alike.refl (c : ColumnRef) : c.Alike shared c :=
  .renamed fun _ => rfl

theorem Origin.Alike.refl (o : Origin n) : o.Alike shared o :=
  .renamed fun _ => rfl

theorem JoinClause.Alike.refl (j : JoinClause) : j.Alike shared j :=
  .respelled fun _ => ⟨rfl, rfl⟩

theorem ColumnRef.Alike.eq {c c' : ColumnRef} (h : c.Alike shared c') (texts : shared.texts) :
    c' = c := by
  obtain ⟨same⟩ := h
  rw [same texts]

theorem JoinClause.Alike.eq {j j' : JoinClause} (h : j.Alike shared j') (texts : shared.texts) :
    j' = j := by
  obtain ⟨same⟩ := h
  rw [(same texts).1, (same texts).2]

/-- Lists of what is the same item by item are the same. -/
theorem eq_of_forall₂ {R : α → α → Prop} {xs ys : List α} (h : List.Forall₂ R xs ys)
    (eq : ∀ x y, R x y → y = x) : ys = xs := by
  induction h with
  | nil => rfl
  | cons first _ ih => rw [eq _ _ first, ih]

/-- The join of a path is found in both lists or in neither. -/
theorem find?_joins_alike {joins joins' : List JoinClause}
    (alike : List.Forall₂ (JoinClause.Alike shared) joins joins') (path : String) :
    Option.Rel (JoinClause.Alike shared) (joins.find? (·.path = path))
      (joins'.find? (·.path = path)) := by
  induction alike with
  | nil => exact .none
  | @cons j _ _ _ first _ ih =>
    obtain ⟨same⟩ := first
    simp only [List.find?_cons]
    cases decide (j.path = path) with
    | true => exact .some (.respelled same)
    | false => exact ih

namespace Token.Alike

variable {t t' : Token} {c c' : ColumnRef}

theorem column? (h : t.Alike shared t') :
    Option.Rel (ColumnRef.Alike shared) t.column? t'.column? := by
  cases h with
  | sql => exact .none
  | column alike => exact .some alike
  | refl =>
    cases t with
    | column c => exact .some (.refl c)
    | _ => exact .none

/-- What a literal becomes does not depend on the name of its column's rows. -/
theorem bindTo (h : t.Alike shared t') (columns : c.Alike shared c') :
    (t.bindTo c).Alike shared (t'.bindTo c') := by
  obtain ⟨-⟩ := columns
  cases h with
  | sql same => exact .sql same
  | column alike => exact .column alike
  | refl => exact .refl _

theorem resolve (h : t.Alike shared t') (context : BindingContext) (columns : c.Alike shared c') :
    OutcomesAlike shared Eq (t.resolve context c).1 (t'.resolve context c').1 ∧
      (t.resolve context c).2.Alike shared (t'.resolve context c').2 := by
  obtain ⟨-⟩ := columns
  cases h with
  | sql same => exact ⟨.ok rfl, .sql same⟩
  | column alike => exact ⟨.ok rfl, .column alike⟩
  | refl => exact ⟨.refl _, .refl _⟩

theorem collapse {d d' : Dialect} (spelled : shared.texts → d.SpellsLike d')
    (h : t.Alike shared t') :
    (t.collapse d).Alike shared (t'.collapse d') := by
  cases h with
  | sql same => exact .sql same
  | column alike => exact .column alike
  | refl =>
    cases t with
    | bool invert => exact .sql fun texts => by rw [(spelled texts).boolLiteral]
    | _ => exact .refl _

end Token.Alike

theorem OutcomesAlike.toBool_eq {R : α → α' → Prop} {x : Except Error α} {x' : Except Error α'}
    (h : OutcomesAlike shared R x x') : x.toBool = x'.toBool := by
  cases h <;> rfl

/-- Binding keeps spans alike. -/
theorem Token.respects_alike (shared : Shared) (context : BindingContext) :
    Respects context (Token.Alike shared) (ColumnRef.Alike shared) (OutcomesAlike shared Eq) where
  success := .ok rfl
  both := OutcomesAlike.toBool_eq
  column? := Alike.column?
  bindTo := Alike.bindTo
  resolve related columns := related.resolve context columns

/-! ### Texts -/

namespace Dialect.SpellsLike

variable {d d' : Dialect}

theorem render_value (spelled : d.SpellsLike d') (w : Wildcard) (hint : Option ColumnKind)
    (v : Value) :
    v.render d' w hint = v.render d w hint := by
  induction v using Value.inductionOn with
  | list items ih =>
    rw [Value.render, Value.render, Value.renderItems_eq_map, Value.renderItems_eq_map,
      List.map_congr_left ih]
  | scalar v other =>
    cases v with
    | bool b => exact congrFun spelled.boolLiteral b
    | list items => exact absurd rfl (other items)
    | _ => rfl

theorem qualifiedColumn (spelled : d.SpellsLike d') : d'.qualifiedColumn = d.qualifiedColumn := by
  funext qualifier column
  rw [Dialect.qualifiedColumn, spelled.quoteIdent, Dialect.qualifiedColumn]

theorem join_sql (spelled : d.SpellsLike d') (j : JoinClause) : j.sql d' = j.sql d := by
  simp only [JoinClause.sql, ColumnEquation.sql, QualifiedColumn.sql, spelled.qualifiedColumn]

theorem exists_sql (spelled : d.SpellsLike d') (clause : ExistsClause) :
    clause.sql d' = clause.sql d := by
  simp only [ExistsClause.sql, spelled.join_sql]

end Dialect.SpellsLike

variable {d d' : Dialect}

theorem ColumnRef.Alike.render {c c' : ColumnRef} (spelled : shared.texts → d.SpellsLike d')
    (h : c.Alike shared c') (texts : shared.texts) : c'.render d' = c.render d := by
  rw [h.eq texts, ColumnRef.render, (spelled texts).qualifiedColumn, ColumnRef.render]

theorem Token.Alike.render {t t' : Token} (spelled : shared.texts → d.SpellsLike d')
    (h : t.Alike shared t') :
    OutcomesAlike shared (fun text text' => shared.texts → text' = text) (t.render d)
      (t'.render d') := by
  have refl : ∀ t : Token,
      OutcomesAlike shared (fun text text' => shared.texts → text' = text) (t.render d)
      (t.render d') := by
    intro t
    cases t with
    | sql text => exact .ok fun _ => rfl
    | column c => exact .ok (ColumnRef.Alike.render spelled (.refl c))
    | deferred value w hint => exact .ok fun texts => (spelled texts).render_value w hint value
    | stringify => exact .error (.refl _)
    | cipher => exact .error (.refl _)
    | bool invert => exact .ok fun texts => by rw [(spelled texts).boolLiteral]
  cases h with
  | sql same => exact .ok same
  | column alike => exact .ok (alike.render spelled)
  | refl => exact refl t

theorem Token.renderAll_alike {ts ts' : List Token} (spelled : shared.texts → d.SpellsLike d')
    (alike : List.Forall₂ (Token.Alike shared) ts ts') :
    OutcomesAlike shared (fun text text' => shared.texts → text' = text) (renderAll d ts)
      (renderAll d' ts') := by
  induction alike with
  | nil => exact .ok fun _ => rfl
  | cons first _ ih =>
    refine (first.render spelled).bind fun text text' same => ih.bind fun more more' same' => ?_
    refine .ok fun texts => ?_
    rw [same texts, same' texts]

end PredicateSql
