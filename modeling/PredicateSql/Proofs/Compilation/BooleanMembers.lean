import PredicateSql.Proofs.Compilation.Encryption
import PredicateSql.Proofs.Compilation.TruthValues
import PredicateSql.Proofs.Condition.Places

/-!
Boolean members as predicates. A member by itself is tested with a truth value that is written
without regard to the column, and an equality with the same truth value binds it to the column. The
two are compared at every place of a predicate.
-/
namespace PredicateSql

open Lowering

variable {n : Nat}

/-- The expression says of the member at the path that it is true, or that it is not. -/
inductive Expr.Asserts (path : MemberPath) : Expr → Bool → Prop
  | plain {e} (member : e.strip = .member path) : Asserts path e true
  | negated {e inner} (negation : e.strip = .not inner) (member : inner.strip = .member path) :
      Asserts path e false

/-- The expression sets the member at the path equal to a truth value. -/
def Expr.Equates (bindings : Bindings) (path : MemberPath) (e : Expr) (b : Bool) : Prop :=
  ∃ left right, e.strip = .binary .equal left right ∧ left.strip = .member path ∧
    right.IsLiteral bindings (.bool b)

section Forms

variable {e : Expr} {path : MemberPath} {b : Bool} {bindings : Bindings}

theorem Expr.Asserts.ne_modifier (h : e.Asserts path b) (m : Modifier) : e ≠ .modifier m := by
  cases h with
  | plain member => exact ne_modifier_of_strip member rfl m
  | negated negation => exact ne_modifier_of_strip negation rfl m

theorem Expr.Equates.ne_modifier (h : e.Equates bindings path b) (m : Modifier) :
    e ≠ .modifier m := by
  obtain ⟨_, _, shape, -⟩ := h
  exact ne_modifier_of_strip shape rfl m

theorem Expr.Equates.compound (h : e.Equates bindings path b) : e.isBoolean = false := by
  obtain ⟨_, _, shape, -⟩ := h
  simp [isBoolean, shape]

theorem Place.plug_ne_modifier (p : Place) (other : ∀ m, e ≠ .modifier m) (m : Modifier) :
    p.plug e ≠ .modifier m := by
  cases p with
  | here => exact other m
  | _ => exact nofun

end Forms

section Derived

variable {context : LoweringContext n} {origin : Origin n} {e : Expr} {path : MemberPath} {b : Bool}
  {s t : Progress} {k : Condition n}

/-- A member is a boolean operand if its column is boolean. -/
theorem readBoolean?_of_member (context : LoweringContext n) (origin : Origin n)
    (member : e.strip = .member path) :
    ∃ read, readBoolean? context origin e = some read ∧ ∀ {s o t}, read s = (.ok o, t) ↔
      ∃ c, resolveColumn context origin path s = (.ok c, t) ∧ c.kind = .bool ∧ .column c = o := by
  rw [← readBoolean?_strip, member]
  refine ⟨_, rfl, fun {s o t} => ?_⟩
  constructor
  · intro run
    obtain ⟨c, u, resolved, rest⟩ := bind_ok.mp run
    by_cases kind : c.kind = .bool
    · rw [if_pos kind] at rest
      obtain ⟨rfl, rfl⟩ := pure_ok.mp rest
      exact ⟨c, resolved, kind, rfl⟩
    · rw [if_neg kind] at rest
      exact absurd rest reject_ok
  · rintro ⟨c, resolved, kind, rfl⟩
    refine bind_ok.mpr ⟨c, t, resolved, ?_⟩
    rw [if_pos kind]
    exact pure_ok.mpr ⟨rfl, rfl⟩

/-- A boolean member is tested with a truth value whatever its column is like otherwise. -/
theorem asserts_lowers_iff (asserts : e.Asserts path b) :
    Lowers context origin e s k t ↔ ∃ c, resolveColumn context origin path s = (.ok c, t) ∧
      c.kind = .bool ∧ .truth (.column c) (!b) = k := by
  rw [← lowers_strip]
  cases asserts with
  | plain member =>
    obtain ⟨read, boolean, run_iff⟩ := readBoolean?_of_member context origin member
    rw [← readBoolean?_strip] at boolean
    constructor
    · intro h
      rw [member] at h boolean
      cases h with
      | truth _ boolean' run =>
        cases boolean.symm.trans boolean'
        obtain ⟨c, resolved, kind, rfl⟩ := run_iff.mp run
        exact ⟨c, resolved, kind, rfl⟩
    · rintro ⟨c, resolved, kind, rfl⟩
      exact .truth e.strip_strip boolean (run_iff.mpr ⟨c, resolved, kind, rfl⟩)
  | negated negation member =>
    obtain ⟨read, boolean, run_iff⟩ := readBoolean?_of_member context origin member
    rw [negation]
    constructor
    · intro h
      cases h with
      | inverted boolean' run =>
        cases boolean.symm.trans boolean'
        obtain ⟨c, resolved, kind, rfl⟩ := run_iff.mp run
        exact ⟨c, resolved, kind, rfl⟩
      | not compound =>
        rw [boolean] at compound
        cases compound
      | truth _ boolean' => cases boolean'
    · rintro ⟨c, resolved, kind, rfl⟩
      exact .inverted boolean (run_iff.mpr ⟨c, resolved, kind, rfl⟩)

/-- An equality makes of the truth value what its column makes of it. -/
theorem equality_lowers_iff {left right : Expr} (shape : e.strip = .binary .equal left right)
    (member : left.strip = .member path) (value : literal context right = .ok (.bool b)) :
    Lowers context origin e s k t ↔ ∃ c, resolveColumn context origin path s = (.ok c, t) ∧
      ∃ l, bindLiteral ⟨t.enums, context.settings⟩ c (.bool b) .none = .ok l ∧
        .comparison .equal (.column c) (.literal ⟨right.strip, .bool b, .none, some c, l⟩) = k := by
  have compared : ∀ {c u}, resolveColumn context origin path s = (.ok c, u) →
      (Lowers context origin (.binary .equal left right) s k t ↔ u = t ∧
        ∃ l, bindLiteral ⟨u.enums, context.settings⟩ c (.bool b) .none = .ok l ∧
          .comparison .equal (.column c)
            (.literal ⟨right.strip, .bool b, .none, some c, l⟩) = k) := by
    intro c u resolved
    have read : readOperand context origin left s = (.ok (.column c), u) :=
      (readOperand_ok context).mpr (.inl ⟨path, c, member, resolved, rfl⟩)
    exact lowers_compared_iff rfl read rfl value rfl false
  rw [← lowers_strip, shape]
  constructor
  · intro h
    have notNull : isNullLiteral context left ≠ .ok true ∧ isNullLiteral context right ≠ .ok true :=
      ⟨not_isNullLiteral_of_member member, not_isNullLiteral_of_literal value rfl⟩
    obtain ⟨l, _, u, _, _, leftRead, -⟩ := h.operands rfl fun _ => notNull
    obtain ⟨c, resolved, -⟩ := readOperand_of_member context member leftRead
    obtain ⟨rfl, l, bound, rfl⟩ := (compared resolved).mp h
    exact ⟨c, resolved, l, bound, rfl⟩
  · rintro ⟨c, resolved, l, bound, rfl⟩
    exact (compared resolved).mpr ⟨rfl, l, bound, rfl⟩

end Derived

/-- The rows at the place are those of the entity `j`, if the predicate is about those of `i`. -/
inductive Place.Leads (schema : Schema n) : Place → Fin n → Fin n → Prop
  | here {i} : Leads schema .here i i
  | left {p i j op connective other} (inner : Leads schema p i j) :
      Leads schema (.left op connective p other) i j
  | right {p i j op connective other} (inner : Leads schema p i j) :
      Leads schema (.right op connective other p) i j
  | not {p i j} (inner : Leads schema p i j) : Leads schema (.not p) i j
  | convert {p i j} (inner : Leads schema p i j) : Leads schema (.convert p) i j
  | any {p i j child receiver path} (onMember : receiver.map Expr.strip = some (.member path))
      (collection : schema.Collection i path child) (inner : Leads schema p child j) :
      Leads schema (.any receiver p) i j

/-- The scope of a place starts from the rows at the place. -/
theorem Surrounds.leads {context : LoweringContext n} {p : Place} {f : Surrounding n}
    {origin origin' : Origin n} {s u v t : Progress}
    (h : Surrounds context p f origin s origin' u v t)
    (linked : Linked context.schema context.dialect origin s.joins) :
    p.Leads context.schema origin.entity origin'.entity ∧
      Linked context.schema context.dialect origin' u.joins := by
  induction h with
  | here => exact ⟨.here, linked⟩
  | left _ _ ih => exact ⟨.left (ih linked).1, (ih linked).2⟩
  | right first _ ih =>
    have linked' := first.linked linked
    exact ⟨.right (ih linked').1, (ih linked').2⟩
  | not _ ih => exact ⟨.not (ih linked).1, (ih linked).2⟩
  | convert _ ih => exact ⟨.convert (ih linked).1, (ih linked).2⟩
  | any collection rows _ ih =>
    obtain ⟨inner, linked'⟩ := ih (.nil _ _ _)
    exact ⟨.any collection (subquery_collection context linked rows).1 inner, linked'⟩

/-- A boolean member, and the equality with the truth value that it is tested with, at one place of
a predicate. Where the member is accepted, the equality is what its column makes of the truth value,
and the rest of the condition is the same; so the two agree, apart from the parentheses of the
equality, just where the column neither holds names nor is encrypted. The member by itself is never
tested with ciphertext. Where the equality is accepted, the member is too if its column is
boolean. -/
theorem bare_members_agree_with_equalities {c : Compiler n} (reached : c.Reachable)
    {bindings : Bindings} {p : Place} {e e' : Expr} {path : MemberPath} {b : Bool}
    (asserts : e.Asserts path b) (takes : p.Takes e) (equates : e'.Equates bindings path b) :
    let d := c.input.dialect
    let schema := c.input.schema
    (∀ t k, c.Adds bindings (p.plug e) t k →
      ∃ (f : Surrounding n) (column : ColumnRef) (i : Fin n) (r r' : EnumRegistry) (m : Target),
        p.Leads schema c.input.root i ∧ schema.Resolves i r path m r' ∧ column.Describes r' m ∧
        m.kind = .bool ∧ f.fill (.truth (.column column) (!b)) = k ∧
        c.BindsTruth bindings (p.plug e') t
        (fun o => f.fill (.comparison .equal (.column column) o))
          m b ∧
        ∀ l : BoundLiteral, l.written.sql d = d.boolLiteral b →
          (Condition.comparison .equal (.column column) (.literal l)).sql schema d =
            "(" ++ (Condition.truth (.column column) (!b)).sql schema d ++ ")") ∧
    ∀ t k, c.Adds bindings (p.plug e') t k →
      ∃ (f : Surrounding n) (column : ColumnRef) (o : Operand),
      f.fill (.comparison .equal (.column column) o) = k ∧
        (column.kind = .bool →
          c.Adds bindings (p.plug e) t (f.fill (.truth (.column column) (!b)))) := by
  intro d schema
  have other := p.plug_ne_modifier equates.ne_modifier
  have compound := p.takes_of_compound equates.compound
  obtain ⟨left, right, shape, member, literal⟩ := equates
  have value : PredicateSql.literal (c.context bindings) right = .ok (.bool b) :=
    (literal_iff _).mpr literal
  constructor
  · intro t k adds
    obtain ⟨f, origin, u, v, _, around, inner, rfl⟩ := adds.derived.surrounds takes
    obtain ⟨column, resolved, kind, rfl⟩ := (asserts_lowers_iff asserts).mp inner
    obtain ⟨leads, linked⟩ := around.leads reached.linked
    obtain ⟨m, resolves, describes⟩ := resolveColumn_resolves (c.context bindings) linked resolved
    refine ⟨f, column, origin.entity, u.enums, v.enums, m, leads, resolves, describes,
      describes.kind.symm.trans kind, rfl, ?_, fun l => Condition.comparison_sql_eq⟩
    apply Compiler.BindsTruth.of_lowers describes other
    · intro l bound
      have here := (equality_lowers_iff shape member value).mpr ⟨column, resolved, l, bound, rfl⟩
      exact ⟨_, rfl, around.lowers compound here⟩
    · intro k' t' derived
      obtain ⟨f', origin', u', v', _, around', inner', rfl⟩ := derived.surrounds compound
      obtain ⟨rfl, rfl⟩ := around.scope_unique around'
      obtain ⟨column', resolved', l, bound, rfl⟩ :=
        (equality_lowers_iff shape member value).mp inner'
      cases resolved.symm.trans resolved'
      refine ⟨l, bound, fun l' filled => ?_⟩
      have set := (Condition.comparison.inj (around.fill_inj around' filled)).2.2
      obtain rfl := Operand.literal.inj set
      rfl
  · intro t k adds
    obtain ⟨f, origin, u, v, _, around, inner, rfl⟩ := adds.derived.surrounds compound
    obtain ⟨column, resolved, l, -, rfl⟩ := (equality_lowers_iff shape member value).mp inner
    refine ⟨f, column, _, rfl, fun kind => ?_⟩
    have here := (asserts_lowers_iff asserts).mpr ⟨column, resolved, kind, rfl⟩
    exact (Compiler.adds_iff (p.plug_ne_modifier asserts.ne_modifier)).mpr
      (around.lowers takes here)

namespace Bookshelf

/-- The members of the library; who of them is privileged is secret. -/
def member : Entity 1 where
  typeName := "Member"
  table := "Members"
  columns := [{ column "Id" .int with isPrimaryKey := true },
    { column "Vip" .bool with cipher := some ⟨"vip key", .key128⟩ }]
  navigations := []

def members : Compiler 1 :=
  .start { readers.input with schema := ⟨#v[member]⟩ } .empty

def vip : Expr := .member (.ofText "Vip")

theorem vip_resolves : members.input.schema.Resolves members.input.root members.registry.enums
    (.ofText "Vip") ⟨.bool, none, some ⟨"vip key", .key128⟩⟩ .empty where
  nonempty := by decide
  declared := ⟨0, { column "Vip" .bool with cipher := some ⟨"vip key", .key128⟩ }, .here,
    rfl, rfl, rfl, rfl⟩

end Bookshelf

/-- That a book is not lent, under a further negation and beside a condition on its shelf. -/
theorem unlent_books_agree :
    let bindings := Bindings.empty.bind "lent" (.bool false)
    let place : Place := .right .or rfl Bookshelf.shelfFull (.not .here)
    let bare := place.plug (.not Bookshelf.lent)
    let equality := place.plug (.binary .equal (.convert Bookshelf.lent) (.captured "lent"))
    (∃ t k, Bookshelf.books.Adds bindings bare t k ∧
      ∃ (f : Surrounding 2) (column : ColumnRef) (m : Target),
        f.fill (.truth (.column column) true) = k ∧ m.kind = .bool ∧
        Bookshelf.books.BindsTruth bindings equality t
          (fun o => f.fill (.comparison .equal (.column column) o)) m false) ∧
      ∃ t k, Bookshelf.books.Adds bindings equality t k ∧
        ∃ (f : Surrounding 2) (column : ColumnRef) (o : Operand),
          f.fill (.comparison .equal (.column column) o) = k ∧ (column.kind = .bool →
          Bookshelf.books.Adds bindings bare t (f.fill (.truth (.column column) true))) := by
  intro bindings place bare equality
  have reached : Bookshelf.books.Reachable := .start _ _
  have asserts : (Expr.not Bookshelf.lent).Asserts (.ofText "Lent") false := .negated rfl rfl
  have takes : place.Takes (.not Bookshelf.lent) := ⟨rfl, trivial⟩
  have equates : (Expr.binary .equal (.convert Bookshelf.lent) (.captured "lent")).Equates bindings
      (.ofText "Lent") false := ⟨_, _, rfl, rfl, .inr ⟨"lent", rfl, rfl⟩⟩
  obtain ⟨agree, accepts⟩ := bare_members_agree_with_equalities reached asserts takes equates
  constructor
  · have accepted : (Bookshelf.books.add bindings bare).1 = .ok () :=
      congrArg Prod.fst (Compiler.accepted_of_toBool (by decide +kernel))
    have predicate := place.plug_ne_modifier asserts.ne_modifier
    obtain ⟨t, k, adds⟩ := (Compiler.exists_adds_iff predicate).mpr accepted
    obtain ⟨f, column, _, _, _, m, -, -, -, kind, filled, binds, -⟩ := agree t k adds
    exact ⟨t, k, adds, f, column, m, filled, kind, binds⟩
  · have accepted : (Bookshelf.books.add bindings equality).1 = .ok () :=
      congrArg Prod.fst (Compiler.accepted_of_toBool (by decide +kernel))
    have predicate := place.plug_ne_modifier equates.ne_modifier
    obtain ⟨t, k, adds⟩ := (Compiler.exists_adds_iff predicate).mpr accepted
    exact ⟨t, k, adds, accepts t k adds⟩

theorem mem_parenthesize {text : String} {x : Char} (inside : x ∈ text.toList) :
    x ∈ (parenthesize text).toList := by
  unfold parenthesize
  split
  · exact inside
  · simp [inside]

/-- The members who are privileged are sought by the truth value itself, although what is stored is
its ciphertext, which is what the equality asks for. -/
theorem secret_members_disagree :
    let equality := Expr.binary .equal Bookshelf.vip (.constant (.bool true))
    (Bookshelf.members.add .empty Bookshelf.vip).2.fragments = ["(Members.[Vip] = 1)"] ∧
      (Bookshelf.members.add .empty equality).1 = .ok () ∧
      (Bookshelf.members.add .empty equality).2.fragments ≠ ["(Members.[Vip] = 1)"] := by
  intro equality
  obtain ⟨column, t, resolved, -, describes⟩ :=
    Compiler.resolved_column Bookshelf.vip_resolves .empty
  have keyed : CipherSpec.Keyed none ⟨"vip key", .key128⟩ := .inl (by decide)
  obtain ⟨key, derived⟩ := FieldCipher.ofSpec_ok.mpr keyed
  have bound : bindLiteral ⟨t.enums, none⟩ column (.bool true) .none =
      .ok ⟨.string (key.encryptText "true"), .none, some .string⟩ :=
    bindLiteral_bool.mpr ⟨describes.names_eq_none.mp rfl,
      .inr ⟨_, key, describes.cipher, derived, rfl⟩⟩
  have here : Lowers (Bookshelf.members.context .empty) Bookshelf.members.origin equality
      Bookshelf.members.progress _ t :=
    (equality_lowers_iff rfl rfl rfl).mpr ⟨column, resolved, _, bound, rfl⟩
  have equates : equality.Equates .empty (.ofText "Vip") true := ⟨_, _, rfl, rfl, .inl rfl⟩
  have added := Compiler.add_of_lowers equates.ne_modifier here
  refine ⟨by decide +kernel, congrArg Prod.fst added, fun same => ?_⟩
  rw [added] at same
  have text := List.head_eq_of_cons_eq same
  have quoted : '\'' ∈ "(Members.[Vip] = 1)".toList := by
    rw [← text]
    apply mem_parenthesize
    simp [Condition.sql, Operand.sql, Literal.sql, Value.render, Value.renderScalar,
      ColumnKind.literalClass, ValueClass.isQuoted, Dialect.stringLiteral]
  exact absurd quoted (by decide)

end PredicateSql
