import PredicateSql.Proofs.Condition.Derivation
import PredicateSql.Proofs.Condition.Scalars

/-!
The language of predicates, in terms of the entities, the bound values, the keys and the known
enumerations. Joins, aliases and texts play no part in it. Enumerations are passed on from left to
right, since the first member that needs one determines it for all others with the same key.
-/
namespace PredicateSql

variable {n : Nat}

/-- What predicates may refer to. -/
structure Vocabulary (n : Nat) where
  schema : Schema n
  bindings : Bindings
  settings : Option Settings

/-- A foreign key of one of the entities refers to the other, which has a primary key; one of the
owner comes first. -/
inductive Entity.Linkable (owner target : Entity n) : Prop
  | forward {fk key} (refers : owner.foreignKeyTo? target = some fk)
      (keyed : target.primaryKey = .ok key)
  | backward {fk key} (unrelated : owner.foreignKeyTo? target = none)
      (refers : target.foreignKeyTo? owner = some fk) (keyed : owner.primaryKey = .ok key)

/-- Navigations to single rows lead from one entity to the other. -/
inductive Schema.Reaches (schema : Schema n) : Fin n → List String → Fin n → Prop
  | here {i} : Reaches schema i [] i
  | step {i j segment rest navigation}
      (found : (schema.entity i).navigationFor? segment = some navigation)
      (single : navigation.many = false)
      (linkable : (schema.entity i).Linkable (schema.entity navigation.target))
      (others : Reaches schema navigation.target rest j) : Reaches schema i (segment :: rest) j

/-- What a member is to literals: its kind, the enumeration whose names it holds, and its cipher. -/
structure Target where
  kind : ColumnKind
  names : Option EnumDef
  cipher : Option CipherSpec

/-- The path leads to a member. The enumeration of the member is the known one or else the declared
one, which is known from then on. -/
structure Schema.Resolves (schema : Schema n) (i : Fin n) (r : EnumRegistry) (path : MemberPath)
    (m : Target) (r' : EnumRegistry) : Prop where
  nonempty : path.isEmpty = false
  declared : ∃ j column, schema.Reaches i path.navigation j ∧
    (schema.entity j).columnFor? path.property = some column ∧
    m.kind = column.kind ∧ m.cipher = column.cipher ∧
    (m.names, r') =
      if column.stringify then r.enumFor (schema.entity j) path.property else (none, r)

/-- The path leads to a collection of rows that refer to the primary key of their owner. -/
def Schema.Collection (schema : Schema n) (i : Fin n) (path : MemberPath) (child : Fin n) : Prop :=
  ∃ j navigation fk key, schema.Reaches i path.navigation j ∧
    (schema.entity j).navigationFor? path.property = some navigation ∧ navigation.many = true ∧
    navigation.target = child ∧
    (schema.entity child).foreignKeyTo? (schema.entity j) = some fk ∧
    (schema.entity j).primaryKey = .ok key

def CipherSpec.Keyed (settings : Option Settings) (spec : CipherSpec) : Prop :=
  Text.allBlank spec.key = false ∨
    ∃ s, settings = some s ∧ Text.allBlank s.cipher.defaultKey = false

namespace Target

def isTextual (m : Target) : Bool :=
  m.kind = .string || m.names.isSome

/-- A literal can be compared with the member: where it holds names the literal is made of them,
unless it is an open pattern; and where it is encrypted there is a key. -/
structure Takes (settings : Option Settings) (m : Target) (v : Value) (w : Wildcard) : Prop where
  names : w = .none → ∀ d ∈ m.names, d.Declares v
  key : ∀ spec ∈ m.cipher, spec.Keyed settings

end Target

def Expr.IsLiteral (bindings : Bindings) (e : Expr) (v : Value) : Prop :=
  e.strip = .constant v ∨ ∃ name, e.strip = .captured name ∧ bindings.get? name = some v

inductive Subject where
  | member (m : Target)
  | literal (v : Value)

namespace Subject

def isNull : Subject → Bool
  | member _ => false
  | literal v => v.isNull

/-- A literal can be compared with the other side. -/
def Fits (settings : Option Settings) : Subject → Subject → Prop
  | member m, literal v => m.Takes settings v .none
  | literal v, member m => m.Takes settings v .none
  | _, _ => True

end Subject

/-- A value: a member, a literal, or the test whether a member is null or empty. -/
inductive IsValue (voc : Vocabulary n) (i : Fin n) (r : EnumRegistry) :
    Expr → Subject → EnumRegistry → Prop
  | member {path m r'} (resolves : voc.schema.Resolves i r path m r') :
      IsValue voc i r (.member path) (.member m) r'
  | constant {v} : IsValue voc i r (.constant v) (.literal v) r
  | captured {name v} (bound : voc.bindings.get? name = some v) :
      IsValue voc i r (.captured name) (.literal v) r
  | emptiness {receiver args e path m r'} (target : emptinessTarget? receiver args = some e)
      (onMember : e.strip = .member path) (resolves : voc.schema.Resolves i r path m r') :
      IsValue voc i r (.call .isNullOrEmpty receiver args) (.member m) r'
  | convert {e a r'} (inner : IsValue voc i r e a r') : IsValue voc i r (.convert e) a r'

/-- An equality with a null literal, which is written as a test for null. -/
def BinaryOp.TestsNull (op : BinaryOp) (a b : Subject) : Prop :=
  (op = .equal ∨ op = .notEqual) ∧ (a.isNull = true ∨ b.isNull = true)

/-- The predicates on the rows of an entity. -/
inductive IsPredicate (voc : Vocabulary n) : Fin n → EnumRegistry → Expr → EnumRegistry → Prop
  | logical {i r r₁ r₂ op left right} (connective : op.isLogical = true)
      (first : IsPredicate voc i r left r₁) (second : IsPredicate voc i r₁ right r₂) :
      IsPredicate voc i r (.binary op left right) r₂
  | not {i r r' e} (inner : IsPredicate voc i r e r') : IsPredicate voc i r (.not e) r'
  | convert {i r r' e} (inner : IsPredicate voc i r e r') : IsPredicate voc i r (.convert e) r'
  | member {i r r' path m} (resolves : voc.schema.Resolves i r path m r')
      (boolean : m.kind = .bool) : IsPredicate voc i r (.member path) r'
  | constant {i r b} : IsPredicate voc i r (.constant (.bool b)) r
  | captured {i r name b} (bound : voc.bindings.get? name = some (.bool b)) :
      IsPredicate voc i r (.captured name) r
  | comparison {i r r₁ r₂ op left right a b} (comparator : op.isLogical = false)
      (first : IsValue voc i r left a r₁) (second : IsValue voc i r₁ right b r₂)
      (fits : op.TestsNull a b ∨ a.Fits voc.settings b) :
      IsPredicate voc i r (.binary op left right) r₂
  | like {i r r' method w receiver path pattern m v} (opening : method.wildcard? = some w)
      (onMember : receiver.map Expr.strip = some (.member path))
      (resolves : voc.schema.Resolves i r path m r') (textual : m.isTextual = true)
      (literal : pattern.IsLiteral voc.bindings v) (takes : m.Takes voc.settings v w) :
      IsPredicate voc i r (.call method receiver [pattern]) r'
  | membership {i r r' source arg path m items}
      (collection : source.IsLiteral voc.bindings (.list items))
      (onMember : arg.strip = .member path) (resolves : voc.schema.Resolves i r path m r')
      (takes : items ≠ [] → m.Takes voc.settings (.list items) .none) :
      IsPredicate voc i r (.call .contains (some source) [arg]) r'
  | hasValue {i r r' receiver path m}
      (onMember : receiver.map Expr.strip = some (.member path))
      (resolves : voc.schema.Resolves i r path m r') :
      IsPredicate voc i r (.call .hasValue receiver []) r'
  | emptiness {i r r' receiver args e path m} (target : emptinessTarget? receiver args = some e)
      (onMember : e.strip = .member path) (resolves : voc.schema.Resolves i r path m r') :
      IsPredicate voc i r (.call .isNullOrEmpty receiver args) r'
  | any {i r receiver path child} (onMember : receiver.map Expr.strip = some (.member path))
      (collection : voc.schema.Collection i path child) :
      IsPredicate voc i r (.call .any receiver []) r
  | anyWhere {i r r' receiver path child e}
      (onMember : receiver.map Expr.strip = some (.member path))
      (collection : voc.schema.Collection i path child) (inner : IsPredicate voc child r e r') :
      IsPredicate voc i r (.call .any receiver [e]) r'

end PredicateSql
