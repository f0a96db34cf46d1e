import PredicateSql.Sql.Scope

/-!
Lowering of predicates to pieces of SQL. A boolean operand (a boolean member or value, or the test
for null or empty) is written followed by an explicit test against a boolean literal; negation
inverts that test where it meets an operand, and is written as `NOT` elsewhere. A comparison binds
its literals to the column it mentions, and so do `LIKE` and `IN`.
-/
namespace PredicateSql

open Lowering

variable {n : Nat} (context : LoweringContext n)

/-- The value of a constant or a captured name. -/
def literal : Expr → Except Error Value
  | .convert e => literal e
  | .constant value => .ok value
  | .captured name => context.bindings.resolve name
  | e => .error (.unsupported (.notLiteral e.text))

/-- Whether an expression is a literal null. -/
def isNullLiteral : Expr → Except Error Bool
  | .convert e => isNullLiteral e
  | .constant value => .ok value.isNull
  | .captured name => (context.bindings.resolve name).map (·.isNull)
  | _ => .ok false

def singleArg (method : Method) : List Expr → Except Error Expr
  | [arg] => .ok arg
  | args => .error (.unsupported (.needsOneArgument method args.length))

/-- The column of the member that a method is called on. -/
def memberOperand (origin : Origin n) (method : Method) (receiver : Option Expr) :
    Lowering ColumnRef :=
  match receiver.map Expr.strip with
  | some (.member path) => resolveColumn context origin path
  | _ => reject (.needsMember method)

/-- The test whether a member is null or the empty string, as an expression with a boolean value. -/
def nullOrEmpty (origin : Origin n) (receiver : Option Expr) (args : List Expr) :
    Lowering Unit := do
  let target ← match receiver, args with
    | none, [e] => pure e
    | some e, [] => pure e
    | _, _ => reject .needsOneMember
  let column ← memberOperand context origin .isNullOrEmpty (some target)
  let d := context.dialect
  pushSql "(CASE WHEN "
  push (.column column)
  pushSql " IS NULL OR "
  push (.column column)
  pushSql (" = '' THEN " ++ d.boolLiteral true ++ " ELSE " ++ d.boolLiteral false ++ " END)")

/-- A boolean member. -/
def booleanMember (origin : Origin n) (path : MemberPath) : Lowering Unit := do
  let column ← resolveColumn context origin path
  if column.kind = .bool then push (.column column)
  else reject (.memberNotBoolean path.text)

/-- A boolean value; `e` is the constant or the captured name that it comes from. -/
def booleanValue (e : Expr) : Lowering Unit := do
  let value ← attempt (literal context e)
  match value.bool? with
  | some _ => push (.deferred value .none none)
  | none => reject (.valueNotBoolean e.text)

/-- How to write a boolean operand, without its test; nothing for other expressions. -/
def booleanOperand? (origin : Origin n) : Expr → Option (Lowering Unit)
  | .convert e => booleanOperand? origin e
  | .member path => some (booleanMember context origin path)
  | .constant value => some (booleanValue context (.constant value))
  | .captured name => some (booleanValue context (.captured name))
  | .call .isNullOrEmpty receiver args => some (nullOrEmpty context origin receiver args)
  | _ => none

/-- An operand of a comparison. -/
def operand (origin : Origin n) : Expr → Lowering Unit
  | .convert e => operand origin e
  | .member path => do push (.column (← resolveColumn context origin path))
  | .constant value => push (.deferred value .none none)
  | .captured name => do
    push (.deferred (← attempt (context.bindings.resolve name)) .none none)
  | .call .isNullOrEmpty receiver args => nullOrEmpty context origin receiver args
  | e => reject (.notOperand e.text)

/-- The test that takes the place of an equality with a literal null. -/
def nullTest? : BinaryOp → Option String
  | .equal => some " IS NULL"
  | .notEqual => some " IS NOT NULL"
  | _ => none

/-- Which operand of an equality is tested for null, when the other is a literal null. -/
def nullTested? (op : BinaryOp) (left right : Expr) : Except Error (Option (String × Expr)) :=
  match nullTest? op with
  | none => .ok none
  | some test => do
    if ← isNullLiteral context right then return some (test, left)
    else if ← isNullLiteral context left then return some (test, right)
    else return none

/-- A comparison. Equality with a literal null becomes a test for null. -/
def comparison (origin : Origin n) (op : BinaryOp) (left right : Expr) : Lowering Unit := do
  let start ← mark
  pushSql "("
  match ← attempt (nullTested? context op left right) with
  | some (test, e) =>
    operand context origin e
    pushSql test
  | none =>
    operand context origin left
    pushSql (" " ++ op.sql ++ " ")
    operand context origin right
  pushSql ")"
  bindSpan context start
  collapseBooleans context start

/-- A match of a textual column with a pattern. -/
def like (method : Method) (column : ColumnRef) (pattern : Expr) (wildcard : Wildcard) :
    Lowering Unit := do
  if !column.isTextual then reject (.needsText method column.column column.kind)
  else
    let value ← attempt (literal context pattern)
    let start ← mark
    pushSql "("
    push (.column column)
    pushSql " LIKE "
    push (.deferred value wildcard none)
    pushSql ")"
    bindSpan context start

/-- What stands for the items of an empty list: a literal that is meant to match no row. -/
def emptyListLiteral (column : ColumnRef) : String :=
  if column.isTextual then
    context.dialect.stringLiteral ("DefaultValueForEmptyArray(" ++ context.emptyListTag ++ ")")
  else "-1"

/-- Membership of a column in a list of values. -/
def membership (column : ColumnRef) (items : List Value) : Lowering Unit := do
  let start ← mark
  pushSql "("
  push (.column column)
  pushSql " IN ("
  if items.isEmpty then pushSql (emptyListLiteral context column)
  else push (.deferred (.list items) .none none)
  pushSql "))"
  bindSpan context start

/-- Membership of the member `arg` in the collection that `collection` stands for. -/
def inCollection (origin : Origin n) (collection arg : Expr) : Lowering Unit := do
  match ← attempt (literal context collection) with
  | .list items =>
    match arg.strip with
    | .member path =>
      let column ← resolveColumn context origin path
      membership context column items
    | _ => reject (.needsMemberArgument arg.text)
  | _ => reject (.notCollection collection.text)

/-- Part of a text, or membership in a collection. -/
def containsCall (origin : Origin n) (receiver : Option Expr) (args : List Expr) :
    Lowering Unit := do
  let arg ← attempt (singleArg .contains args)
  match receiver.map Expr.strip with
  | some (.member path) =>
    let column ← resolveColumn context origin path
    like context .contains column arg .both
  | some (.constant value) => inCollection context origin (.constant value) arg
  | some (.captured name) => inCollection context origin (.captured name) arg
  | _ => reject .containsReceiver

/-- The beginning or the end of a text. -/
def affixCall (origin : Origin n) (method : Method) (wildcard : Wildcard) (receiver : Option Expr)
    (args : List Expr) : Lowering Unit := do
  let column ← memberOperand context origin method receiver
  let arg ← attempt (singleArg method args)
  like context method column arg wildcard

/-- The test that a member is not null. -/
def hasValueCall (origin : Origin n) (receiver : Option Expr) (args : List Expr) :
    Lowering Unit := do
  if !args.isEmpty then reject (.takesNoArguments .hasValue)
  else
    let column ← memberOperand context origin .hasValue receiver
    pushSql "("
    push (.column column)
    pushSql " IS NOT NULL)"

/-- The path that `Any` is called on. -/
def anyPath (receiver : Option Expr) : Except Error MemberPath :=
  match receiver.map Expr.strip with
  | some (.member path) => .ok path
  | _ => .error (.unsupported .anyReceiver)

/-- The existence of a row in the collection at `path`, with a condition on it if one is given. The
child rows are joined with a copy of the owner's table, whose key must be that of the outer row. -/
def existence (origin : Origin n) (path : MemberPath)
    (condition : Option (Origin n → Lowering Unit)) : Lowering Unit := do
  let outer ← walk context [] origin path.navigation
  let owner := context.schema.entity outer.entity
  match owner.navigationFor? path.property with
  | none => lacks (.navigation owner.typeName path.property)
  | some navigation =>
    if !navigation.many then reject (.singleValued path.text)
    else
      let child := context.schema.entity navigation.target
      match child.foreignKeyTo? owner with
      | none => lacks (.foreignKeyTo child.typeName owner.typeName path.text)
      | some fk =>
        let key ← attempt owner.primaryKey
        let d := context.dialect
        let childAlias ← freshAlias context
        let ownerAlias ← freshAlias context
        let ownerKey : QualifiedColumn := ⟨ownerAlias, key.column⟩
        let correlation : JoinClause :=
          ⟨path.text, ownerAlias, .inner, d.tableName owner.table,
            [⟨ownerKey, ⟨childAlias, fk.column⟩⟩, ⟨ownerKey, ⟨outer.qualifier, key.column⟩⟩]⟩
        let (joins, text) ← match condition with
          | none => pure ([], none)
          | some condition => do
            let (joins, buffer) ← isolated (condition ⟨navigation.target, childAlias⟩)
            let text ← attempt (buffer.finish d)
            pure (joins, some text)
        let clause : ExistsClause := ⟨d.tableName child.table, childAlias, correlation, joins, text⟩
        pushSql (clause.sql d)

/-- Writes a predicate at the end of the buffer. -/
def predicate : Expr → Origin n → Lowering Unit
  | .binary op left right, origin =>
    if op.isLogical then do
      let start ← mark
      pushSql "("
      predicate left origin
      pushSql (" " ++ op.sql ++ " ")
      predicate right origin
      pushSql ")"
      collapseBooleans context start
    else comparison context origin op left right
  | .not e, origin =>
    match booleanOperand? context origin e with
    | some written => do
      written
      push (.bool true)
    | none => do
      pushSql "NOT "
      predicate e origin
  | .convert e, origin => predicate e origin
  | .member path, origin => do
    booleanMember context origin path
    push (.bool false)
  | .constant value, _ => do
    booleanValue context (.constant value)
    push (.bool false)
  | .captured name, _ => do
    booleanValue context (.captured name)
    push (.bool false)
  | .call .isNullOrEmpty receiver args, origin => do
    nullOrEmpty context origin receiver args
    push (.bool false)
  | .call .contains receiver args, origin => containsCall context origin receiver args
  | .call .startsWith receiver args, origin =>
    affixCall context origin .startsWith .trailing receiver args
  | .call .endsWith receiver args, origin =>
    affixCall context origin .endsWith .leading receiver args
  | .call .hasValue receiver args, origin => hasValueCall context origin receiver args
  | .call .any receiver [], origin => do
    let path ← attempt (anyPath receiver)
    existence context origin path none
  | .call .any receiver [e], origin => do
    let path ← attempt (anyPath receiver)
    existence context origin path (some (predicate e))
  | .call .any receiver (_ :: _ :: _), _ => do
    let _ ← attempt (anyPath receiver)
    reject .anyArguments
  | .modifier m, _ => reject (.nestedModifier m.text)
termination_by structural e => e

/-- A conversion writes nothing. -/
theorem predicate_convert (e : Expr) (origin : Origin n) :
    predicate context (.convert e) origin = predicate context e origin := by
  rw [predicate]

end PredicateSql
