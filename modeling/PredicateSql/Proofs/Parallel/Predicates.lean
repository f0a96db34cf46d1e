import PredicateSql.Proofs.Compilation.Calls
import PredicateSql.Proofs.Parallel.Expressions
import PredicateSql.Proofs.Parallel.Runs

/-!
Every step of a lowering runs alike in another dialect and with other bindings: the dialect decides
nothing but how things are spelled, and a captured value is treated as a constant is.
-/
namespace PredicateSql

open Lowering

variable {n : Nat} {shared : Shared} {context : LoweringContext n} {d : Dialect} {b : Bindings}

/-- The same lowering in another dialect and with other bindings. -/
def LoweringContext.retold (context : LoweringContext n) (d : Dialect) (b : Bindings) :
    LoweringContext n :=
  { context with dialect := d, bindings := b }

section Members

variable (spelled : shared.texts → context.dialect.SpellsLike d) {origin origin' : Origin n}
include spelled

theorem leftJoin_parallel (origins : origin.Alike shared origin') (target : Fin n) (path : String) :
    Parallel shared (JoinClause.Alike shared) (leftJoin context origin target path)
      (leftJoin (context.retold d b) origin' target path) := by
  obtain ⟨same⟩ := origins
  refine .bind (.attempt (.refl _)) ?_
  rintro ⟨targetColumn, ownerColumn⟩ _ rfl
  refine .bind (.freshAlias rfl) ?_
  rintro name _ rfl
  refine .pure (.respelled fun texts => ⟨?_, ?_⟩)
  · exact congrFun (spelled texts).tableName _
  · rw [same texts]

theorem step_parallel (origins : origin.Alike shared origin') (path segment : String) :
    Parallel shared (Origin.Alike shared) (step context origin path segment)
      (step (context.retold d b) origin' path segment) := by
  have joined := fun target => leftJoin_parallel (b := b) spelled origins target path
  obtain ⟨-⟩ := origins
  unfold step
  dsimp only [LoweringContext.retold]
  split
  · exact .lacks _
  · split
    · exact .reject fun _ => rfl
    · refine .bind (.findJoin path) ?_
      rintro _ _ (⟨⟨-⟩⟩ | -)
      · exact .pure (.refl _)
      · refine .bind (joined _) ?_
        rintro join _ ⟨respelled⟩
        refine .bind (.addJoin (.respelled respelled)) ?_
        rintro - - -
        exact .pure (.refl _)

theorem walk_parallel (origins : origin.Alike shared origin') (walked segments : List String) :
    Parallel shared (Origin.Alike shared) (walk context walked origin segments)
      (walk (context.retold d b) walked origin' segments) := by
  induction segments generalizing walked origin origin' with
  | nil => exact .pure origins
  | cons segment rest ih =>
    refine .bind (step_parallel spelled origins _ segment) ?_
    intro next next' nexts
    exact ih nexts _

theorem resolveColumn_parallel (origins : origin.Alike shared origin') (path : MemberPath) :
    Parallel shared (ColumnRef.Alike shared) (resolveColumn context origin path)
      (resolveColumn (context.retold d b) origin' path) := by
  unfold resolveColumn
  split
  · exact .reject fun _ => rfl
  · refine .bind (walk_parallel spelled origins [] path.navigation) ?_
    rintro owner _ ⟨same⟩
    dsimp only [LoweringContext.retold]
    split
    · split
      · exact .reject fun _ => rfl
      · exact .lacks _
    next column _ =>
      split
      · refine .bind (.enumFor _ _) ?_
        rintro found _ rfl
        exact .pure (.renamed same)
      · exact .pure (.renamed same)

end Members

section Values

variable {e e' : Expr} {args args' : List Expr} {receiver receiver' : Option Expr}

/-- A name is bound to what stands for it on the other side. -/
theorem resolve_alike {name : String}
    (h : (Expr.captured name).Alike shared context.bindings b e') :
    OutcomesAlike shared Eq (context.bindings.resolve name) (literal (context.retold d b) e') := by
  cases h with
  | captured same =>
    have resolved : b.resolve name = context.bindings.resolve name := by
      rw [Bindings.resolve, Bindings.resolve, same]
    simp only [literal, LoweringContext.retold, resolved]
    exact .refl _
  | inlined reworded bound =>
    simp only [literal, Bindings.resolve, bound]
    exact .ok rfl

theorem literal_alike (h : e.Alike shared context.bindings b e') :
    OutcomesAlike shared Eq (literal context e) (literal (context.retold d b) e') := by
  fun_induction literal context e generalizing e' with
  | case1 e ih =>
    cases h with
    | convert inner => simpa only [literal] using ih inner
  | case2 value =>
    cases h
    exact .ok rfl
  | case3 name => exact resolve_alike h
  | case4 e notConvert notConstant notCaptured =>
    have words := h.text
    cases h with
    | convert => exact absurd rfl (notConvert _)
    | constant => exact absurd rfl (notConstant _)
    | captured => exact absurd rfl (notCaptured _)
    | inlined => exact absurd rfl (notCaptured _)
    | _ => exact .error ⟨rfl, fun shown => by rw [words shown]⟩

theorem isNullLiteral_alike (h : e.Alike shared context.bindings b e') :
    OutcomesAlike shared Eq (isNullLiteral context e) (isNullLiteral (context.retold d b) e') := by
  fun_induction isNullLiteral context e generalizing e' with
  | case1 e ih =>
    cases h with
    | convert inner => simpa only [isNullLiteral] using ih inner
  | case2 value =>
    cases h
    exact .ok rfl
  | case3 name =>
    have tested : OutcomesAlike shared Eq ((context.bindings.resolve name).map Value.isNull)
        ((literal (context.retold d b) e').map Value.isNull) :=
      (resolve_alike h).map fun _ _ => congrArg _
    cases h with
    | captured => exact tested
    | inlined => exact tested
  | case4 e notConvert notConstant notCaptured =>
    cases h with
    | convert => exact absurd rfl (notConvert _)
    | constant => exact absurd rfl (notConstant _)
    | captured => exact absurd rfl (notCaptured _)
    | inlined => exact absurd rfl (notCaptured _)
    | _ => exact .ok rfl

theorem singleArg_alike (method : Method)
    (h : List.Forall₂ (Expr.Alike shared context.bindings b) args args') :
    OutcomesAlike shared (Expr.Alike shared context.bindings b) (singleArg method args)
      (singleArg method args') := by
  have length := h.length_eq
  cases h with
  | nil => exact .error (.refl _)
  | cons first rest =>
    cases rest with
    | nil => exact .ok first
    | cons => exact .error ⟨rfl, fun _ => by simp [length]⟩

section Operands

variable (spelled : shared.texts → context.dialect.SpellsLike d) {origin origin' : Origin n}
include spelled

theorem memberOperand_parallel (origins : origin.Alike shared origin') (method : Method)
    (h : Option.Rel (Expr.Alike shared context.bindings b) receiver receiver') :
    Parallel shared (ColumnRef.Alike shared) (memberOperand context origin method receiver)
      (memberOperand (context.retold d b) origin' method receiver') := by
  have stripped := Expr.Alike.map_strip h
  unfold memberOperand
  generalize receiver.map Expr.strip = r, receiver'.map Expr.strip = r' at stripped
  rcases stripped with ⟨alike⟩ | -
  · cases alike with
    | member path => exact resolveColumn_parallel spelled origins path
    | _ => exact .reject fun _ => rfl
  · exact .reject fun _ => rfl

theorem nullOrEmpty_parallel (origins : origin.Alike shared origin')
    (receivers : Option.Rel (Expr.Alike shared context.bindings b) receiver receiver')
    (operands : List.Forall₂ (Expr.Alike shared context.bindings b) args args') :
    Parallel shared Eq (nullOrEmpty context origin receiver args)
      (nullOrEmpty (context.retold d b) origin' receiver' args') := by
  have written : ∀ {e e' : Expr}, e.Alike shared context.bindings b e' →
      Parallel shared Eq (nullOrEmpty context origin (some e) [])
        (nullOrEmpty (context.retold d b) origin' (some e') []) := by
    intro e e' alike
    refine .bind (.pure alike) fun _ _ alike => ?_
    refine .bind (memberOperand_parallel spelled origins _ (.some alike)) fun _ _ columns => ?_
    refine .seq (.pushSql fun _ => rfl) (.seq (.push (.column columns)) ?_)
    refine .seq (.pushSql fun _ => rfl) (.seq (.push (.column columns)) (.pushSql fun texts => ?_))
    rw [LoweringContext.retold, (spelled texts).boolLiteral]
  cases receivers with
  | none =>
    cases operands with
    | nil => exact .reject_bind fun _ => rfl
    | cons first rest =>
      cases rest with
      | nil => exact written first
      | cons => exact .reject_bind fun _ => rfl
  | some alike =>
    cases operands with
    | nil => exact written alike
    | cons => exact .reject_bind fun _ => rfl

theorem booleanMember_parallel (origins : origin.Alike shared origin') (path : MemberPath) :
    Parallel shared Eq (booleanMember context origin path)
      (booleanMember (context.retold d b) origin' path) := by
  refine .bind (resolveColumn_parallel spelled origins path) ?_
  rintro column _ ⟨same⟩
  dsimp only
  split
  · exact .push (.column (.renamed same))
  · exact .reject fun _ => rfl

omit spelled in
theorem booleanValue_parallel (h : e.Alike shared context.bindings b e') :
    Parallel shared Eq (booleanValue context e) (booleanValue (context.retold d b) e') := by
  refine .bind (.attempt (literal_alike h)) ?_
  rintro value _ rfl
  split
  · exact .push (.refl _)
  · exact .reject fun words => by rw [h.text words]

theorem booleanOperand?_parallel (origins : origin.Alike shared origin')
    (h : e.Alike shared context.bindings b e') :
    Option.Rel (Parallel shared Eq) (booleanOperand? context origin e)
      (booleanOperand? (context.retold d b) origin' e') := by
  fun_induction booleanOperand? context origin e generalizing e' with
  | case1 e ih =>
    cases h with
    | convert inner => simpa only [booleanOperand?] using ih inner
  | case2 path =>
    cases h
    exact .some (booleanMember_parallel spelled origins path)
  | case3 value =>
    cases h
    exact .some (booleanValue_parallel (.constant value))
  | case4 name =>
    have value := booleanValue_parallel (d := d) h
    cases h with
    | captured => exact .some value
    | inlined => exact .some value
  | case5 receiver args =>
    cases h with
    | call receivers operands =>
      exact .some (nullOrEmpty_parallel spelled origins receivers operands)
  | case6 e notConvert notMember notConstant notCaptured notEmptiness =>
    cases h with
    | convert => exact absurd rfl (notConvert _)
    | member => exact absurd rfl (notMember _)
    | constant => exact absurd rfl (notConstant _)
    | captured => exact absurd rfl (notCaptured _)
    | inlined => exact absurd rfl (notCaptured _)
    | @call method receiver _ args =>
      cases method with
      | isNullOrEmpty => exact absurd rfl (notEmptiness receiver args)
      | _ => exact .none
    | _ => exact .none

theorem operand_parallel (origins : origin.Alike shared origin')
    (h : e.Alike shared context.bindings b e') :
    Parallel shared Eq (operand context origin e) (operand (context.retold d b) origin' e') := by
  fun_induction operand context origin e generalizing e' with
  | case1 e ih =>
    cases h with
    | convert inner => simpa only [operand] using ih inner
  | case2 path =>
    cases h
    exact .bind (resolveColumn_parallel spelled origins path) fun _ _ columns =>
      .push (.column columns)
  | case3 value =>
    cases h
    exact .push (.refl _)
  | case4 name =>
    have written : Parallel shared Eq
        (do let value ← attempt (context.bindings.resolve name); push (.deferred value .none none))
        (do let value ← attempt (literal (context.retold d b) e')
            push (.deferred value .none none)) :=
      .bind (.attempt (resolve_alike h)) fun value value' same => .push (same ▸ .refl _)
    cases h with
    | captured => exact written
    | inlined => exact written
  | case5 receiver args =>
    cases h with
    | call receivers operands => exact nullOrEmpty_parallel spelled origins receivers operands
  | case6 e notConvert notMember notConstant notCaptured notEmptiness =>
    have words := h.text
    cases h with
    | convert => exact absurd rfl (notConvert _)
    | member => exact absurd rfl (notMember _)
    | constant => exact absurd rfl (notConstant _)
    | captured => exact absurd rfl (notCaptured _)
    | inlined => exact absurd rfl (notCaptured _)
    | @call method receiver _ args =>
      cases method with
      | isNullOrEmpty => exact absurd rfl (notEmptiness receiver args)
      | _ => exact .reject fun shown => by rw [words shown]
    | _ => exact .reject fun shown => by rw [words shown]

end Operands

section Tests

variable {left left' right right' : Expr}

inductive NullTestsAlike (shared : Shared) (b b' : Bindings) : String × Expr → String × Expr → Prop
  | tested {test e e'} (operands : e.Alike shared b b' e') :
      NullTestsAlike shared b b' (test, e) (test, e')

theorem nullTested?_alike (op : BinaryOp) (lefts : left.Alike shared context.bindings b left')
    (rights : right.Alike shared context.bindings b right') :
    OutcomesAlike shared (Option.Rel (NullTestsAlike shared context.bindings b))
      (nullTested? context op left right) (nullTested? (context.retold d b) op left' right') := by
  unfold nullTested?
  split
  · exact .ok .none
  · refine (isNullLiteral_alike rights).bind ?_
    rintro rightNull _ rfl
    cases rightNull with
    | true => exact .ok (.some (.tested lefts))
    | false =>
      refine (isNullLiteral_alike lefts).bind ?_
      rintro leftNull _ rfl
      cases leftNull with
      | true => exact .ok (.some (.tested rights))
      | false => exact .ok .none

variable (spelled : shared.texts → context.dialect.SpellsLike d) {origin origin' : Origin n}
include spelled

theorem comparison_parallel (origins : origin.Alike shared origin') (op : BinaryOp)
    (lefts : left.Alike shared context.bindings b left')
    (rights : right.Alike shared context.bindings b right') :
    Parallel shared Eq (comparison context origin op left right)
      (comparison (context.retold d b) origin' op left' right') := by
  have close : ∀ start, Parallel shared Eq
      (do pushSql ")"; bindSpan context start; collapseBooleans context start)
      (do pushSql ")"
          bindSpan (context.retold d b) start
          collapseBooleans (context.retold d b) start) :=
    fun start =>
      .seq (.pushSql fun _ => rfl) (.seq (.bindSpan rfl start) (.collapseBooleans spelled start))
  refine .bind .mark ?_
  rintro start _ rfl
  refine .seq (.pushSql fun _ => rfl) (.bind (.attempt (nullTested?_alike op lefts rights)) ?_)
  rintro _ _ (⟨⟨tested⟩⟩ | -)
  · exact .seq (operand_parallel spelled origins tested)
      (.seq (.pushSql fun _ => rfl) (close start))
  · refine .seq (operand_parallel spelled origins lefts) (.seq (.pushSql fun _ => rfl) ?_)
    exact .seq (operand_parallel spelled origins rights) (close start)

omit spelled in
theorem like_parallel (method : Method) {c c' : ColumnRef} (columns : c.Alike shared c')
    (patterns : e.Alike shared context.bindings b e') (w : Wildcard) :
    Parallel shared Eq (like context method c e w) (like (context.retold d b) method c' e' w) := by
  obtain ⟨same⟩ := columns
  change Parallel shared Eq (if (!c.isTextual) = true then _
    else _) (if (!c.isTextual) = true then _ else _)
  split
  · exact .reject fun _ => rfl
  · refine .bind (.attempt (literal_alike patterns)) ?_
    rintro value _ rfl
    refine .bind .mark ?_
    rintro start _ rfl
    refine .seq (.pushSql fun _ => rfl) (.seq (.push (.column (.renamed same))) ?_)
    refine .seq (.pushSql fun _ => rfl) (.seq (.push (.refl _)) ?_)
    exact .seq (.pushSql fun _ => rfl) (.bindSpan rfl start)

omit spelled in
theorem membership_parallel {c c' : ColumnRef} (columns : c.Alike shared c') (items : List Value) :
    Parallel shared Eq (membership context c items) (membership (context.retold d b) c' items) := by
  have close : ∀ start, Parallel shared Eq (do pushSql "))"; bindSpan context start)
      (do pushSql "))"; bindSpan (context.retold d b) start) :=
    fun start => .seq (.pushSql fun _ => rfl) (.bindSpan rfl start)
  obtain ⟨same⟩ := columns
  refine .bind .mark ?_
  rintro start _ rfl
  refine .seq (.pushSql fun _ => rfl) (.seq (.push (.column (.renamed same))) ?_)
  refine .seq (.pushSql fun _ => rfl) ?_
  dsimp only
  split
  · exact .seq (.pushSql fun _ => rfl) (close start)
  · exact .seq (.push (.refl _)) (close start)

theorem inCollection_parallel (origins : origin.Alike shared origin') {arg arg' : Expr}
    (collections : e.Alike shared context.bindings b e')
    (alike : arg.Alike shared context.bindings b arg') :
    Parallel shared Eq (inCollection context origin e arg)
      (inCollection (context.retold d b) origin' e' arg') := by
  refine .bind (.attempt (literal_alike collections)) ?_
  rintro value _ rfl
  have stripped := alike.strip
  cases value with
  | list items =>
    dsimp only
    generalize arg.strip = x, arg'.strip = x' at stripped
    cases stripped with
    | member path =>
      exact .bind (resolveColumn_parallel spelled origins path) fun _ _ columns =>
        membership_parallel columns items
    | _ => exact .reject fun words => by rw [alike.text words]
  | _ => exact .reject fun words => by rw [collections.text words]

theorem containsCall_parallel (origins : origin.Alike shared origin')
    (receivers : Option.Rel (Expr.Alike shared context.bindings b) receiver receiver')
    (operands : List.Forall₂ (Expr.Alike shared context.bindings b) args args') :
    Parallel shared Eq (containsCall context origin receiver args)
      (containsCall (context.retold d b) origin' receiver' args') := by
  refine .bind (.attempt (singleArg_alike .contains operands)) fun arg arg' alike => ?_
  have stripped := Expr.Alike.map_strip receivers
  generalize receiver.map Expr.strip = r, receiver'.map Expr.strip = r' at stripped
  rcases stripped with ⟨source⟩ | -
  · have collection := inCollection_parallel spelled origins source alike
    cases source with
    | member path =>
      exact .bind (resolveColumn_parallel spelled origins path) fun _ _ columns =>
        like_parallel .contains columns alike .both
    | constant => exact collection
    | captured => exact collection
    | inlined => exact collection
    | _ => exact .reject fun _ => rfl
  · exact .reject fun _ => rfl

theorem affixCall_parallel (origins : origin.Alike shared origin') (method : Method) (w : Wildcard)
    (receivers : Option.Rel (Expr.Alike shared context.bindings b) receiver receiver')
    (operands : List.Forall₂ (Expr.Alike shared context.bindings b) args args') :
    Parallel shared Eq (affixCall context origin method w receiver args)
      (affixCall (context.retold d b) origin' method w receiver' args') := by
  refine .bind (memberOperand_parallel spelled origins method receivers)
    fun column column' columns => ?_
  refine .bind (.attempt (singleArg_alike method operands)) fun arg arg' alike => ?_
  exact like_parallel method columns alike w

theorem hasValueCall_parallel (origins : origin.Alike shared origin')
    (receivers : Option.Rel (Expr.Alike shared context.bindings b) receiver receiver')
    (operands : List.Forall₂ (Expr.Alike shared context.bindings b) args args') :
    Parallel shared Eq (hasValueCall context origin receiver args)
      (hasValueCall (context.retold d b) origin' receiver' args') := by
  cases operands with
  | nil =>
    refine .bind (memberOperand_parallel spelled origins _ receivers) fun column column' columns =>
      ?_
    exact .seq (.pushSql fun _ => rfl) (.seq (.push (.column columns)) (.pushSql fun _ => rfl))
  | cons => exact .reject fun _ => rfl

omit spelled in
theorem anyPath_alike
    (receivers : Option.Rel (Expr.Alike shared context.bindings b) receiver receiver') :
    OutcomesAlike shared Eq (anyPath receiver) (anyPath receiver') := by
  have stripped := Expr.Alike.map_strip receivers
  unfold anyPath
  generalize receiver.map Expr.strip = r, receiver'.map Expr.strip = r' at stripped
  rcases stripped with ⟨alike⟩ | -
  · cases alike with
    | member path => exact .ok rfl
    | _ => exact .error (.refl _)
  · exact .error (.refl _)

end Tests
end Values

variable (spelled : shared.texts → context.dialect.SpellsLike d)
include spelled

/-- The texts of alike subqueries are the same if texts are shared. -/
theorem exists_sql_alike {clause clause' : ExistsClause}
    (same : shared.texts → clause' = clause) :
    shared.texts → clause'.sql d = clause.sql context.dialect := by
  intro texts
  rw [same texts, (spelled texts).exists_sql]

theorem existence_parallel {origin origin' : Origin n} (origins : origin.Alike shared origin')
    (path : MemberPath) {condition condition' : Option (Origin n → Lowering Unit)}
    (conditions : Option.Rel (fun f f' => ∀ {o o' : Origin n},
      o.Alike shared o' → Parallel shared Eq (f o) (f' o')) condition condition') :
    Parallel shared Eq (existence context origin path condition)
      (existence (context.retold d b) origin' path condition') := by
  refine .bind (walk_parallel spelled origins [] path.navigation) ?_
  rintro outer _ ⟨same⟩
  dsimp only [LoweringContext.retold]
  split
  · exact .lacks _
  next navigation _ =>
    split
    · exact .reject fun _ => rfl
    · split
      · exact .lacks _
      next fk _ =>
        refine .bind (.attempt (.refl _)) ?_
        rintro key _ rfl
        refine .bind (.freshAlias rfl) ?_
        rintro childAlias _ rfl
        refine .bind (.freshAlias rfl) ?_
        rintro ownerAlias _ rfl
        rcases conditions with ⟨inner⟩ | -
        · refine .bind (.isolated (inner (.refl _))) ?_
          rintro ⟨joins, buffer⟩ ⟨joins', buffer'⟩ ⟨joined, pieces⟩
          refine .bind (.attempt (Token.renderAll_alike spelled pieces)) fun text text' written =>
            ?_
          refine .pushSql (exists_sql_alike spelled fun texts => ?_)
          have joins := eq_of_forall₂ joined fun _ _ alike => alike.eq texts
          rw [same texts, written texts, (spelled texts).tableName, joins]
        · refine .pushSql (exists_sql_alike spelled fun texts => ?_)
          rw [same texts, (spelled texts).tableName]

/-- Predicates that stand for the same values are lowered alike. -/
theorem predicate_parallel {e e' : Expr} (h : e.Alike shared context.bindings b e')
    {origin origin' : Origin n} (origins : origin.Alike shared origin') :
    Parallel shared Eq (predicate context e origin)
      (predicate (context.retold d b) e' origin') := by
  induction e using Expr.inductionOn generalizing e' origin origin' with
  | binary op left right first second =>
    cases h with
    | binary lefts rights =>
      simp only [predicate]
      split
      · refine .bind .mark ?_
        rintro start _ rfl
        refine .seq (.pushSql fun _ => rfl) (.seq (first lefts origins) ?_)
        refine .seq (.pushSql fun _ => rfl) (.seq (second rights origins) ?_)
        exact .seq (.pushSql fun _ => rfl) (.collapseBooleans spelled start)
      · exact comparison_parallel spelled origins op lefts rights
  | not e inner =>
    cases h with
    | not operands =>
      have written := booleanOperand?_parallel spelled origins operands
      simp only [predicate]
      generalize booleanOperand? context origin e = w, booleanOperand? _ origin' _ = w' at written
      rcases written with ⟨alike⟩ | -
      · exact .seq alike (.push (.refl _))
      · exact .seq (.pushSql fun _ => rfl) (inner operands origins)
  | convert e inner =>
    cases h with
    | convert operands => simpa only [predicate] using inner operands origins
  | member path =>
    cases h
    simp only [predicate]
    exact .seq (booleanMember_parallel spelled origins path) (.push (.refl _))
  | constant value =>
    cases h
    simp only [predicate]
    exact .seq (booleanValue_parallel (.constant value)) (.push (.refl _))
  | captured name =>
    have value := (booleanValue_parallel (d := d) h).seq (Parallel.push (.refl (.bool false)))
    cases h with
    | captured => simpa only [predicate] using value
    | inlined => simpa only [predicate] using value
  | call method receiver args inner =>
    cases h with
    | call receivers operands =>
      cases method with
      | isNullOrEmpty =>
        simp only [predicate]
        exact .seq (nullOrEmpty_parallel spelled origins receivers operands) (.push (.refl _))
      | contains =>
        simpa only [predicate] using containsCall_parallel spelled origins receivers operands
      | startsWith =>
        simpa only [predicate] using affixCall_parallel spelled origins _ _ receivers operands
      | endsWith =>
        simpa only [predicate] using affixCall_parallel spelled origins _ _ receivers operands
      | hasValue =>
        simpa only [predicate] using hasValueCall_parallel spelled origins receivers operands
      | any =>
        have collection := Parallel.attempt (anyPath_alike receivers)
        cases operands with
        | nil =>
          simp only [predicate]
          refine collection.bind ?_
          rintro path _ rfl
          exact existence_parallel spelled origins path .none
        | cons condition rest =>
          cases rest with
          | nil =>
            simp only [predicate]
            refine collection.bind ?_
            rintro path _ rfl
            refine existence_parallel spelled origins path (.some fun rows => ?_)
            exact inner _ List.mem_cons_self condition rows
          | cons =>
            simp only [predicate]
            exact collection.seq (.reject fun _ => rfl)
  | modifier m =>
    cases h
    simp only [predicate]
    exact .reject fun _ => rfl

end PredicateSql
