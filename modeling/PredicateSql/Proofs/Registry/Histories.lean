import PredicateSql.Proofs.Lowering.Growth

/-!
What is remembered about entities, told by the requests that were made. A column list is the one
that was rendered first. An enumeration is the one that was registered last, or, where none was, the
first one that was found on a column.
-/
namespace PredicateSql

namespace Registry

/-- What a registry can be asked for. The entities need not belong to one schema. -/
inductive Request where
  | columns {n : Nat} (e : Entity n) (d : Dialect)
  | enumFor {n : Nat} (e : Entity n) (property : String)
  | enumType (key : String)
  | registerEnum (key : String) (d : EnumDef)

inductive Answer where
  | columns (list : List String)
  | enumeration (found : Option EnumDef)
  | done
deriving DecidableEq, Repr

/-- Answers one request; also the registry afterwards. -/
def answer (r : Registry) : Request → Answer × Registry
  | .columns e d =>
    let (list, cache) := r.columns.columns e d
    (.columns list, { r with columns := cache })
  | .enumFor e property =>
    let (found, enums) := r.enums.enumFor e property
    (.enumeration found, { r with enums := enums })
  | .enumType key => (.enumeration (r.enums.find? key), r)
  | .registerEnum key d => (.done, { r with enums := r.enums.register key d })

def answers (r : Registry) : List Request → List Answer
  | [] => []
  | q :: rest => (r.answer q).1 :: (r.answer q).2.answers rest

def after (r : Registry) (requests : List Request) : Registry :=
  requests.foldl (fun r q => (r.answer q).2) r

theorem after_append_singleton (r : Registry) (requests : List Request) (q : Request) :
    r.after (requests ++ [q]) = ((r.after requests).answer q).2 := by
  rw [after, List.foldl_append]
  rfl

/-! ### What a history says -/

namespace Request

/-- What a request is about: a column list, or an enumeration. -/
def subject : Request → ColumnKey ⊕ String
  | columns e d => .inl ⟨e.typeName, e.table, d⟩
  | enumFor e property => .inr (EnumRegistry.keyOf e property)
  | enumType key => .inr key
  | registerEnum key _ => .inr key

/-- The column list of the entity that is presented for the key. -/
def rendered? (key : ColumnKey) : Request → Option (List String)
  | columns e d =>
    if (⟨e.typeName, e.table, d⟩ : ColumnKey) = key then some (e.renderColumns d) else none
  | _ => none

/-- The enumeration that is registered explicitly under the key. -/
def registered? (key : String) : Request → Option EnumDef
  | registerEnum key' d => if key' = key then some d else none
  | _ => none

/-- The enumeration on the column of the property that is asked for, if it has the key. -/
def annotated? (key : String) : Request → Option EnumDef
  | enumFor e property =>
    if EnumRegistry.keyOf e property = key then (e.columnFor? property).bind (·.enumType) else none
  | _ => none

end Request

/-- The first column list that was rendered for the key. -/
def columnsIn (history : List Request) (key : ColumnKey) : Option (List String) :=
  history.findSome? (Request.rendered? key)

/-- The last enumeration that was registered under the key, or else the first one that was found for
it. -/
def enumIn (history : List Request) (key : String) : Option EnumDef :=
  (history.reverse.findSome? (Request.registered? key)).or
    (history.findSome? (Request.annotated? key))

/-- The answer that a history of requests leads to. A request counts itself: it may be the first one
for its key. -/
def Request.answerAfter (history : List Request) : Request → Answer
  | columns e d => .columns ((columnsIn history ⟨e.typeName, e.table, d⟩).getD (e.renderColumns d))
  | enumFor e property =>
    .enumeration (enumIn (history ++ [enumFor e property]) (EnumRegistry.keyOf e property))
  | enumType key => .enumeration (enumIn history key)
  | registerEnum _ _ => .done

theorem columnsIn_append_singleton (history : List Request) (q : Request) (key : ColumnKey) :
    columnsIn (history ++ [q]) key = (columnsIn history key).or (q.rendered? key) := by
  simp [columnsIn, List.findSome?_append]

/-- An explicit registration wins over all before it, and what is found on a column over nothing
before it. -/
theorem enumIn_append_singleton (history : List Request) (q : Request) (key : String) :
    enumIn (history ++ [q]) key =
      (q.registered? key).or ((enumIn history key).or (q.annotated? key)) := by
  have last : (history ++ [q]).reverse = [q] ++ history.reverse := by simp
  rw [enumIn, last, List.findSome?_append, List.findSome?_append]
  simp [enumIn, Option.or_assoc]

/-! ### One request -/

section Step

variable (r : Registry) (q : Request)

theorem lookup_answer (key : ColumnKey) :
    (r.answer q).2.columns.entries.lookup key =
      (r.columns.entries.lookup key).or (q.rendered? key) := by
  cases q with
  | columns e d =>
    simp only [answer, ColumnCache.columns, Request.rendered?]
    by_cases same : (⟨e.typeName, e.table, d⟩ : ColumnKey) = key
    · subst same
      cases known : r.columns.entries.lookup ⟨e.typeName, e.table, d⟩ with
      | some list => simp [known]
      | none => simp
    · cases r.columns.entries.lookup ⟨e.typeName, e.table, d⟩ with
      | some list => simp [same]
      | none => simp [same, List.lookup_cons, beq_eq_false_iff_ne.mpr (Ne.symm same)]
  | _ => simp [answer, Request.rendered?]

theorem find?_answer (key : String) :
    (r.answer q).2.enums.find? key =
      (q.registered? key).or ((r.enums.find? key).or (q.annotated? key)) := by
  cases q with
  | enumFor e property =>
    simp only [answer, EnumRegistry.enumFor, Request.registered?, Request.annotated?,
      Option.none_or]
    by_cases same : EnumRegistry.keyOf e property = key
    · subst same
      cases known : r.enums.find? (EnumRegistry.keyOf e property) with
      | some d => simp [known]
      | none =>
        cases (e.columnFor? property).bind (·.enumType) with
        | some d => simp [EnumRegistry.find?_register]
        | none => simp [known]
    · cases r.enums.find? (EnumRegistry.keyOf e property) with
      | some d => simp [same]
      | none =>
        cases (e.columnFor? property).bind (·.enumType) with
        | some d => simp [same, EnumRegistry.find?_register, Ne.symm same]
        | none => simp [same]
  | registerEnum key' d =>
    simp only [answer, Request.registered?, Request.annotated?, EnumRegistry.find?_register,
      Option.or_none]
    by_cases same : key' = key
    · simp [same]
    · simp [same, Ne.symm same]
  | _ => simp [answer, Request.registered?, Request.annotated?]

/-- What is found for a property is what is known under its key from then on. -/
theorem enumFor_eq_find? {n : Nat} (enums : EnumRegistry) (e : Entity n) (property : String) :
    (enums.enumFor e property).1 =
      (enums.enumFor e property).2.find? (EnumRegistry.keyOf e property) := by
  simp only [EnumRegistry.enumFor]
  cases known : enums.find? (EnumRegistry.keyOf e property) with
  | some d => exact known.symm
  | none =>
    cases (e.columnFor? property).bind (·.enumType) with
    | some d => simp [EnumRegistry.find?_register]
    | none => exact known.symm

end Step

/-! ### All requests -/

/-- A registry that holds what the history says. -/
structure Tells (r : Registry) (history : List Request) : Prop where
  columns : ∀ key, r.columns.entries.lookup key = columnsIn history key
  enums : ∀ key, r.enums.find? key = enumIn history key

theorem Tells.answer {r : Registry} {history : List Request} (h : r.Tells history) (q : Request) :
    (r.answer q).2.Tells (history ++ [q]) where
  columns key := by rw [lookup_answer, h.columns, columnsIn_append_singleton]
  enums key := by rw [find?_answer, h.enums, enumIn_append_singleton]

theorem Tells.after {r : Registry} {history : List Request} (h : r.Tells history)
    (requests : List Request) :
    (r.after requests).Tells (history ++ requests) := by
  induction requests generalizing r history with
  | nil => simpa [Registry.after] using h
  | cons q rest ih => simpa [Registry.after] using ih (h.answer q)

theorem tells_nothing : empty.Tells [] :=
  ⟨fun _ => rfl, fun _ => rfl⟩

/-- After any requests, what is remembered is what they say. -/
theorem tells_after (history : List Request) : (empty.after history).Tells history :=
  tells_nothing.after history

theorem Tells.answer_eq {r : Registry} {history : List Request} (h : r.Tells history)
    (q : Request) :
    (r.answer q).1 = q.answerAfter history := by
  cases q with
  | columns e d =>
    simp only [Registry.answer, ColumnCache.columns, Request.answerAfter, ← h.columns]
    cases r.columns.entries.lookup ⟨e.typeName, e.table, d⟩ <;> rfl
  | enumFor e property =>
    have known := (h.answer (.enumFor e property)).enums (EnumRegistry.keyOf e property)
    rw [Request.answerAfter, ← known]
    exact congrArg Answer.enumeration (enumFor_eq_find? r.enums e property)
  | enumType key => exact congrArg Answer.enumeration (h.enums key)
  | registerEnum key d => rfl

theorem Tells.answers_eq {r : Registry} {history : List Request} (h : r.Tells history)
    (requests : List Request) :
    r.answers requests = requests.mapIdx fun i q => q.answerAfter (history ++ requests.take i) := by
  induction requests generalizing r history with
  | nil => rfl
  | cons q rest ih =>
    rw [answers, List.mapIdx_cons, h.answer_eq q, ih (h.answer q)]
    simp

/-! ### Other subjects -/

/-- Items that have nothing to say can be left out. -/
theorem findSome?_filter_of_none {α β : Type} {f : α → Option β} {p : α → Bool}
    (others : ∀ a, p a = false → f a = none) (xs : List α) :
    (xs.filter p).findSome? f = xs.findSome? f := by
  induction xs with
  | nil => rfl
  | cons x xs ih =>
    cases kept : p x with
    | true => simp [kept, ih, List.findSome?_cons]
    | false => simp [kept, ih, others x kept]

theorem columnsIn_filter (history : List Request) (key : ColumnKey) :
    columnsIn (history.filter (·.subject = .inl key)) key = columnsIn history key := by
  refine findSome?_filter_of_none (fun q other => ?_) history
  cases q with
  | columns e d => simpa [Request.subject, Request.rendered?] using other
  | _ => rfl

theorem enumIn_filter (history : List Request) (key : String) :
    enumIn (history.filter (·.subject = .inr key)) key = enumIn history key := by
  have registered : ∀ q : Request, decide (q.subject = .inr key) = false →
      q.registered? key = none := by
    intro q other
    cases q with
    | registerEnum key' d => simpa [Request.subject, Request.registered?] using other
    | _ => rfl
  have annotated : ∀ q : Request, decide (q.subject = .inr key) = false →
      q.annotated? key = none := by
    intro q other
    cases q with
    | enumFor e property =>
      exact if_neg fun same => of_decide_eq_false other (congrArg Sum.inr same)
    | _ => rfl
  rw [enumIn, ← List.filter_reverse, findSome?_filter_of_none registered,
    findSome?_filter_of_none annotated, enumIn]

/-- Requests about other subjects do not matter. -/
theorem Request.answerAfter_filter (q : Request) (history : List Request) :
    q.answerAfter (history.filter (·.subject = q.subject)) = q.answerAfter history := by
  cases q with
  | columns e d =>
    exact congrArg (fun list => Answer.columns (list.getD (e.renderColumns d)))
      (columnsIn_filter history _)
  | enumFor e property =>
    rw [answerAfter, answerAfter, enumIn_append_singleton, enumIn_append_singleton]
    exact congrArg (fun found => Answer.enumeration (Option.or _ (Option.or found _)))
      (enumIn_filter history _)
  | enumType key => exact congrArg Answer.enumeration (enumIn_filter history key)
  | registerEnum key d => rfl

/-- Every answer of a sequence of requests is what the requests before it say: the column list of
the first entity with the same names, the last enumeration that was registered under the key or else
the first one that was found for it. What is found for a property is what is known under its key
afterwards, and requests about other subjects never matter. -/
theorem answers_refine_their_history (requests : List Request) :
    empty.answers requests = requests.mapIdx (fun i q => q.answerAfter (requests.take i)) ∧
      (∀ {n : Nat} (e : Entity n) (property : String),
        ((empty.after requests).answer (.enumFor e property)).1 =
          ((empty.after (requests ++ [.enumFor e property])).answer
            (.enumType (EnumRegistry.keyOf e property))).1) ∧
      ∀ q : Request, ((empty.after requests).answer q).1 =
        ((empty.after (requests.filter (·.subject = q.subject))).answer q).1 := by
  refine ⟨?_, ?_, ?_⟩
  · exact tells_nothing.answers_eq requests
  · intro n e property
    rw [after_append_singleton]
    exact congrArg Answer.enumeration (enumFor_eq_find? _ e property)
  · intro q
    rw [(tells_after _).answer_eq, (tells_after _).answer_eq, Request.answerAfter_filter]

end Registry
end PredicateSql
