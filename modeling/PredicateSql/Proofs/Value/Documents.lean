import PredicateSql.Proofs.Calendar.Texts
import PredicateSql.Proofs.Condition.Scalars
import PredicateSql.Proofs.Json.Texts
import PredicateSql.Value.Json

/-!
Which values are read back from the JSON text that is written for them. The text of a scalar carries
its type and, but for numbers that are not finite, all of its content; a list is read with all of
its items or not at all.
-/
namespace PredicateSql

/-- The number is read from its own text. The reader rounds more than once, so it can miss a number
by a step. -/
def Double.IsLossless (x : Double) : Prop :=
  Json.parse? Json.documentDepth x.jsonText = some (.float x)

/-- The text of a finite number is its numeral. -/
theorem Double.isLossless_iff {x : Double} (finite : x.isFinite = true) :
    x.IsLossless ↔ x.numeral.toJson? = some (.float x) := by
  have tree := Json.ofText?_render (.float x)
  rw [Json.render, Json.written, if_pos finite] at tree
  rw [IsLossless, Json.parse?, tree]
  rfl

/-- The number written as 403789.41528396803 is read as the one below it. -/
example : ¬ (⟨0x4118a535a9403355⟩ : Double).IsLossless := by
  have integer : (⟨0x4118a535a9403355⟩ : Double).numeral.integer? = none := by decide +kernel
  have below : (⟨0x4118a535a9403355⟩ : Double).numeral.double? = some ⟨0x4118a535a9403354⟩ := by
    decide +kernel
  rw [Double.isLossless_iff (by decide), Json.Numeral.toJson?, integer, below]
  simp

namespace Value

def IsLossless (v : Value) : Prop :=
  ∀ x, float x ∈ v.scalars → x.isFinite = true → x.IsLossless

/-! ### Tags -/

/-- The names of members are read back. -/
theorem named?_writtenMembers (members : List (String × Json)) :
    Json.Written.named? (Json.writtenMembers members) =
      some (members.map fun m => (m.1, m.2.written)) := by
  induction members with
  | nil => rfl
  | cons m members named =>
    rw [Json.Written.named?] at named
    rw [Json.writtenMembers, Json.Written.named?, List.mapM_cons, named]
    simp only [Json.text?_pieces]
    rfl

/-- The type and the content are found where `tagged` writes them, the type first. -/
theorem writtenParts?_tagged (depth : Nat) (typeName : String) (content : Json) :
    writtenParts? depth (tagged typeName content).written =
      some (typeName, some content.written, false) := by
  rw [tagged, Json.written, writtenParts?, named?_writtenMembers]
  simp [parts?, Json.countName, Json.single?, Json.find?, comesBefore, Json.written,
    Json.Written.toJson?, Json.text?_pieces, Json.constantName?]

theorem writtenParts?_null (depth : Nat) :
    writtenParts? depth null.toJson.written = some ("Null", none, false) := by
  rw [toJson, Json.written, writtenParts?, named?_writtenMembers]
  simp [parts?, Json.countName, Json.single?, Json.find?, comesBefore, Json.written,
    Json.Written.toJson?, Json.text?_pieces, Json.constantName?]

/-! ### Scalars -/

theorem int64?_toInt (n : Int64) : int64? n.toInt = some n := by
  have least := n.minValue_le_toInt
  have most := n.toInt_le
  rw [int64?, if_pos, Int64.ofInt_toInt]
  simp only [Bool.and_eq_true, decide_eq_true_eq]
  exact ⟨least, most⟩

/-- A value of another type than null and lists is read by its type from its content alone. -/
theorem ofWrittenWithin_tagged {typeName : String} (scalar : typeName ∉ ["Null", "List"])
    (depth : Nat) (content : Json) :
    ofWrittenWithin (depth + 1) (tagged typeName content).written =
      (content.written.toJson? depth).bind (scalarOfJson? typeName) := by
  simp only [List.mem_cons, List.not_mem_nil, or_false, not_or] at scalar
  simp [ofWrittenWithin, writtenParts?_tagged, ofContent?, scalar]

/-- Content that is a string is read as it is. -/
theorem ofWrittenWithin_string {typeName s : String} {v : Value}
    (scalar : typeName ∉ ["Null", "List"]) (read : scalarOfJson? typeName (.string s) = some v)
    (depth : Nat) :
    ofWrittenWithin (depth + 1) (tagged typeName (.string s)).written = some v := by
  have content : (Json.string s).written.toJson? depth = some (.string s) := by
    rw [Json.written, Json.Written.toJson?, Json.text?_pieces]
    rfl
  rw [ofWrittenWithin_tagged scalar, content]
  exact read

def isFinite : Value → Bool
  | float x => x.isFinite
  | _ => true

/-- A scalar is read from its type and its content, unless its content has no text. -/
theorem ofWrittenWithin_of_isScalar {v : Value} (single : v.isScalar = true)
    (lossless : v.IsLossless) (depth : Nat) :
    ofWrittenWithin (depth + 1) v.toJson.written = if v.isFinite then some v else none := by
  cases v with
  | null => cases single
  | list items => cases single
  | bool b =>
    rw [toJson, ofWrittenWithin_tagged (by decide)]
    rfl
  | int n =>
    have least := n.minValue_le_toInt
    have most := n.toInt_lt
    have value : (Json.int n.toInt).written.toJson? depth = some (.int n.toInt) :=
      Json.Numeral.toJson?_ofInt least (by rw [UInt64.size]; omega)
    rw [toJson, ofWrittenWithin_tagged (by decide), value]
    simp [scalarOfJson?, int64?_toInt, isFinite]
  | float x =>
    rw [toJson, ofWrittenWithin_tagged (by decide), Json.written, isFinite]
    cases finite : x.isFinite with
    | true =>
      have own : x.IsLossless := lossless x (List.mem_singleton_self _) finite
      simp [Json.Written.toJson?, (Double.isLossless_iff finite).mp own, scalarOfJson?]
    | false => simp [Json.Written.toJson?, scalarOfJson?]
  | string s => exact ofWrittenWithin_string (by decide) rfl depth
  | date d =>
    have read : scalarOfJson? "Date" (.string d.text) = some (date d) := by
      simp [scalarOfJson?, Date.ofText?_text]
    exact ofWrittenWithin_string (by decide) read depth
  | dateTime m =>
    have read : scalarOfJson? "DateTime" (.string (m.text "T")) = some (dateTime m) := by
      simp [scalarOfJson?, Moment.ofText?_text]
    exact ofWrittenWithin_string (by decide) read depth
  | dateTimeUtc m =>
    have read : scalarOfJson? "DateTimeTz" (.string (m.text "T" ++ "Z")) =
        some (dateTimeUtc m) := by
      simp [scalarOfJson?, Moment.ofOffsetText?_text]
    exact ofWrittenWithin_string (by decide) read depth
  | time t =>
    have read : scalarOfJson? "Time" (.string t.text) = some (time t) := by
      simp [scalarOfJson?, Time.ofText?_text]
    exact ofWrittenWithin_string (by decide) read depth
  | uuid u =>
    have read : scalarOfJson? "Uuid" (.string u.text) = some (uuid u) := by
      simp [scalarOfJson?, Uuid.ofText?_text]
    exact ofWrittenWithin_string (by decide) read depth

theorem ofWrittenWithin_null (depth : Nat) :
    ofWrittenWithin (depth + 1) null.toJson.written = some null := by
  simp [ofWrittenWithin, writtenParts?_null, ofContent?]

/-! ### Lists -/

mutual

def nesting : Value → Nat
  | list items => nestingItems items + 1
  | _ => 0

def nestingItems : List Value → Nat
  | [] => 0
  | item :: rest => max item.nesting (nestingItems rest)

end

theorem nesting_of_isScalar {v : Value} (single : v.isScalar = true) : v.nesting = 0 := by
  cases v <;> simp [isScalar] at single <;> rfl

theorem nestingItems_le {items : List Value} {n : Nat} :
    nestingItems items ≤ n ↔ ∀ item ∈ items, item.nesting ≤ n := by
  induction items with
  | nil => simp [nestingItems]
  | cons item rest each => rw [nestingItems, Nat.max_le, each, List.forall_mem_cons]

theorem writtenItems_toJsonItems (items : List Value) :
    Json.writtenItems (toJsonItems items) = items.map fun item => item.toJson.written := by
  induction items with
  | nil => rfl
  | cons item rest each => rw [toJsonItems, Json.writtenItems, each, List.map_cons]

theorem ofWrittenWithin_list_one (items : List Value) :
    ofWrittenWithin 1 (list items).toJson.written = none := by
  rw [toJson]
  simp [ofWrittenWithin, writtenParts?_tagged, Json.written]

/-- A list takes two levels, for its type and for its items. -/
theorem ofWrittenWithin_list (depth : Nat) (items : List Value) :
    ofWrittenWithin (depth + 2) (list items).toJson.written =
      (items.mapM fun item => ofWrittenWithin depth item.toJson.written).map list := by
  rw [toJson, ofWrittenWithin, writtenParts?_tagged]
  simp only [Json.written, writtenItems_toJsonItems, List.mapM_map, Option.bind_eq_bind,
    Option.bind_some]
  rfl

/-- Either every item is read as itself, or nothing is read. -/
theorem mapM_of_each {items : List Value} {read : Value → Option Value} {kept : Value → Bool}
    (each : ∀ item ∈ items, read item = if kept item then some item else none) :
    items.mapM read = if items.all kept then some items else none := by
  induction items with
  | nil => rfl
  | cons item rest others =>
    obtain ⟨first, each⟩ := List.forall_mem_cons.mp each
    rw [List.mapM_cons, first, others each, List.all_cons]
    cases kept item with
    | false => rfl
    | true => cases rest.all kept <;> rfl

/-- Whether a value can be read from its text by a reader that goes into that many lists. -/
def isReadable (lists : Nat) (v : Value) : Bool :=
  v.scalars.all isFinite && v.nesting ≤ lists

theorem isReadable_list (lists : Nat) (items : List Value) :
    (list items).isReadable (lists + 1) = items.all (isReadable lists) := by
  rw [Bool.eq_iff_iff]
  simp only [isReadable, scalars, nesting, Bool.and_eq_true, List.all_eq_true, decide_eq_true_eq,
    Nat.add_le_add_iff_right, nestingItems_le, mem_itemScalars]
  constructor
  · rintro ⟨finite, shallow⟩ item held
    exact ⟨fun x inside => finite x ⟨item, held, inside⟩, shallow item held⟩
  · intro each
    refine ⟨?_, fun item held => (each item held).2⟩
    rintro x ⟨item, held, inside⟩
    exact (each item held).1 x inside

theorem IsLossless.of_mem {items : List Value} (lossless : (list items).IsLossless) {item : Value}
    (held : item ∈ items) : item.IsLossless :=
  fun x inside => lossless x (mem_itemScalars.mpr ⟨item, held, inside⟩)

/-- A reader of an odd depth goes into as many lists as half of it. -/
theorem ofWrittenWithin_toJson {v : Value} (lossless : v.IsLossless) (lists : Nat) :
    ofWrittenWithin (2 * lists + 1) v.toJson.written = if v.isReadable lists then some v
    else none := by
  -- a list takes two levels from a depth that is odd, so what is left for its items is odd again
  induction v using inductionOnScalars generalizing lists with
  | null =>
    have readable : null.isReadable lists = true := by simp [isReadable, scalars, nesting]
    rw [readable]
    exact ofWrittenWithin_null _
  | list items each =>
    cases lists with
    | zero =>
      have deep : (list items).isReadable 0 = false := by simp [isReadable, nesting]
      rw [deep]
      exact ofWrittenWithin_list_one items
    | succ lists =>
      have read := mapM_of_each fun item held => each item held (lossless.of_mem held) lists
      rw [isReadable_list, Nat.mul_succ, ofWrittenWithin_list, read]
      cases items.all (isReadable lists) <;> rfl
  | scalar v single =>
    have readable : v.isReadable lists = v.isFinite := by
      simp [isReadable, scalars_of_isScalar single, nesting_of_isScalar single]
    rw [ofWrittenWithin_of_isScalar single lossless, readable]

end Value

/-- A value is read back from its text if the numbers in it are finite and the reader goes deep
enough for its lists, and nothing is read from the texts of other values. -/
theorem readable_values_are_read_back (v : Value) (lossless : v.IsLossless) :
    Value.ofJsonText? v.toJson.render = if v.isReadable (Json.documentDepth / 2) then some v
    else none := by
  rw [Value.ofJsonText?, Json.ofText?_render, Option.bind_some]
  exact Value.ofWrittenWithin_toJson lossless (Json.documentDepth / 2)

/-- A value of every type, in lists. -/
def Value.assortment : Value :=
  list [null, bool true, int (-5), float ⟨0x3FE0000000000000⟩, string "a\"\n\x01é",
    list [date ⟨-44, 3, 15, by decide⟩, time ⟨23, 59, 59, 1500000000, by decide⟩,
      dateTime ⟨⟨2024, 2, 29, by decide⟩, ⟨6, 0, 0, 0, by decide⟩⟩,
      dateTimeUtc ⟨⟨12024, 1, 1, by decide⟩, ⟨0, 30, 5, 120000, by decide⟩⟩],
    uuid ⟨0x550e8400e29b41d4a716446655440000⟩, list []]

theorem assortment_is_read_back :
    Value.assortment.IsLossless ∧ Value.ofJsonText? Value.assortment.toJson.render =
      some Value.assortment := by
  have lossless : Value.assortment.IsLossless := by
    intro x held finite
    obtain rfl : x = ⟨0x3FE0000000000000⟩ := by
      simpa [Value.assortment, Value.scalars, Value.itemScalars] using held
    have integer : (⟨0x3FE0000000000000⟩ : Double).numeral.integer? = none := by decide +kernel
    have half : (⟨0x3FE0000000000000⟩ : Double).numeral.double? = some ⟨0x3FE0000000000000⟩ := by
      decide +kernel
    rw [Double.isLossless_iff finite, Json.Numeral.toJson?, integer, half]
    rfl
  exact ⟨lossless, (readable_values_are_read_back _ lossless).trans (if_pos (by decide))⟩

/-- The text of NaN is that of a number that is missing, which is no value, and a list with it in it
is none either. -/
theorem nan_is_not_read_back :
    (Value.float .nan).toJson.render = "\x7b\"type\":\"Float\",\"value\":null\x7d" ∧
      Value.ofJsonText? (Value.float .nan).toJson.render = none ∧
      Value.ofJsonText? (Value.list [.int 1, .float .nan]).toJson.render = none := by
  have finite : Double.nan.isFinite = false := by decide
  have lossless : (Value.list [.int 1, .float .nan]).IsLossless := by
    intro x held given
    obtain rfl : x = .nan := by simpa [Value.scalars, Value.itemScalars] using held
    cases finite.symm.trans given
  have alone : (Value.float .nan).IsLossless :=
    lossless.of_mem (List.mem_cons_of_mem _ List.mem_cons_self)
  rw [Value.ofJsonText?, Value.ofJsonText?, Json.ofText?_render, Json.ofText?_render]
  exact ⟨by decide +kernel, Value.ofWrittenWithin_toJson alone 63,
    Value.ofWrittenWithin_toJson lossless 63⟩

end PredicateSql
