import RowFilter.Plan.Codec
import RowFilter.Proofs.Alike
import RowFilter.Proofs.DecimalText
import RowFilter.Proofs.Field
import RowFilter.Proofs.Milliseconds

/-!
# Proofs.RoundTrip — trees read back from their bytes

`ship` is what the bytes of a tree are read as: decimals settle and instants are cut to the
millisecond, and all else stays.  Reading gives exactly that (`decode_encode`), or the fault of the
first instant that has no cut.  So a tree comes back alike but for its literals, and each of these
`Ships` (`round_trip`).  The bytes have to be countable in 64 bits, as every length in them is.
-/

namespace RowFilter.Plan

set_option autoImplicit false

open RowFilter.Time (Instant)

/-! ## What is read back -/

/-- The instant that the milliseconds of an instant stand for. -/
def shipInstant (t : Instant) : Except Fault Instant :=
  match Instant.ofEpochMillis? t.epochMillis with
  | some t' => .ok t'
  | none => .error (.badInstant t.epochMillis)

def shipValue : Value → Except Fault Value
  | .decimal d => .ok (.decimal d.settled)
  | .timestamp t => (shipInstant t).map .timestamp
  | v => .ok v

def shipCell (c : Cell) : Except Fault Cell := (shipValue c.value).map (⟨c.type, ·⟩)

/-- The tree that the bytes of a tree are read as. -/
def ship (e : Expr) : Except Fault Expr := e.replace shipCell

/-! ## Values -/

section Values

theorem size_eq : UInt64.size = Nat.pow 256 8 := rfl

theorem length_text (s : String) : (text s).length = 8 + (Text.Utf8.encode s.toList).length := by
  rw [text, List.length_append, length_word]

theorem length_choice {α : Type} [BEq α] (alternatives : List α) (a : α) :
    (choice alternatives a).length = 4 := length_word 4 _

theorem reads_decimal (d : Decimal)
    (lt : (Text.Utf8.encode (String.ofList d.text).toList).length < Nat.pow 256 8) :
    Reads readDecimal (text (String.ofList d.text)) (.ok d.settled) := by
  refine (reads_text lt).final ?_
  rw [String.toList_ofList, Decimal.read_text]
  exact reads_pure _

theorem epochMillis_bounds (t : Instant) :
    -(2 : Int) ^ 63 ≤ t.epochMillis ∧ t.epochMillis < (2 : Int) ^ 63 := by
  have low := t.first_le
  have high := t.le_last
  have nano := t.nano_lt
  simp only [Time.firstSecond, Time.lastSecond, Time.nanosPerSecond] at low high nano
  simp only [Instant.epochMillis, Time.nanosPerMilli]
  omega

theorem reads_instant (t : Instant) :
    Reads readInstant (word 8 (Int64.ofInt t.epochMillis).toUInt64.toNat) (shipInstant t) := by
  have bounds := epochMillis_bounds t
  have back : (UInt64.ofNat (Int64.ofInt t.epochMillis).toUInt64.toNat).toInt64.toInt =
      t.epochMillis := by
    rw [UInt64.ofNat_toNat, Int64.toInt64_toUInt64, Int64.toInt_ofInt_of_le bounds.1 bounds.2]
  have lt : (Int64.ofInt t.epochMillis).toUInt64.toNat < Nat.pow 256 8 := UInt64.toNat_lt _
  refine (reads_word lt).final ?_
  simp only [back, shipInstant]
  cases Instant.ofEpochMillis? t.epochMillis with
  | some t' => exact reads_pure t'
  | none => exact reads_throw _

theorem mem_valueTypes (t : ColumnType) : t ∈ valueTypes := by
  cases t <;> decide

theorem reads_value {v : Value} (countable : (value v).length < UInt64.size) :
    Reads readValue (value v) (shipValue v) := by
  rw [value, List.length_append, length_choice] at countable
  refine (reads_choice (mem_valueTypes v.type) (by decide)).next ?_
  cases v with
  | null => exact reads_pure _
  | boolean b => exact (reads_boolean b).last Value.boolean
  | integer n =>
      have lt : n.toUInt32.toNat < Nat.pow 256 4 := UInt32.toNat_lt _
      refine (reads_word lt).final ?_
      rw [UInt32.ofNat_toNat, Int32.toInt32_toUInt32]
      exact reads_pure _
  | long n =>
      have lt : n.toUInt64.toNat < Nat.pow 256 8 := UInt64.toNat_lt _
      refine (reads_word lt).final ?_
      rw [UInt64.ofNat_toNat, Int64.toInt64_toUInt64]
      exact reads_pure _
  | double d =>
      have lt : d.bits.toNat < Nat.pow 256 8 := UInt64.toNat_lt _
      refine (reads_word lt).final ?_
      rw [UInt64.ofNat_toNat]
      exact reads_pure _
  | decimal d =>
      rw [content, length_text, size_eq] at countable
      exact (reads_decimal d (by omega)).last Value.decimal
  | string s =>
      rw [content, length_text, size_eq] at countable
      exact (reads_text (by omega)).last Value.string
  | timestamp t => exact (reads_instant t).last Value.timestamp

end Values

/-! ## Leaves -/

section Leaves

theorem reads_columnType (t : ColumnType) : Reads readColumnType (columnType t) (.ok t) :=
  reads_choice (ColumnType.mem_all t) (by decide)

theorem reads_cell {c : Cell} (countable : (cell c).length < UInt64.size) :
    Reads readCell (cell c) (shipCell c) := by
  rw [cell, List.length_append] at countable
  exact (reads_columnType c.type).next ((reads_value (by omega)).last (Cell.mk c.type))

theorem reads_column {c : Column} (countable : (column c).length < UInt64.size) :
    Reads readColumn (column c) (.ok c) := by
  have lt : c.index.toNat < Nat.pow 256 8 := UInt64.toNat_lt _
  rw [column, List.append_assoc]
  refine (reads_word lt).next ((reads_columnType c.type).next ?_)
  have name : Reads (readOptional readText) (optional text c.name) (.ok c.name) := by
    refine reads_optional fun s same => reads_text ?_
    rw [column, same, List.length_append, optional, List.length_cons, length_text] at countable
    have size := size_eq
    omega
  rw [UInt64.ofNat_toNat]
  exact name.last (Column.mk c.index c.type)

end Leaves

/-! ## Trees -/

section Trees

theorem mem_shapes (s : Shape) : s ∈ shapes := by
  cases s <;> decide

theorem mem_nullTests (t : NullTest) : t ∈ nullTests := by
  cases t <;> decide

theorem mem_comparators (c : Comparator) : c ∈ comparators := by
  cases c <;> decide

theorem mem_connectives (c : Connective) : c ∈ connectives := by
  cases c <;> decide

theorem reads_shape (s : Shape) : Reads (readVariant shapes) (choice shapes s) (.ok s) :=
  reads_choice (mem_shapes s) (by decide)

theorem encodeItems_eq (items : List Expr) : encodeItems items = items.flatMap encode := by
  induction items with
  | nil => rfl
  | cons item more ih => rw [encodeItems, ih, List.flatMap_cons]

theorem length_encode_pos (e : Expr) : 0 < (encode e).length := by
  cases e <;> simp only [encode, List.length_append, length_choice] <;> omega

theorem length_le_encodeItems (items : List Expr) : items.length ≤ (encodeItems items).length := by
  induction items with
  | nil => exact Nat.le_refl 0
  | cons item more ih =>
      have pos := length_encode_pos item
      rw [encodeItems, List.length_append, List.length_cons]
      omega

theorem length_encode_le_of_mem {items : List Expr} {item : Expr} (mem : item ∈ items) :
    (encode item).length ≤ (encodeItems items).length := by
  rw [encodeItems_eq]
  exact (List.sublist_flatten_of_mem (List.mem_map_of_mem mem)).length_le

/-- A tree is read from its bytes as the shipped one, where no length in it exceeds its word. -/
theorem reads_expr {e : Expr} (countable : (encode e).length < UInt64.size) {depth : Nat}
    (deep : (encode e).length ≤ depth) : Reads (readExpr depth) (encode e) (ship e) := by
  induction e generalizing depth with
  | literal c =>
      simp only [encode, List.length_append, length_choice] at countable deep
      obtain _ | depth := depth
      · omega
      rw [encode, readExpr, ship, Expr.replace]
      exact (reads_shape .literal).next ((reads_cell (by omega)).last Expr.literal)
  | column c =>
      simp only [encode, List.length_append, length_choice] at countable deep
      obtain _ | depth := depth
      · omega
      rw [encode, readExpr, ship, Expr.replace]
      exact (reads_shape .column).next ((reads_column (by omega)).last Expr.column)
  | nullTest test operand ih =>
      simp only [encode, List.length_append, length_choice] at countable deep
      obtain _ | depth := depth
      · omega
      rw [encode, List.append_assoc, readExpr, ship, Expr.replace]
      refine (reads_shape .nullTest).next ?_
      refine (reads_choice (mem_nullTests test) (by decide)).next ?_
      exact (ih (by omega) (by omega)).last (Expr.nullTest test)
  | comparison c l r ihl ihr =>
      simp only [encode, List.length_append, length_choice] at countable deep
      obtain _ | depth := depth
      · omega
      rw [encode, List.append_assoc, List.append_assoc, readExpr, ship, Expr.replace]
      refine (reads_shape .comparison).next ?_
      refine (reads_choice (mem_comparators c) (by decide)).next ?_
      refine (ihl (by omega) (by omega)).bind ?_
      intro l' _
      exact (ihr (by omega) (by omega)).last (Expr.comparison c l')
  | member negated probe items ihp ihi =>
      simp only [encode, List.length_append, length_choice, length_word] at countable deep
      obtain _ | depth := depth
      · omega
      rw [encode, List.append_assoc, List.append_assoc, List.append_assoc, readExpr, ship,
        Expr.replace]
      refine (reads_shape .member).next ?_
      refine (ihp (by omega) (by omega)).bind ?_
      intro probe' _
      have count : items.length < UInt64.size :=
        Nat.lt_of_le_of_lt (length_le_encodeItems items) (by omega)
      refine (reads_word (size_eq ▸ count)).next ?_
      have each : ∀ item ∈ items, Reads (readExpr depth) (encode item) (ship item) := by
        intro item mem
        have le := length_encode_le_of_mem mem
        exact ihi item mem (by omega) (by omega)
      rw [encodeItems_eq, Expr.replaceIn_eq]
      refine (reads_many each).before ?_
      intro items'
      exact (reads_boolean negated).last fun negated => Expr.member negated probe' items'
  | logic c l r ihl ihr =>
      simp only [encode, List.length_append, length_choice] at countable deep
      obtain _ | depth := depth
      · omega
      rw [encode, List.append_assoc, List.append_assoc, readExpr, ship, Expr.replace]
      refine (reads_shape .logic).next ?_
      refine (reads_choice (mem_connectives c) (by decide)).next ?_
      refine (ihl (by omega) (by omega)).bind ?_
      intro l' _
      exact (ihr (by omega) (by omega)).last (Expr.logic c l')
  | not operand ih =>
      simp only [encode, List.length_append, length_choice] at countable deep
      obtain _ | depth := depth
      · omega
      rw [encode, readExpr, ship, Expr.replace]
      exact (reads_shape .not).next ((ih (by omega) (by omega)).last Expr.not)

/-- Decoding the bytes of a tree gives the shipped tree, or the fault of its first instant that is
not shipped. -/
theorem decode_encode {e : Expr} (countable : (encode e).length < UInt64.size) :
    decode (encode e) = ship e := by
  have read := reads_expr countable (Nat.le_refl _) []
  rw [List.append_nil] at read
  rw [decode, read]
  cases ship e <;> rfl

end Trees

end RowFilter.Plan

namespace RowFilter

/-! ## Shipped trees -/

/-- What is read back for a value: a decimal of the same number, an instant cut to the millisecond,
and any other value as it was. -/
def Value.Ships : Value → Value → Prop
  | .decimal d, w => ∃ d', w = .decimal d' ∧ d'.toRat = d.toRat
  | .timestamp t, w => ∃ t', w = .timestamp t' ∧ t.CutTo t'
  | v, w => w = v

/-- What is read back for a cell: the same type, and what is read back for its value. -/
def Cell.Ships (c d : Cell) : Prop := d.type = c.type ∧ c.value.Ships d.value

namespace Value

def instant? : Value → Option Time.Instant
  | timestamp t => some t
  | _ => none

def double? : Value → Option Double
  | double d => some d
  | _ => none

end Value

namespace Expr

/-- The instants in the literals of the tree. -/
def instants (e : Expr) : List Time.Instant := e.literals.filterMap (·.value.instant?)

/-- The doubles in the literals of the tree. -/
def doubles (e : Expr) : List Double := e.literals.filterMap (·.value.double?)

theorem mem_instants {e : Expr} {c : Cell} {t : Time.Instant} (mem : c ∈ e.literals)
    (h : c.value = .timestamp t) : t ∈ e.instants :=
  List.mem_filterMap.mpr ⟨c, mem, by rw [h]; rfl⟩

theorem mem_doubles {e : Expr} {c : Cell} {d : Double} (mem : c ∈ e.literals)
    (h : c.value = .double d) : d ∈ e.doubles :=
  List.mem_filterMap.mpr ⟨c, mem, by rw [h]; rfl⟩

end Expr

namespace Plan

theorem ships_of_shipValue {v w : Value} (h : shipValue v = .ok w) : v.Ships w := by
  cases v with
  | decimal d =>
      cases h
      exact ⟨d.settled, rfl, d.toRat_settled⟩
  | timestamp t =>
      obtain ⟨t', cut, rfl⟩ := map_eq_ok.mp h
      refine ⟨t', rfl, Time.Instant.cutTo_of_millis ?_⟩
      simp only [shipInstant] at cut
      split at cut
      · cases cut
        assumption
      · cases cut
  | _ =>
      cases h
      rfl

theorem ships_of_shipCell {c d : Cell} (h : shipCell c = .ok d) : c.Ships d := by
  obtain ⟨w, shipped, rfl⟩ := map_eq_ok.mp h
  exact ⟨rfl, ships_of_shipValue shipped⟩

theorem badInstant_of_shipCell {c : Cell} {fault : Fault} (h : shipCell c = .error fault) :
    ∃ t, c.value = .timestamp t ∧ Time.Instant.ofEpochMillis? t.epochMillis = none := by
  cases hv : c.value with
  | timestamp t =>
      refine ⟨t, rfl, ?_⟩
      simp only [shipCell, hv, shipValue, shipInstant] at h
      split at h
      · cases h
      · assumption
  | _ =>
      simp only [shipCell, hv, shipValue] at h
      cases h

theorem double_same_self {d : Double} (number : d.isNaN = false) : d.same d = true := by
  simp [Double.same, Double.compare?, number]

theorem same_of_ships {c d : Cell} (h : c.Ships d)
    (numbers : ∀ x, c.value = .double x → x.isNaN = false)
    (whole : ∀ t, c.value = .timestamp t → t.Whole) : Cell.same d c = true := by
  obtain ⟨type, ships⟩ := h
  have same : d.value.same c.value = true := by
    cases hv : c.value with
    | decimal x =>
        rw [hv] at ships
        obtain ⟨y, hy, number⟩ := ships
        rw [hy]
        exact Decimal.same_iff.mpr number
    | timestamp t =>
        rw [hv] at ships
        obtain ⟨u, hu, cut⟩ := ships
        rw [hu, (whole t hv).cut_eq cut]
        simp [Value.same]
    | double x =>
        rw [hv] at ships
        rw [show d.value = .double x from ships]
        exact double_same_self (numbers x hv)
    | _ =>
        rw [hv] at ships
        rw [show d.value = _ from ships]
        simp [Value.same]
  simp [Cell.same, type, same]

/-- Each literal of a shipped tree is what is shipped for the cell in its place. -/
theorem alike_shipCell {e e' : Expr} (h : ship e = .ok e') : e.Alike (shipCell · = .ok ·) e' := by
  have given := Expr.gives_replace shipCell (Expr.self_mem_nodes e)
  rw [show e.replace shipCell = .ok e' from h] at given
  exact given

theorem alike_of_ship {e e' : Expr} (h : ship e = .ok e') : e.Alike Cell.Ships e' :=
  (alike_shipCell h).imp (Expr.self_mem_nodes e) fun _ _ _ => ships_of_shipCell

theorem ship_ok {e : Expr}
    (legal : ∀ t ∈ e.instants, (Time.Instant.ofEpochMillis? t.epochMillis).isSome = true) :
    ∃ e', ship e = .ok e' := by
  rcases gives_iff.mp (Expr.gives_replace shipCell (Expr.self_mem_nodes e)) with
    ⟨e', h, -⟩ | ⟨fault, -, c, mem, failed⟩
  · exact ⟨e', h⟩
  · obtain ⟨t, ht, none⟩ := badInstant_of_shipCell failed
    have some := legal t (Expr.mem_instants mem ht)
    rw [none] at some
    cases some

/-- **A tree comes back from its bytes with every literal shipped and all else as it was**, and as
an equal tree when it has no NaN and only whole instants. -/
theorem round_trip {e : Expr} (countable : (encode e).length < UInt64.size)
    (legal : ∀ t ∈ e.instants, (Time.Instant.ofEpochMillis? t.epochMillis).isSome = true) :
    ∃ e', decode (encode e) = .ok e' ∧ e.Alike Cell.Ships e' ∧
      ((∀ d ∈ e.doubles, d.isNaN = false) → (∀ t ∈ e.instants, t.Whole) → e'.same e = true) := by
  obtain ⟨e', shipped⟩ := ship_ok legal
  have alike := alike_of_ship shipped
  refine ⟨e', by rw [decode_encode countable, shipped], alike, fun numbers whole => ?_⟩
  refine Expr.Alike.same (alike.imp (Expr.self_mem_nodes e) fun c mem d ships => ?_)
  exact same_of_ships ships (fun x hx => numbers x (Expr.mem_doubles mem hx))
    fun t ht => whole t (Expr.mem_instants mem ht)

/-- `ts NOT IN (NULL, an instant before 1970, a leap second) OR -123e+20 < 'é'`. -/
def unevenNotIn : Expr :=
  .logic .or
    (.member true (.column ⟨3, .timestamp, some (String.ofList ['t', 's'])⟩)
      [.null .string, .ofValue (.timestamp ⟨-1, 1500000, by decide, by decide, by decide, by decide⟩),
        .ofValue (.timestamp ⟨59, 1250000001, by decide, by decide, by decide, by decide⟩)])
    (.comparison .lessThan (.ofValue (.decimal ⟨-123, -20⟩))
      (.ofValue (.string (String.ofList ['é']))))

theorem unevenNotIn_comes_back :
    (encode unevenNotIn).length < UInt64.size ∧
      (∀ t ∈ unevenNotIn.instants, (Time.Instant.ofEpochMillis? t.epochMillis).isSome = true) ∧
      ∃ e', decode (encode unevenNotIn) = .ok e' ∧ unevenNotIn.Alike Cell.Ships e' := by
  have countable : (encode unevenNotIn).length < UInt64.size := by
    simp only [unevenNotIn, Expr.ofValue, Expr.null, encode, encodeItems, cell, column, value,
      content, text, optional, Cell.of, Cell.null, String.toList_ofList]
    decide +kernel
  have legal : ∀ t ∈ unevenNotIn.instants,
      (Time.Instant.ofEpochMillis? t.epochMillis).isSome = true := by decide
  obtain ⟨e', decoded, alike, -⟩ := round_trip countable legal
  exact ⟨countable, legal, e', decoded, alike⟩

end Plan

end RowFilter
