import Mathlib.Data.List.Nodup
import Mathlib.Data.List.Sort
import Mathlib.Data.String.Basic

/-!
# SQL Statements with Parameters

Two forms of statement on one table: an `INSERT` of several rows, and a `SELECT` with a `WHERE`
of comparisons, a descending order and a window. The operands are parameters, numbered or not,
whose arguments come in a list of their own. The table keeps the values it is given and numbers
its rows.

A comparison with a `NULL` does not hold. The rows of a `SELECT` come in any order that is
descending in its key; a `RowOrder` picks one.

## Main results

* `bind_sequential`: parameters numbered in the order of their arguments get them in order.
* `insert_exec`: what an `INSERT` adds.
* `select_exec`: what a `SELECT` returns.
-/

namespace Sql

/-! ### Values -/

/-- The values of SQL. A time is an instant. -/
inductive Value where
  | null
  | int (n : Int)
  | text (s : String)
  | time (t : Int)
  deriving DecidableEq, Repr

/-- The order of values, by type first. -/
def Value.le : Value → Value → Bool
  | .null, _ => true
  | _, .null => false
  | .int m, .int n => m ≤ n
  | .int _, _ => true
  | _, .int _ => false
  | .text s, .text t => s ≤ t
  | .text _, .time _ => true
  | .time _, .text _ => false
  | .time t, .time u => t ≤ u

/-- Any two values are ordered. -/
theorem Value.total (a b : Value) : (a.le b || b.le a) = true := by
  cases a <;> cases b <;> simp [Value.le, le_total]

/-- The order is transitive. -/
theorem Value.trans (a b c : Value) (hab : a.le b = true) (hbc : b.le c = true) :
    a.le c = true := by
  cases a <;> cases b <;> simp only [Value.le, decide_eq_true_eq, Bool.false_eq_true] at hab <;>
    cases c <;> simp only [Value.le, decide_eq_true_eq, Bool.false_eq_true] at hbc ⊢
  all_goals exact le_trans hab hbc

/-- Values that are ordered both ways are the same. -/
theorem Value.antisymm {a b : Value} (hab : a.le b = true) (hba : b.le a = true) : a = b := by
  cases a <;> cases b <;>
    simp only [Value.le, decide_eq_true_eq, Bool.false_eq_true] at hab hba <;>
    first | rfl | exact congrArg _ (le_antisymm hab hba)

/-- A text or `NULL`. -/
def Value.ofOption : Option String → Value
  | none => .null
  | some s => .text s

/-- A comparison. -/
inductive Op where
  | eq | ge | le
  deriving DecidableEq, Repr

/-- The comparison holds of two values; of a `NULL` none does. -/
def Op.holds (op : Op) (a b : Value) : Bool :=
  a ≠ .null && b ≠ .null &&
    match op with
    | .eq => a = b
    | .ge => b.le a
    | .le => a.le b

/-! ### Parameters -/

/-- A parameter in a statement: `$n`, `@pn` or `?`. -/
inductive Marker where
  | dollar (n : Nat)
  | atP (n : Nat)
  | question
  deriving DecidableEq, Repr

section Binding

variable (args : List Value)

/-- The number of a parameter, if the greatest number before it is `k`. -/
def Marker.number (k : Nat) : Marker → Nat
  | .dollar n => n
  | .atP n => n
  | .question => k + 1

/-- The argument of a parameter; numbers start with 1. -/
def Marker.argument (k : Nat) (m : Marker) : Option Value :=
  if m.number k = 0 then none else args[m.number k - 1]?

/-- The arguments of the parameters of the rest of a statement, in textual order. There are as
many arguments as parameters. -/
def bindFrom : Nat → List Marker → Option (List Value)
  | k, [] => if k = args.length then some [] else none
  | k, m :: ms =>
      (m.argument args k).bind fun v => (bindFrom (max k (m.number k)) ms).map fun vs => v :: vs

/-- The arguments of all parameters of a statement. -/
def bind (markers : List Marker) : Option (List Value) :=
  bindFrom args 0 markers

end Binding

/-- The parameters are numbered from 1 on, in one of the three ways. -/
def Sequential (ph : Nat → Marker) : Prop :=
  ∀ k, (ph (k + 1)).number k = k + 1

/-- From any place on, parameters in sequence get the arguments that are left. -/
theorem bindFrom_sequential {ph : Nat → Marker} (hph : Sequential ph) {args : List Value}
    {m k : Nat} (hlen : k + m = args.length) :
    bindFrom args k ((List.range' k m).map fun i => ph (i + 1)) = some (args.drop k) := by
  induction m generalizing k with
  | zero =>
      obtain rfl : k = args.length := hlen
      simp [bindFrom]
  | succ m ih =>
      have hk : k < args.length := by omega
      have hrest := ih (k := k + 1) (by omega)
      rw [List.range'_succ, List.map_cons, bindFrom, Marker.argument, hph,
        Nat.max_eq_right (Nat.le_succ k), hrest]
      simp [List.getElem?_eq_getElem hk]

/-- **Parameters in sequence get the arguments in order.** -/
theorem bind_sequential {ph : Nat → Marker} (hph : Sequential ph) (args : List Value) :
    bind args ((List.range args.length).map fun i => ph (i + 1)) = some args := by
  rw [bind, List.range_eq_range', bindFrom_sequential hph (Nat.zero_add _), List.drop_zero]

/-! ### Tables -/

/-- A row has a value in every column. -/
abbrev Row := String → Value

/-- The table: the column that numbers its rows, the other columns, those of them that take no
`NULL`, and the most parameters of a statement on it. -/
structure Schema where
  autoID : String
  columns : List String
  notNull : List String
  maxParameters : Nat

/-- The rows of a table, in the order of their numbers, and the next number. -/
structure Table where
  rows : List Row
  nextID : Nat

/-- The empty table. -/
def Table.empty : Table := ⟨[], 1⟩

/-- An identifier names its column with or without quotes. -/
def identifier (s : String) : String :=
  match s.toList with
  | '\x22' :: cs => String.ofList cs.dropLast
  | '[' :: cs => String.ofList cs.dropLast
  | cs => String.ofList cs

/-- The row of a number and the values of some columns; the other columns have `NULL`. -/
def rowOf (s : Schema) (id : Nat) (columns : List String) (values : List Value) : Row :=
  fun c =>
    if c = s.autoID then .int id else ((columns.zip values).lookup c).getD .null

/-! ### INSERT -/

/-- `INSERT INTO` the table the columns with `VALUES` of the rows. -/
structure Insert where
  columns : List String
  rows : List (List Marker)
  deriving DecidableEq, Repr

/-- Cut a list into parts of the lengths of the rows. -/
def reshape {α β : Type*} : List (List β) → List α → List (List α)
  | [], _ => []
  | r :: rs, xs => xs.take r.length :: reshape rs (xs.drop r.length)

/-- The rows a statement would add. -/
def Insert.newRows (stmt : Insert) (s : Schema) (nextID : Nat) (values : List Value) : List Row :=
  ((reshape stmt.rows values).zipIdx nextID).map fun (vs, id) =>
    rowOf s id (stmt.columns.map identifier) vs

/-- The statement names columns of the table, each once, has rows, and has a value for each
column in each row. -/
def Insert.WellFormed (stmt : Insert) (s : Schema) : Prop :=
  stmt.rows ≠ [] ∧ (stmt.columns.map identifier).Nodup ∧
    (∀ c ∈ stmt.columns.map identifier, c ∈ s.columns) ∧
    ∀ r ∈ stmt.rows, r.length = stmt.columns.length

instance (stmt : Insert) (s : Schema) : Decidable (stmt.WellFormed s) :=
  inferInstanceAs (Decidable (_ ∧ _))

/-- The table after the statement, or `none` for an error. -/
def Insert.exec (s : Schema) (t : Table) (stmt : Insert) (args : List Value) : Option Table :=
  (bind args stmt.rows.flatten).bind fun values =>
    let rows := stmt.newRows s t.nextID values
    if stmt.WellFormed s ∧ args.length ≤ s.maxParameters ∧
        ∀ row ∈ rows, ∀ c ∈ s.notNull, row c ≠ .null then
      some ⟨t.rows ++ rows, t.nextID + stmt.rows.length⟩
    else none

/-- The parameters of `n` rows of `c` columns, numbered through. -/
def grid (ph : Nat → Marker) (n c : Nat) : List (List Marker) :=
  (List.range n).map fun i => (List.range c).map fun j => ph (i * c + j + 1)

/-- The numbers of a grid run on from row to row. -/
theorem flatten_grid (ph : Nat → Marker) (n c : Nat) :
    (grid ph n c).flatten = (List.range (n * c)).map fun i => ph (i + 1) := by
  induction n with
  | zero => simp [grid]
  | succ n ih =>
      have hsplit : grid ph (n + 1) c =
          grid ph n c ++ [(List.range c).map fun j => ph (n * c + j + 1)] := by
        simp [grid, List.range_succ]
      rw [hsplit, List.flatten_append, ih, Nat.add_one_mul, List.range_add, List.map_append]
      simp [Function.comp_def]

/-- Rows that are joined and cut again are the same. -/
theorem reshape_flatten {α β : Type*} {rows : List (List β)} {vss : List (List α)}
    (h : List.Forall₂ (fun r vs => r.length = vs.length) rows vss) :
    reshape rows vss.flatten = vss := by
  induction h with
  | nil => rfl
  | cons hlen _ ih => rw [reshape, List.flatten_cons, hlen, List.take_left, List.drop_left, ih]

/-- A grid has the shape of rows of its width. -/
theorem forall₂_grid {α : Type*} {ph : Nat → Marker} {c : Nat} {vss : List (List α)}
    (hlen : ∀ vs ∈ vss, vs.length = c) :
    List.Forall₂ (fun r vs => r.length = vs.length) (grid ph vss.length c) vss := by
  rw [List.forall₂_iff_get]
  refine ⟨by simp [grid], fun i _ hi => ?_⟩
  simp [grid, hlen _ (List.getElem_mem hi)]

/-- The rows with these values, numbered on. -/
def numberedRows (s : Schema) (columns : List String) (nextID : Nat) (vss : List (List Value)) :
    List Row :=
  (vss.zipIdx nextID).map fun (vs, id) => rowOf s id (columns.map identifier) vs

/-- **What an INSERT adds**, if its parameters are numbered through its rows. -/
theorem insert_exec {ph : Nat → Marker} (hph : Sequential ph) (s : Schema) (t : Table)
    {columns : List String} {vss : List (List Value)}
    (hlen : ∀ vs ∈ vss, vs.length = columns.length) :
    Insert.exec s t ⟨columns, grid ph vss.length columns.length⟩ vss.flatten =
      let rows := numberedRows s columns t.nextID vss
      if Insert.WellFormed ⟨columns, grid ph vss.length columns.length⟩ s ∧
          vss.flatten.length ≤ s.maxParameters ∧ ∀ row ∈ rows, ∀ c ∈ s.notNull, row c ≠ .null then
        some ⟨t.rows ++ rows, t.nextID + vss.length⟩
      else none := by
  have htotal : vss.flatten.length = vss.length * columns.length := by
    rw [List.length_flatten, List.map_congr_left hlen, List.map_const', List.sum_replicate_nat]
  have hbind : bind vss.flatten (grid ph vss.length columns.length).flatten =
      some vss.flatten := by
    rw [flatten_grid, ← htotal, bind_sequential hph]
  have hrows : Insert.newRows ⟨columns, grid ph vss.length columns.length⟩ s t.nextID
      vss.flatten = numberedRows s columns t.nextID vss := by
    rw [Insert.newRows, reshape_flatten (forall₂_grid hlen), numberedRows]
  have hcount : (grid ph vss.length columns.length).length = vss.length := by simp [grid]
  rw [Insert.exec, hbind, Option.bind_some, hrows, hcount]

/-! ### SELECT -/

/-- A condition of a `WHERE`: `1=1`, or a comparison of a column with a parameter. -/
inductive Condition where
  | always
  | compare (column : String) (op : Op) (marker : Marker)
  deriving DecidableEq, Repr

/-- The parameter of a condition. -/
def Condition.marker? : Condition → Option Marker
  | .always => none
  | .compare _ _ m => some m

/-- `SELECT` the columns `WHERE` all conditions hold, `ORDER BY` a column `DESC`, with a `LIMIT`
and an `OFFSET`. -/
structure Select where
  columns : List String
  conditions : List Condition
  orderBy : String
  limit : Marker
  offset : Marker
  deriving DecidableEq, Repr

/-- The parameters in textual order. -/
def Select.markers (stmt : Select) : List Marker :=
  stmt.conditions.filterMap Condition.marker? ++ [stmt.limit, stmt.offset]

/-- A row meets the conditions, whose parameters have the first of the values. -/
def meets : List Condition → List Value → Row → Bool
  | [], _, _ => true
  | .always :: cs, vs, row => meets cs vs row
  | .compare column op _ :: cs, v :: vs, row =>
      op.holds (row (identifier column)) v && meets cs vs row
  | .compare .. :: _, [], _ => false

/-- The order a database chooses for rows that come in descending order of a key. -/
structure RowOrder where
  sort : (Row → Value) → List Row → List Row
  perm : ∀ key rows, (sort key rows).Perm rows
  sorted : ∀ key rows, (sort key rows).Pairwise fun a b => (key b).le (key a) = true

/-- Rows of one key stay in the order of their numbers. -/
def RowOrder.stable : RowOrder where
  sort := fun key rows => rows.insertionSort fun a b => (key b).le (key a) = true
  perm := fun _ rows => List.perm_insertionSort _ rows
  sorted := by
    intro key rows
    let r : Row → Row → Prop := fun a b => (key b).le (key a) = true
    have htotal : Std.Total r := ⟨fun a b => by simpa [r] using Value.total (key b) (key a)⟩
    have htrans : IsTrans Row r := ⟨fun _ _ _ hab hbc => Value.trans _ _ _ hbc hab⟩
    exact List.pairwise_insertionSort r rows

/-- The window of a `LIMIT` and an `OFFSET`. A negative limit is none, and a negative offset is
zero. -/
def window {α : Type*} (limit offset : Int) (xs : List α) : List α :=
  if limit < 0 then xs.drop offset.toNat else (xs.drop offset.toNat).take limit.toNat

/-- The rows a statement returns, or `none` for an error. -/
def Select.exec (order : RowOrder) (t : Table) (stmt : Select) (args : List Value) :
    Option (List (List Value)) :=
  (bind args stmt.markers).bind fun values =>
    match values.reverse with
    | .int offset :: .int limit :: _ =>
        let found := t.rows.filter (meets stmt.conditions values)
        let sorted := order.sort (fun row => row (identifier stmt.orderBy)) found
        some ((window limit offset sorted).map fun row =>
          stmt.columns.map fun c => row (identifier c))
    | _ => none

/-- A comparison with its argument. -/
structure Bound where
  column : String
  op : Op
  value : Value
  deriving DecidableEq, Repr

/-- A row meets a comparison. -/
def Bound.holds (b : Bound) (row : Row) : Bool :=
  b.op.holds (row (identifier b.column)) b.value

/-- The conditions of comparisons, numbered from `k + 1` on. -/
def numbered (ph : Nat → Marker) (k : Nat) (bounds : List Bound) : List Condition :=
  (bounds.zipIdx k).map fun (b, i) => .compare b.column b.op (ph (i + 1))

/-- The parameters of numbered conditions. -/
theorem filterMap_numbered (ph : Nat → Marker) (k : Nat) (bounds : List Bound) :
    (numbered ph k bounds).filterMap Condition.marker? =
      (List.range' k bounds.length).map fun i => ph (i + 1) := by
  induction bounds generalizing k with
  | nil => rfl
  | cons b bounds ih =>
      rw [numbered, List.zipIdx_cons, List.map_cons, List.filterMap_cons, ← numbered, ih]
      rfl

/-- Numbered conditions are met where the comparisons are. -/
theorem meets_numbered (ph : Nat → Marker) (k : Nat) (bounds : List Bound) (vs : List Value)
    (row : Row) :
    meets (numbered ph k bounds) (bounds.map Bound.value ++ vs) row =
      bounds.all fun b => b.holds row := by
  induction bounds generalizing k with
  | nil => rfl
  | cons b bounds ih =>
      rw [numbered, List.zipIdx_cons, List.map_cons, ← numbered, List.map_cons,
        List.cons_append, meets, ih, List.all_cons, Bound.holds]

/-- **What a SELECT returns**, if its parameters are numbered through its conditions, limit and
offset. -/
theorem select_exec {ph : Nat → Marker} (hph : Sequential ph) (order : RowOrder) (t : Table)
    (columns : List String) (bounds : List Bound) (orderBy : String) (limit offset : Int) :
    Select.exec order t
        ⟨columns, .always :: numbered ph 0 bounds, orderBy, ph (bounds.length + 1),
          ph (bounds.length + 2)⟩
        (bounds.map Bound.value ++ [.int limit, .int offset]) =
      some ((window limit offset
          (order.sort (fun row => row (identifier orderBy))
            (t.rows.filter fun row => bounds.all fun b => b.holds row))).map fun row =>
        columns.map fun c => row (identifier c)) := by
  have hmarkers : Select.markers ⟨columns, .always :: numbered ph 0 bounds, orderBy,
      ph (bounds.length + 1), ph (bounds.length + 2)⟩ =
        (List.range (bounds.map Bound.value ++ [Value.int limit, .int offset]).length).map
          fun i => ph (i + 1) := by
    rw [Select.markers, List.filterMap_cons, List.length_append, List.length_map,
      List.range_add]
    simp [Condition.marker?, filterMap_numbered, ← List.range_eq_range', List.range_succ]
  have hmeets : meets (.always :: numbered ph 0 bounds)
      (bounds.map Bound.value ++ [.int limit, .int offset]) =
        fun row => bounds.all fun b => b.holds row := by
    funext row
    rw [meets, meets_numbered]
  rw [Select.exec, hmarkers, bind_sequential hph, Option.bind_some, List.reverse_append]
  simp only [List.reverse_cons, List.reverse_nil, List.nil_append, List.cons_append, hmeets]

end Sql
