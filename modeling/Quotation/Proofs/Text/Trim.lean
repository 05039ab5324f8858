import Mathlib.Data.List.DropRight
import Quotation.Text.Blank

/-!
# Blanks around a text

A text is what is left of it and the blanks around that, and other blanks around it change nothing.

* `exists_blanks`: the blanks that are taken off;
* `trim_between`: what is left of a text between blanks, and `trim_of_no_blank`.
-/

namespace Quotation.Text

variable {cs blanks : List Char}

theorem trimEnd_eq_rdropWhile (cs : List Char) : trimEnd cs = cs.rdropWhile isBlank :=
  rfl

theorem trimStart_eq_nil_iff : trimStart cs = [] ↔ ∀ c ∈ cs, isBlank c = true :=
  List.dropWhile_eq_nil_iff

theorem trimStart_append_of_blank (h : ∀ c ∈ blanks, isBlank c = true) (cs : List Char) :
    trimStart (blanks ++ cs) = trimStart cs :=
  List.dropWhile_append_of_pos h

theorem trimEnd_append_of_blank (h : ∀ c ∈ blanks, isBlank c = true) (cs : List Char) :
    trimEnd (cs ++ blanks) = trimEnd cs := by
  have hreverse : ∀ c ∈ blanks.reverse, isBlank c = true := fun c hc => h c (List.mem_reverse.mp hc)
  rw [trimEnd, List.reverse_append, List.dropWhile_append_of_pos hreverse, trimEnd]

/-- Blanks behind a text are not reached from its start unless it is blank itself. -/
theorem trimEnd_trimStart_append (h : ∀ c ∈ blanks, isBlank c = true) (cs : List Char) :
    trimEnd (trimStart (cs ++ blanks)) = trimEnd (trimStart cs) := by
  by_cases hcs : ∀ c ∈ cs, isBlank c = true
  · rw [trimStart_append_of_blank hcs, trimStart_eq_nil_iff.mpr h, trimStart_eq_nil_iff.mpr hcs]
  · have hne : (cs.dropWhile isBlank).isEmpty = false := by
      rw [List.isEmpty_eq_false_iff]
      exact mt trimStart_eq_nil_iff.mp hcs
    rw [trimStart, List.dropWhile_append, hne, if_neg Bool.false_ne_true,
      trimEnd_append_of_blank h, trimStart]

/-- Blanks around a text change nothing of what is left of it. -/
theorem trim_between {before after : String} (hbefore : IsBlankText before)
    (hafter : IsBlankText after) (s : String) : trim (before ++ s ++ after) = trim s := by
  rw [trim, String.toList_append, String.toList_append, List.append_assoc,
    trimStart_append_of_blank hbefore, trimEnd_trimStart_append hafter, trim]

/-- A text without any blank is left whole. -/
theorem trim_of_no_blank {s : String} (h : ∀ c ∈ s.toList, isBlank c = false) : trim s = s := by
  have hstart : trimStart s.toList = s.toList := by
    rw [trimStart, List.dropWhile_eq_self_iff]
    intro hlen
    simpa using h _ (List.getElem_mem hlen)
  have hend : trimEnd s.toList = s.toList := by
    rw [trimEnd_eq_rdropWhile, List.rdropWhile_eq_self_iff]
    intro hne
    simpa using h _ (List.getLast_mem hne)
  rw [trim, hstart, hend, String.ofList_toList]

/-- What is taken off a text is blank. -/
theorem exists_blanks (s : String) : ∃ before after : String,
    IsBlankText before ∧ IsBlankText after ∧ s = before ++ trim s ++ after := by
  refine ⟨String.ofList (s.toList.takeWhile isBlank),
    String.ofList ((trimStart s.toList).rtakeWhile isBlank), ?_, ?_, ?_⟩
  · intro c hc
    rw [String.toList_ofList] at hc
    exact List.mem_takeWhile_imp hc
  · intro c hc
    rw [String.toList_ofList] at hc
    exact List.mem_rtakeWhile_imp hc
  · rw [← String.toList_inj]
    simp only [trim, String.toList_append, String.toList_ofList, List.append_assoc,
      trimEnd_eq_rdropWhile, List.rdropWhile_append_rtakeWhile]
    rw [trimStart, List.takeWhile_append_dropWhile]

end Quotation.Text
