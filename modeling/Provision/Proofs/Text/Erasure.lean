import Provision.Text.Erase

/-!
Erasing a literal from a text in pieces.

A piece in which the first character of the literal does not occur stays as it is
(`erase_append_of_head_notMem`), and a character that does not occur in the literal at all
separates what stands before it from what stands behind it
(`erase_append_cons_of_notMem`): no occurrence can reach over it. Nothing is erased exactly
where there is no occurrence (`erase_eq_self_iff`).
-/

namespace Provision.Text

variable {literal : List Char}

/-- A character at which no occurrence starts is kept. -/
theorem erase_cons {c : Char} {rest : List Char}
    (absent : ¬ literal <+: c :: rest) : erase literal (c :: rest) = c :: erase literal rest := by
  refine erase_cons_of_not_prefix ?_
  rw [← Bool.not_eq_true, List.isPrefixOf_iff_prefix]
  exact absent

/-- A piece without the first character of the literal is kept. -/
theorem erase_append_of_head_notMem {first : Char} {tail front : List Char}
    (absent : first ∉ front) (rest : List Char) :
    erase (first :: tail) (front ++ rest) = front ++ erase (first :: tail) rest := by
  induction front with
  | nil => rfl
  | cons c front ih =>
      obtain ⟨differs, absent⟩ := List.ne_and_not_mem_of_not_mem_cons absent
      have kept : ¬ first :: tail <+: c :: (front ++ rest) := by
        intro starts
        exact differs (List.cons_prefix_cons.mp starts).1
      rw [List.cons_append, erase_cons kept, ih absent, List.cons_append]

/-- A literal that lacks a character cannot reach over it. -/
theorem prefix_append_cons_iff {c : Char} (absent : c ∉ literal) (front : List Char)
    {rest : List Char} :
    literal <+: front ++ c :: rest ↔ literal <+: front := by
  constructor
  · intro starts
    induction front generalizing literal with
    | nil =>
        cases literal with
        | nil => exact List.prefix_rfl
        | cons first tail =>
            obtain ⟨rfl, -⟩ := List.cons_prefix_cons.mp starts
            exact absurd List.mem_cons_self absent
    | cons d front ih =>
        cases literal with
        | nil => exact List.nil_prefix
        | cons first tail =>
            obtain ⟨same, starts⟩ := List.cons_prefix_cons.mp starts
            obtain ⟨-, absent⟩ := List.ne_and_not_mem_of_not_mem_cons absent
            exact List.cons_prefix_cons.mpr ⟨same, ih absent starts⟩
  · intro starts
    exact starts.trans (List.prefix_append _ _)

/-- What stands before a character that the literal lacks is erased from by itself. The
induction is on the text before it, with the rest of an occurrence still to be skipped. -/
theorem eraseFrom_append_cons_of_notMem {c : Char} (absent : c ∉ literal)
    (nonempty : literal ≠ []) {skip : Nat} {front : List Char} (within : skip ≤ front.length)
    (rest : List Char) :
    eraseFrom literal skip (front ++ c :: rest)
      = eraseFrom literal skip front ++ c :: erase literal rest := by
  induction front generalizing skip with
  | nil =>
      obtain rfl : skip = 0 := Nat.le_zero.mp within
      have absentHere : ¬ literal <+: c :: rest := by
        intro starts
        have : literal <+: [] := (prefix_append_cons_iff absent []).mp starts
        exact nonempty (List.prefix_nil.mp this)
      exact erase_cons absentHere
  | cons d front ih =>
      cases skip with
      | succ skip =>
          simp only [List.cons_append, eraseFrom]
          exact ih (Nat.le_of_succ_le_succ within)
      | zero =>
          have same : literal.isPrefixOf (d :: (front ++ c :: rest))
              = literal.isPrefixOf (d :: front) := by
            rw [Bool.eq_iff_iff, List.isPrefixOf_iff_prefix, List.isPrefixOf_iff_prefix]
            exact prefix_append_cons_iff absent (d :: front)
          simp only [List.cons_append, eraseFrom, same]
          split
          · rename_i starts
            have short := (List.isPrefixOf_iff_prefix.mp starts).length_le
            rw [List.length_cons] at short
            exact ih (by omega)
          · rw [ih (Nat.zero_le _), List.cons_append]

/-- A character that the literal lacks separates what is erased on its two sides. -/
theorem erase_append_cons_of_notMem {c : Char} (absent : c ∉ literal) (nonempty : literal ≠ [])
    (front rest : List Char) :
    erase literal (front ++ c :: rest) = erase literal front ++ c :: erase literal rest :=
  eraseFrom_append_cons_of_notMem absent nonempty (Nat.zero_le _) rest

/-! ### Texts without an occurrence -/

theorem occurs_iff {text : List Char} : occurs literal text = true ↔ literal <:+: text := by
  induction text with
  | nil => rw [occurs, List.isEmpty_iff, List.infix_nil]
  | cons c rest ih =>
      rw [occurs, Bool.or_eq_true, ih, List.isPrefixOf_iff_prefix, List.infix_cons_iff]

theorem length_erase_le (literal text : List Char) :
    (erase literal text).length ≤ text.length := by
  have each (skip : Nat) : (eraseFrom literal skip text).length ≤ text.length := by
    induction text generalizing skip with
    | nil => exact Nat.le_refl 0
    | cons c rest ih =>
        cases skip with
        | succ skip => exact Nat.le_succ_of_le (ih skip)
        | zero =>
            rw [eraseFrom]
            split
            · exact Nat.le_succ_of_le (ih _)
            · exact Nat.succ_le_succ (ih 0)
  exact each 0

/-- A text is kept exactly if the literal occurs nowhere in it. -/
theorem erase_eq_self_iff (nonempty : literal ≠ []) {text : List Char} :
    erase literal text = text ↔ ¬ literal <:+: text := by
  induction text with
  | nil =>
      rw [List.infix_nil]
      exact iff_of_true rfl nonempty
  | cons c rest ih =>
      rw [List.infix_cons_iff, not_or, ← ih]
      by_cases starts : literal <+: c :: rest
      · refine iff_of_false ?_ (fun absent => absent.1 starts)
        obtain ⟨more, text⟩ := starts
        intro same
        -- what is erased is missing
        have length := congrArg List.length same
        rw [← text, erase_literal_append nonempty, List.length_append] at length
        have := length_erase_le literal more
        have := List.length_pos_iff.mpr nonempty
        omega
      · rw [erase_cons starts, List.cons.injEq]
        exact and_congr_left' (iff_of_true rfl starts)

end Provision.Text
