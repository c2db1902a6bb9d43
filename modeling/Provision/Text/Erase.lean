/-!
Erasing every occurrence of a literal from a text.

Occurrences are taken from left to right and do not overlap; what stands around an
erased occurrence is not looked at again.
-/

namespace Provision.Text

/-- Erase the literal from a text whose first `skip` characters belong to an
occurrence that is being erased. -/
def eraseFrom (literal : List Char) (skip : Nat) : List Char → List Char
  | [] => []
  | c :: rest =>
      match skip with
      | skip + 1 => eraseFrom literal skip rest
      | 0 =>
          if literal.isPrefixOf (c :: rest) then eraseFrom literal (literal.length - 1) rest
          else c :: eraseFrom literal 0 rest

def erase (literal text : List Char) : List Char := eraseFrom literal 0 text

def occurs (literal : List Char) : List Char → Bool
  | [] => literal.isEmpty
  | c :: rest => literal.isPrefixOf (c :: rest) || occurs literal rest

theorem eraseFrom_drop (literal : List Char) (skip : Nat) (text : List Char) :
    eraseFrom literal skip text = eraseFrom literal 0 (text.drop skip) := by
  induction text generalizing skip with
  | nil => simp [eraseFrom]
  | cons c rest ih =>
      cases skip with
      | zero => simp
      | succ skip => simpa [eraseFrom] using ih skip

/-- A text that starts with the literal loses it. -/
theorem erase_literal_append {literal : List Char} (nonempty : literal ≠ []) (rest : List Char) :
    erase literal (literal ++ rest) = erase literal rest := by
  obtain ⟨c, tail, rfl⟩ := List.exists_cons_of_ne_nil nonempty
  have starts : (c :: tail).isPrefixOf (c :: (tail ++ rest)) = true := by
    rw [List.isPrefixOf_iff_prefix]
    exact ⟨rest, rfl⟩
  rw [erase, List.cons_append, eraseFrom, if_pos starts, eraseFrom_drop]
  simp [erase]

/-- A character at which no occurrence starts is kept. -/
theorem erase_cons_of_not_prefix {literal : List Char} {c : Char} {rest : List Char}
    (absent : literal.isPrefixOf (c :: rest) = false) :
    erase literal (c :: rest) = c :: erase literal rest := by
  simp [erase, eraseFrom, absent]

end Provision.Text
