import ResourceGraph.Text.Split

/-!
# Replacing a word

Every occurrence of a word that is not empty is replaced, from the left and without overlaps: where
the text begins with the word its image comes out and the search goes on behind it, and elsewhere
one character is passed over.
-/
namespace ResourceGraph.Text

variable {c d e : Char} {ds image cs : List Char}

theorem splitAtWord_ne_nil : splitAtWord d ds cs ≠ [] := by
  unfold splitAtWord
  split
  · exact List.cons_ne_nil _ _
  split
  · exact List.cons_ne_nil _ _
  split
  · exact List.cons_ne_nil _ _
  · exact List.cons_ne_nil _ _

theorem join_cons {glue piece : List Char} {pieces : List (List Char)} (h : pieces ≠ []) :
    join glue (piece :: pieces) = piece ++ glue ++ join glue pieces := by
  cases pieces with
  | nil => exact absurd rfl h
  | cons => rfl

theorem join_cons_cons {glue piece : List Char} {pieces : List (List Char)} :
    join glue ((c :: piece) :: pieces) = c :: join glue (piece :: pieces) := by
  cases pieces <;> rfl

theorem replace_nil : replace (d :: ds) image [] = [] := by
  rw [replace, split, splitAtWord, join]

theorem replace_of_prefix (h : (d :: ds).isPrefixOf (c :: cs) = true) :
    replace (d :: ds) image (c :: cs) = image ++ replace (d :: ds) image (cs.drop ds.length) := by
  rw [replace, split, splitAtWord, if_pos h, join_cons splitAtWord_ne_nil, List.nil_append]
  rfl

theorem replace_of_not_prefix (h : (d :: ds).isPrefixOf (c :: cs) = false) :
    replace (d :: ds) image (c :: cs) = c :: replace (d :: ds) image cs := by
  rw [replace, split, splitAtWord, if_neg (Bool.eq_false_iff.1 h), replace, split]
  cases hpieces : splitAtWord d ds cs with
  | nil => exact absurd hpieces splitAtWord_ne_nil
  | cons piece pieces => exact join_cons_cons

theorem replace_cons_of_ne (h : c ≠ d) :
    replace (d :: ds) image (c :: cs) = c :: replace (d :: ds) image cs :=
  replace_of_not_prefix (by rw [List.isPrefixOf_cons_cons, beq_false_of_ne h.symm, Bool.false_and])

/-! ## Words of two characters -/

theorem replace_pair : replace [d, e] image (d :: e :: cs) = image ++ replace [d, e] image cs :=
  replace_of_prefix (by simp [List.isPrefixOf])

theorem replace_pair_of_ne (h : c ≠ e) :
    replace [d, e] image (d :: c :: cs) = d :: replace [d, e] image (c :: cs) :=
  replace_of_not_prefix (by simp [List.isPrefixOf, h.symm])

end ResourceGraph.Text
