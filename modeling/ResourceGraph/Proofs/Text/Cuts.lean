import Mathlib.Data.List.Infix
import ResourceGraph.Proofs.Text.Replace

/-!
# Cutting a text at a word

A text is cut at a word from the left: before the first occurrence stands one piece, and the search
goes on behind that occurrence, until the word does not occur any more. Occurrences that overlap one
that was cut at are not seen. There is one way to do this for a word that is not empty, and it is
what splitting does. Joined with the word in between, the pieces are the text again.
-/
namespace ResourceGraph.Text

variable {word text before after front back piece : List Char} {pieces others : List (List Char)}
  {c : Char}

/-! ## The first occurrence -/

/-- Between these two parts the word occurs, and it does not occur any earlier. -/
def ComesFirst (word before after : List Char) : Prop :=
  ∀ front back, before ++ word ++ after = front ++ word ++ back → before.length ≤ front.length

theorem comesFirst_nil : ComesFirst word [] after := fun _ _ _ => Nat.zero_le _

theorem ComesFirst.cons (h : ComesFirst word before after)
    (hnot : ¬ word <+: c :: (before ++ word ++ after)) : ComesFirst word (c :: before) after := by
  intro front back heq
  cases front with
  | nil => exact absurd ⟨back, heq.symm⟩ hnot
  | cons d front =>
    have htail : before ++ word ++ after = front ++ word ++ back := (List.cons.inj heq).2
    exact Nat.succ_le_succ (h front back htail)

theorem ComesFirst.unique (h : ComesFirst word before after) (h' : ComesFirst word front back)
    (heq : before ++ word ++ after = front ++ word ++ back) : before = front ∧ after = back := by
  have hlength : before.length = front.length :=
    Nat.le_antisymm (h front back heq) (h' before after heq.symm)
  have hparts := List.append_inj heq (by simp [hlength])
  exact ⟨List.append_inj_left' hparts.1 rfl, hparts.2⟩

/-- A word that is not empty does not occur before it comes first. -/
theorem ComesFirst.not_occurs (h : ComesFirst word before after) (hword : word ≠ []) :
    ¬ word <:+: before := by
  rintro ⟨front, back, rfl⟩
  have hle := h front (back ++ word ++ after) (by simp)
  have hpos := List.length_pos_iff.2 hword
  simp only [List.length_append] at hle
  omega

/-! ## The pieces -/

/-- The pieces of the text if it is cut at each occurrence of the word, from the left. -/
inductive Cuts (word : List Char) : List Char → List (List Char) → Prop where
  | last {text : List Char} : ¬ word <:+: text → Cuts word text [text]
  | cut {before after : List Char} {pieces : List (List Char)} : ComesFirst word before after →
      Cuts word after pieces → Cuts word (before ++ word ++ after) (before :: pieces)

theorem cuts_iff : Cuts word text pieces ↔ ¬ word <:+: text ∧ pieces = [text] ∨
    ∃ before after rest, text = before ++ word ++ after ∧ pieces = before :: rest ∧
      ComesFirst word before after ∧ Cuts word after rest := by
  constructor
  · intro h
    cases h with
    | last hnot => exact .inl ⟨hnot, rfl⟩
    | cut hfirst hrest => exact .inr ⟨_, _, _, rfl, rfl, hfirst, hrest⟩
  · rintro (⟨hnot, rfl⟩ | ⟨before, after, rest, rfl, rfl, hfirst, hrest⟩)
    · exact .last hnot
    · exact .cut hfirst hrest

theorem Cuts.ne_nil (h : Cuts word text pieces) : pieces ≠ [] := by
  cases h with
  | last => exact List.cons_ne_nil _ _
  | cut => exact List.cons_ne_nil _ _

theorem Cuts.unique (h : Cuts word text pieces) (h' : Cuts word text others) :
    pieces = others := by
  induction h generalizing others with
  | last hnot =>
    rcases cuts_iff.1 h' with ⟨-, rfl⟩ | ⟨before, after, -, rfl, -⟩
    · rfl
    · exact absurd ⟨before, after, rfl⟩ hnot
  | cut hfirst _ ih =>
    rcases cuts_iff.1 h' with ⟨hnot, -⟩ | ⟨front, back, rest, heq, rfl, hfirst', hrest⟩
    · exact absurd ⟨_, _, rfl⟩ hnot
    · obtain ⟨rfl, rfl⟩ := hfirst.unique hfirst' heq
      rw [ih hrest]

theorem Cuts.join_eq (h : Cuts word text pieces) : join word pieces = text := by
  induction h with
  | last => rfl
  | cut _ hrest ih => rw [join_cons hrest.ne_nil, ih]

theorem Cuts.not_occurs (h : Cuts word text pieces) (hword : word ≠ []) :
    ∀ piece ∈ pieces, ¬ word <:+: piece := by
  induction h with
  | last hnot => exact List.forall_mem_singleton.2 hnot
  | cut hfirst _ ih => exact List.forall_mem_cons.2 ⟨hfirst.not_occurs hword, ih⟩

/-- A character that does not start the word joins the piece before its first occurrence. -/
theorem Cuts.cons (hnot : ¬ word <+: c :: text) (h : Cuts word text (piece :: pieces)) :
    Cuts word (c :: text) ((c :: piece) :: pieces) := by
  rcases cuts_iff.1 h with ⟨hnone, heq⟩ | ⟨before, after, rest, rfl, heq, hfirst, hrest⟩
  · obtain ⟨rfl, rfl⟩ := List.cons.inj heq
    exact .last fun hinfix => (List.infix_cons_iff.1 hinfix).elim hnot hnone
  · obtain ⟨rfl, rfl⟩ := List.cons.inj heq
    exact .cut (hfirst.cons hnot) hrest

/-! ## Splitting and joining -/

theorem cuts_splitAtWord (d : Char) (ds text : List Char) :
    Cuts (d :: ds) text (splitAtWord d ds text) := by
  fun_induction splitAtWord d ds text with
  | case1 => exact .last fun hinfix => List.cons_ne_nil d ds (List.eq_nil_of_infix_nil hinfix)
  | case2 c cs hprefix ih =>
    have htext : c :: cs = [] ++ (d :: ds) ++ cs.drop ds.length :=
      List.prefix_append_drop (List.isPrefixOf_iff_prefix.1 hprefix)
    rw [htext]
    exact .cut comesFirst_nil ih
  | case3 c cs hprefix piece pieces hpieces ih =>
    rw [hpieces] at ih
    exact ih.cons fun h => hprefix (List.isPrefixOf_iff_prefix.2 h)
  | case4 c cs hprefix hpieces ih => exact absurd hpieces ih.ne_nil

/-- A text is cut in one way only, which is how it is split. -/
theorem cuts_iff_eq_split (hword : word ≠ []) :
    Cuts word text pieces ↔ pieces = split word text := by
  obtain ⟨d, ds, rfl⟩ := List.exists_cons_of_ne_nil hword
  have hsplit : Cuts (d :: ds) text (split (d :: ds) text) := cuts_splitAtWord d ds text
  constructor
  · intro h
    exact h.unique hsplit
  · rintro rfl
    exact hsplit

theorem join_nil_eq_flatten : join [] pieces = pieces.flatten := by
  induction pieces with
  | nil => rfl
  | cons piece pieces ih =>
    cases pieces with
    | nil => simp [join]
    | cons =>
      rw [join_cons (List.cons_ne_nil _ _), ih, List.append_nil]
      rfl

theorem join_split (sep text : List Char) : join sep (split sep text) = text := by
  by_cases hsep : sep = []
  · subst hsep
    have hchars : (text.map ([·])).flatten = text := by
      rw [← List.flatMap_def, List.flatMap_singleton']
    rw [join_nil_eq_flatten, split]
    simp [hchars]
  · exact ((cuts_iff_eq_split hsep).2 rfl).join_eq

end ResourceGraph.Text
