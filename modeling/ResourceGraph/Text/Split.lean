/-! Cutting text at the occurrences of a separator, and joining it again. -/
namespace ResourceGraph.Text

/-- The pieces between the occurrences of one character. -/
def splitChar (sep : Char) : List Char → List (List Char)
  | [] => [[]]
  | c :: cs =>
    if c = sep then [] :: splitChar sep cs
    else match splitChar sep cs with
      | piece :: pieces => (c :: piece) :: pieces
      | [] => [[c]]

theorem splitChar_of_not_mem {sep : Char} {cs : List Char} (h : sep ∉ cs) :
    splitChar sep cs = [cs] := by
  induction cs with
  | nil => rfl
  | cons c cs ih =>
    rw [List.mem_cons, not_or] at h
    rw [splitChar, if_neg (Ne.symm h.1), ih h.2]

/-- Up to the first separator goes one piece. -/
theorem splitChar_append {sep : Char} {piece : List Char} (h : sep ∉ piece) (rest : List Char) :
    splitChar sep (piece ++ sep :: rest) = piece :: splitChar sep rest := by
  induction piece with
  | nil => rw [List.nil_append, splitChar, if_pos rfl]
  | cons c cs ih =>
    rw [List.mem_cons, not_or] at h
    rw [List.cons_append, splitChar, if_neg (Ne.symm h.1), ih h.2]

/-- The pieces between the occurrences of `d :: ds`, found from the left and not overlapping. -/
def splitAtWord (d : Char) (ds : List Char) : List Char → List (List Char)
  | [] => [[]]
  | c :: cs =>
    if (d :: ds).isPrefixOf (c :: cs) then
      [] :: splitAtWord d ds (cs.drop ds.length)
    else match splitAtWord d ds cs with
      | piece :: pieces => (c :: piece) :: pieces
      | [] => [[c]]
termination_by cs => cs.length
decreasing_by all_goals (simp only [List.length_cons, List.length_drop]; omega)

/-- The pieces of `text` at `sep`. The empty separator occurs at both ends and between any two
characters. -/
def split (sep text : List Char) : List (List Char) :=
  match sep with
  | [] => [] :: (text.map ([·]) ++ [[]])
  | d :: ds => splitAtWord d ds text

def join (glue : List Char) : List (List Char) → List Char
  | [] => []
  | [piece] => piece
  | piece :: pieces => piece ++ glue ++ join glue pieces

/-- The text with every occurrence of `word` replaced. -/
def replace (word image text : List Char) : List Char := join image (split word text)

/-- Whether `word` occurs in the text. -/
def occursIn (word : List Char) : List Char → Bool
  | [] => word.isEmpty
  | c :: cs => word.isPrefixOf (c :: cs) || occursIn word cs

/-- The part before the first `sep` and the part after it, if there is one. -/
def cutAt? (sep : Char) : List Char → Option (List Char × List Char)
  | [] => none
  | c :: cs =>
    if c = sep then some ([], cs)
    else (cutAt? sep cs).map fun (before, after) => (c :: before, after)

theorem cutAt?_append {sep : Char} {piece : List Char} (h : sep ∉ piece) (rest : List Char) :
    cutAt? sep (piece ++ sep :: rest) = some (piece, rest) := by
  induction piece with
  | nil => rw [List.nil_append, cutAt?, if_pos rfl]
  | cons c cs ih =>
    rw [List.mem_cons, not_or] at h
    rw [List.cons_append, cutAt?, if_neg (Ne.symm h.1), ih h.2]
    rfl

theorem cutAt?_eq_some_iff {sep : Char} {cs before after : List Char} :
    cutAt? sep cs = some (before, after) ↔ cs = before ++ sep :: after ∧ sep ∉ before := by
  constructor
  · intro h
    induction cs generalizing before with
    | nil => cases h
    | cons c cs ih =>
      rw [cutAt?] at h
      split at h
      · next hc =>
        cases h
        exact ⟨by rw [hc]; rfl, List.not_mem_nil⟩
      · next hc =>
        obtain ⟨⟨front, rest⟩, hcut, heq⟩ := Option.map_eq_some_iff.1 h
        cases heq
        obtain ⟨rfl, hfront⟩ := ih hcut
        exact ⟨rfl, fun hmem => (List.mem_cons.1 hmem).elim (fun heq => hc heq.symm) hfront⟩
  · rintro ⟨rfl, hbefore⟩
    exact cutAt?_append hbefore after

end ResourceGraph.Text
