/-! Blank characters, as Unicode's white space property has them, and trimming. -/
namespace ResourceGraph.Text

def isBlank (c : Char) : Bool :=
  let n := c.toNat
  (9 ≤ n && n ≤ 13) || n == 0x20 || n == 0x85 || n == 0xA0 || n == 0x1680 ||
    (0x2000 ≤ n && n ≤ 0x200A) || n == 0x2028 || n == 0x2029 || n == 0x202F || n == 0x205F ||
    n == 0x3000

/-- The list without the elements at its end that satisfy `p`. -/
def dropEndWhile (p : Char → Bool) (cs : List Char) : List Char :=
  (cs.reverse.dropWhile p).reverse

def trimChars (cs : List Char) : List Char :=
  dropEndWhile isBlank (cs.dropWhile isBlank)

def trim (s : String) : String := String.ofList (trimChars s.toList)

theorem dropWhile_eq_self_iff {p : Char → Bool} {cs : List Char} :
    cs.dropWhile p = cs ↔ ∀ c ∈ cs.head?, p c = false := by
  constructor
  · intro h c hc
    have hfirst := List.head?_dropWhile_not p cs
    rw [h, hc] at hfirst
    simpa using hfirst
  · intro h
    cases cs with
    | nil => rfl
    | cons c cs => rw [List.dropWhile_cons, h c rfl]; rfl

theorem dropEndWhile_eq_self_iff {p : Char → Bool} {cs : List Char} :
    dropEndWhile p cs = cs ↔ ∀ c ∈ cs.getLast?, p c = false := by
  rw [dropEndWhile, List.reverse_eq_iff, dropWhile_eq_self_iff, List.head?_reverse]

/-- Nothing in front of a character that stays is dropped. -/
theorem dropEndWhile_append_cons {p : Char → Bool} {c : Char} (h : p c = false)
    (front rest : List Char) :
    dropEndWhile p (front ++ c :: rest) = front ++ c :: dropEndWhile p rest := by
  have hstay : (c :: front.reverse).dropWhile p = c :: front.reverse := by
    rw [dropWhile_eq_self_iff]
    simpa using h
  have hreverse : (front ++ c :: rest).reverse = rest.reverse ++ c :: front.reverse := by simp
  rw [dropEndWhile, hreverse, List.dropWhile_append, hstay]
  split
  · next hempty => simp [dropEndWhile, List.isEmpty_iff.1 hempty]
  · simp [dropEndWhile]

/-- A text stays as it is if there is no blank at either end. -/
theorem trim_eq_self_iff {s : String} :
    trim s = s ↔
      (∀ c ∈ s.toList.head?, isBlank c = false) ∧ ∀ c ∈ s.toList.getLast?, isBlank c = false := by
  rw [← dropWhile_eq_self_iff, ← dropEndWhile_eq_self_iff, trim, ← String.toList_inj,
    String.toList_ofList, trimChars]
  constructor
  · intro h
    have hfirst : s.toList.dropWhile isBlank = s.toList := by
      refine (List.dropWhile_sublist _).eq_of_length
        (Nat.le_antisymm (List.dropWhile_sublist _).length_le ?_)
      have hlength : (dropEndWhile isBlank (s.toList.dropWhile isBlank)).length ≤
          (s.toList.dropWhile isBlank).length := by
        rw [dropEndWhile, List.length_reverse]
        exact Nat.le_trans (List.dropWhile_sublist _).length_le (Nat.le_of_eq List.length_reverse)
      rwa [h] at hlength
    rw [hfirst] at h
    exact ⟨hfirst, h⟩
  · intro h
    rw [h.1, h.2]

theorem trimChars_sublist (cs : List Char) : (trimChars cs).Sublist cs := by
  have hend : (trimChars cs).Sublist (cs.dropWhile isBlank) := by
    rw [trimChars, dropEndWhile, ← List.reverse_sublist, List.reverse_reverse]
    exact List.dropWhile_sublist _
  exact hend.trans (List.dropWhile_sublist _)

/-- What has been trimmed has no blank at either end. -/
theorem trim_trim (s : String) : trim (trim s) = trim s := by
  rw [trim_eq_self_iff, trim, String.toList_ofList, trimChars, ← dropWhile_eq_self_iff,
    ← dropEndWhile_eq_self_iff]
  constructor
  · cases hfirst : s.toList.dropWhile isBlank with
    | nil => rfl
    | cons c cs =>
      have hc : isBlank c = false := by
        have hhead := List.head?_dropWhile_not isBlank s.toList
        rw [hfirst] at hhead
        simpa using hhead
      have hstay : dropEndWhile isBlank (c :: cs) = c :: dropEndWhile isBlank cs :=
        dropEndWhile_append_cons hc [] cs
      rw [hstay, List.dropWhile_cons, hc]
      rfl
  · rw [dropEndWhile_eq_self_iff, dropEndWhile, List.getLast?_reverse]
    intro c hc
    have hhead := List.head?_dropWhile_not isBlank (s.toList.dropWhile isBlank).reverse
    rw [hc] at hhead
    simpa using hhead

end ResourceGraph.Text
