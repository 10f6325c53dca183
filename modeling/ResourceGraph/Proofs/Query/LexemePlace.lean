import ResourceGraph.Proofs.Query.Lexing

/-!
# Where lexemes start

The lexemes of a text ascend, and each stands at the byte where its token is scanned. If there are
none because a character cannot be read, the fault is at the byte of that character.
-/
namespace ResourceGraph.Query

variable {offset : Nat} {cs : List Char} {ls : Rest} {fault : Fault}

theorem byteWidth_append (xs ys : List Char) :
    byteWidth (xs ++ ys) = byteWidth xs + byteWidth ys := by
  induction xs with
  | nil => exact (Nat.zero_add _).symm
  | cons x xs ih =>
    show x.utf8Size + byteWidth (xs ++ ys) = x.utf8Size + byteWidth xs + byteWidth ys
    rw [ih, Nat.add_assoc]

theorem byteWidth_cons_pos (c : Char) (cs : List Char) : 0 < byteWidth (c :: cs) :=
  Nat.lt_of_lt_of_le c.utf8Size_pos (Nat.le_add_right _ _)

theorem utf8ByteSize_eq_byteWidth (s : String) : s.utf8ByteSize = byteWidth s.toList := by
  have hwidth : ∀ cs, (String.ofList cs).utf8ByteSize = byteWidth cs := by
    intro cs
    induction cs with
    | nil => rfl
    | cons c cs ih =>
      rw [String.ofList_cons, String.utf8ByteSize_append, String.utf8ByteSize_singleton, ih]
      rfl
  rw [← hwidth, String.ofList_toList]

/-- In a text that starts at the byte `offset`, the character stands at `place` and the others
follow it. -/
def CharAt (offset : Nat) (cs : List Char) (place : Nat) (c : Char) (after : List Char) : Prop :=
  ∃ before, cs = before ++ c :: after ∧ place = offset + byteWidth before

namespace CharAt

variable {place : Nat} {c d : Char} {after : List Char}

theorem head : CharAt offset (c :: cs) offset c cs := ⟨[], rfl, rfl⟩

theorem of_drop {more : Nat}
    (h : CharAt (offset + byteWidth (c :: cs.take more)) (cs.drop more) place d after) :
    CharAt offset (c :: cs) place d after := by
  obtain ⟨before, hdrop, rfl⟩ := h
  refine ⟨c :: cs.take more ++ before, ?_, ?_⟩
  · rw [List.append_assoc, ← hdrop, List.cons_append, List.take_append_drop]
  · rw [byteWidth_append, Nat.add_assoc]

theorem le (h : CharAt offset cs place c after) : offset ≤ place := by
  obtain ⟨before, -, rfl⟩ := h
  exact Nat.le_add_right _ _

theorem lt (h : CharAt offset cs place c after) : place < offset + byteWidth cs := by
  obtain ⟨before, rfl, rfl⟩ := h
  rw [byteWidth_append]
  have := byteWidth_cons_pos c after
  omega

theorem isValid {s : String} (h : CharAt 0 s.toList place c after) :
    String.Pos.Raw.IsValid s ⟨place⟩ := by
  obtain ⟨before, htext, rfl⟩ := h
  refine String.Pos.Raw.isValid_iff_exists_append.2
    ⟨String.ofList before, String.ofList (c :: after), ?_, ?_⟩
  · rw [← String.ofList_append, ← htext, String.ofList_toList]
  · rw [String.rawEndPos, utf8ByteSize_eq_byteWidth, String.toList_ofList, Nat.zero_add]

end CharAt

/-- A lexeme stands where its token is scanned. -/
theorem charAt_of_mem_lexFrom (h : lexFrom offset cs = .ok ls) : ∀ l ∈ ls,
    ∃ c after more, CharAt offset cs l.offset c after ∧
      scanToken c after = .ok (some l.token, more) := by
  fun_induction lexFrom offset cs generalizing ls with
  | case1 =>
    cases h
    exact List.forall_mem_nil _
  | case2 => cases h
  | case3 offset c cs token more hscan ih =>
    rw [bind_eq_ok_iff] at h
    obtain ⟨lexemes, hlexemes, h⟩ := h
    have hrest : ∀ l ∈ lexemes, ∃ d after k, CharAt offset (c :: cs) l.offset d after ∧
        scanToken d after = .ok (some l.token, k) := by
      intro l hl
      obtain ⟨d, after, k, hplace, hscan'⟩ := ih hlexemes l hl
      exact ⟨d, after, k, hplace.of_drop, hscan'⟩
    cases token with
    | none =>
      cases h
      exact hrest
    | some token =>
      cases h
      exact List.forall_mem_cons.2 ⟨⟨c, cs, more, .head, hscan⟩, hrest⟩

theorem pairwise_offset_of_lexFrom (h : lexFrom offset cs = .ok ls) :
    ls.Pairwise fun l m => l.offset < m.offset := by
  fun_induction lexFrom offset cs generalizing ls with
  | case1 =>
    cases h
    exact .nil
  | case2 => cases h
  | case3 offset c cs token more hscan ih =>
    rw [bind_eq_ok_iff] at h
    obtain ⟨lexemes, hlexemes, h⟩ := h
    have hrest := ih hlexemes
    cases token with
    | none =>
      cases h
      exact hrest
    | some token =>
      cases h
      refine List.pairwise_cons.2 ⟨fun m hm => ?_, hrest⟩
      obtain ⟨d, after, k, hplace, -⟩ := charAt_of_mem_lexFrom hlexemes m hm
      have hle := hplace.le
      have hpos := byteWidth_cons_pos c (cs.take more)
      show offset < m.offset
      omega

/-- A text without lexemes has a character where no token can be scanned. -/
theorem charAt_of_lexFrom_error (h : lexFrom offset cs = .error fault) :
    ∃ c after, CharAt offset cs fault.offset c after ∧ scanToken c after = .error fault.cause := by
  fun_induction lexFrom offset cs with
  | case1 => cases h
  | case2 offset c cs cause hscan =>
    cases h
    exact ⟨c, cs, .head, hscan⟩
  | case3 offset c cs token more hscan ih =>
    cases hrest : lexFrom (offset + byteWidth (c :: cs.take more)) (cs.drop more) with
    | ok lexemes =>
      rw [hrest] at h
      cases h
    | error =>
      rw [hrest] at h
      cases h
      obtain ⟨d, after, hplace, hscan'⟩ := ih hrest
      exact ⟨d, after, hplace.of_drop, hscan'⟩

end ResourceGraph.Query
