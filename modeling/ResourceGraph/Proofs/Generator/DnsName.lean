import ResourceGraph.Generator.Basic
import ResourceGraph.Proofs.Text.Percent

/-!
# Spellings of a domain name

A name may be spelt in capitals and with dots at its end, and every spelling has the same normal
form. Blanks are another matter: they are trimmed before the dots, so that a dot behind a blank
keeps the blank. What is claimed of spellings is therefore claimed of names without blanks.
-/
namespace ResourceGraph

namespace Text

variable {c : Char} {cs : List Char} {p : Char → Bool}

/-! ## Lower case of ASCII -/

theorem toLower_eq_or_lt (c : Char) : c.toLower = c ∨ c.toNat < 128 := by
  unfold Char.toLower
  split
  · next h =>
    refine .inr (Nat.lt_of_le_of_lt (UInt32.le_iff_toNat_le.1 h.2) ?_)
    decide
  · exact .inl rfl

/-- No letter is a blank. -/
theorem isBlank_toLower : isBlank c.toLower = isBlank c := by
  obtain h | h := toLower_eq_or_lt c
  · rw [h]
  · exact of_ascii (P := fun c => isBlank c.toLower = isBlank c) (by decide +kernel) h

theorem toLower_eq_dot_iff : c.toLower = '.' ↔ c = '.' := by
  obtain h | h := toLower_eq_or_lt c
  · rw [h]
  · exact of_ascii (P := fun c => c.toLower = '.' ↔ c = '.') (by decide +kernel) h

theorem lowerAscii_append (s t : String) : lowerAscii (s ++ t) = lowerAscii s ++ lowerAscii t := by
  apply String.toList_injective
  simp [lowerAscii, String.toList_append]

/-! ## Dots and blanks at the ends -/

theorem dropEndWhile_sublist : (dropEndWhile p cs).Sublist cs := by
  rw [dropEndWhile, ← List.reverse_sublist, List.reverse_reverse]
  exact List.dropWhile_sublist _

theorem dropEndWhile_append_replicate (h : p c = true) (n : Nat) :
    dropEndWhile p (cs ++ List.replicate n c) = dropEndWhile p cs := by
  rw [dropEndWhile, List.reverse_append, List.reverse_replicate,
    List.dropWhile_append_of_pos (by simp [List.mem_replicate, h])]
  rfl

theorem dropEndWhile_append_of_ne_nil (h : dropEndWhile p cs ≠ []) (front : List Char) :
    dropEndWhile p (front ++ cs) = front ++ dropEndWhile p cs := by
  have hkept : (cs.reverse.dropWhile p).isEmpty = false := by
    simpa [dropEndWhile] using h
  rw [dropEndWhile, List.reverse_append, List.dropWhile_append, hkept]
  simp [dropEndWhile]

theorem dropEndWhile_map {f : Char → Char} (h : ∀ c, p (f c) = p c) :
    dropEndWhile p (cs.map f) = (dropEndWhile p cs).map f := by
  rw [dropEndWhile, ← List.map_reverse, List.dropWhile_map, ← List.map_reverse]
  simp [Function.comp_def, h, dropEndWhile]

theorem trimChars_eq_self (h : ∀ c ∈ cs, isBlank c = false) : trimChars cs = cs := by
  have htrim : trim (String.ofList cs) = String.ofList cs := by
    refine trim_eq_self_iff.2 ⟨fun c hc => h c ?_, fun c hc => h c ?_⟩
    · rw [String.toList_ofList] at hc
      exact List.mem_of_mem_head? hc
    · rw [String.toList_ofList] at hc
      exact List.mem_of_getLast? hc
  simpa [trim] using congrArg String.toList htrim

end Text

/-! ## The normal form -/

open Text

variable {s t : String}

theorem toList_normalizeDns : (normalizeDns s).toList =
    (dropEndWhile (· = '.') (trimChars s.toList)).map Char.toLower := by
  simp [normalizeDns, lowerAscii]

theorem normalizeDns_empty : normalizeDns "" = "" := by decide +kernel

/-- A name is in normal form if it has no blank at either end, no dot at its end and no capital. -/
theorem normalizeDns_eq_self_iff : normalizeDns s = s ↔
    trim s = s ∧ (∀ c ∈ s.toList.getLast?, c ≠ '.') ∧ lowerAscii s = s := by
  have hdots : (∀ c ∈ s.toList.getLast?, c ≠ '.') ↔ dropEndWhile (· = '.') s.toList = s.toList := by
    rw [dropEndWhile_eq_self_iff]
    simp
  rw [hdots]
  constructor
  · intro h
    have hlist := congrArg String.toList h
    rw [toList_normalizeDns] at hlist
    -- nothing is lost on the way, and so each step loses nothing
    have hlength := congrArg List.length hlist
    rw [List.length_map] at hlength
    have hdrop : (dropEndWhile (· = '.') (trimChars s.toList)).length ≤
        (trimChars s.toList).length := dropEndWhile_sublist.length_le
    have htrim : trimChars s.toList = s.toList :=
      (trimChars_sublist s.toList).eq_of_length_le (by omega)
    rw [htrim] at hlist hlength
    have hend : dropEndWhile (· = '.') s.toList = s.toList :=
      dropEndWhile_sublist.eq_of_length_le (by omega)
    rw [hend] at hlist
    refine ⟨?_, hend, ?_⟩
    · rw [trim, htrim, String.ofList_toList]
    · rw [lowerAscii, hlist, String.ofList_toList]
  · intro h
    obtain ⟨htrim, hend, hlower⟩ := h
    have hlist : trimChars s.toList = s.toList := by
      simpa [trim] using congrArg String.toList htrim
    rw [normalizeDns, hlist, hend, String.ofList_toList, hlower]

/-- The same letters, some of them in the other case, with any number of dots at the end. -/
def SpeltAlike (s t : String) : Prop :=
  ∃ letters letters' dots dots', s.toList = letters ++ List.replicate dots '.' ∧
    t.toList = letters' ++ List.replicate dots' '.' ∧
    letters.map Char.toLower = letters'.map Char.toLower

/-- No blank anywhere in the name. -/
def Unspaced (s : String) : Prop := ∀ c ∈ s.toList, isBlank c = false

instance : Decidable (Unspaced s) := List.decidableBAll (isBlank · = false) s.toList

theorem Unspaced.toList_normalizeDns (h : Unspaced s) :
    (normalizeDns s).toList = (dropEndWhile (· = '.') s.toList).map Char.toLower := by
  rw [ResourceGraph.toList_normalizeDns, trimChars_eq_self h]

/-- Another spelling has no blanks either. -/
theorem SpeltAlike.unspaced (h : SpeltAlike s t) (hs : Unspaced s) : Unspaced t := by
  obtain ⟨letters, letters', dots, dots', hsplit, hsplit', hletters⟩ := h
  intro c hc
  rw [hsplit'] at hc
  rcases List.mem_append.1 hc with hc | hc
  · have hmem : c.toLower ∈ letters.map Char.toLower := hletters ▸ List.mem_map_of_mem hc
    obtain ⟨d, hd, hlower⟩ := List.mem_map.1 hmem
    have hblank := hs d (by rw [hsplit]; exact List.mem_append_left _ hd)
    rw [← isBlank_toLower, ← hlower, isBlank_toLower, hblank]
  · rw [List.eq_of_mem_replicate hc]
    decide

/-- All spellings have one normal form. -/
theorem SpeltAlike.normalizeDns_eq (h : SpeltAlike s t) (hs : Unspaced s) :
    normalizeDns s = normalizeDns t := by
  apply String.toList_injective
  rw [hs.toList_normalizeDns, (h.unspaced hs).toList_normalizeDns]
  obtain ⟨letters, letters', dots, dots', hsplit, hsplit', hletters⟩ := h
  have hdot : ∀ c : Char, decide (c.toLower = '.') = decide (c = '.') := fun c =>
    decide_eq_decide.2 toLower_eq_dot_iff
  rw [hsplit, hsplit', dropEndWhile_append_replicate rfl, dropEndWhile_append_replicate rfl,
    ← dropEndWhile_map hdot, ← dropEndWhile_map hdot, hletters]

end ResourceGraph
