import ResourceGraph.Proofs.Query.Lexing
import ResourceGraph.Proofs.Text.Replace

/-!
# Raw literals

Between two quotes a text is written as it is, but with a backslash before each quote and each
backslash. The text is read back by two replacements, one after the other. On what can stand between
the quotes they do the same as one pass from left to right: there a quote always follows a backslash
of its own, so that the first replacement takes no half of a pair.
-/
namespace ResourceGraph.Query

/-- The text with a backslash before each backslash and each quote. -/
def escapeRaw : List Char → List Char
  | [] => []
  | c :: cs => if c = '\\' ∨ c = '\'' then '\\' :: c :: escapeRaw cs else c :: escapeRaw cs

/-- The raw literal that writes the text. -/
def rawLiteral (s : String) : String := String.ofList ('\'' :: (escapeRaw s.toList ++ ['\'']))

/-- One pass from left to right. A backslash is dropped before a quote or another backslash, and
kept before anything else. -/
def unescapeOnce : List Char → List Char
  | '\\' :: '\'' :: cs => '\'' :: unescapeOnce cs
  | '\\' :: '\\' :: cs => '\\' :: unescapeOnce cs
  | c :: cs => c :: unescapeOnce cs
  | [] => []

/-- What can stand between two quotes: a backslash belongs to the character after it, and no quote
stands without one. -/
inductive RawText : List Char → Prop
  | nil : RawText []
  | pair {cs : List Char} (c : Char) : RawText cs → RawText ('\\' :: c :: cs)
  | bare {c : Char} {cs : List Char} : c ≠ '\\' → c ≠ '\'' → RawText cs → RawText (c :: cs)

/-! ## The scanner -/

theorem rawText_of_delimited? {cs raw : List Char} (h : delimited? '\'' cs = some raw) :
    RawText raw := by
  fun_induction delimited? '\'' cs generalizing raw with
  | case1 c cs ih =>
    obtain ⟨raw, hraw, rfl⟩ := Option.map_eq_some_iff.1 h
    exact .pair c (ih hraw)
  | case2 =>
    cases h
    exact .nil
  | case3 c cs hescape hne ih =>
    obtain ⟨raw, hraw, rfl⟩ := Option.map_eq_some_iff.1 h
    refine .bare ?_ hne (ih hraw)
    rintro rfl
    cases cs with
    | nil => cases hraw
    | cons d cs => exact hescape d cs rfl rfl
  | case4 => cases h

theorem delimited?_of_rawText {raw : List Char} (h : RawText raw) (rest : List Char) :
    delimited? '\'' (raw ++ '\'' :: rest) = some raw := by
  induction h with
  | nil => rw [List.nil_append, delimited?_cons (by decide), if_pos rfl]
  | pair c _ ih => rw [List.cons_append, List.cons_append, delimited?, ih]; rfl
  | bare hne hquote _ ih => rw [List.cons_append, delimited?_cons hne, if_neg hquote, ih]; rfl

theorem rawText_escapeRaw (cs : List Char) : RawText (escapeRaw cs) := by
  induction cs with
  | nil => exact .nil
  | cons c cs ih =>
    rw [escapeRaw]
    split
    · exact .pair c ih
    · next h =>
      rw [not_or] at h
      exact .bare h.1 h.2 ih

/-! ## Two replacements and one pass -/

theorem unescapeOnce_cons {c : Char} (h : c ≠ '\\') (cs : List Char) :
    unescapeOnce (c :: cs) = c :: unescapeOnce cs := by
  rw [unescapeOnce]
  · rintro _ rfl
    exact absurd rfl h
  · rintro _ rfl
    exact absurd rfl h

theorem unescapeOnce_escapeRaw (cs : List Char) : unescapeOnce (escapeRaw cs) = cs := by
  induction cs with
  | nil => rfl
  | cons c cs ih =>
    rw [escapeRaw]
    split
    · next h =>
      obtain rfl | rfl := h <;> rw [unescapeOnce, ih]
    · next h =>
      rw [not_or] at h
      rw [unescapeOnce_cons h.1, ih]

/-- The first replacement: a backslash before a quote is dropped. -/
def unescapeQuotes (raw : List Char) : List Char := Text.replace ['\\', '\''] ['\''] raw

/-- No half of a pair of backslashes is taken, since no quote stands right after the pair. -/
theorem unescapeQuotes_pair {cs : List Char} (h : RawText cs) :
    unescapeQuotes ('\\' :: '\\' :: cs) = '\\' :: '\\' :: unescapeQuotes cs := by
  have hsecond : unescapeQuotes ('\\' :: cs) = '\\' :: unescapeQuotes cs := by
    cases h with
    | nil =>
      rw [unescapeQuotes, Text.replace_of_not_prefix (by decide)]
      rfl
    | pair c => exact Text.replace_pair_of_ne (by decide)
    | bare _ hquote => exact Text.replace_pair_of_ne hquote
  rw [← hsecond]
  exact Text.replace_pair_of_ne (by decide)

theorem unescapeRaw_eq_unescapeOnce {raw : List Char} (h : RawText raw) :
    unescapeRaw raw = unescapeOnce raw := by
  show Text.replace ['\\', '\\'] ['\\'] (unescapeQuotes raw) = unescapeOnce raw
  induction h with
  | nil => rw [unescapeQuotes, Text.replace_nil, Text.replace_nil, unescapeOnce]
  | @pair cs c hcs ih =>
    by_cases hquote : c = '\''
    · subst hquote
      rw [unescapeQuotes, Text.replace_pair, List.singleton_append,
        Text.replace_cons_of_ne (by decide), unescapeOnce]
      exact congrArg _ ih
    · by_cases hslash : c = '\\'
      · subst hslash
        rw [unescapeQuotes_pair hcs, Text.replace_pair, List.singleton_append, ih, unescapeOnce]
      · have hfirst : unescapeQuotes ('\\' :: c :: cs) = '\\' :: c :: unescapeQuotes cs := by
          rw [unescapeQuotes, Text.replace_pair_of_ne hquote, Text.replace_cons_of_ne hslash]
          rfl
        have honce : unescapeOnce ('\\' :: c :: cs) = '\\' :: c :: unescapeOnce cs := by
          rw [unescapeOnce, unescapeOnce_cons hslash]
          · exact fun _ _ heq => hquote (List.cons.inj heq).1
          · exact fun _ _ heq => hslash (List.cons.inj heq).1
        rw [hfirst, honce, Text.replace_pair_of_ne hslash, Text.replace_cons_of_ne hslash, ih]
  | @bare c cs hslash _ _ ih =>
    rw [unescapeQuotes, Text.replace_cons_of_ne hslash, Text.replace_cons_of_ne hslash,
      unescapeOnce_cons hslash]
    exact congrArg _ ih

/-! ## Literals -/

theorem scanToken_raw {cs raw : List Char} (h : delimited? '\'' cs = some raw) :
    scanToken '\'' cs =
      .ok (some (.literal (.str (String.ofList (unescapeOnce raw)))), raw.length + 1) := by
  rw [← unescapeRaw_eq_unescapeOnce (rawText_of_delimited? h)]
  simp only [scanToken, scanDelimited, h]

theorem parse_rawLiteral (s : String) : parse (rawLiteral s) = .ok (.literal (.str s)) := by
  have hscan := scanToken_raw (delimited?_of_rawText (rawText_escapeRaw s.toList) [])
  rw [unescapeOnce_escapeRaw, String.ofList_toList] at hscan
  have hend : Lexes ((escapeRaw s.toList ++ ['\'']).drop ((escapeRaw s.toList).length + 1)) [] := by
    rw [List.drop_eq_nil_of_le (by simp)]
    exact .nil
  refine parse_eq_ok_iff.2 ⟨[.literal (.str s)], ?_, ?_⟩
  · rw [rawLiteral, String.toList_ofList]
    exact .cons hscan hend
  · exact .expr (.atom rfl) (.stop (Nat.le_refl 0))

/-- Every text is read back from the raw literal that writes it. Whatever stands between two quotes
is read by one pass from left to right, which is what the two replacements come to. -/
theorem ofText_rawLiteral :
    (∀ s : String, Query.ofText (rawLiteral s) = .ok ⟨rawLiteral s, .literal (.str s)⟩) ∧
    ∀ cs raw : List Char, delimited? '\'' cs = some raw →
      unescapeRaw raw = unescapeOnce raw ∧
      scanToken '\'' cs =
        .ok (some (.literal (.str (String.ofList (unescapeOnce raw)))), raw.length + 1) := by
  refine ⟨fun s => ?_, fun cs raw h =>
    ⟨unescapeRaw_eq_unescapeOnce (rawText_of_delimited? h), scanToken_raw h⟩⟩
  have htrim : Text.trim (rawLiteral s) = rawLiteral s := by
    rw [Text.trim_eq_self_iff, rawLiteral, String.toList_ofList, ← List.cons_append,
      List.getLast?_concat]
    exact ⟨by rintro _ ⟨⟩; rfl, by rintro _ ⟨⟩; rfl⟩
  exact ofText_eq_ok_of_parse htrim (parse_rawLiteral s)

/-- A pair of backslashes, a quote with its own, and a backslash that stays. -/
theorem ofText_rawLiteral_mixed :
    delimited? '\'' "\\\\\\'\\n' == a".toList = some "\\\\\\'\\n".toList ∧
    scanToken '\'' "\\\\\\'\\n' == a".toList = .ok (some (.literal (.str "\\'\\n")), 7) := by
  have hraw : delimited? '\'' "\\\\\\'\\n' == a".toList = some "\\\\\\'\\n".toList := by cbv
  have honce : String.ofList (unescapeOnce "\\\\\\'\\n".toList) = "\\'\\n" := by cbv
  have hscan := (ofText_rawLiteral.2 _ _ hraw).2
  rw [honce] at hscan
  exact ⟨hraw, hscan⟩

end ResourceGraph.Query
