import ResourceGraph.Proofs.Fallible
import ResourceGraph.Proofs.Query.Reading
import ResourceGraph.Query.Basic

/-!
# The tokens of joined texts

A text that ends before a blank or a closing parenthesis has the same tokens whatever stands after
these. Offsets play no part: a query is read from its tokens. Those of a given text can be computed.
-/
namespace ResourceGraph.Query

/-- The tokens of the text, in order. -/
inductive Lexes : List Char → List Token → Prop
  | nil : Lexes [] []
  | cons {c : Char} {cs : List Char} {token : Option Token} {more : Nat} {ts : List Token} :
      scanToken c cs = .ok (token, more) → Lexes (cs.drop more) ts →
      Lexes (c :: cs) (token.toList ++ ts)

theorem lexes_of_lexFrom {offset : Nat} {cs : List Char} {ls : List Lexeme}
    (h : lexFrom offset cs = .ok ls) : Lexes cs (tokens ls) := by
  fun_induction lexFrom offset cs generalizing ls with
  | case1 =>
    cases h
    exact .nil
  | case2 => exact nomatch h
  | case3 offset c cs token more hscan ih =>
    rw [bind_eq_ok_iff] at h
    obtain ⟨lexemes, hlexemes, h⟩ := h
    have hrest := ih hlexemes
    cases token with
    | none =>
      cases h
      exact .cons hscan hrest
    | some token =>
      cases h
      exact .cons hscan hrest

theorem lexFrom_cons {offset : Nat} {c : Char} {cs : List Char} {token : Option Token} {more : Nat}
    {ls : List Lexeme} (hscan : scanToken c cs = .ok (token, more))
    (hrest : lexFrom (offset + byteWidth (c :: cs.take more)) (cs.drop more) = .ok ls) :
    lexFrom offset (c :: cs) = .ok (token.toList.map (Lexeme.mk offset) ++ ls) := by
  rw [lexFrom, hscan]
  simp only [hrest]
  cases token with
  | none => rfl
  | some token => rfl

theorem exists_lexFrom_of_lexes {cs : List Char} {ts : List Token} (h : Lexes cs ts)
    (offset : Nat) : ∃ ls, lexFrom offset cs = .ok ls ∧ tokens ls = ts := by
  induction h generalizing offset with
  | nil => exact ⟨[], by rw [lexFrom], rfl⟩
  | @cons c cs token more ts hscan _ ih =>
    obtain ⟨ls, hls, rfl⟩ := ih (offset + byteWidth (c :: cs.take more))
    exact ⟨_, lexFrom_cons hscan hls, by simp [tokens, Function.comp_def]⟩

/-! ## Single tokens -/

/-- A character that no token goes on with. -/
def endsToken (c : Char) : Bool :=
  !(isWordChar c || c = ']' || c = '?' || c = '|' || c = '&' || c = '=')

theorem takeWhile_append {p : Char → Bool} {d : Char} (hd : p d = false) (cs rest : List Char) :
    (cs ++ d :: rest).takeWhile p = cs.takeWhile p := by
  induction cs with
  | nil => rw [List.nil_append, List.takeWhile_cons, hd]; rfl
  | cons c cs ih =>
    rw [List.cons_append, List.takeWhile_cons, List.takeWhile_cons, ih]

theorem delimited?_cons {close c : Char} (hc : c ≠ '\\') (cs : List Char) :
    delimited? close (c :: cs) =
      if c = close then some [] else (delimited? close cs).map (c :: ·) := by
  cases cs with
  | nil => rw [delimited?]; simp
  | cons d cs => rw [delimited?]; simp [hc]

theorem delimited?_append {close : Char} (hclose : close ≠ '\\') {cs raw : List Char}
    (h : delimited? close cs = some raw) (rest : List Char) :
    delimited? close (cs ++ rest) = some raw ∧ raw.length < cs.length := by
  fun_induction delimited? close cs generalizing raw with
  | case1 c cs ih =>
    obtain ⟨raw, hraw, rfl⟩ := Option.map_eq_some_iff.1 h
    obtain ⟨happend, hlength⟩ := ih hraw
    exact ⟨by simp [delimited?, happend], by simpa using hlength⟩
  | case2 cs hescape =>
    cases h
    exact ⟨by rw [List.cons_append, delimited?_cons hclose, if_pos rfl], by simp⟩
  | case3 c cs hescape hne ih =>
    obtain ⟨raw, hraw, rfl⟩ := Option.map_eq_some_iff.1 h
    obtain ⟨happend, hlength⟩ := ih hraw
    have hc : c ≠ '\\' := by
      rintro rfl
      cases cs with
      | nil => exact nomatch hraw
      | cons d cs => exact hescape d cs rfl rfl
    exact ⟨by rw [List.cons_append, delimited?_cons hc, if_neg hne, happend]; rfl,
      by simpa using hlength⟩
  | case4 => exact nomatch h

theorem scanDelimited_append {close : Char} (hclose : close ≠ '\\') {cs : List Char}
    {unterminated invalid : SyntaxFault} {read? : List Char → Option Token} {t : Option Token}
    {more : Nat} (h : scanDelimited close cs unterminated invalid read? = .ok (t, more))
    (rest : List Char) :
    scanDelimited close (cs ++ rest) unterminated invalid read? = .ok (t, more) ∧
      more ≤ cs.length := by
  unfold scanDelimited at h ⊢
  cases hraw : delimited? close cs with
  | none => simp [hraw] at h
  | some raw =>
    obtain ⟨happend, hlength⟩ := delimited?_append hclose hraw rest
    rw [hraw] at h
    rw [happend]
    refine ⟨h, ?_⟩
    cases htoken : read? raw with
    | none => simp [htoken] at h
    | some token =>
      simp only [htoken, Except.ok.injEq, Prod.mk.injEq] at h
      omega

theorem scanPair_append {cs : List Char} {second c d : Char} {double : Token}
    {single t : Option Token} {more : Nat} (h : scanPair cs second double single c = .ok (t, more))
    (hd : d ≠ second) (rest : List Char) :
    scanPair (cs ++ d :: rest) second double single c = .ok (t, more) ∧ more ≤ cs.length := by
  unfold scanPair at h ⊢
  cases cs with
  | nil =>
    cases single with
    | none => exact nomatch h
    | some token =>
      cases h
      exact ⟨by simp [hd], Nat.le_refl 0⟩
  | cons a cs =>
    refine ⟨h, ?_⟩
    split at h
    · cases h
      simp
    · cases single with
      | none => exact nomatch h
      | some token =>
        cases h
        exact Nat.zero_le _

theorem more_of_scanNumber {c : Char} {digits : List Char} {t : Option Token} {more : Nat}
    (h : scanNumber c digits = .ok (t, more)) : more = digits.length := by
  unfold scanNumber at h
  cases hvalue : (if c = '-' then wholeNumber? true digits
      else wholeNumber? false (c :: digits)) with
  | none => simp [hvalue] at h
  | some n =>
    simp only [hvalue, Except.ok.injEq, Prod.mk.injEq] at h
    exact h.2.symm

/-- A number or a name, as it is read where no other token starts. -/
def scanWord (c : Char) (cs : List Char) : Except SyntaxFault (Option Token × Nat) :=
  if c.isDigit || (c = '-' && (cs.head?.any Char.isDigit)) then
    scanNumber c (cs.takeWhile Char.isDigit)
  else if isLetter c then
    .ok (some (.identifier (String.ofList (c :: cs.takeWhile isWordChar))),
      (cs.takeWhile isWordChar).length)
  else .error (.unexpectedCharacter c)

theorem scanWord_append {c d : Char} {cs : List Char} {t : Option Token} {more : Nat}
    (h : scanWord c cs = .ok (t, more)) (hd : isWordChar d = false) (rest : List Char) :
    scanWord c (cs ++ d :: rest) = .ok (t, more) ∧ more ≤ cs.length := by
  have hdigit : d.isDigit = false := by
    simp only [isWordChar, Char.isAlphanum, Bool.or_eq_false_iff] at hd
    exact hd.1.2
  have hhead : (cs ++ d :: rest).head?.any Char.isDigit = cs.head?.any Char.isDigit := by
    cases cs with
    | nil => exact hdigit
    | cons a cs => rfl
  unfold scanWord at h ⊢
  rw [hhead, takeWhile_append hdigit, takeWhile_append hd]
  refine ⟨h, ?_⟩
  split at h
  · rw [more_of_scanNumber h]
    exact (List.takeWhile_sublist _).length_le
  split at h
  · cases h
    exact (List.takeWhile_sublist _).length_le
  · exact nomatch h

/-- The token at the front is the same whatever follows a character that ends it. -/
theorem scanToken_append {c d : Char} {cs : List Char} {t : Option Token} {more : Nat}
    (h : scanToken c cs = .ok (t, more)) (hd : endsToken d = true) (rest : List Char) :
    scanToken c (cs ++ d :: rest) = .ok (t, more) ∧ more ≤ cs.length := by
  simp only [endsToken, Bool.not_eq_true', Bool.or_eq_false_iff, decide_eq_false_iff_not] at hd
  obtain ⟨⟨⟨⟨⟨hword, hbracket⟩, hquestion⟩, hbar⟩, hand⟩, heq⟩ := hd
  unfold scanToken at h
  split at h
  -- the bracket with its two pairs
  case h_15 =>
    split at h
    · next hhead =>
      cases h
      cases cs with
      | nil => exact nomatch hhead
      | cons a cs => exact ⟨by simp [scanToken, Option.some.inj hhead], by simp⟩
    · next hhead =>
      obtain ⟨happend, hmore⟩ := scanPair_append h hquestion rest
      refine ⟨?_, hmore⟩
      have hne : (cs ++ d :: rest).head? ≠ some ']' := by
        cases cs <;> simp_all
      rw [← happend]
      exact if_neg hne
  case h_16 => exact scanPair_append h hbar rest
  case h_17 => exact scanPair_append h hand rest
  case h_18 => exact scanPair_append h heq rest
  case h_19 => exact scanPair_append h heq rest
  case h_20 => exact scanPair_append h heq rest
  case h_21 => exact scanPair_append h heq rest
  case h_22 => exact scanDelimited_append (by decide) h _
  case h_23 => exact scanDelimited_append (by decide) h _
  case h_24 => exact scanDelimited_append (by decide) h _
  case h_25 =>
    have hscan (cs : List Char) : scanToken c cs = scanWord c cs := by
      unfold scanToken scanWord
      split <;> first | rfl | contradiction
    rw [hscan]
    exact scanWord_append h hword rest
  all_goals
    cases h
    exact ⟨rfl, Nat.zero_le _⟩

/-- A token that a text can have: not its end, and no number of more than 64 bits. -/
def Token.Written : Token → Prop
  | .number n => -Int.pow 2 63 ≤ n ∧ n < Int.pow 2 63
  | .eof => False
  | _ => True

theorem written_of_scanPair {cs : List Char} {second c : Char} {double t : Token}
    {single : Option Token} {more : Nat}
    (h : scanPair cs second double single c = .ok (some t, more)) (hdouble : double.Written)
    (hsingle : ∀ token, single = some token → token.Written) : t.Written := by
  unfold scanPair at h
  split at h
  · cases h
    exact hdouble
  · cases single with
    | none => exact nomatch h
    | some token =>
      cases h
      exact hsingle _ rfl

theorem written_of_scanDelimited {close : Char} {cs : List Char}
    {unterminated invalid : SyntaxFault} {read? : List Char → Option Token} {t : Token} {more : Nat}
    (h : scanDelimited close cs unterminated invalid read? = .ok (some t, more))
    (hread : ∀ raw token, read? raw = some token → token.Written) : t.Written := by
  unfold scanDelimited at h
  split at h
  · exact nomatch h
  split at h
  · next hread' =>
    cases h
    exact hread _ _ hread'
  · exact nomatch h

theorem bounds_of_wholeNumber? {negative : Bool} {digits : List Char} {n : Int}
    (h : wholeNumber? negative digits = some n) : -Int.pow 2 63 ≤ n ∧ n < Int.pow 2 63 := by
  rw [wholeNumber?, Option.ite_none_right_eq_some, Bool.and_eq_true, decide_eq_true_eq,
    decide_eq_true_eq, Option.some.injEq] at h
  exact h.2 ▸ h.1

theorem written_of_scanNumber {c : Char} {digits : List Char} {t : Token} {more : Nat}
    (h : scanNumber c digits = .ok (some t, more)) : t.Written := by
  unfold scanNumber at h
  cases hvalue : (if c = '-' then wholeNumber? true digits
      else wholeNumber? false (c :: digits)) with
  | none => simp [hvalue] at h
  | some n =>
    simp only [hvalue, Except.ok.injEq, Prod.mk.injEq, Option.some.injEq] at h
    rw [← h.1]
    split at hvalue
    · exact bounds_of_wholeNumber? hvalue
    · exact bounds_of_wholeNumber? hvalue

theorem written_of_scanWord {c : Char} {cs : List Char} {t : Token} {more : Nat}
    (h : scanWord c cs = .ok (some t, more)) : t.Written := by
  unfold scanWord at h
  split at h
  · exact written_of_scanNumber h
  split at h
  · cases h
    trivial
  · exact nomatch h

theorem written_of_scanToken {c : Char} {cs : List Char} {t : Token} {more : Nat}
    (h : scanToken c cs = .ok (some t, more)) : t.Written := by
  unfold scanToken at h
  split at h
  case h_1 | h_2 | h_3 | h_4 => exact nomatch h
  case h_15 =>
    split at h
    · cases h
      trivial
    · exact written_of_scanPair h trivial (by rintro _ ⟨⟩; trivial)
  case h_16 => exact written_of_scanPair h trivial (by rintro _ ⟨⟩; trivial)
  case h_17 => exact written_of_scanPair h trivial (by rintro _ ⟨⟩; trivial)
  case h_18 => exact written_of_scanPair h trivial (by rintro _ ⟨⟩; trivial)
  case h_19 => exact written_of_scanPair h trivial nofun
  case h_20 => exact written_of_scanPair h trivial (by rintro _ ⟨⟩; trivial)
  case h_21 => exact written_of_scanPair h trivial (by rintro _ ⟨⟩; trivial)
  case h_22 => exact written_of_scanDelimited h (by rintro _ _ ⟨⟩; trivial)
  case h_23 =>
    refine written_of_scanDelimited h fun raw token hread => ?_
    obtain ⟨value, _, rfl⟩ := Option.map_eq_some_iff.1 hread
    trivial
  case h_24 =>
    refine written_of_scanDelimited h fun raw token hread => ?_
    obtain ⟨name, _, rfl⟩ := Option.map_eq_some_iff.1 hread
    trivial
  case h_25 => exact written_of_scanWord h
  all_goals
    cases h
    trivial

/-! ## Texts -/

/-- After a text that ends with its tokens, a character that ends them goes on with its own. -/
theorem Lexes.append {xs ys : List Char} {ts us : List Token} {d : Char} (hx : Lexes xs ts)
    (hd : endsToken d = true) (hy : Lexes (d :: ys) us) : Lexes (xs ++ d :: ys) (ts ++ us) := by
  induction hx with
  | nil => exact hy
  | @cons c cs token more ts hscan _ ih =>
    obtain ⟨happend, hmore⟩ := scanToken_append hscan hd ys
    have hdrop : (cs ++ d :: ys).drop more = cs.drop more ++ d :: ys :=
      List.drop_append_of_le_length hmore
    rw [List.append_assoc]
    exact .cons happend (hdrop ▸ ih)

/-- The tokens of a query, or none if it has a fault. -/
def tokensOf (query : String) : List Token :=
  match lexFrom 0 query.toList with
  | .ok ls => tokens ls
  | .error _ => []

theorem tokensOf_eq {query : String} {ts : List Token} (h : Lexes query.toList ts) :
    tokensOf query = ts := by
  obtain ⟨ls, hls, hts⟩ := exists_lexFrom_of_lexes h 0
  simp only [tokensOf, hls, hts]

theorem Lexes.written {cs : List Char} {ts : List Token} (h : Lexes cs ts) :
    ∀ t ∈ ts, t.Written := by
  induction h with
  | nil => exact nofun
  | @cons c cs token more ts hscan _ ih =>
    cases token with
    | none => exact ih
    | some token => exact List.forall_mem_cons.2 ⟨written_of_scanToken hscan, ih⟩

/-- A query is the expression that its tokens make. -/
theorem parse_eq_ok_iff {query : String} {e : Expr} :
    parse query = .ok e ↔ ∃ ts, Lexes query.toList ts ∧ Derives (.expr 0) ts e [] := by
  have hread {ls : Rest} (hls : lexFrom 0 query.toList = .ok ls) :
      parse query = .ok e ↔ Derives (.expr 0) (tokens ls) e [] := by
    have heof : ∀ t ∈ tokens ls, t ≠ .eof := by
      rintro _ ht rfl
      exact (lexes_of_lexFrom hls).written _ ht
    rw [← parseAll_eq_ok_iff heof]
    simp only [parse, hls, bind, Except.bind]
    rcases (parseAll ls).run with _ | _ | _ <;> simp [pure, Except.pure]
  constructor
  · intro h
    have hparse := h
    rw [parse, bind_eq_ok_iff] at h
    obtain ⟨ls, hls, _⟩ := h
    exact ⟨tokens ls, lexes_of_lexFrom hls, (hread hls).1 hparse⟩
  · intro h
    obtain ⟨ts, hlexes, hderives⟩ := h
    obtain ⟨ls, hls, rfl⟩ := exists_lexFrom_of_lexes hlexes 0
    exact (hread hls).2 hderives

theorem ne_empty_of_parse {query : String} {e : Expr} (h : parse query = .ok e) : query ≠ "" := by
  rintro rfl
  obtain ⟨ts, hlexes, hderives⟩ := parse_eq_ok_iff.1 h
  cases hlexes
  exact absurd (hderives.length_lt rfl) (Nat.lt_irrefl 0)

theorem ofText_eq_ok_of_parse {text query : String} {e : Expr} (htrim : Text.trim text = query)
    (hparse : parse query = .ok e) : ofText text = .ok ⟨query, e⟩ := by
  simp only [ofText, htrim, if_neg (ne_empty_of_parse hparse), hparse]

/-! ## Given texts -/

/-- The lexemes of the text after so many characters. Going character by character it can be
computed in a proof. -/
def lexPast (offset : Nat) : Nat → List Char → Except Fault (List Lexeme)
  | _, [] => .ok []
  | skip + 1, _ :: cs => lexPast offset skip cs
  | 0, c :: cs =>
    match scanToken c cs with
    | .error cause => .error ⟨offset, cause⟩
    | .ok (token, more) => do
      let lexemes ← lexPast (offset + byteWidth (c :: cs.take more)) more cs
      return match token with
        | some token => ⟨offset, token⟩ :: lexemes
        | none => lexemes

theorem lexPast_eq_lexFrom (offset skip : Nat) (cs : List Char) :
    lexPast offset skip cs = lexFrom offset (cs.drop skip) := by
  induction cs generalizing offset skip with
  | nil =>
    rw [List.drop_nil, lexFrom]
    cases skip <;> rfl
  | cons c cs ih =>
    cases skip with
    | succ skip => exact ih offset skip
    | zero =>
      rw [List.drop_zero, lexFrom, lexPast]
      cases scanToken c cs with
      | error cause => rfl
      | ok scanned => exact congrArg (· >>= _) (ih _ _)

theorem lexFrom_eq_of_lexPast {offset : Nat} {cs : List Char}
    {result : Except Fault (List Lexeme)} (h : lexPast offset 0 cs = result) :
    lexFrom offset cs = result := by
  rwa [lexPast_eq_lexFrom, List.drop_zero] at h

theorem lexes_of_lexPast {query : String} {ts : List Token}
    (h : (lexPast 0 0 query.toList).map tokens = .ok ts) : Lexes query.toList ts := by
  obtain ⟨ls, hls, rfl⟩ := map_eq_ok_iff.1 h
  exact lexes_of_lexFrom (lexFrom_eq_of_lexPast hls)

/-- A query is parsed from its tokens, wherever they stand. -/
theorem parse_eq_ok_of_tokens {query : String} {e : Expr} (ts : List Token)
    (hlex : (lexPast 0 0 query.toList).map tokens = .ok ts)
    (hparse : (parseAll (ts.map (Lexeme.mk 0))).run = some (.ok e)) : parse query = .ok e := by
  have hlexes := lexes_of_lexPast hlex
  have htokens : tokens (ts.map (Lexeme.mk 0)) = ts := by simp [tokens, Function.comp_def]
  have heof : ∀ t ∈ tokens (ts.map (Lexeme.mk 0)), t ≠ .eof := by
    rw [htokens]
    rintro _ ht rfl
    exact hlexes.written _ ht
  exact parse_eq_ok_iff.2 ⟨ts, hlexes, htokens ▸ (parseAll_eq_ok_iff heof).1 hparse⟩

theorem ofText_eq_ok_of_tokens {text query : String} {e : Expr} (ts : List Token)
    (htrim : Text.trim text = query) (hlex : (lexPast 0 0 query.toList).map tokens = .ok ts)
    (hparse : (parseAll (ts.map (Lexeme.mk 0))).run = some (.ok e)) :
    ofText text = .ok ⟨query, e⟩ :=
  ofText_eq_ok_of_parse htrim (parse_eq_ok_of_tokens ts hlex hparse)

end ResourceGraph.Query
