import ResourceGraph.Proofs.Query.Precedence

/-!
# A pipe composes queries

A pipe binds an expression less tightly than all other operators, so the query before it is read to
its end, with whatever projections are open there. If the query after it has pipes of its own, the
tree leans to the left; its values are those of the query after the pipe on the values of the query
before it. An expression reference outside brackets is left out: it takes the pipe in.
-/
namespace ResourceGraph.Query

open Token (front)

/-! ## How an expression is extended -/

/-- An expression is extended step by step. -/
theorem Derives.climb_induction {least : Nat}
    {motive : Expr → List Token → Expr → List Token → Prop}
    (stop : ∀ {left ts}, (front ts).power ≤ least → motive left ts left ts)
    (step : ∀ {left next e t ts mid rest}, least < t.power →
      Derives (.extend left) (t :: ts) next mid → Derives (.climb least next) mid e rest →
      motive next mid e rest → motive left (t :: ts) e rest)
    {left e : Expr} {ts rest : List Token} (h : Derives (.climb least left) ts e rest) :
    motive left ts e rest := by
  generalize hform : Form.climb least left = form at h
  induction h generalizing left with
  | stop hpower =>
    cases hform
    exact stop hpower
  | step hpower hextend hclimb _ ih =>
    cases hform
    exact step hpower hextend hclimb (ih rfl)
  | _ => exact nomatch hform

/-- What is left of an expression does not extend it. -/
theorem Derives.front_power_le {least : Nat} {left e : Expr} {ts rest : List Token}
    (h : Derives (.climb least left) ts e rest) : (front rest).power ≤ least :=
  h.climb_induction (motive := fun _ _ _ rest => (front rest).power ≤ least) id
    fun _ _ _ ih => ih

/-- An expression is extended by what binds more tightly first. -/
theorem Derives.exists_climb {least more : Nat} (hle : least ≤ more) {left e : Expr}
    {ts rest : List Token} (h : Derives (.climb least left) ts e rest) :
    ∃ next mid, Derives (.climb more left) ts next mid ∧
      Derives (.climb least next) mid e rest := by
  refine h.climb_induction
    (motive := fun left ts e rest => ∃ next mid,
      Derives (.climb more left) ts next mid ∧ Derives (.climb least next) mid e rest) ?stop ?step
  case stop =>
    intro left ts hpower
    exact ⟨left, ts, .stop (Nat.le_trans hpower hle), .stop hpower⟩
  case step =>
    intro left _ e t ts _ rest hpower hextend hclimb ih
    by_cases hmore : more < t.power
    · obtain ⟨next, mid, htight, hloose⟩ := ih
      exact ⟨next, mid, .step hmore hextend htight, hloose⟩
    · exact ⟨left, t :: ts, .stop (Nat.not_lt.1 hmore), .step hpower hextend hclimb⟩

/-- A pipe that extends an expression is followed by another. -/
theorem Derives.exists_of_extend_pipe {left next : Expr} {ts rest : List Token}
    (h : Derives (.extend left) (.pipe :: ts) next rest) :
    ∃ right, next = .chain left right ∧ Derives (.expr Token.pipe.power) ts right rest := by
  generalize hts : Token.pipe :: ts = us at h
  cases h with
  | @operator o _ right _ _ hright =>
    cases o with
    | pipe =>
      cases hts
      exact ⟨right, rfl, hright⟩
    | compare op => cases op <;> exact nomatch hts
    | _ => exact nomatch hts
  | _ => exact nomatch hts

/-! ## The pipe -/

/-- A pipe does not extend what has no reference outside brackets, unless it is an expression. -/
theorem ends_pipe {form : Form} {ts : List Token} (hleast : 1 ≤ form.least)
    (h : refersOutside form.depth ts = false) : Ends form ts .pipe :=
  ⟨Nat.le_refl 1, hleast, .inr h⟩

/-- After an expression that is read to its end, a pipe goes on with it. -/
theorem Derives.climb_pipe {left e e' : Expr} {ts us : List Token}
    (h : Derives (.climb 0 left) ts e []) (href : refersOutside 0 ts = false)
    (hmore : Derives (.climb 0 e) (.pipe :: us) e' []) :
    Derives (.climb 0 left) (ts ++ .pipe :: us) e' [] := by
  refine h.climb_induction
    (motive := fun left ts last rest => refersOutside 0 ts = false → rest = [] → last = e →
      Derives (.climb 0 left) (ts ++ .pipe :: us) e' []) ?stop ?step href rfl rfl
  case stop =>
    rintro _ _ - - rfl rfl
    exact hmore
  case step =>
    intro _ _ _ t ts _ _ hpower hextend _ ih href hrest hlast
    obtain ⟨seg, hseg, htakes⟩ := hextend.exists_segment
    have hend := hextend.append (.pipe :: us) fun _ => ends_pipe (Nat.le_refl 1) href
    rw [hseg, refersOutside_append, htakes.closed rfl, Bool.or_eq_false_iff] at href
    exact .step hpower hend (ih href.2 hrest hlast)

theorem Derives.expr_pipe {e e' : Expr} {ts us : List Token} (h : Derives (.expr 0) ts e [])
    (href : refersOutside 0 ts = false) (hmore : Derives (.climb 0 e) (.pipe :: us) e' []) :
    Derives (.expr 0) (ts ++ .pipe :: us) e' [] := by
  cases h with
  | expr hstart hclimb =>
    have hend := hstart.append (.pipe :: us) fun _ => ends_pipe (Nat.le_refl 1) href
    obtain ⟨seg, rfl, htakes⟩ := hstart.exists_segment
    rw [refersOutside_append, htakes.closed rfl, Bool.or_eq_false_iff] at href
    exact .expr hend (hclimb.climb_pipe href.2 hmore)

/-- The expression gives the values of `next` on the values of `first`. -/
def Composes (first next e : Expr) : Prop :=
  ∀ data, eval e data = eval first data >>= eval next

theorem composes_chain (first next : Expr) : Composes first next (.chain first next) :=
  fun _ => by rw [eval]

theorem Composes.chain {first next e : Expr} (h : Composes first next e) (last : Expr) :
    Composes first (.chain next last) (.chain e last) := by
  intro data
  have hchain : eval (.chain next last) = fun value => eval next value >>= eval last :=
    funext (composes_chain next last)
  rw [composes_chain e last, h data, hchain]
  cases eval first data <;> rfl

/-- Where nothing but pipes extends an expression, they extend any other, and the values of both go
through the same expressions. -/
theorem Derives.exists_composes {first left left' e : Expr} {ts : List Token}
    (h : Derives (.climb 0 left) ts e []) (hpower : (front ts).power ≤ Token.pipe.power)
    (hleft : Composes first left left') :
    ∃ e', Derives (.climb 0 left') ts e' [] ∧ Composes first e e' := by
  refine h.climb_induction
    (motive := fun left ts e rest => ∀ left', (front ts).power ≤ Token.pipe.power →
      Composes first left left' → ∃ e', Derives (.climb 0 left') ts e' rest ∧ Composes first e e')
    ?stop ?step left' hpower hleft
  case stop => exact fun hstop left' _ hleft => ⟨left', .stop hstop, hleft⟩
  case step =>
    intro left next e t ts mid rest hpos hextend hclimb ih left' hpower hleft
    obtain rfl : t = .pipe := by
      have hone : t.power = Token.pipe.power := Nat.le_antisymm hpower hpos
      cases t <;> first | rfl | contradiction
    obtain ⟨right, rfl, hright⟩ := hextend.exists_of_extend_pipe
    have hmid : (front mid).power ≤ Token.pipe.power := by
      cases hright with
      | expr _ hright => exact hright.front_power_le
    obtain ⟨e', he', hcomposes⟩ := ih (.chain left' right) hmid (hleft.chain right)
    exact ⟨e', .step hpos (.operator .pipe hright) he', hcomposes⟩

/-- What follows a pipe is read as it is by itself up to its own pipes. -/
theorem Derives.exists_pipe {first next : Expr} {us : List Token}
    (h : Derives (.expr 0) us next []) :
    ∃ e, Derives (.climb 0 first) (.pipe :: us) e [] ∧ Composes first next e := by
  cases h with
  | expr hstart hclimb =>
    obtain ⟨right, mid, htight, hloose⟩ := hclimb.exists_climb (Nat.zero_le Token.pipe.power)
    obtain ⟨e, he, hcomposes⟩ :=
      hloose.exists_composes htight.front_power_le (composes_chain first right)
    exact ⟨e, .step (by decide) (.operator .pipe (.expr hstart htight)) he, hcomposes⟩

/-- Two queries with a pipe between them make one that gives the values of the second on the values
of the first, and the errors of the first. Queries that `ofText` reads have no blanks at either end,
so it reads the two with a pipe between them just as well. -/
theorem search_pipe {first second : String} {e₁ e₂ : Expr} (hfirst : parse first = .ok e₁)
    (hsecond : parse second = .ok e₂) (href : refersOutside 0 (tokensOf first) = false) :
    ∃ e, parse (first ++ " | " ++ second) = .ok e ∧
      (∀ data, eval e data = eval e₁ data >>= eval e₂) ∧
      (Text.trim first = first → Text.trim second = second →
        Query.ofText (first ++ " | " ++ second) = .ok ⟨first ++ " | " ++ second, e⟩) := by
  obtain ⟨ts, hts, hderives⟩ := parse_eq_ok_iff.1 hfirst
  obtain ⟨us, hus, hnext⟩ := parse_eq_ok_iff.1 hsecond
  obtain ⟨e, he, hcomposes⟩ : ∃ e, Derives (.climb 0 e₁) (.pipe :: us) e [] ∧ Composes e₁ e₂ e :=
    hnext.exists_pipe
  have hlexes : Lexes (first ++ " | " ++ second).toList (ts ++ .pipe :: us) := by
    have hpipe : Lexes (" | ".toList ++ second.toList) (.pipe :: us) :=
      (Lexes.operator .pipe hus).blank
    rw [String.toList_append, String.toList_append, List.append_assoc]
    exact hts.append rfl hpipe
  have hparse : parse (first ++ " | " ++ second) = .ok e :=
    parse_eq_ok_iff.2 ⟨_, hlexes, hderives.expr_pipe (tokensOf_eq hts ▸ href) he⟩
  refine ⟨e, hparse, hcomposes, fun htrim₁ htrim₂ => ?_⟩
  have htrim : Text.trim (first ++ " | " ++ second) = first ++ " | " ++ second := by
    rw [Text.trim_eq_self_iff] at htrim₁ htrim₂ ⊢
    have hne₁ : first.toList ≠ [] := String.toList_eq_nil_iff.not.2 (ne_empty_of_parse hfirst)
    have hne₂ : second.toList ≠ [] := String.toList_eq_nil_iff.not.2 (ne_empty_of_parse hsecond)
    rw [String.toList_append, List.getLast?_append_of_ne_nil _ hne₂, String.toList_append,
      List.append_assoc, List.head?_append_of_ne_nil _ hne₁]
    exact ⟨htrim₁.1, htrim₂.2⟩
  exact ofText_eq_ok_of_parse htrim hparse

/-- A reference in a call and an open projection before the pipe, another pipe after it. -/
theorem search_pipe_sorted :
    ∃ e, parse "sort_by(a, &b)[*].c | d[0] | e" = .ok e ∧ ∀ data, eval e data =
      (eval (.project (.call "sort_by" [.field "a", .reference (.field "b")]) (.field "c")) data >>=
        eval (.chain (.chain (.field "d") (.index 0)) (.field "e"))) := by
  have hlex : (lexPast 0 0 "sort_by(a, &b)[*].c".toList).map tokens =
      .ok [.identifier "sort_by", .lparen, .identifier "a", .comma, .ampersand, .identifier "b",
        .rparen, .lbracket, .star, .rbracket, .dot, .identifier "c"] := rfl
  have hfirst : parse "sort_by(a, &b)[*].c" =
      .ok (.project (.call "sort_by" [.field "a", .reference (.field "b")]) (.field "c")) :=
    parse_eq_ok_of_tokens _ hlex rfl
  have hsecond : parse "d[0] | e" =
      .ok (.chain (.chain (.field "d") (.index 0)) (.field "e")) :=
    parse_eq_ok_of_tokens [.identifier "d", .lbracket, .number 0, .rbracket, .pipe,
      .identifier "e"] rfl rfl
  have href : refersOutside 0 (tokensOf "sort_by(a, &b)[*].c") = false := by
    rw [tokensOf_eq (lexes_of_lexPast hlex)]
    rfl
  obtain ⟨e, hparse, heval, -⟩ := search_pipe hfirst hsecond href
  exact ⟨e, hparse, heval⟩

/-- A reference outside brackets takes the pipe in. -/
example : parse "&a | b" = .ok (.reference (.chain (.field "a") (.field "b"))) :=
  parse_eq_ok_of_tokens [.ampersand, .identifier "a", .pipe, .identifier "b"] rfl rfl

end ResourceGraph.Query
