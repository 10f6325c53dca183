import ResourceGraph.Proofs.Query.Grammar

/-!
# The parser reads the grammar

Whatever the parser returns is derived by the grammar, whatever is derived the parser returns, and
the fuel it starts with is enough for it to return or to refuse.
-/
namespace ResourceGraph.Query

open Token (front)

variable {α β : Type}

def tokens (ts : Rest) : List Token := ts.map (·.token)

@[simp] theorem tokens_nil : tokens [] = [] := rfl

@[simp] theorem tokens_cons (l : Lexeme) (ts : Rest) :
    tokens (l :: ts) = l.token :: tokens ts := rfl

@[simp] theorem length_tokens (ts : Rest) : (tokens ts).length = ts.length := List.length_map _

@[simp] theorem front_tokens (ts : Rest) : front (tokens ts) = ts.peek := by
  cases ts <;> rfl

theorem tail_tokens (ts : Rest) : (tokens ts).tail = tokens ts.tail := List.map_tail.symm

@[simp] theorem peek_cons (l : Lexeme) (ts : Rest) : Rest.peek (l :: ts) = l.token := rfl

theorem tokens_eq_cons {ts : Rest} {t : Token} (h : ts.peek = t) (ht : t ≠ .eof) :
    tokens ts = t :: tokens ts.tail := by
  cases ts with
  | nil => exact absurd h.symm ht
  | cons l ts => rw [← h]; rfl

theorem length_eq_succ {ts : Rest} {t : Token} (h : ts.peek = t) (ht : t ≠ .eof) :
    ts.length = ts.tail.length + 1 := by
  cases ts with
  | nil => exact absurd h.symm ht
  | cons l ts => rfl

/-- The tokens that the parser asks for by name. -/
inductive Token.IsExpected : Token → Prop
  | rparen : IsExpected .rparen
  | rbracket : IsExpected .rbracket
  | colon : IsExpected .colon

namespace Token.IsExpected

variable {wanted t : Token}

theorem ne_eof (h : wanted.IsExpected) : wanted ≠ .eof := by
  cases h <;> exact nofun

theorem beq_iff (h : wanted.IsExpected) : (t == wanted) = true ↔ t = wanted := by
  cases h <;> cases t <;> first | exact iff_of_true rfl rfl | exact iff_of_false nofun nofun

end Token.IsExpected

/-! ## What a parser returns, and that it does -/

theorem run_bind (x : Attempt α) (f : α → Attempt β) :
    (x >>= f).run = match x.run with
      | none => none
      | some (.error refusal) => some (.error refusal)
      | some (.ok a) => (f a).run := by
  rw [ExceptT.run_bind]
  rcases x.run with _ | _ | _ <;> rfl

/-- With enough fuel the parser returns or refuses, and what it returns satisfies `post`. -/
structure Meets (enough : Prop) (x : Attempt α) (post : α → Prop) : Prop where
  settles : enough → x.run ≠ none
  of_ok {a : α} : x.run = some (.ok a) → post a

namespace Meets

variable {enough enough' : Prop} {post : α → Prop}

theorem pure {a : α} (h : post a) : Meets enough (pure a) post :=
  ⟨fun _ => nofun, fun ha => by cases ha; exact h⟩

theorem refuse (rest : Rest) (cause : SyntaxFault) : Meets enough (refuse rest cause) post :=
  ⟨fun _ => nofun, nofun⟩

theorem throw (refusal : Refusal) : Meets enough (throw refusal : Attempt α) post :=
  ⟨fun _ => nofun, nofun⟩

theorem expect {wanted : Token} (h : wanted.IsExpected) (ts : Rest) :
    Meets enough (expect wanted ts) fun rest => tokens ts = wanted :: tokens rest := by
  rw [Query.expect]
  split
  · next hpeek => exact .pure (tokens_eq_cons (h.beq_iff.1 hpeek) h.ne_eof)
  · exact .refuse _ _

theorem spent (h : ¬ enough) : Meets enough (spent : Attempt α) post :=
  ⟨fun henough => absurd henough h, nofun⟩

theorem bind {x : Attempt α} {f : α → Attempt β} {mid : α → Prop} {post : β → Prop}
    (hx : Meets enough x mid) (hf : ∀ a, mid a → Meets enough (f a) post) :
    Meets enough (x >>= f) post := by
  have hrun := run_bind x f
  rcases hx' : x.run with _ | refusal | a
  · exact ⟨fun henough => absurd hx' (hx.settles henough), fun h => by simp [hrun, hx'] at h⟩
  · exact ⟨fun _ => by simp [hrun, hx'], fun h => by simp [hrun, hx'] at h⟩
  · rw [hx'] at hrun
    have hnext := hf a (hx.of_ok hx')
    exact ⟨fun henough => hrun ▸ hnext.settles henough, fun h => hnext.of_ok (hrun.symm.trans h)⟩

theorem mono {x : Attempt α} {post' : α → Prop} (hx : Meets enough x post)
    (henough : enough' → enough) (hpost : ∀ a, post a → post' a) : Meets enough' x post' :=
  ⟨fun h => hx.settles (henough h), fun h => hpost _ (hx.of_ok h)⟩

end Meets

/-- A parser that may return the one result `a` only, with these tokens left. -/
def Agrees (x : Attempt (α × Rest)) (a : α) (left : List Token) : Prop :=
  x.run = none ∨ ∃ rest, tokens rest = left ∧ x.run = some (.ok (a, rest))

namespace Agrees

theorem spent {a : α} {left : List Token} : Agrees Query.spent a left := .inl rfl

theorem pure {a : α} {rest : Rest} {left : List Token} (h : tokens rest = left) :
    Agrees (pure (a, rest)) a left := .inr ⟨rest, h, rfl⟩

theorem bind {x : Attempt (α × Rest)} {f : α × Rest → Attempt (β × Rest)} {a : α} {b : β}
    {mid left : List Token} (hx : Agrees x a mid)
    (hf : ∀ rest, tokens rest = mid → Agrees (f (a, rest)) b left) : Agrees (x >>= f) b left := by
  obtain hx | ⟨rest, hrest, hx⟩ := hx
  · exact .inl (by rw [run_bind, hx])
  · have hrun : (x >>= f).run = (f (a, rest)).run := by rw [run_bind, hx]
    obtain hf | ⟨rest', hrest', hf⟩ := hf rest hrest
    · exact .inl (hrun.trans hf)
    · exact .inr ⟨rest', hrest', hrun.trans hf⟩

end Agrees

/-! ## Places -/

theorem fills_of_scanPlaces {p q : Places} {ts rest : Rest}
    (h : scanPlaces p ts = .ok (q, rest)) : Fills p (tokens ts) q (tokens rest) := by
  induction ts generalizing p with
  | nil => exact nomatch h
  | cons l ts ih =>
    obtain ⟨offset, t⟩ := l
    cases t with
    | number n => exact .number (ih h)
    | colon =>
      rw [scanPlaces] at h
      split at h
      · next hcolons => exact .colon hcolons (ih h)
      · exact nomatch h
    | rbracket =>
      cases h
      exact .close
    | _ => exact nomatch h

theorem scanPlaces_of_fills {p q : Places} {ts : Rest} {left : List Token}
    (h : Fills p (tokens ts) q left) :
    ∃ rest, tokens rest = left ∧ scanPlaces p ts = .ok (q, rest) := by
  induction ts generalizing p with
  | nil => exact nomatch h
  | cons l ts ih =>
    obtain ⟨offset, t⟩ := l
    cases h with
    | close => exact ⟨ts, rfl, rfl⟩
    | number h => exact ih h
    | colon hcolons h =>
      obtain ⟨rest, hrest, hscan⟩ := ih h
      exact ⟨rest, hrest, by rw [scanPlaces, if_pos hcolons, hscan]⟩

/-! ## What is returned is derived -/

/-- What `n` steps of fuel allow: each parser reads its form, and settles if the fuel is enough for
the tokens there are. -/
structure Reads (n : Nat) : Prop where
  expr (least : Nat) (ts : Rest) : Meets (8 * ts.length + 2 ≤ n) (parseExpr n least ts)
    fun r => Derives (.expr least) (tokens ts) r.1 (tokens r.2)
  climb (least : Nat) (left : Expr) (ts : Rest) :
    Meets (8 * ts.length + 1 ≤ n) (parseClimb n least left ts)
      fun r => Derives (.climb least left) (tokens ts) r.1 (tokens r.2)
  start (t : Token) (ts : Rest) :
    Meets (1 ≤ n ∧ (t = .eof ∨ 8 * ts.length + 4 ≤ n)) (parseStart n t ts)
      fun r => Derives .start (t :: tokens ts) r.1 (tokens r.2)
  extend (t : Token) (left : Expr) (ts : Rest) :
    Meets (8 * ts.length + 4 ≤ n) (parseExtend n t left ts)
      fun r => Derives (.extend left) (t :: tokens ts) r.1 (tokens r.2)
  compare (op : Comparator) (left : Expr) (ts : Rest) :
    Meets (8 * ts.length + 3 ≤ n) (parseCompare n op left ts)
      fun r => Derives (.extend left) ((Operator.compare op).token :: tokens ts) r.1 (tokens r.2)
  member (ts : Rest) : Meets (8 * ts.length + 3 ≤ n) (parseMember n ts)
    fun r => Derives .member (tokens ts) r.1 (tokens r.2)
  each (least : Nat) (ts : Rest) : Meets (8 * ts.length + 3 ≤ n) (parseEach n least ts)
    fun r => Derives (.each least) (tokens ts) r.1 (tokens r.2)
  filter (left : Expr) (ts : Rest) : Meets (8 * ts.length + 3 ≤ n) (parseFilter n left ts)
    fun r => Derives (.extend left) (.filter :: tokens ts) r.1 (tokens r.2)
  places (left : Expr) (ts : Rest) : ts.peek.startsPlaces = true →
    Meets (8 * ts.length + 3 ≤ n) (parsePlaces n left ts)
      fun r => Derives (.extend left) (.lbracket :: tokens ts) r.1 (tokens r.2)
  list (ts : Rest) : Meets (8 * ts.length + 3 ≤ n) (parseList n ts)
    fun r => Derives .list (tokens ts) (.list r.1) (tokens r.2)
  hash (ts : Rest) : Meets (8 * ts.length + 3 ≤ n) (parseHash n ts)
    fun r => Derives .hash (tokens ts) (.hash r.1) (tokens r.2)
  args (name : String) (ts : Rest) : Meets (8 * ts.length + 3 ≤ n) (parseArgs n ts)
    fun r => Derives (.args name) (tokens ts) (.call name r.1) (tokens r.2)

theorem reads_zero : Reads 0 where
  expr _ _ := .spent (by omega)
  climb _ _ _ := .spent (by omega)
  start _ _ := .spent (by omega)
  extend _ _ _ := .spent (by omega)
  compare _ _ _ := .spent (by omega)
  member _ := .spent (by omega)
  each _ _ := .spent (by omega)
  filter _ _ := .spent (by omega)
  places _ _ _ := .spent (by omega)
  list _ := .spent (by omega)
  hash _ := .spent (by omega)
  args _ _ := .spent (by omega)

namespace Reads

variable {n : Nat}

theorem expr_succ (h : Reads n) (least : Nat) (ts : Rest) :
    Meets (8 * ts.length + 2 ≤ n + 1) (parseExpr (n + 1) least ts)
      fun r => Derives (.expr least) (tokens ts) r.1 (tokens r.2) := by
  rw [parseExpr]
  cases ts with
  | nil =>
    refine .bind ((h.start .eof []).mono (fun _ => ⟨by omega, .inl rfl⟩) fun _ => id) ?_
    intro r hstart
    exact nomatch hstart.startsExpr_of_start
  | cons l ts =>
    refine .bind ((h.start l.token ts).mono
      (fun _ => by simp only [List.length_cons] at *; omega) fun _ => id) ?_
    rintro ⟨left, mid⟩ hstart
    have hlt := hstart.length_lt rfl
    simp only [List.length_cons, length_tokens] at hlt
    exact (h.climb least left mid).mono (fun _ => by simp only [List.length_cons] at *; omega)
      fun r hclimb => .expr hstart hclimb

theorem climb_succ (h : Reads n) (least : Nat) (left : Expr) (ts : Rest) :
    Meets (8 * ts.length + 1 ≤ n + 1) (parseClimb (n + 1) least left ts)
      fun r => Derives (.climb least left) (tokens ts) r.1 (tokens r.2) := by
  rw [parseClimb]
  split
  · next hpower =>
    cases ts with
    | nil => exact absurd hpower (Nat.not_lt_zero _)
    | cons l ts =>
      refine .bind ((h.extend l.token left ts).mono
        (fun _ => by simp only [List.length_cons] at *; omega) fun _ => id) ?_
      rintro ⟨next, mid⟩ hextend
      have hlt := hextend.length_lt rfl
      simp only [List.length_cons, length_tokens] at hlt
      exact (h.climb least next mid).mono (fun _ => by simp only [List.length_cons] at *; omega)
        fun r hclimb => .step hpower hextend hclimb
  · next hpower => exact .pure (.stop (by rw [front_tokens]; omega))

theorem each_bind (h : Reads n) {least : Nat} {ts : Rest} {f : Expr × Rest → Attempt (Expr × Rest)}
    {enough : Prop} {post : Expr × Rest → Prop} (henough : enough → 8 * ts.length + 3 ≤ n)
    (hf : ∀ each rest, Derives (.each least) (tokens ts) each (tokens rest) →
      Meets enough (f (each, rest)) post) :
    Meets enough (parseEach n least ts >>= f) post :=
  .bind ((h.each least ts).mono henough fun _ => id) fun r hr => hf r.1 r.2 hr

theorem lparen_bind (h : Reads n) {ts : Rest} :
    Meets (8 * ts.length + 3 ≤ n)
      (do
        let (inner, ts) ← parseExpr n 0 ts
        let ts ← expect .rparen ts
        pure (inner, ts))
      fun r => Derives .start (.lparen :: tokens ts) r.1 (tokens r.2) := by
  refine .bind ((h.expr 0 ts).mono (fun _ => by omega) fun _ => id) ?_
  rintro ⟨inner, mid⟩ hinner
  refine .bind (.expect .rparen mid) ?_
  intro rest hrest
  rw [hrest] at hinner
  exact .pure (.group hinner)

theorem lbracket_start (h : Reads n) (ts : Rest) :
    Meets (8 * ts.length + 3 ≤ n)
      (match ts.peek, Rest.peek ts.tail with
      | .number _, _ | .colon, _ => parsePlaces n .current ts
      | .star, .rbracket => do
        let (each, ts) ← parseEach n Token.star.power ts.tail.tail
        pure (.project .current each, ts)
      | _, _ => do
        let (items, ts) ← parseList n ts
        pure (.list items, ts))
      fun r => Derives .start (.lbracket :: tokens ts) r.1 (tokens r.2) := by
  have hplaces (hpeek : ts.peek.startsPlaces = true) :
      Meets (8 * ts.length + 3 ≤ n) (parsePlaces n .current ts)
        fun r => Derives .start (.lbracket :: tokens ts) r.1 (tokens r.2) := by
    have hfront : (front (tokens ts)).startsPlaces = true := by rwa [front_tokens]
    exact (h.places .current ts hpeek).mono id fun _ =>
      .projection (Token.opensProjection_of_startsPlaces hfront)
  split
  · next hpeek => exact hplaces (by rw [hpeek]; rfl)
  · next hpeek => exact hplaces (by rw [hpeek]; rfl)
  · next hpeek hpeek' =>
    rw [tokens_eq_cons hpeek nofun, tokens_eq_cons hpeek' nofun]
    refine h.each_bind (fun _ => ?_) fun each rest heach =>
      .pure (.projection rfl (.elements heach))
    rw [length_eq_succ hpeek nofun] at *
    simp at *
    omega
  · next hnumber hcolon hstar =>
    have hopens : Token.opensProjection (.lbracket :: tokens ts) = false := by
      refine Token.opensProjection_eq_false ?_ ?_
      · rw [front_tokens]
        cases hpeek : ts.peek <;> first | rfl | simp_all
      · rw [tail_tokens, front_tokens, front_tokens]
        exact fun hpeek => hstar hpeek.1 hpeek.2
    refine .bind ((h.list ts).mono id fun _ => id) ?_
    rintro ⟨items, rest⟩ hlist
    exact .pure (.items hopens hlist)

theorem start_succ (h : Reads n) (t : Token) (ts : Rest) :
    Meets (1 ≤ n + 1 ∧ (t = .eof ∨ 8 * ts.length + 4 ≤ n + 1)) (parseStart (n + 1) t ts)
      fun r => Derives .start (t :: tokens ts) r.1 (tokens r.2) := by
  by_cases ht : t = .eof
  · subst ht
    exact .refuse _ _
  suffices h' : Meets (8 * ts.length + 3 ≤ n) (parseStart (n + 1) t ts)
      fun r => Derives .start (t :: tokens ts) r.1 (tokens r.2) from
    h'.mono (fun henough => by have := henough.2.resolve_left ht; omega) fun _ => id
  cases t with
  | identifier name | quotedIdentifier name | literal value | current =>
    exact .pure (.atom rfl)
  | star => exact h.each_bind id fun each rest heach => .pure (.values heach)
  | flatten =>
    exact h.each_bind id fun each rest heach => .pure (.projection rfl (.flatten heach))
  | filter => exact (h.filter .current ts).mono id fun _ => .projection rfl
  | lbracket => exact h.lbracket_start ts
  | lbrace =>
    refine .bind (h.hash ts) ?_
    rintro ⟨entries, rest⟩ hhash
    exact .pure (.entries hhash)
  | lparen => exact h.lparen_bind
  | not =>
    refine .bind ((h.expr Token.not.power ts).mono (fun _ => by omega) fun _ => id) ?_
    rintro ⟨inner, rest⟩ hinner
    exact .pure (.not hinner)
  | ampersand =>
    refine .bind ((h.expr 0 ts).mono (fun _ => by omega) fun _ => id) ?_
    rintro ⟨inner, rest⟩ hinner
    exact .pure (.reference hinner)
  | _ => exact .refuse _ _

theorem compare_succ (h : Reads n) (op : Comparator) (left : Expr) (ts : Rest) :
    Meets (8 * ts.length + 3 ≤ n + 1) (parseCompare (n + 1) op left ts)
      fun r => Derives (.extend left) ((Operator.compare op).token :: tokens ts) r.1
        (tokens r.2) := by
  refine .bind ((h.expr Token.eq.power ts).mono (fun _ => by omega) fun _ => id) ?_
  rintro ⟨right, rest⟩ hright
  rw [← Operator.power_compare op] at hright
  exact .pure (.operator (.compare op) hright)

theorem operator_bind (h : Reads n) (o : Operator) (left : Expr) (ts : Rest) :
    Meets (8 * ts.length + 3 ≤ n)
      (do
        let (right, ts) ← parseExpr n o.power ts
        pure (o.apply left right, ts))
      fun r => Derives (.extend left) (o.token :: tokens ts) r.1 (tokens r.2) := by
  refine .bind ((h.expr o.power ts).mono (fun _ => by omega) fun _ => id) ?_
  rintro ⟨right, rest⟩ hright
  exact .pure (.operator o hright)

theorem dot_extend (h : Reads n) (left : Expr) (ts : Rest) :
    Meets (8 * ts.length + 3 ≤ n)
      (match ts.peek with
      | .star => do
        let (each, ts) ← parseEach n Token.star.power ts.tail
        pure (.project (.values left) each, ts)
      | _ => do
        let (next, ts) ← parseMember n ts
        pure (.chain left next, ts))
      fun r => Derives (.extend left) (.dot :: tokens ts) r.1 (tokens r.2) := by
  split
  · next hpeek =>
    rw [tokens_eq_cons hpeek nofun]
    have hlength := length_eq_succ hpeek nofun
    exact h.each_bind (fun _ => by omega) fun each rest heach => .pure (.valuesOf heach)
  · refine .bind (h.member ts) ?_
    rintro ⟨next, rest⟩ hmember
    exact .pure (.memberOf hmember)

theorem lbracket_extend (h : Reads n) (left : Expr) (ts : Rest) :
    Meets (8 * ts.length + 3 ≤ n)
      (match ts.peek with
      | .number _ | .colon => parsePlaces n left ts
      | .star => do
        let ts ← expect .rbracket ts.tail
        let (each, ts) ← parseEach n Token.star.power ts
        pure (.project left each, ts)
      | other => refuse ts (.unexpectedAfterBracket other))
      fun r => Derives (.extend left) (.lbracket :: tokens ts) r.1 (tokens r.2) := by
  split
  · next hpeek => exact h.places left ts (by rw [hpeek]; rfl)
  · next hpeek => exact h.places left ts (by rw [hpeek]; rfl)
  · next hpeek =>
    rw [tokens_eq_cons hpeek nofun]
    have hlength := length_eq_succ hpeek nofun
    refine .bind (.expect .rbracket ts.tail) ?_
    intro mid hmid
    rw [hmid]
    have hlength' := congrArg List.length hmid
    simp only [length_tokens, List.length_cons] at hlength'
    exact h.each_bind (fun _ => by omega) fun each rest heach => .pure (.elements heach)
  · exact .refuse _ _

theorem extend_succ (h : Reads n) (t : Token) (left : Expr) (ts : Rest) :
    Meets (8 * ts.length + 4 ≤ n + 1) (parseExtend (n + 1) t left ts)
      fun r => Derives (.extend left) (t :: tokens ts) r.1 (tokens r.2) := by
  suffices h' : Meets (8 * ts.length + 3 ≤ n) (parseExtend (n + 1) t left ts)
      fun r => Derives (.extend left) (t :: tokens ts) r.1 (tokens r.2) from
    h'.mono (fun _ => by omega) fun _ => id
  cases t with
  | dot => exact h.dot_extend left ts
  | pipe => exact h.operator_bind .pipe left ts
  | or => exact h.operator_bind .or left ts
  | and => exact h.operator_bind .and left ts
  | eq => exact h.compare .eq left ts
  | ne => exact h.compare .ne left ts
  | lt => exact h.compare .lt left ts
  | lte => exact h.compare .le left ts
  | gt => exact h.compare .gt left ts
  | gte => exact h.compare .ge left ts
  | flatten => exact h.each_bind id fun each rest heach => .pure (.flatten heach)
  | filter => exact h.filter left ts
  | lbracket => exact h.lbracket_extend left ts
  | lparen =>
    cases left with
    | field name =>
      refine .bind (h.args name ts) ?_
      rintro ⟨args, rest⟩ hargs
      exact .pure (.call hargs)
    | _ => exact .refuse _ _
  | _ => exact .refuse _ _

theorem member_succ (h : Reads n) (ts : Rest) :
    Meets (8 * ts.length + 3 ≤ n + 1) (parseMember (n + 1) ts)
      fun r => Derives .member (tokens ts) r.1 (tokens r.2) := by
  have hexpr (hpeek : ts.peek.startsMember = true) :
      Meets (8 * ts.length + 3 ≤ n + 1) (parseExpr n Token.dot.power ts)
        fun r => Derives .member (tokens ts) r.1 (tokens r.2) :=
    (h.expr _ ts).mono (fun _ => by omega) fun _ => .member (by rwa [front_tokens])
  rw [parseMember]
  split
  · next hpeek => exact hexpr (by rw [hpeek]; rfl)
  · next hpeek => exact hexpr (by rw [hpeek]; rfl)
  · next hpeek => exact hexpr (by rw [hpeek]; rfl)
  · next hpeek =>
    rw [tokens_eq_cons hpeek nofun]
    have hlength := length_eq_succ hpeek nofun
    refine .bind ((h.list ts.tail).mono (fun _ => by omega) fun _ => id) ?_
    rintro ⟨items, rest⟩ hlist
    exact .pure (.memberItems hlist)
  · exact .refuse _ _

theorem each_succ (h : Reads n) (least : Nat) (ts : Rest) :
    Meets (8 * ts.length + 3 ≤ n + 1) (parseEach (n + 1) least ts)
      fun r => Derives (.each least) (tokens ts) r.1 (tokens r.2) := by
  have hexpr (hpeek : ts.peek.startsEach = true) :
      Meets (8 * ts.length + 3 ≤ n + 1) (parseExpr n least ts)
        fun r => Derives (.each least) (tokens ts) r.1 (tokens r.2) :=
    (h.expr _ ts).mono (fun _ => by omega) fun _ => .eachBracket (by rwa [front_tokens])
  rw [parseEach]
  split
  · next hpower => exact .pure (.done (by rwa [front_tokens]))
  split
  · next hpeek =>
    rw [tokens_eq_cons hpeek nofun]
    have hlength := length_eq_succ hpeek nofun
    refine .bind ((h.member ts.tail).mono (fun _ => by omega) fun _ => id) ?_
    rintro ⟨first, mid⟩ hfirst
    have hlt := hfirst.length_lt rfl
    simp only [length_tokens] at hlt
    exact (h.climb least first mid).mono (fun _ => by omega) fun r => .eachMember hfirst
  · next hpeek => exact hexpr (by rw [hpeek]; rfl)
  · next hpeek => exact hexpr (by rw [hpeek]; rfl)
  · exact .refuse _ _

theorem filter_succ (h : Reads n) (left : Expr) (ts : Rest) :
    Meets (8 * ts.length + 3 ≤ n + 1) (parseFilter (n + 1) left ts)
      fun r => Derives (.extend left) (.filter :: tokens ts) r.1 (tokens r.2) := by
  refine .bind ((h.expr 0 ts).mono (fun _ => by omega) fun _ => id) ?_
  rintro ⟨test, mid⟩ htest
  refine .bind (.expect .rbracket mid) ?_
  intro mid' hmid
  have hlt := htest.length_lt rfl
  rw [hmid] at htest hlt
  rw [List.length_cons, length_tokens, length_tokens] at hlt
  exact h.each_bind (fun _ => by omega) fun each rest heach => .pure (.filter htest heach)

theorem places_succ (h : Reads n) (left : Expr) (ts : Rest) (hts : ts.peek.startsPlaces = true) :
    Meets (8 * ts.length + 3 ≤ n + 1) (parsePlaces (n + 1) left ts)
      fun r => Derives (.extend left) (.lbracket :: tokens ts) r.1 (tokens r.2) := by
  rw [← front_tokens] at hts
  rw [parsePlaces]
  split
  · exact .throw _
  · next p mid hscan =>
    have hfills := fills_of_scanPlaces hscan
    split
    · next hcolons =>
      split
      · next i hstart => exact .pure (.index hts hfills hcolons hstart)
      · exact .refuse _ _
    · next hcolons =>
      split
      · exact .refuse _ _
      · next hstep =>
        have hlt := hfills.length_lt
        rw [length_tokens, length_tokens] at hlt
        exact h.each_bind (fun _ => by omega) fun each rest heach =>
          .pure (.slice hts hfills hcolons hstep heach)

theorem list_succ (h : Reads n) (ts : Rest) :
    Meets (8 * ts.length + 3 ≤ n + 1) (parseList (n + 1) ts)
      fun r => Derives .list (tokens ts) (.list r.1) (tokens r.2) := by
  refine .bind ((h.expr 0 ts).mono (fun _ => by omega) fun _ => id) ?_
  rintro ⟨item, mid⟩ hitem
  have hlt := hitem.length_lt rfl
  simp only [length_tokens] at hlt
  dsimp only
  split
  · next hpeek =>
    rw [tokens_eq_cons hpeek nofun] at hitem
    have hlength := length_eq_succ hpeek nofun
    refine .bind ((h.list mid.tail).mono (fun _ => by omega) fun _ => id) ?_
    rintro ⟨items, rest⟩ hitems
    exact .pure (.moreItems hitem hitems)
  · next hpeek =>
    rw [tokens_eq_cons hpeek nofun] at hitem
    exact .pure (.lastItem hitem)
  · exact .refuse _ _

theorem ne_eof_of_hashKey? {t : Token} {key : String} (h : hashKey? t = some key) : t ≠ .eof := by
  rintro rfl
  exact nomatch h

theorem hash_succ (h : Reads n) (ts : Rest) :
    Meets (8 * ts.length + 3 ≤ n + 1) (parseHash (n + 1) ts)
      fun r => Derives .hash (tokens ts) (.hash r.1) (tokens r.2) := by
  rw [parseHash]
  split
  · exact .refuse _ _
  · next key hkey =>
    have hne := ne_eof_of_hashKey? hkey
    have hlength := length_eq_succ rfl hne
    rw [tokens_eq_cons rfl hne]
    refine .bind (.expect .colon ts.tail) ?_
    intro body hbody
    rw [hbody]
    have hlength' := congrArg List.length hbody
    simp only [length_tokens, List.length_cons] at hlength'
    refine .bind ((h.expr 0 body).mono (fun _ => by omega) fun _ => id) ?_
    rintro ⟨value, mid⟩ hvalue
    have hlt := hvalue.length_lt rfl
    simp only [length_tokens] at hlt
    dsimp only
    split
    · next hpeek =>
      rw [tokens_eq_cons hpeek nofun] at hvalue
      have hlength'' := length_eq_succ hpeek nofun
      refine .bind ((h.hash mid.tail).mono (fun _ => by omega) fun _ => id) ?_
      rintro ⟨entries, rest⟩ hentries
      exact .pure (.moreEntries hkey hvalue hentries)
    · next hpeek =>
      rw [tokens_eq_cons hpeek nofun] at hvalue
      exact .pure (.lastEntry hkey hvalue)
    · exact .refuse _ _

theorem args_succ (h : Reads n) (name : String) (ts : Rest) :
    Meets (8 * ts.length + 3 ≤ n + 1) (parseArgs (n + 1) ts)
      fun r => Derives (.args name) (tokens ts) (.call name r.1) (tokens r.2) := by
  rw [parseArgs]
  split
  · next hpeek =>
    rw [tokens_eq_cons hpeek nofun]
    exact .pure .noArgs
  · refine .bind ((h.expr 0 ts).mono (fun _ => by omega) fun _ => id) ?_
    rintro ⟨arg, mid⟩ harg
    have hlt := harg.length_lt rfl
    simp only [length_tokens] at hlt
    dsimp only
    split
    · next hpeek =>
      rw [tokens_eq_cons hpeek nofun] at harg
      have hlength := length_eq_succ hpeek nofun
      refine .bind ((h.args name mid.tail).mono (fun _ => by omega) fun _ => id) ?_
      rintro ⟨args, rest⟩ hargs
      exact .pure (.moreArgs harg hargs)
    · next hpeek =>
      rw [tokens_eq_cons hpeek nofun] at harg
      exact .pure (.lastArg harg)
    · exact .refuse _ _

end Reads

theorem reads (n : Nat) : Reads n := by
  induction n with
  | zero => exact reads_zero
  | succ n h =>
    exact ⟨h.expr_succ, h.climb_succ, h.start_succ, h.extend_succ, h.compare_succ, h.member_succ,
      h.each_succ, h.filter_succ, h.places_succ, h.list_succ, h.hash_succ, h.args_succ⟩

/-! ## What is derived is returned -/

/-- What is derived is returned, unless `n` steps of fuel are too few. -/
structure Returns (n : Nat) : Prop where
  expr {least : Nat} {ts : Rest} {e : Expr} {left : List Token} :
    Derives (.expr least) (tokens ts) e left → Agrees (parseExpr n least ts) e left
  climb {least : Nat} {first : Expr} {ts : Rest} {e : Expr} {left : List Token} :
    Derives (.climb least first) (tokens ts) e left → Agrees (parseClimb n least first ts) e left
  start {t : Token} {ts : Rest} {e : Expr} {left : List Token} :
    Derives .start (t :: tokens ts) e left → Agrees (parseStart n t ts) e left
  extend {first : Expr} {t : Token} {ts : Rest} {e : Expr} {left : List Token} :
    Derives (.extend first) (t :: tokens ts) e left → Agrees (parseExtend n t first ts) e left
  compare {op : Comparator} {first right : Expr} {ts : Rest} {left : List Token} :
    Derives (.expr Token.eq.power) (tokens ts) right left →
      Agrees (parseCompare n op first ts) (.compare op first right) left
  member {ts : Rest} {e : Expr} {left : List Token} :
    Derives .member (tokens ts) e left → Agrees (parseMember n ts) e left
  each {least : Nat} {ts : Rest} {e : Expr} {left : List Token} :
    Derives (.each least) (tokens ts) e left → Agrees (parseEach n least ts) e left
  filter {first test each : Expr} {ts : Rest} {mid left : List Token} :
    Derives (.expr 0) (tokens ts) test (.rbracket :: mid) →
      Derives (.each Token.filter.power) mid each left →
      Agrees (parseFilter n first ts) (.filter first test each) left
  index {first : Expr} {p : Places} {i : Int} {ts : Rest} {left : List Token} :
    Fills .empty (tokens ts) p left → p.colons = 0 → p.slice.start = some i →
      Agrees (parsePlaces n first ts) (.chain first (.index i)) left
  slice {first each : Expr} {p : Places} {ts : Rest} {mid left : List Token} :
    Fills .empty (tokens ts) p mid → p.colons ≠ 0 → p.slice.step ≠ some 0 →
      Derives (.each Token.star.power) mid each left →
      Agrees (parsePlaces n first ts) (.project (.chain first (.slice p.slice)) each) left
  list {ts : Rest} {items : List Expr} {left : List Token} :
    Derives .list (tokens ts) (.list items) left → Agrees (parseList n ts) items left
  hash {ts : Rest} {entries : List (String × Expr)} {left : List Token} :
    Derives .hash (tokens ts) (.hash entries) left → Agrees (parseHash n ts) entries left
  args {name : String} {ts : Rest} {args : List Expr} {left : List Token} :
    Derives (.args name) (tokens ts) (.call name args) left → Agrees (parseArgs n ts) args left

theorem returns_zero : Returns 0 := by
  constructor <;> intros <;> exact .spent

/-- Brackets that may stand after an expression are read alike where none stands before them. -/
theorem parseStart_eq_parseExtend {t : Token} {ts : Rest}
    (h : Token.opensProjection (t :: tokens ts) = true) (n : Nat) :
    parseStart n t ts = parseExtend n t .current ts := by
  cases n with
  | zero => rfl
  | succ n =>
    cases t with
    | flatten | filter => rfl
    | lbracket =>
      match ts, h with
      | ⟨_, .number _⟩ :: _, _ | ⟨_, .colon⟩ :: _, _ => rfl
      | ⟨_, .star⟩ :: ⟨_, .rbracket⟩ :: _, _ => rfl
    | _ => exact nomatch h

theorem exists_lexeme {ts : Rest} {t : Token} {rest : List Token} (h : tokens ts = t :: rest) :
    ∃ l ts', ts = l :: ts' ∧ l.token = t ∧ tokens ts' = rest := List.map_eq_cons_iff.1 h

theorem parseExtend_lbracket {ts : Rest} (h : (front (tokens ts)).startsPlaces = true) (n : Nat)
    (left : Expr) : parseExtend (n + 1) .lbracket left ts = parsePlaces n left ts := by
  rw [front_tokens] at h
  obtain hpeek | ⟨k, hpeek⟩ := Token.startsPlaces_iff.1 h <;> rw [parseExtend, hpeek]

theorem expect_eq {wanted : Token} (h : wanted.IsExpected) {ts : Rest} {rest : List Token}
    (hts : tokens ts = wanted :: rest) :
    expect wanted ts = pure ts.tail ∧ tokens ts.tail = rest := by
  obtain ⟨l, ts, rfl, hl, rfl⟩ := exists_lexeme hts
  exact ⟨by rw [expect, peek_cons, if_pos (h.beq_iff.2 hl), List.tail_cons], rfl⟩

namespace Returns

variable {n : Nat}

theorem expr_succ (h : Returns n) {least : Nat} {ts : Rest} {e : Expr} {left : List Token}
    (hd : Derives (.expr least) (tokens ts) e left) :
    Agrees (parseExpr (n + 1) least ts) e left := by
  generalize htoks : tokens ts = toks at hd
  cases hd with
  | expr h₁ h₂ =>
    cases ts with
    | nil =>
      cases htoks
      exact nomatch h₁.startsExpr_of_start
    | cons l ts =>
      subst htoks
      refine .bind (h.start h₁) fun mid hmid => ?_
      subst hmid
      exact h.climb h₂

theorem climb_succ (h : Returns n) {least : Nat} {first : Expr} {ts : Rest} {e : Expr}
    {left : List Token} (hd : Derives (.climb least first) (tokens ts) e left) :
    Agrees (parseClimb (n + 1) least first ts) e left := by
  generalize htoks : tokens ts = toks at hd
  cases hd with
  | stop hpower =>
    subst htoks
    rw [front_tokens] at hpower
    rw [parseClimb, if_neg (Nat.not_lt.2 hpower)]
    exact .pure rfl
  | step hpower h₁ h₂ =>
    obtain ⟨l, ts, rfl, rfl, rfl⟩ := exists_lexeme htoks
    rw [parseClimb, peek_cons, if_pos hpower]
    refine .bind (h.extend h₁) fun mid hmid => ?_
    subst hmid
    exact h.climb h₂

theorem compare_succ (h : Returns n) {op : Comparator} {first right : Expr} {ts : Rest}
    {left : List Token} (hd : Derives (.expr Token.eq.power) (tokens ts) right left) :
    Agrees (parseCompare (n + 1) op first ts) (.compare op first right) left :=
  .bind (h.expr hd) fun _ => .pure

theorem operator_extend (h : Returns n) (o : Operator) {first right : Expr} {ts : Rest}
    {left : List Token} (hd : Derives (.expr o.power) (tokens ts) right left) :
    Agrees (parseExtend (n + 1) o.token first ts) (o.apply first right) left := by
  cases o with
  | compare op =>
    rw [Operator.power_compare] at hd
    cases op <;> exact h.compare hd
  | _ => exact .bind (h.expr hd) fun _ => .pure

theorem dot_extend (h : Returns n) {first next : Expr} {ts : Rest} {left : List Token}
    (hd : Derives .member (tokens ts) next left) :
    Agrees (parseExtend (n + 1) .dot first ts) (.chain first next) left := by
  rw [parseExtend]
  split
  · next hpeek =>
    rw [tokens_eq_cons hpeek nofun] at hd
    cases hd with
    | member hfront => exact nomatch hfront
  · exact .bind (h.member hd) fun _ => .pure

theorem extend_succ (h : Returns n) {first : Expr} {t : Token} {ts : Rest} {e : Expr}
    {left : List Token} (hd : Derives (.extend first) (t :: tokens ts) e left) :
    Agrees (parseExtend (n + 1) t first ts) e left := by
  generalize htoks : tokens ts = toks at hd
  cases hd with
  | valuesOf hd =>
    obtain ⟨l, ts, rfl, hl, rfl⟩ := exists_lexeme htoks
    rw [parseExtend, peek_cons, hl]
    exact .bind (h.each hd) fun _ => .pure
  | memberOf hd =>
    subst htoks
    exact h.dot_extend hd
  | operator o hd =>
    subst htoks
    exact h.operator_extend o hd
  | flatten hd =>
    subst htoks
    exact .bind (h.each hd) fun _ => .pure
  | elements hd =>
    obtain ⟨l, ts, rfl, hl, hts⟩ := exists_lexeme htoks
    obtain ⟨hexpect, rfl⟩ := expect_eq .rbracket hts
    rw [parseExtend, peek_cons, hl]
    show Agrees (expect .rbracket ts >>= _) _ _
    rw [hexpect]
    exact .bind (h.each hd) fun _ => .pure
  | filter htest heach =>
    subst htoks
    exact h.filter htest heach
  | index hts hfills hcolons hstart =>
    subst htoks
    rw [parseExtend_lbracket hts]
    exact h.index hfills hcolons hstart
  | slice hts hfills hcolons hstep heach =>
    subst htoks
    rw [parseExtend_lbracket hts]
    exact h.slice hfills hcolons hstep heach
  | call hd =>
    subst htoks
    exact .bind (h.args hd) fun _ => .pure

theorem lbracket_start (h : Returns n) {ts : Rest} {items : List Expr} {left : List Token}
    (hopens : Token.opensProjection (.lbracket :: tokens ts) = false)
    (hd : Derives .list (tokens ts) (.list items) left) :
    Agrees (parseStart (n + 1) .lbracket ts) (.list items) left := by
  rw [parseStart]
  split
  · next hpeek =>
    rw [tokens_eq_cons hpeek (by simp)] at hopens
    exact Bool.noConfusion hopens
  · next hpeek =>
    rw [tokens_eq_cons hpeek (by simp)] at hopens
    exact Bool.noConfusion hopens
  · next hpeek hpeek' =>
    rw [tokens_eq_cons hpeek (by simp), tokens_eq_cons hpeek' (by simp)] at hopens
    exact Bool.noConfusion hopens
  · exact .bind (h.list hd) fun rest hrest => .pure hrest

theorem start_succ (h : Returns n) {t : Token} {ts : Rest} {e : Expr} {left : List Token}
    (hd : Derives .start (t :: tokens ts) e left) : Agrees (parseStart (n + 1) t ts) e left := by
  cases hd with
  | atom hatom =>
    cases t <;> first | (cases hatom; exact .pure rfl) | exact nomatch hatom
  | projection hopens hd =>
    rw [parseStart_eq_parseExtend hopens]
    exact h.extend_succ hd
  | values hd => exact .bind (h.each hd) fun rest hrest => .pure hrest
  | items hopens hd => exact h.lbracket_start hopens hd
  | entries hd => exact .bind (h.hash hd) fun rest hrest => .pure hrest
  | group hd =>
    refine .bind (h.expr hd) fun mid hmid => ?_
    obtain ⟨hexpect, hrest⟩ := expect_eq .rparen hmid
    show Agrees (expect .rparen mid >>= _) _ _
    rw [hexpect]
    exact .pure hrest
  | not hd => exact .bind (h.expr hd) fun rest hrest => .pure hrest
  | reference hd => exact .bind (h.expr hd) fun rest hrest => .pure hrest

theorem member_succ (h : Returns n) {ts : Rest} {e : Expr} {left : List Token}
    (hd : Derives .member (tokens ts) e left) : Agrees (parseMember (n + 1) ts) e left := by
  generalize htoks : tokens ts = toks at hd
  cases hd with
  | member hfront hd =>
    subst htoks
    rw [front_tokens] at hfront
    obtain ⟨name, hpeek⟩ | ⟨name, hpeek⟩ | hpeek := Token.startsMember_iff.1 hfront <;>
      rw [parseMember, hpeek] <;> exact h.expr hd
  | memberItems hd =>
    obtain ⟨l, ts, rfl, hl, rfl⟩ := exists_lexeme htoks
    rw [parseMember, peek_cons, hl]
    exact .bind (h.list hd) fun _ => .pure

theorem each_succ (h : Returns n) {least : Nat} {ts : Rest} {e : Expr} {left : List Token}
    (hd : Derives (.each least) (tokens ts) e left) :
    Agrees (parseEach (n + 1) least ts) e left := by
  generalize htoks : tokens ts = toks at hd
  cases hd with
  | done hpower =>
    subst htoks
    rw [front_tokens] at hpower
    rw [parseEach, if_pos hpower]
    exact .pure rfl
  | eachMember hfirst hd =>
    obtain ⟨l, ts, rfl, hl, rfl⟩ := exists_lexeme htoks
    rw [parseEach, peek_cons, hl, if_neg (by decide)]
    refine .bind (h.member hfirst) fun mid hmid => ?_
    subst hmid
    exact h.climb hd
  | eachBracket hfront hd =>
    subst htoks
    rw [front_tokens] at hfront
    obtain hpeek | hpeek := Token.startsEach_iff.1 hfront <;>
      rw [parseEach, hpeek, if_neg (by decide)] <;> exact h.expr hd

theorem filter_succ (h : Returns n) {first test each : Expr} {ts : Rest} {mid left : List Token}
    (htest : Derives (.expr 0) (tokens ts) test (.rbracket :: mid))
    (heach : Derives (.each Token.filter.power) mid each left) :
    Agrees (parseFilter (n + 1) first ts) (.filter first test each) left := by
  refine .bind (h.expr htest) fun rest hrest => ?_
  obtain ⟨hexpect, rfl⟩ := expect_eq .rbracket hrest
  show Agrees (expect .rbracket rest >>= _) _ _
  rw [hexpect]
  exact .bind (h.each heach) fun _ => .pure

theorem index_succ {first : Expr} {p : Places} {i : Int} {ts : Rest} {left : List Token}
    (hfills : Fills .empty (tokens ts) p left) (hcolons : p.colons = 0)
    (hstart : p.slice.start = some i) :
    Agrees (parsePlaces (n + 1) first ts) (.chain first (.index i)) left := by
  obtain ⟨rest, hrest, hscan⟩ := scanPlaces_of_fills hfills
  rw [Places.empty] at hscan
  simp only [parsePlaces, hscan, if_pos hcolons, hstart]
  exact .pure hrest

theorem slice_succ (h : Returns n) {first each : Expr} {p : Places} {ts : Rest}
    {mid left : List Token} (hfills : Fills .empty (tokens ts) p mid) (hcolons : p.colons ≠ 0)
    (hstep : p.slice.step ≠ some 0) (heach : Derives (.each Token.star.power) mid each left) :
    Agrees (parsePlaces (n + 1) first ts) (.project (.chain first (.slice p.slice)) each) left := by
  obtain ⟨rest, rfl, hscan⟩ := scanPlaces_of_fills hfills
  rw [Places.empty] at hscan
  simp only [parsePlaces, hscan, if_neg hcolons, if_neg hstep]
  exact .bind (h.each heach) fun _ => .pure

theorem list_succ (h : Returns n) {ts : Rest} {items : List Expr} {left : List Token}
    (hd : Derives .list (tokens ts) (.list items) left) :
    Agrees (parseList (n + 1) ts) items left := by
  generalize htoks : tokens ts = toks at hd
  cases hd with
  | moreItems hitem hitems =>
    subst htoks
    refine .bind (h.expr hitem) fun mid hmid => ?_
    obtain ⟨l, mid, rfl, hl, rfl⟩ := exists_lexeme hmid
    simp only [peek_cons, hl]
    exact .bind (h.list hitems) fun _ => .pure
  | lastItem hitem =>
    subst htoks
    refine .bind (h.expr hitem) fun mid hmid => ?_
    obtain ⟨l, mid, rfl, hl, rfl⟩ := exists_lexeme hmid
    simp only [peek_cons, hl]
    exact .pure rfl

theorem hash_succ (h : Returns n) {ts : Rest} {entries : List (String × Expr)}
    {left : List Token} (hd : Derives .hash (tokens ts) (.hash entries) left) :
    Agrees (parseHash (n + 1) ts) entries left := by
  generalize htoks : tokens ts = toks at hd
  cases hd with
  | moreEntries hkey hvalue hentries =>
    obtain ⟨l, ts, rfl, rfl, hts⟩ := exists_lexeme htoks
    obtain ⟨hexpect, rfl⟩ := expect_eq .colon hts
    simp only [parseHash, peek_cons, hkey, List.tail_cons, hexpect]
    refine .bind (h.expr hvalue) fun mid hmid => ?_
    obtain ⟨l, mid, rfl, hl, rfl⟩ := exists_lexeme hmid
    simp only [peek_cons, hl]
    exact .bind (h.hash hentries) fun _ => .pure
  | lastEntry hkey hvalue =>
    obtain ⟨l, ts, rfl, rfl, hts⟩ := exists_lexeme htoks
    obtain ⟨hexpect, rfl⟩ := expect_eq .colon hts
    simp only [parseHash, peek_cons, hkey, List.tail_cons, hexpect]
    refine .bind (h.expr hvalue) fun mid hmid => ?_
    obtain ⟨l, mid, rfl, hl, rfl⟩ := exists_lexeme hmid
    simp only [peek_cons, hl]
    exact .pure rfl

theorem args_succ (h : Returns n) {name : String} {ts : Rest} {args : List Expr}
    {left : List Token} (hd : Derives (.args name) (tokens ts) (.call name args) left) :
    Agrees (parseArgs (n + 1) ts) args left := by
  -- an argument does not begin with the closing parenthesis
  have hparen {arg : Expr} {mid : List Token} (harg : Derives (.expr 0) (tokens ts) arg mid) :
      ts.peek ≠ .rparen := fun hpeek => by
    have := harg.startsExpr
    rw [front_tokens, hpeek] at this
    exact nomatch this
  generalize htoks : tokens ts = toks at hd hparen
  cases hd with
  | noArgs =>
    obtain ⟨l, ts, rfl, hl, rfl⟩ := exists_lexeme htoks
    rw [parseArgs, peek_cons, hl]
    exact .pure rfl
  | moreArgs harg hargs =>
    have hne := hparen harg
    subst htoks
    simp only [parseArgs]
    refine .bind (h.expr harg) fun mid hmid => ?_
    obtain ⟨l, mid, rfl, hl, rfl⟩ := exists_lexeme hmid
    simp only [peek_cons, hl]
    exact .bind (h.args hargs) fun _ => .pure
  | lastArg harg =>
    have hne := hparen harg
    subst htoks
    simp only [parseArgs]
    refine .bind (h.expr harg) fun mid hmid => ?_
    obtain ⟨l, mid, rfl, hl, rfl⟩ := exists_lexeme hmid
    simp only [peek_cons, hl]
    exact .pure rfl

end Returns

theorem returns (n : Nat) : Returns n := by
  induction n with
  | zero => exact returns_zero
  | succ n h =>
    exact ⟨h.expr_succ, h.climb_succ, h.start_succ, h.extend_succ, h.compare_succ, h.member_succ,
      h.each_succ, h.filter_succ, Returns.index_succ, h.slice_succ, h.list_succ, h.hash_succ,
      h.args_succ⟩

/-! ## Whole queries -/

/-- The fuel is enough, and what the parser returns is derived from all the tokens. -/
theorem meets_parseAll (ts : Rest) : Meets True (parseAll ts) fun e =>
    ∃ rest, Derives (.expr 0) (tokens ts) e (tokens rest) ∧ rest.peek = .eof := by
  refine .bind (((reads (parseFuel ts)).expr 0 ts).mono (fun _ => ?_) fun _ => id) ?_
  · rw [parseFuel]
    omega
  · rintro ⟨e, rest⟩ hexpr
    dsimp only
    split
    · next hpeek => exact .pure ⟨rest, hexpr, hpeek⟩
    · exact .refuse _ _

/-- If no lexeme is the end, the parser returns what is derived from all the tokens. -/
theorem parseAll_eq_ok_iff {ts : Rest} (heof : ∀ t ∈ tokens ts, t ≠ .eof) {e : Expr} :
    (parseAll ts).run = some (.ok e) ↔ Derives (.expr 0) (tokens ts) e [] := by
  constructor
  · intro h
    obtain ⟨rest, hexpr, hpeek⟩ := (meets_parseAll ts).of_ok h
    cases rest with
    | nil => exact hexpr
    | cons l rest => exact absurd hpeek (heof _ (hexpr.suffix.subset (by simp)))
  · intro h
    have hexpr : Agrees (parseExpr (parseFuel ts) 0 ts) e [] := (returns _).expr h
    have hne := ((reads (parseFuel ts)).expr 0 ts).settles (by rw [parseFuel]; omega)
    obtain hnone | ⟨rest, hrest, hrun⟩ := hexpr
    · exact absurd hnone hne
    · rw [parseAll, run_bind, hrun]
      rw [List.map_eq_nil_iff.1 hrest]
      rfl

end ResourceGraph.Query
