import ResourceGraph.Proofs.Query.Lexing

/-!
# Indexes and slices

A bracket with a number or a colon after it is read if its tokens are one number, or up to three
optional numbers with colons between them. Where a number directly follows another in the same
place, the parser keeps the last one: what it reads is what the tokens spell without the others.
-/
namespace ResourceGraph.Query

open Token (front)

/-- What a bracket with a number or a colon after it stands for. -/
inductive Bracket where
  | index (i : Int)
  | slice (s : Slice)

/-! ## What the tokens in a bracket spell -/

def Token.isNumber : Token → Bool
  | .number _ => true
  | _ => false

/-- An optional number. -/
def optional (n : Option Int) : List Token := n.toList.map .number

/-- One number, or two or three optional numbers with colons between them. The third is not zero. -/
inductive Spells : List Token → Bracket → Prop
  | index (i : Int) : Spells [.number i] (.index i)
  | span (start stop : Option Int) :
      Spells (optional start ++ .colon :: optional stop) (.slice ⟨start, stop, none⟩)
  | stride (start stop step : Option Int) : step ≠ some 0 →
      Spells (optional start ++ .colon :: (optional stop ++ .colon :: optional step))
        (.slice ⟨start, stop, step⟩)

/-- No number stands directly before another. -/
def NumbersApart : List Token → Prop
  | [] => True
  | t :: ts => ¬ (t.isNumber ∧ (front ts).isNumber) ∧ NumbersApart ts

theorem Spells.numbersApart {inner : List Token} {b : Bracket} (h : Spells inner b) :
    NumbersApart inner := by
  cases h with
  | index i => simp [NumbersApart, Token.isNumber]
  | span start stop =>
    cases start <;> cases stop <;> simp [optional, NumbersApart, Token.isNumber]
  | stride start stop step _ =>
    cases start <;> cases stop <;> cases step <;> simp [optional, NumbersApart, Token.isNumber]

/-- The tokens without the numbers that stand directly before another. -/
def keepLast : List Token → List Token
  | [] => []
  | t :: ts => if t.isNumber ∧ (front ts).isNumber then keepLast ts else t :: keepLast ts

theorem keepLast_eq_self {ts : List Token} (h : NumbersApart ts) : keepLast ts = ts := by
  induction ts with
  | nil => rfl
  | cons t ts ih => rw [keepLast, if_neg h.1, ih h.2]

theorem front_keepLast {ts : List Token} (h : ¬ (front ts).isNumber) :
    front (keepLast ts) = front ts := by
  cases ts with
  | nil => rfl
  | cons t ts => rw [keepLast, if_neg fun hboth => h hboth.1]; rfl

theorem numbersApart_keepLast (ts : List Token) : NumbersApart (keepLast ts) := by
  induction ts with
  | nil => trivial
  | cons t ts ih =>
    rw [keepLast]
    split
    · exact ih
    · next hnot =>
      refine ⟨fun hboth => hnot ⟨hboth.1, ?_⟩, ih⟩
      by_contra hfront
      exact hfront (front_keepLast hfront ▸ hboth.2)

/-- Tokens with no two numbers side by side start with an optional number. -/
theorem NumbersApart.exists_optional {ts : List Token} (h : NumbersApart ts) :
    ∃ n rest, ts = optional n ++ rest ∧ NumbersApart rest ∧ (front rest).isNumber = false := by
  cases ts with
  | nil => exact ⟨none, [], rfl, trivial, rfl⟩
  | cons t ts =>
    cases t with
    | number n => exact ⟨some n, ts, rfl, h.2, by simpa using fun hfront => h.1 ⟨rfl, hfront⟩⟩
    | _ => exact ⟨none, _, rfl, h, rfl⟩

/-! ## What the parser makes of them -/

namespace Places

/-- The places after numbers and colons. -/
def fill? : Places → List Token → Option Places
  | p, [] => some p
  | p, .number n :: ts => (p.put n).fill? ts
  | p, .colon :: ts =>
    if p.colons < 2 then { p with colons := p.colons + 1 : Places }.fill? ts else none
  | _, _ :: _ => none

/-- Without a colon an index, else a slice. -/
def bracket? (p : Places) : Option Bracket :=
  if p.colons = 0 then p.slice.start.map .index
  else if p.slice.step = some 0 then none else some (.slice p.slice)

theorem put_put (p : Places) (m n : Int) : (p.put m).put n = p.put n := by
  obtain ⟨slice, colons⟩ := p
  match colons with
  | 0 | 1 | _ + 2 => rfl

theorem fill?_keepLast (p : Places) (ts : List Token) : p.fill? (keepLast ts) = p.fill? ts := by
  induction ts generalizing p with
  | nil => rfl
  | cons t ts ih =>
    rw [keepLast]
    split
    · next hboth =>
      match t, ts, hboth with
      | .number m, .number n :: ts, _ => rw [ih, fill?, fill?, fill?, put_put]
    · cases t with
      | number n => rw [fill?, fill?, ih]
      | colon => rw [fill?, fill?, ih]
      | _ => rfl

end Places

theorem fills_iff {p q : Places} {ts rest : List Token} :
    Fills p ts q rest ↔ ∃ inner, ts = inner ++ .rbracket :: rest ∧ p.fill? inner = some q := by
  constructor
  · intro h
    induction h with
    | close => exact ⟨[], rfl, rfl⟩
    | @number _ _ n _ _ _ ih =>
      obtain ⟨inner, rfl, hfill⟩ := ih
      exact ⟨.number n :: inner, rfl, hfill⟩
    | colon hcolons _ ih =>
      obtain ⟨inner, rfl, hfill⟩ := ih
      exact ⟨.colon :: inner, rfl, by rw [Places.fill?, if_pos hcolons, hfill]⟩
  · rintro ⟨inner, rfl, hfill⟩
    induction inner generalizing p with
    | nil =>
      cases hfill
      exact .close
    | cons t inner ih =>
      cases t with
      | number n => exact .number (ih hfill)
      | colon =>
        rw [Places.fill?] at hfill
        split at hfill
        · next hcolons => exact .colon hcolons (ih hfill)
        · exact nomatch hfill
      | _ => exact nomatch hfill

/-- Where no number comes first, the places are full or a colon opens the next one. -/
theorem Places.fill?_cases {p q : Places} {ts : List Token} (hfront : (front ts).isNumber = false)
    (h : p.fill? ts = some q) :
    (ts = [] ∧ p = q) ∨ ∃ rest, ts = .colon :: rest ∧ p.colons < 2 ∧
      { p with colons := p.colons + 1 : Places }.fill? rest = some q := by
  cases ts with
  | nil => exact .inl ⟨rfl, Option.some.inj h⟩
  | cons t rest =>
    cases t with
    | number n => exact nomatch hfront
    | colon =>
      rw [Places.fill?] at h
      split at h
      · next hcolons => exact .inr ⟨rest, rfl, hcolons, h⟩
      · exact nomatch h
    | _ => exact nomatch h

theorem spells_of_fill? {inner : List Token} {q : Places} {b : Bracket} (h : NumbersApart inner)
    (hfill : Places.empty.fill? inner = some q) (hb : q.bracket? = some b) : Spells inner b := by
  obtain ⟨start, rest, rfl, hrest, hfront⟩ := h.exists_optional
  replace hfill : Places.fill? ⟨⟨start, none, none⟩, 0⟩ rest = some q := by
    cases start <;> exact hfill
  obtain ⟨rfl, rfl⟩ | ⟨rest, rfl, _, hfill⟩ := Places.fill?_cases hfront hfill
  · obtain ⟨i, rfl, rfl⟩ := Option.map_eq_some_iff.1 hb
    exact .index i
  obtain ⟨stop, rest, rfl, hrest, hfront⟩ := hrest.2.exists_optional
  replace hfill : Places.fill? ⟨⟨start, stop, none⟩, 1⟩ rest = some q := by
    cases stop <;> exact hfill
  obtain ⟨rfl, rfl⟩ | ⟨rest, rfl, _, hfill⟩ := Places.fill?_cases hfront hfill
  · cases hb
    simpa using Spells.span start stop
  obtain ⟨step, rest, rfl, hrest, hfront⟩ := hrest.2.exists_optional
  replace hfill : Places.fill? ⟨⟨start, stop, step⟩, 2⟩ rest = some q := by
    cases step <;> exact hfill
  obtain ⟨rfl, rfl⟩ | ⟨_, _, hcolons, _⟩ := Places.fill?_cases hfront hfill
  · have hstep : step ≠ some 0 ∧ Bracket.slice ⟨start, stop, step⟩ = b := by
      simpa [Places.bracket?] using hb
    obtain ⟨hstep, rfl⟩ := hstep
    simpa using Spells.stride start stop step hstep
  · exact absurd hcolons (Nat.lt_irrefl 2)

theorem exists_fill?_of_spells {inner : List Token} {b : Bracket} (h : Spells inner b) :
    ∃ q, Places.empty.fill? inner = some q ∧ q.bracket? = some b := by
  cases h with
  | index i => exact ⟨_, rfl, rfl⟩
  | span start stop =>
    refine ⟨⟨⟨start, stop, none⟩, 1⟩, ?_, rfl⟩
    cases start <;> cases stop <;> rfl
  | stride start stop step hstep =>
    refine ⟨⟨⟨start, stop, step⟩, 2⟩, ?_, by simp [Places.bracket?, hstep]⟩
    cases start <;> cases stop <;> cases step <;> rfl

/-- The tokens after an opening bracket spell `b` up to the closing one, without the numbers that
stand directly before another, and `rest` follows. -/
def Encloses (ts : List Token) (b : Bracket) (rest : List Token) : Prop :=
  ∃ inner, ts = inner ++ .rbracket :: rest ∧ Spells (keepLast inner) b

theorem encloses_iff {ts rest : List Token} {b : Bracket} :
    Encloses ts b rest ↔ ∃ q, Fills .empty ts q rest ∧ q.bracket? = some b := by
  constructor
  · rintro ⟨inner, rfl, hspells⟩
    obtain ⟨q, hfill, hb⟩ := exists_fill?_of_spells hspells
    rw [Places.fill?_keepLast] at hfill
    exact ⟨q, fills_iff.2 ⟨inner, rfl, hfill⟩, hb⟩
  · rintro ⟨q, hfills, hb⟩
    obtain ⟨inner, rfl, hfill⟩ := fills_iff.1 hfills
    rw [← Places.fill?_keepLast] at hfill
    exact ⟨inner, rfl, spells_of_fill? (numbersApart_keepLast inner) hfill hb⟩

/-! ## What the parser does with a bracket -/

/-- After an index nothing more is read, after a slice what applies to its elements. -/
def Bracket.goOn (n : Nat) (left : Expr) (ts : Rest) : Bracket → Attempt (Expr × Rest)
  | .index i => pure (.chain left (.index i), ts)
  | .slice s => do
    let (each, ts) ← parseEach n Token.star.power ts
    pure (.project (.chain left (.slice s)) each, ts)

theorem parsePlaces_of_encloses {ts : Rest} {b : Bracket} {rest : List Token}
    (h : Encloses (tokens ts) b rest) : ∃ ts', tokens ts' = rest ∧
      ∀ (n : Nat) (left : Expr), parsePlaces (n + 1) left ts = b.goOn n left ts' := by
  obtain ⟨q, hfills, hb⟩ := encloses_iff.1 h
  obtain ⟨ts', hrest, hscan⟩ := scanPlaces_of_fills hfills
  refine ⟨ts', hrest, fun n left => ?_⟩
  rw [Places.empty] at hscan
  simp only [parsePlaces, hscan]
  rw [Places.bracket?] at hb
  split at hb
  · next hcolons =>
    obtain ⟨i, hi, rfl⟩ := Option.map_eq_some_iff.1 hb
    rw [if_pos hcolons, hi]
    rfl
  · next hcolons =>
    obtain ⟨hstep, hslice⟩ := Option.ite_none_left_eq_some.1 hb
    cases hslice
    rw [if_neg hcolons, if_neg hstep]
    rfl

theorem parsePlaces_of_not_encloses {ts : Rest} (h : ∀ b rest, ¬ Encloses (tokens ts) b rest)
    (n : Nat) (left : Expr) : ∃ refusal, parsePlaces (n + 1) left ts = throw refusal := by
  rw [parsePlaces]
  split
  · exact ⟨_, rfl⟩
  · next q ts' hscan =>
    have hnone : q.bracket? = none :=
      Option.eq_none_iff_forall_ne_some.2 fun b hb =>
        h b (tokens ts') (encloses_iff.2 ⟨q, fills_of_scanPlaces hscan, hb⟩)
    rw [Places.bracket?] at hnone
    split at hnone
    · next hcolons =>
      rw [if_pos hcolons, Option.map_eq_none_iff.1 hnone]
      exact ⟨_, rfl⟩
    · next hcolons =>
      have hstep : q.slice.step = some 0 := by simpa using hnone
      rw [if_neg hcolons, if_pos hstep]
      exact ⟨_, rfl⟩

/-! ## The brackets of an expression -/

mutual

/-- The indexes and slices of an expression, in the order of its text. -/
def Expr.brackets : Expr → List Bracket
  | .current | .field _ | .literal _ => []
  | .index i => [.index i]
  | .slice s => [.slice s]
  | .chain first next => first.brackets ++ next.brackets
  | .project source each => source.brackets ++ each.brackets
  | .filter source test each => source.brackets ++ test.brackets ++ each.brackets
  | .values source | .flatten source => source.brackets
  | .list items => bracketsOfList items
  | .hash entries => bracketsOfEntries entries
  | .not e | .reference e => e.brackets
  | .and left right | .or left right | .compare _ left right => left.brackets ++ right.brackets
  | .call _ args => bracketsOfList args

def bracketsOfList : List Expr → List Bracket
  | [] => []
  | e :: es => e.brackets ++ bracketsOfList es

def bracketsOfEntries : List (String × Expr) → List Bracket
  | [] => []
  | (_, e) :: entries => e.brackets ++ bracketsOfEntries entries

end

/-- In the tokens stand the brackets `bs`, and no others open an index or a slice. -/
inductive Brackets : List Token → List Bracket → Prop
  | nil : Brackets [] []
  | other {t : Token} {ts : List Token} {bs : List Bracket} :
      t ≠ .lbracket → Brackets ts bs → Brackets (t :: ts) bs
  | list {t : Token} {ts : List Token} {bs : List Bracket} :
      t.startsPlaces = false → Brackets (t :: ts) bs → Brackets (.lbracket :: t :: ts) bs
  | places {ts rest : List Token} {b : Bracket} {bs : List Bracket} :
      (front ts).startsPlaces = true → Encloses ts b rest → Brackets rest bs →
      Brackets (.lbracket :: ts) (b :: bs)

theorem Brackets.list_of_startsExpr {ts : List Token} {bs : List Bracket}
    (hfront : (front ts).startsExpr = true) (h : Brackets ts bs) :
    Brackets (.lbracket :: ts) bs := by
  cases ts with
  | nil => exact nomatch hfront
  | cons t ts => exact .list (by cases t <;> first | rfl | exact nomatch hfront) h

/-- The brackets that stand before the form. -/
def Form.brackets : Form → List Bracket
  | .climb _ left | .extend left => left.brackets
  | _ => []

theorem Token.ne_lbracket_of_atom? {t : Token} {e : Expr} (h : t.atom? = some e) :
    t ≠ .lbracket ∧ e.brackets = [] := by
  cases t with
  | identifier | quotedIdentifier | literal | current =>
    cases h
    exact ⟨nofun, by rw [Expr.brackets]⟩
  | _ => exact nomatch h

theorem Token.ne_lbracket_of_hashKey? {t : Token} {key : String} (h : hashKey? t = some key) :
    t ≠ .lbracket := by
  rintro rfl
  exact nomatch h

theorem Operator.token_ne_lbracket (o : Operator) : o.token ≠ .lbracket := by
  cases o with
  | compare op => cases op <;> exact nofun
  | _ => exact nofun

theorem Operator.brackets_apply (o : Operator) (left right : Expr) :
    (o.apply left right).brackets = left.brackets ++ right.brackets := by
  cases o <;> rw [apply, Expr.brackets]

theorem Derives.startsExpr_of_list {ts rest : List Token} {e : Expr}
    (h : Derives .list ts e rest) : (front ts).startsExpr = true := by
  cases h with
  | moreItems hitem _ => exact hitem.startsExpr
  | lastItem hitem => exact hitem.startsExpr

/-- The indexes and slices of an expression are those that its tokens spell, in their order. -/
theorem Derives.exists_brackets {form : Form} {ts rest : List Token} {e : Expr}
    (h : Derives form ts e rest) : ∃ bs, e.brackets = form.brackets ++ bs ∧
      ∀ cs, Brackets rest cs → Brackets ts (bs ++ cs) := by
  induction h with
  | expr _ _ ih₁ ih₂ =>
    obtain ⟨bs₁, he₁, h₁⟩ := ih₁
    obtain ⟨bs₂, he₂, h₂⟩ := ih₂
    exact ⟨bs₁ ++ bs₂, by rw [he₂, Form.brackets, he₁]; rfl,
      fun cs h => by rw [List.append_assoc]; exact h₁ _ (h₂ _ h)⟩
  | stop => exact ⟨[], (List.append_nil _).symm, fun _ h => h⟩
  | step _ _ _ ih₁ ih₂ =>
    obtain ⟨bs₁, he₁, h₁⟩ := ih₁
    obtain ⟨bs₂, he₂, h₂⟩ := ih₂
    exact ⟨bs₁ ++ bs₂, by rw [he₂, Form.brackets, he₁, List.append_assoc]; rfl,
      fun cs h => by rw [List.append_assoc]; exact h₁ _ (h₂ _ h)⟩
  | atom hatom =>
    obtain ⟨hne, he⟩ := Token.ne_lbracket_of_atom? hatom
    exact ⟨[], he, fun _ h => .other hne h⟩
  | projection _ _ ih => exact ih
  | values _ ih =>
    obtain ⟨bs, he, h⟩ := ih
    exact ⟨bs, by simp [Expr.brackets, he, Form.brackets], fun _ h' => .other nofun (h _ h')⟩
  | items _ hlist ih =>
    obtain ⟨bs, he, h⟩ := ih
    exact ⟨bs, he, fun _ h' => .list_of_startsExpr hlist.startsExpr_of_list (h _ h')⟩
  | entries _ ih =>
    obtain ⟨bs, he, h⟩ := ih
    exact ⟨bs, he, fun _ h' => .other nofun (h _ h')⟩
  | group _ ih =>
    obtain ⟨bs, he, h⟩ := ih
    exact ⟨bs, he, fun _ h' => .other nofun (h _ (.other nofun h'))⟩
  | not _ ih | reference _ ih =>
    obtain ⟨bs, he, h⟩ := ih
    exact ⟨bs, by rw [Expr.brackets]; exact he, fun _ h' => .other nofun (h _ h')⟩
  | valuesOf _ ih =>
    obtain ⟨bs, he, h⟩ := ih
    exact ⟨bs, by simp [Expr.brackets, he, Form.brackets],
      fun _ h' => .other nofun (.other nofun (h _ h'))⟩
  | memberOf _ ih =>
    obtain ⟨bs, he, h⟩ := ih
    exact ⟨bs, by simp [Expr.brackets, he, Form.brackets], fun _ h' => .other nofun (h _ h')⟩
  | operator o _ ih =>
    obtain ⟨bs, he, h⟩ := ih
    exact ⟨bs, by rw [o.brackets_apply, he]; rfl, fun _ h' => .other o.token_ne_lbracket (h _ h')⟩
  | flatten _ ih =>
    obtain ⟨bs, he, h⟩ := ih
    exact ⟨bs, by simp [Expr.brackets, he, Form.brackets], fun _ h' => .other nofun (h _ h')⟩
  | elements _ ih =>
    obtain ⟨bs, he, h⟩ := ih
    exact ⟨bs, by simp [Expr.brackets, he, Form.brackets],
      fun _ h' => .list rfl (.other nofun (.other nofun (h _ h')))⟩
  | filter _ _ ih₁ ih₂ =>
    obtain ⟨bs₁, he₁, h₁⟩ := ih₁
    obtain ⟨bs₂, he₂, h₂⟩ := ih₂
    exact ⟨bs₁ ++ bs₂, by simp [Expr.brackets, he₁, he₂, Form.brackets], fun cs h => by
      rw [List.append_assoc]
      exact .other nofun (h₁ _ (.other nofun (h₂ _ h)))⟩
  | @index _ p i _ _ hfront hfills hcolons hstart =>
    refine ⟨[.index i], by simp [Expr.brackets, Form.brackets], fun _ h => .places hfront ?_ h⟩
    exact encloses_iff.2 ⟨p, hfills, by rw [Places.bracket?, if_pos hcolons, hstart]; rfl⟩
  | @slice _ _ p _ _ _ hfront hfills hcolons hstep _ ih =>
    obtain ⟨bs, he, h⟩ := ih
    refine ⟨.slice p.slice :: bs, by simp [Expr.brackets, he, Form.brackets],
      fun _ h' => .places hfront ?_ (h _ h')⟩
    exact encloses_iff.2 ⟨p, hfills, by rw [Places.bracket?, if_neg hcolons, if_neg hstep]⟩
  | call _ ih =>
    obtain ⟨bs, he, h⟩ := ih
    exact ⟨bs, by simpa [Expr.brackets, Form.brackets] using he, fun _ h' => .other nofun (h _ h')⟩
  | member _ _ ih => exact ih
  | memberItems hlist ih =>
    obtain ⟨bs, he, h⟩ := ih
    exact ⟨bs, he, fun _ h' => .list_of_startsExpr hlist.startsExpr_of_list (h _ h')⟩
  | done => exact ⟨[], by rw [Expr.brackets]; rfl, fun _ h => h⟩
  | eachMember _ _ ih₁ ih₂ =>
    obtain ⟨bs₁, he₁, h₁⟩ := ih₁
    obtain ⟨bs₂, he₂, h₂⟩ := ih₂
    exact ⟨bs₁ ++ bs₂, by rw [he₂, Form.brackets, he₁]; rfl, fun cs h => by
      rw [List.append_assoc]
      exact .other nofun (h₁ _ (h₂ _ h))⟩
  | eachBracket _ _ ih => exact ih
  | moreItems _ _ ih₁ ih₂ =>
    obtain ⟨bs₁, he₁, h₁⟩ := ih₁
    obtain ⟨bs₂, he₂, h₂⟩ := ih₂
    simp only [Expr.brackets] at he₂
    exact ⟨bs₁ ++ bs₂, by simp [Expr.brackets, bracketsOfList, he₁, he₂, Form.brackets],
      fun cs h => by rw [List.append_assoc]; exact h₁ _ (.other nofun (h₂ _ h))⟩
  | lastItem _ ih =>
    obtain ⟨bs, he, h⟩ := ih
    exact ⟨bs, by simp [Expr.brackets, bracketsOfList, he, Form.brackets],
      fun _ h' => h _ (.other nofun h')⟩
  | moreEntries hkey _ _ ih₁ ih₂ =>
    obtain ⟨bs₁, he₁, h₁⟩ := ih₁
    obtain ⟨bs₂, he₂, h₂⟩ := ih₂
    simp only [Expr.brackets] at he₂
    exact ⟨bs₁ ++ bs₂, by simp [Expr.brackets, bracketsOfEntries, he₁, he₂, Form.brackets],
      fun cs h => by
        rw [List.append_assoc]
        exact .other (Token.ne_lbracket_of_hashKey? hkey)
          (.other nofun (h₁ _ (.other nofun (h₂ _ h))))⟩
  | lastEntry hkey _ ih =>
    obtain ⟨bs, he, h⟩ := ih
    exact ⟨bs, by simp [Expr.brackets, bracketsOfEntries, he, Form.brackets],
      fun _ h' => .other (Token.ne_lbracket_of_hashKey? hkey)
        (.other nofun (h _ (.other nofun h')))⟩
  | noArgs =>
    exact ⟨[], by simp [Expr.brackets, bracketsOfList, Form.brackets], fun _ h => .other nofun h⟩
  | moreArgs _ _ ih₁ ih₂ =>
    obtain ⟨bs₁, he₁, h₁⟩ := ih₁
    obtain ⟨bs₂, he₂, h₂⟩ := ih₂
    simp only [Expr.brackets] at he₂
    exact ⟨bs₁ ++ bs₂, by simp [Expr.brackets, bracketsOfList, he₁, he₂, Form.brackets],
      fun cs h => by rw [List.append_assoc]; exact h₁ _ (.other nofun (h₂ _ h))⟩
  | lastArg _ ih =>
    obtain ⟨bs, he, h⟩ := ih
    exact ⟨bs, by simp [Expr.brackets, bracketsOfList, he, Form.brackets],
      fun _ h' => h _ (.other nofun h')⟩

/-! ## The brackets of a query -/

/-- What is enclosed holds no bracket that opens. -/
theorem Fills.suffix_of_suffix {p q : Places} {ts rest post : List Token} (h : Fills p ts q rest)
    (hsuffix : .lbracket :: post <:+ ts) : .lbracket :: post <:+ rest := by
  induction h with
  | close => exact (List.suffix_cons_iff.1 hsuffix).resolve_left nofun
  | number _ ih => exact ih ((List.suffix_cons_iff.1 hsuffix).resolve_left nofun)
  | colon _ _ ih => exact ih ((List.suffix_cons_iff.1 hsuffix).resolve_left nofun)

theorem Brackets.exists_encloses {ts post : List Token} {bs : List Bracket} (h : Brackets ts bs)
    (hopens : (front post).startsPlaces = true) (hsuffix : .lbracket :: post <:+ ts) :
    ∃ b ∈ bs, ∃ rest, Encloses post b rest := by
  induction h with
  | nil => exact absurd (List.suffix_nil.1 hsuffix) nofun
  | other hne _ ih =>
    refine ih ((List.suffix_cons_iff.1 hsuffix).resolve_left fun heq => ?_)
    exact hne (List.cons.inj heq).1.symm
  | list ht _ ih =>
    refine ih ((List.suffix_cons_iff.1 hsuffix).resolve_left fun heq => ?_)
    rw [(List.cons.inj heq).2, Token.front_cons, ht] at hopens
    exact nomatch hopens
  | @places _ rest b _ _ hencloses _ ih =>
    obtain heq | hsuffix := List.suffix_cons_iff.1 hsuffix
    · cases heq
      exact ⟨b, List.mem_cons_self, rest, hencloses⟩
    · obtain ⟨q, hfills, -⟩ := encloses_iff.1 hencloses
      obtain ⟨b', hb', h⟩ := ih (hfills.suffix_of_suffix hsuffix)
      exact ⟨b', List.mem_cons_of_mem _ hb', h⟩

theorem brackets_of_parse {query : String} {ts : List Token} {e : Expr}
    (htokens : Lexes query.toList ts) (h : parse query = .ok e) : Brackets ts e.brackets := by
  obtain ⟨us, hlexes, hderives⟩ := parse_eq_ok_iff.1 h
  obtain rfl : us = ts := (tokensOf_eq hlexes).symm.trans (tokensOf_eq htokens)
  obtain ⟨bs, he, hbrackets⟩ := hderives.exists_brackets
  simpa [he, Form.brackets] using hbrackets [] .nil

theorem encloses_iff_spells {inner rest : List Token} {b : Bracket} (h : NumbersApart inner) :
    Encloses (inner ++ .rbracket :: rest) b rest ↔ Spells inner b := by
  constructor
  · rintro ⟨inner', heq, hspells⟩
    obtain rfl := List.append_cancel_right heq
    rwa [keepLast_eq_self h] at hspells
  · intro hspells
    exact ⟨inner, rfl, by rwa [keepLast_eq_self h]⟩

/-- A bracket with a number or a colon after it. Where it starts or extends an expression, the
parser goes on behind it if it encloses an index or a slice, and else refuses it. In a query that
can be read it encloses one that the expression has, and the brackets of the query are those of the
expression in this order; a query where it does not is refused. If no two numbers stand side by side
before the closing bracket, what is enclosed is what the tokens spell. -/
theorem bracket_accepted_iff {query : String} {before after : List Token}
    (htokens : Lexes query.toList (before ++ .lbracket :: after))
    (hopens : (front after).startsPlaces = true) :
    (∀ (n : Nat) (left : Expr) (ts : Rest), tokens ts = after →
      (∀ b rest, Encloses after b rest → ∃ ts', tokens ts' = rest ∧
        parseExtend (n + 2) .lbracket left ts = b.goOn n left ts' ∧
        parseStart (n + 2) .lbracket ts = b.goOn n .current ts') ∧
      ((∀ b rest, ¬ Encloses after b rest) →
        (∃ refusal, parseExtend (n + 2) .lbracket left ts = throw refusal) ∧
        ∃ refusal, parseStart (n + 2) .lbracket ts = throw refusal)) ∧
    (∀ e, parse query = .ok e → Brackets (before ++ .lbracket :: after) e.brackets ∧
      ∃ b ∈ e.brackets, ∃ rest, Encloses after b rest) ∧
    ((∀ b rest, ¬ Encloses after b rest) → ∃ fault, parse query = .error fault) ∧
    ∀ inner rest b, after = inner ++ .rbracket :: rest → NumbersApart inner →
      (Encloses after b rest ↔ Spells inner b) := by
  have hquery : ∀ e, parse query = .ok e → Brackets (before ++ .lbracket :: after) e.brackets ∧
      ∃ b ∈ e.brackets, ∃ rest, Encloses after b rest := fun e h =>
    have hbrackets := brackets_of_parse htokens h
    ⟨hbrackets, hbrackets.exists_encloses hopens (List.suffix_append _ _)⟩
  refine ⟨?_, hquery, fun hnone => ?_, ?_⟩
  · rintro n left ts rfl
    have hstart (left : Expr) :
        parseExtend (n + 2) .lbracket left ts = parsePlaces (n + 1) left ts :=
      parseExtend_lbracket hopens (n + 1) left
    rw [parseStart_eq_parseExtend (Token.opensProjection_of_startsPlaces hopens), hstart, hstart]
    constructor
    · intro b rest hencloses
      obtain ⟨ts', hrest, hplaces⟩ := parsePlaces_of_encloses hencloses
      exact ⟨ts', hrest, hplaces n left, hplaces n .current⟩
    · exact fun hnone =>
        ⟨parsePlaces_of_not_encloses hnone n left, parsePlaces_of_not_encloses hnone n .current⟩
  · rw [← not_exists_ok_iff]
    rintro ⟨e, h⟩
    obtain ⟨-, b, -, rest, hencloses⟩ := hquery e h
    exact hnone b rest hencloses
  · rintro inner rest b rfl hapart
    exact encloses_iff_spells hapart

/-- Two slices, the second right behind the first. -/
theorem bracket_accepted_twice :
    parse "a[1:-1][::2]" = .ok (.project (.chain (.field "a") (.slice ⟨some 1, some (-1), none⟩))
      (.project (.chain .current (.slice ⟨none, none, some 2⟩)) .current)) ∧
    Brackets [.identifier "a", .lbracket, .number 1, .colon, .number (-1), .rbracket, .lbracket,
      .colon, .colon, .number 2, .rbracket]
      [.slice ⟨some 1, some (-1), none⟩, .slice ⟨none, none, some 2⟩] := by
  have hlex : (lexPast 0 0 "a[1:-1][::2]".toList).map tokens = .ok ([.identifier "a"] ++
      .lbracket :: [.number 1, .colon, .number (-1), .rbracket, .lbracket, .colon, .colon,
        .number 2, .rbracket]) := rfl
  have hparse : parse "a[1:-1][::2]" =
      .ok (.project (.chain (.field "a") (.slice ⟨some 1, some (-1), none⟩))
        (.project (.chain .current (.slice ⟨none, none, some 2⟩)) .current)) :=
    parse_eq_ok_of_tokens _ hlex rfl
  have hbrackets := ((bracket_accepted_iff (lexes_of_lexPast hlex) rfl).2.1 _ hparse).1
  simp only [Expr.brackets, List.nil_append, List.append_nil] at hbrackets
  exact ⟨hparse, hbrackets⟩

/-- Two numbers with no colon between them spell nothing, and yet make an index. -/
theorem adjacent_numbers_accepted :
    tokensOf "[0 1]" = [.lbracket, .number 0, .number 1, .rbracket] ∧
    (∀ b, ¬ Spells [.number 0, .number 1] b) ∧
    parse "[0 1]" = .ok (.chain .current (.index 1)) := by
  have hlex : (lexPast 0 0 "[0 1]".toList).map tokens =
      .ok [.lbracket, .number 0, .number 1, .rbracket] := rfl
  refine ⟨tokensOf_eq (lexes_of_lexPast hlex), fun b h => ?_, parse_eq_ok_of_tokens _ hlex rfl⟩
  have hapart := h.numbersApart
  simp [NumbersApart, Token.isNumber] at hapart

end ResourceGraph.Query
