import ResourceGraph.Proofs.Query.Grammar

/-!
# What may follow an expression

The derivation of a form stays one if tokens are added after those it leaves. Where it leaves none,
the first token added must not extend it: the tokens that close brackets never do, and a pipe only
extends an expression that stands outside all projections and operators, or an expression reference
outside brackets.
-/
namespace ResourceGraph.Query

open Token (front)

def Token.isReference : Token → Bool
  | .ampersand => true
  | _ => false

/-- Whether an expression reference stands outside all brackets, where `d` of them are open before
the tokens. -/
def refersOutside : Nat → List Token → Bool
  | _, [] => false
  | d, t :: ts => (d == 0 && t.isReference) || refersOutside (t.shift d) ts

theorem refersOutside_append (d : Nat) (ts us : List Token) :
    refersOutside d (ts ++ us) = (refersOutside d ts || refersOutside (depthAfter d ts) us) := by
  induction ts generalizing d with
  | nil => rfl
  | cons t ts ih => rw [List.cons_append, refersOutside, refersOutside, ih, Bool.or_assoc]; rfl

/-- The power up to which a token ends the form, if it is a weak one. -/
def Form.least : Form → Nat
  | .expr least | .climb least _ | .each least => least
  | _ => 1

/-- The token `t` ends a form that takes all of the tokens `ts`. -/
structure Ends (form : Form) (ts : List Token) (t : Token) : Prop where
  weak : t.power ≤ 1
  least : t.power ≤ form.least
  outside : t.power = 0 ∨ refersOutside form.depth ts = false

namespace Ends

variable {form form' : Form} {ts : List Token} {t : Token}

/-- What ends a form ends the part of it that takes its tokens after `seg`. -/
theorem part (seg : List Token) (h : Ends form (seg ++ ts) t)
    (hleast : form.least ≤ form'.least ∨ 1 ≤ form'.least)
    (hdepth : depthAfter form.depth seg = form'.depth) : Ends form' ts t := by
  have := h.weak
  have := h.least
  refine ⟨h.weak, by omega, ?_⟩
  have houtside := h.outside
  rw [refersOutside_append, hdepth, Bool.or_eq_false_iff] at houtside
  exact houtside.imp_right And.right

end Ends

/-- A form that leaves tokens is not ended by what is added after them. -/
theorem ends_of_cons {form : Form} {ts rest : List Token} {t next : Token}
    (h : t :: rest = []) : Ends form ts next := nomatch h

theorem Fills.append {p q : Places} {ts rest : List Token} (h : Fills p ts q rest)
    (more : List Token) : Fills p (ts ++ more) q (rest ++ more) := by
  induction h with
  | close => exact .close
  | number _ ih => exact .number ih
  | colon hcolons _ ih => exact .colon hcolons ih

theorem Token.opensProjection_append {ts : List Token} (h : opensProjection ts = true)
    (more : List Token) : opensProjection (ts ++ more) = true := by
  match ts, h with
  | .flatten :: _, _ | .filter :: _, _ => rfl
  | .lbracket :: .star :: .rbracket :: _, _ => rfl
  | .lbracket :: .number _ :: _, _ | .lbracket :: .colon :: _, _ => rfl

theorem Token.opensProjection_append_eq_false {ts : List Token}
    (h : opensProjection (.lbracket :: ts) = false) (hlength : 1 < ts.length) (more : List Token) :
    opensProjection (.lbracket :: (ts ++ more)) = false := by
  match ts, h, hlength with
  | t :: t' :: ts, h, _ =>
    simp only [List.cons_append]
    cases t <;> cases t' <;> first | rfl | exact nomatch h

theorem front_append_of {ts : List Token} {p : Token → Bool} (h : p (front ts) = true)
    (heof : p .eof = false) (more : List Token) : p (front (ts ++ more)) = true := by
  cases ts with
  | nil => exact absurd h (by simp [heof])
  | cons t ts => exact h

/-- A list has an item and the bracket after it. -/
theorem Derives.one_lt_length_of_list {ts rest : List Token} {e : Expr}
    (h : Derives .list ts e rest) : 1 < ts.length := by
  cases h with
  | moreItems hitem _ =>
    have := hitem.length_lt rfl
    rw [List.length_cons] at this
    omega
  | lastItem hitem =>
    have := hitem.length_lt rfl
    rw [List.length_cons] at this
    omega

/-- If a form leaves no tokens, the form within it that leaves `mid` to the rest does not either. -/
theorem Derives.eq_nil {form : Form} {mid rest : List Token} {e : Expr}
    (h : Derives form mid e rest) (hmid : mid = []) : rest = [] :=
  List.suffix_nil.1 (hmid ▸ h.suffix)

/-- Added tokens are left over, if the first of them ends a form that leaves none. -/
theorem Derives.append {form : Form} {ts rest : List Token} {e : Expr}
    (h : Derives form ts e rest) (more : List Token)
    (hends : rest = [] → Ends form ts (front more)) :
    Derives form (ts ++ more) e (rest ++ more) := by
  induction h with
  | expr h₁ h₂ ih₁ ih₂ =>
    obtain ⟨seg, rfl, htakes⟩ := h₁.exists_segment
    exact .expr (ih₁ fun hmid => (hends (h₂.eq_nil hmid)).part [] (.inr (Nat.le_refl 1)) rfl)
      (ih₂ fun hrest => (hends hrest).part seg (.inl (Nat.le_refl _)) (htakes.closed rfl 0))
  | @stop least left ts hpower =>
    refine .stop ?_
    cases ts with
    | nil => exact (hends rfl).least
    | cons t ts => exact hpower
  | step hpower h₁ h₂ ih₁ ih₂ =>
    obtain ⟨seg, hseg, htakes⟩ := h₁.exists_segment
    refine .step hpower
      (ih₁ fun hmid => (hends (h₂.eq_nil hmid)).part [] (.inr (Nat.le_refl 1)) rfl)
      (ih₂ fun hrest => ?_)
    rw [hseg] at hends
    exact (hends hrest).part seg (.inl (Nat.le_refl _)) (htakes.closed rfl 0)
  | atom hatom => exact .atom hatom
  | projection hopens _ ih =>
    exact .projection (Token.opensProjection_append hopens more)
      (ih fun hrest => (hends hrest).part [] (.inr (Nat.le_refl 1)) rfl)
  | values _ ih => exact .values (ih fun hrest => (hends hrest).part [.star] (.inr (by decide)) rfl)
  | items hopens h ih =>
    exact .items (Token.opensProjection_append_eq_false hopens h.one_lt_length_of_list more)
      (ih fun hrest => (hends hrest).part [.lbracket] (.inr (Nat.le_refl 1)) rfl)
  | entries _ ih =>
    exact .entries (ih fun hrest => (hends hrest).part [.lbrace] (.inr (Nat.le_refl 1)) rfl)
  | group _ ih => exact .group (ih ends_of_cons)
  | not _ ih => exact .not (ih fun hrest => (hends hrest).part [.not] (.inr (by decide)) rfl)
  | reference _ ih =>
    refine .reference (ih fun hrest => ?_)
    have h := hends hrest
    -- outside brackets, a reference takes in all that binds an expression at all
    have hpower : (front more).power = 0 := h.outside.resolve_right Bool.noConfusion
    exact ⟨h.weak, Nat.le_of_eq hpower, .inl hpower⟩
  | valuesOf _ ih =>
    exact .valuesOf (ih fun hrest => (hends hrest).part [.dot, .star] (.inr (by decide)) rfl)
  | memberOf _ ih =>
    exact .memberOf (ih fun hrest => (hends hrest).part [.dot] (.inr (Nat.le_refl 1)) rfl)
  | operator o _ ih =>
    exact .operator o (ih fun hrest =>
      (hends hrest).part [o.token] (.inr o.power_pos) (o.shift_token 0))
  | flatten _ ih =>
    exact .flatten (ih fun hrest => (hends hrest).part [.flatten] (.inr (by decide)) rfl)
  | elements _ ih =>
    exact .elements (ih fun hrest =>
      (hends hrest).part [.lbracket, .star, .rbracket] (.inr (by decide)) rfl)
  | filter h₁ _ ih₁ ih₂ =>
    obtain ⟨seg, rfl, htakes⟩ := h₁.exists_segment
    refine .filter (ih₁ ends_of_cons) (ih₂ fun hrest => ?_)
    exact .part (.filter :: (seg ++ [.rbracket])) (by simpa using hends hrest) (.inr (by decide))
      (by simp [Form.depth, Token.shift, htakes.closed rfl])
  | index hfront hfills hcolons hstart =>
    exact .index (front_append_of hfront rfl more) (hfills.append more) hcolons hstart
  | slice hfront hfills hcolons hstep h ih =>
    obtain ⟨seg, rfl, hseg⟩ := hfills.exists_segment
    refine .slice (front_append_of hfront rfl more) (hfills.append more) hcolons hstep
      (ih fun hrest => ?_)
    exact .part (.lbracket :: (seg ++ [.rbracket])) (by simpa using hends hrest) (.inr (by decide))
      (by simp [Form.depth, Token.shift, depthAfter_places hseg])
  | call _ ih =>
    exact .call (ih fun hrest => (hends hrest).part [.lparen] (.inr (Nat.le_refl 1)) rfl)
  | member hfront _ ih =>
    exact .member (front_append_of hfront rfl more)
      (ih fun hrest => (hends hrest).part [] (.inr (by decide)) rfl)
  | memberItems _ ih =>
    exact .memberItems (ih fun hrest => (hends hrest).part [.lbracket] (.inr (Nat.le_refl 1)) rfl)
  | @done least ts hpower =>
    refine .done ?_
    cases ts with
    | nil => exact Nat.lt_of_le_of_lt (hends rfl).weak (by decide)
    | cons t ts => exact hpower
  | eachMember h₁ h₂ ih₁ ih₂ =>
    obtain ⟨seg, rfl, htakes⟩ := h₁.exists_segment
    exact .eachMember
      (ih₁ fun hmid => (hends (h₂.eq_nil hmid)).part [.dot] (.inr (Nat.le_refl 1)) rfl)
      (ih₂ fun hrest =>
        (hends hrest).part (.dot :: seg) (.inl (Nat.le_refl _)) (htakes.closed rfl 0))
  | eachBracket hfront _ ih =>
    exact .eachBracket (front_append_of hfront rfl more)
      (ih fun hrest => (hends hrest).part [] (.inl (Nat.le_refl _)) rfl)
  | moreItems h₁ _ ih₁ ih₂ =>
    obtain ⟨seg, rfl, htakes⟩ := h₁.exists_segment
    refine .moreItems (ih₁ ends_of_cons) (ih₂ fun hrest => ?_)
    exact .part (seg ++ [.comma]) (by simpa using hends hrest) (.inr (Nat.le_refl 1))
      (by simp [Form.depth, Token.shift, htakes.closed rfl])
  | lastItem _ ih => exact .lastItem (ih ends_of_cons)
  | @moreEntries t _ _ _ _ _ _ hkey h₁ _ ih₁ ih₂ =>
    obtain ⟨seg, rfl, htakes⟩ := h₁.exists_segment
    refine .moreEntries hkey (ih₁ ends_of_cons) (ih₂ fun hrest => ?_)
    refine .part (t :: .colon :: (seg ++ [.comma])) (by simpa using hends hrest)
      (.inr (Nat.le_refl 1)) ?_
    rw [depthAfter_cons, Token.shift_of_hashKey? hkey]
    simp [Form.depth, Token.shift, htakes.closed rfl]
  | lastEntry hkey _ ih => exact .lastEntry hkey (ih ends_of_cons)
  | noArgs => exact .noArgs
  | moreArgs h₁ _ ih₁ ih₂ =>
    obtain ⟨seg, rfl, htakes⟩ := h₁.exists_segment
    refine .moreArgs (ih₁ ends_of_cons) (ih₂ fun hrest => ?_)
    exact .part (seg ++ [.comma]) (by simpa using hends hrest) (.inr (Nat.le_refl 1))
      (by simp [Form.depth, Token.shift, htakes.closed rfl])
  | lastArg _ ih => exact .lastArg (ih ends_of_cons)

/-- Tokens that bind nothing may follow any expression. -/
theorem Derives.append_of_power_eq_zero {least : Nat} {ts more : List Token} {e : Expr}
    (h : Derives (.expr least) ts e []) (hmore : (front more).power = 0) :
    Derives (.expr least) (ts ++ more) e more :=
  h.append more fun _ => ⟨by omega, by omega, .inl hmore⟩

/-- An expression in parentheses starts one. -/
theorem Derives.parenthesized {ts : List Token} {e : Expr} (h : Derives (.expr 0) ts e [])
    (rest : List Token) : Derives .start (.lparen :: (ts ++ .rparen :: rest)) e rest :=
  .group (h.append_of_power_eq_zero rfl)

end ResourceGraph.Query
