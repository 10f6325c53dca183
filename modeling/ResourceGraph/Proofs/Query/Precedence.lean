import ResourceGraph.Proofs.Query.Continuation
import ResourceGraph.Proofs.Query.Lexing

/-!
# Chains of operators

Queries in parentheses with operators between them make one tree: its queries and operators stand
in the order of the text, operators that bind more tightly stand lower, and of two that bind alike
the later one stands above. There is one such tree.
-/
namespace ResourceGraph.Query

open Token (front)

/-- How tightly an operator binds: the pipe least, then `or`, then `and`, then comparisons. -/
def Operator.rank : Operator → Nat
  | pipe => 0
  | or => 1
  | and => 2
  | compare _ => 3

theorem Operator.power_le_iff {o o' : Operator} : o.power ≤ o'.power ↔ o.rank ≤ o'.rank := by
  cases o <;> cases o' <;> simp [power_compare, rank] <;> decide

theorem Operator.power_lt_iff {o o' : Operator} : o.power < o'.power ↔ o.rank < o'.rank := by
  rw [← Nat.not_le, ← Nat.not_le, power_le_iff]

/-- Queries joined by operators. -/
inductive OperatorTree where
  | operand (q : Query)
  | node (o : Operator) (left right : OperatorTree)

/-- An operator and the query after it. -/
abbrev Link := Operator × Query

namespace OperatorTree

def toExpr : OperatorTree → Expr
  | operand q => q.expr
  | node o left right => o.apply left.toExpr right.toExpr

/-- The first query from the left. -/
def first : OperatorTree → Query
  | operand q => q
  | node _ left _ => left.first

/-- The operators from left to right, each with the query after it. -/
def links : OperatorTree → List Link
  | operand _ => []
  | node o left right => left.links ++ (o, right.first) :: right.links

def root? : OperatorTree → Option Operator
  | operand _ => none
  | node o _ _ => some o

/-- The operator on the left of another binds as tightly as it at least, and the one on the right
more tightly. -/
def Ordered : OperatorTree → Prop
  | operand _ => True
  | node o left right =>
    (∀ below ∈ left.root?, o.rank ≤ below.rank) ∧ (∀ below ∈ right.root?, o.rank < below.rank) ∧
      left.Ordered ∧ right.Ordered

/-- The tree with one more operator and query at its right end. -/
def push (o : Operator) (q : Query) : OperatorTree → OperatorTree
  | operand p => node o (operand p) (operand q)
  | node above left right =>
    if o.rank ≤ above.rank then node o (node above left right) (operand q)
    else node above left (right.push o q)

def pushAll (t : OperatorTree) (links : List Link) : OperatorTree :=
  links.foldl (fun t link => t.push link.1 link.2) t

variable {o : Operator} {q : Query} {t : OperatorTree} {rank : Nat}
  {link : Link} {links : List Link}

theorem ordered_operand : (operand q).Ordered := trivial

theorem first_push : (t.push o q).first = t.first := by
  induction t with
  | operand p => rfl
  | node above left right ihLeft ihRight =>
    rw [push]
    split <;> rfl

theorem links_push : (t.push o q).links = t.links ++ [(o, q)] := by
  induction t with
  | operand p => rfl
  | node above left right ihLeft ihRight =>
    rw [push]
    split
    · rfl
    · rw [OperatorTree.links, OperatorTree.links, ihRight, first_push, List.append_assoc]
      rfl

/-- The new operator stands at the root, or the old root still does. -/
theorem root?_push : (t.push o q).root? = some o ∨ (t.push o q).root? = t.root? := by
  cases t with
  | operand p => exact .inl rfl
  | node above left right =>
    rw [push]
    split
    · exact .inl rfl
    · exact .inr rfl

theorem ordered_push (h : t.Ordered) : (t.push o q).Ordered := by
  induction t with
  | operand p => exact ⟨nofun, nofun, trivial, trivial⟩
  | node above left right ihLeft ihRight =>
    obtain ⟨hleft, hright, hleft', hright'⟩ := h
    rw [push]
    split
    · next hle =>
      refine ⟨fun below hbelow => ?_, nofun, ⟨hleft, hright, hleft', hright'⟩, trivial⟩
      cases hbelow
      exact hle
    · next hlt =>
      refine ⟨hleft, fun below hbelow => ?_, hleft', ihRight hright'⟩
      obtain hroot | hroot := root?_push (t := right) (o := o) (q := q)
      · rw [hroot] at hbelow
        cases hbelow
        omega
      · exact hright below (hroot ▸ hbelow)

theorem first_pushAll : (t.pushAll links).first = t.first := by
  induction links generalizing t with
  | nil => rfl
  | cons link links ih => exact ih.trans first_push

theorem links_pushAll : (t.pushAll links).links = t.links ++ links := by
  induction links generalizing t with
  | nil => exact (List.append_nil _).symm
  | cons link links ih => exact ih.trans (by rw [links_push, List.append_assoc]; rfl)

theorem ordered_pushAll (h : t.Ordered) : (t.pushAll links).Ordered := by
  induction links generalizing t with
  | nil => exact h
  | cons link links ih => exact ih (ordered_push h)

/-! ## There is one ordered tree -/

/-- No operator binds less tightly than the root of an ordered tree. -/
theorem le_rank_of_mem_links (h : t.Ordered) (hroot : ∀ o ∈ t.root?, rank ≤ o.rank)
    (hlink : link ∈ t.links) : rank ≤ link.1.rank := by
  induction t generalizing rank with
  | operand p => exact nomatch hlink
  | node o left right ihLeft ihRight =>
    obtain ⟨hleft, hright, hleft', hright'⟩ := h
    have ho : rank ≤ o.rank := hroot o rfl
    rw [OperatorTree.links, List.mem_append, List.mem_cons] at hlink
    obtain hlink | rfl | hlink := hlink
    · exact Nat.le_trans ho (ihLeft hleft' hleft hlink)
    · exact ho
    · exact Nat.le_trans ho
        (ihRight hright' (fun below hbelow => Nat.le_of_lt (hright below hbelow)) hlink)

/-- An operator that does not bind more tightly than the root goes above it. -/
theorem push_of_rank_le (h : ∀ below ∈ t.root?, o.rank ≤ below.rank) :
    t.push o q = node o t (operand q) := by
  cases t with
  | operand p => rfl
  | node above left right => rw [push, if_pos (h above rfl)]

/-- Operators that bind more tightly than the root go into its right side. -/
theorem pushAll_node {left right : OperatorTree} (h : ∀ link ∈ links, o.rank < link.1.rank) :
    (node o left right).pushAll links = node o left (right.pushAll links) := by
  induction links generalizing right with
  | nil => rfl
  | cons link links ih =>
    rw [List.forall_mem_cons] at h
    rw [pushAll, List.foldl_cons, push, if_neg (Nat.not_le.2 h.1)]
    exact ih h.2

theorem pushAll_append {more : List Link} :
    t.pushAll (links ++ more) = (t.pushAll links).pushAll more := List.foldl_append

theorem pushAll_links (h : t.Ordered) : (operand t.first).pushAll t.links = t := by
  induction t with
  | operand p => rfl
  | node o left right ihLeft ihRight =>
    obtain ⟨hleft, hright, hleft', hright'⟩ := h
    have htighter : ∀ link ∈ right.links, o.rank < link.1.rank := fun _ =>
      le_rank_of_mem_links hright' hright
    calc (operand left.first).pushAll (left.links ++ (o, right.first) :: right.links)
        = (left.push o right.first).pushAll right.links := by
          rw [pushAll_append, ihLeft hleft']
          rfl
      _ = node o left ((operand right.first).pushAll right.links) := by
          rw [push_of_rank_le hleft, pushAll_node htighter]
      _ = node o left right := by rw [ihRight hright']

/-! ## The tokens of a tree -/

/-- The tokens of operators and queries in parentheses. -/
def tokensOfLinks (links : List Link) : List Token :=
  links.flatMap fun link =>
    link.1.token :: .lparen :: (tokensOf link.2.source ++ [.rparen])

def tokens (t : OperatorTree) : List Token :=
  .lparen :: (tokensOf t.first.source ++ .rparen :: tokensOfLinks t.links)

theorem tokens_node (o : Operator) (left right : OperatorTree) :
    (node o left right).tokens = left.tokens ++ o.token :: right.tokens := by
  simp [tokens, tokensOfLinks, OperatorTree.links, first]

/-- Every query of the tree is a text and the expression that it makes. -/
def Parses : OperatorTree → Prop
  | operand q => parse q.source = .ok q.expr
  | node _ left right => left.Parses ∧ right.Parses

theorem parses_of_links (hfirst : parse t.first.source = .ok t.first.expr)
    (hlinks : ∀ link ∈ t.links, parse link.2.source = .ok link.2.expr) : t.Parses := by
  induction t with
  | operand q => exact hfirst
  | node o left right ihLeft ihRight =>
    rw [OperatorTree.links, List.forall_mem_append, List.forall_mem_cons] at hlinks
    exact ⟨ihLeft hfirst hlinks.1, ihRight hlinks.2.1 hlinks.2.2⟩

/-- The tree starts an expression, if its root binds more tightly than the place it stands in and
what follows it does not bind more tightly than its root. What follows goes on with the tree. -/
theorem derives (ht : t.Ordered) (hparses : t.Parses) {least : Nat} {rest left : List Token}
    {e : Expr} (hroot : ∀ o ∈ t.root?, least < o.power ∧ (front rest).power ≤ o.power)
    (hrest : Derives (.climb least t.toExpr) rest e left) :
    Derives (.expr least) (t.tokens ++ rest) e left := by
  induction t generalizing least rest left e with
  | operand q =>
    obtain ⟨ts, hlexes, hderives⟩ := parse_eq_ok_iff.1 hparses
    refine .expr ?_ hrest
    simpa [tokens, tokensOfLinks, first, OperatorTree.links, tokensOf_eq hlexes, toExpr]
      using hderives.parenthesized rest
  | node o a b ihLeft ihRight =>
    obtain ⟨ha, hb, ha', hb'⟩ := ht
    obtain ⟨hleast, hfront⟩ := hroot o rfl
    have hright : Derives (.expr o.power) (b.tokens ++ rest) b.toExpr rest :=
      ihRight hb' hparses.2
        (fun below hbelow =>
          have hlt := Operator.power_lt_iff.2 (hb below hbelow)
          ⟨hlt, Nat.le_trans hfront (Nat.le_of_lt hlt)⟩)
        (.stop hfront)
    have hclimb : Derives (.climb least a.toExpr) (o.token :: (b.tokens ++ rest)) e left :=
      .step hleast (.operator o hright) hrest
    rw [tokens_node, List.append_assoc, List.cons_append]
    exact ihLeft ha' hparses.1
      (fun below hbelow =>
        have hle := Operator.power_le_iff.2 (ha below hbelow)
        ⟨Nat.lt_of_lt_of_le hleast hle, hle⟩)
      hclimb

end OperatorTree

/-! ## The text of a chain -/

def Operator.text : Operator → String
  | pipe => "|"
  | or => "||"
  | and => "&&"
  | compare .eq => "=="
  | compare .ne => "!="
  | compare .lt => "<"
  | compare .le => "<="
  | compare .gt => ">"
  | compare .ge => ">="

/-- The text in parentheses. -/
def grouped (query : String) : String := "(" ++ query ++ ")"

/-- The queries in parentheses, with the operators between them. -/
def chainText (first : Query) : List Link → String
  | [] => grouped first.source
  | (o, q) :: links => grouped first.source ++ " " ++ o.text ++ " " ++ chainText q links

theorem Lexes.blank {cs : List Char} {ts : List Token} (h : Lexes cs ts) :
    Lexes (' ' :: cs) ts := .cons (show scanToken ' ' cs = .ok (none, 0) from rfl) h

/-- An operator before a blank is one token. -/
theorem Lexes.operator (o : Operator) {cs : List Char} {ts : List Token} (h : Lexes cs ts) :
    Lexes (o.text.toList ++ ' ' :: cs) (o.token :: ts) := by
  have hblank : Lexes (' ' :: cs) ts := h.blank
  cases o with
  | pipe => exact .cons (show scanToken '|' (' ' :: cs) = .ok (some .pipe, 0) from rfl) hblank
  | or => exact .cons (show scanToken '|' ('|' :: ' ' :: cs) = .ok (some .or, 1) from rfl) hblank
  | and => exact .cons (show scanToken '&' ('&' :: ' ' :: cs) = .ok (some .and, 1) from rfl) hblank
  | compare op =>
    cases op with
    | eq => exact .cons (show scanToken '=' ('=' :: ' ' :: cs) = .ok (some .eq, 1) from rfl) hblank
    | ne => exact .cons (show scanToken '!' ('=' :: ' ' :: cs) = .ok (some .ne, 1) from rfl) hblank
    | lt => exact .cons (show scanToken '<' (' ' :: cs) = .ok (some .lt, 0) from rfl) hblank
    | le => exact .cons (show scanToken '<' ('=' :: ' ' :: cs) = .ok (some .lte, 1) from rfl) hblank
    | gt => exact .cons (show scanToken '>' (' ' :: cs) = .ok (some .gt, 0) from rfl) hblank
    | ge => exact .cons (show scanToken '>' ('=' :: ' ' :: cs) = .ok (some .gte, 1) from rfl) hblank

theorem Lexes.grouped {query : String} {ts us : List Token} {cs : List Char}
    (h : Lexes query.toList ts) (hrest : Lexes cs us) :
    Lexes ((grouped query).toList ++ cs) (.lparen :: (ts ++ .rparen :: us)) := by
  have hclose : Lexes (')' :: cs) (.rparen :: us) :=
    .cons (show scanToken ')' cs = .ok (some .rparen, 0) from rfl) hrest
  have hinside : Lexes (query.toList ++ ')' :: cs) (ts ++ .rparen :: us) := h.append rfl hclose
  have hopen (cs : List Char) : scanToken '(' cs = .ok (some .lparen, 0) := rfl
  simpa [Query.grouped, String.toList_append] using Lexes.cons (hopen _) hinside

section Chain

variable {first : Query} {links : List Link}

theorem lexes_chainText
    (hfirst : ∃ ts, Lexes first.source.toList ts)
    (hlinks : ∀ link ∈ links, ∃ ts, Lexes link.2.source.toList ts) :
    Lexes (chainText first links).toList
      (.lparen :: (tokensOf first.source ++ .rparen :: OperatorTree.tokensOfLinks links)) := by
  obtain ⟨ts, hts⟩ := hfirst
  rw [tokensOf_eq hts]
  induction links generalizing first ts with
  | nil => simpa [chainText, OperatorTree.tokensOfLinks] using hts.grouped .nil
  | cons link links ih =>
    rw [List.forall_mem_cons] at hlinks
    obtain ⟨⟨us, hus⟩, hrest⟩ := hlinks
    have hlink := (Lexes.operator link.1 (ih hrest us hus)).blank
    rw [← tokensOf_eq hus] at hlink
    simpa [chainText, OperatorTree.tokensOfLinks, String.toList_append] using hts.grouped hlink

theorem exists_chainText_eq (first : Query)
    (links : List Link) :
    ∃ cs, (chainText first links).toList = cs ++ [')'] := by
  induction links generalizing first with
  | nil => exact ⟨'(' :: first.source.toList, by simp [chainText, grouped, String.toList_append]⟩
  | cons link links ih =>
    obtain ⟨cs, hcs⟩ := ih link.2
    exact ⟨(grouped first.source ++ " " ++ link.1.text ++ " ").toList ++ cs, by
      rw [chainText, String.toList_append, hcs, List.append_assoc]⟩

theorem trim_chainText : Text.trim (chainText first links) = chainText first links := by
  refine Text.trim_eq_self_iff.2 ⟨?_, ?_⟩
  · cases links <;> simp [chainText, grouped, String.toList_append] <;> rfl
  · obtain ⟨cs, hcs⟩ := exists_chainText_eq first links
    rw [hcs, List.getLast?_concat]
    rintro _ ⟨⟩
    rfl

/-- A chain is read as the tree that its operators are pushed onto from left to right. -/
theorem parse_chainText_eq (hfirst : parse first.source = .ok first.expr)
    (hlinks : ∀ link ∈ links, parse link.2.source = .ok link.2.expr) :
    parse (chainText first links) = .ok ((OperatorTree.operand first).pushAll links).toExpr := by
  have hlexes {q : Query} (h : parse q.source = .ok q.expr) :
      ∃ ts, Lexes q.source.toList ts := (parse_eq_ok_iff.1 h).imp fun _ => And.left
  obtain ⟨t, ht⟩ : ∃ t, t = (OperatorTree.operand first).pushAll links := ⟨_, rfl⟩
  have htfirst : t.first = first := ht ▸ OperatorTree.first_pushAll
  have htlinks : t.links = links := ht ▸ OperatorTree.links_pushAll
  have hordered : t.Ordered := ht ▸ OperatorTree.ordered_pushAll OperatorTree.ordered_operand
  have hparses : t.Parses := OperatorTree.parses_of_links (by rwa [htfirst]) (by rwa [htlinks])
  have hderives : Derives (.expr 0) (t.tokens ++ []) t.toExpr [] :=
    t.derives hordered hparses (fun o _ => ⟨o.power_pos, Nat.zero_le _⟩) (.stop (Nat.le_refl 0))
  rw [List.append_nil, OperatorTree.tokens, htfirst, htlinks] at hderives
  rw [← ht]
  exact parse_eq_ok_iff.2
    ⟨_, lexes_chainText (hlexes hfirst) fun link h => hlexes (hlinks link h), hderives⟩

/-- A query in parentheses makes what it makes without them, and queries in parentheses with
operators between them make the one ordered tree that has them in the order of the text. -/
theorem parse_chain (hfirst : parse first.source = .ok first.expr)
    (hlinks : ∀ link ∈ links, parse link.2.source = .ok link.2.expr) :
    parse (grouped first.source) = .ok first.expr ∧
    ∃ t : OperatorTree, (t.first = first ∧ t.links = links ∧ t.Ordered) ∧
      parse (chainText first links) = .ok t.toExpr ∧
      Query.ofText (chainText first links) = .ok ⟨chainText first links, t.toExpr⟩ ∧
      ∀ u : OperatorTree, u.first = first → u.links = links → u.Ordered → u = t := by
  have hparse := parse_chainText_eq hfirst hlinks
  have hgrouped : parse (chainText first []) = .ok first.expr :=
    parse_chainText_eq hfirst (List.forall_mem_nil _)
  refine ⟨hgrouped, _,
    ⟨OperatorTree.first_pushAll, OperatorTree.links_pushAll,
      OperatorTree.ordered_pushAll OperatorTree.ordered_operand⟩, hparse, ?_, ?_⟩
  · exact ofText_eq_ok_of_parse trim_chainText hparse
  · rintro u rfl rfl hu
    exact (OperatorTree.pushAll_links hu).symm

/-- A pipe after a projection in the first query, a reference in the second. -/
theorem parse_chain_three :
    parse "a[*] | b" = .ok (.chain (.project (.field "a") .current) (.field "b")) ∧
    parse "&c" = .ok (.reference (.field "c")) ∧ parse "d" = .ok (.field "d") ∧
    parse "(a[*] | b) || (&c) < (d)" =
      .ok (.or (.chain (.project (.field "a") .current) (.field "b"))
        (.compare .lt (.reference (.field "c")) (.field "d"))) := by
  have ha : parse "a[*] | b" = .ok (.chain (.project (.field "a") .current) (.field "b")) :=
    parse_eq_ok_of_tokens [.identifier "a", .lbracket, .star, .rbracket, .pipe, .identifier "b"]
      rfl rfl
  have hc : parse "&c" = .ok (.reference (.field "c")) :=
    parse_eq_ok_of_tokens [.ampersand, .identifier "c"] rfl rfl
  have hd : parse "d" = .ok (.field "d") := parse_eq_ok_of_tokens [.identifier "d"] rfl rfl
  obtain ⟨-, t, -, hparse, -, hunique⟩ := @parse_chain
    ⟨"a[*] | b", .chain (.project (.field "a") .current) (.field "b")⟩
    [(.or, ⟨"&c", .reference (.field "c")⟩), (.compare .lt, ⟨"d", .field "d"⟩)]
    ha (by simp [hc, hd])
  have ht := hunique
    (.node .or (.operand ⟨_, _⟩)
      (.node (.compare .lt) (.operand ⟨"&c", .reference (.field "c")⟩)
        (.operand ⟨"d", .field "d"⟩)))
    rfl rfl (by simp [OperatorTree.Ordered, OperatorTree.root?, Operator.rank])
  subst ht
  exact ⟨ha, hc, hd, hparse⟩

end Chain

end ResourceGraph.Query
