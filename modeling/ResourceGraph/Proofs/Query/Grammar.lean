import ResourceGraph.Query.Parser

/-!
# The grammar that the parser reads

`Derives form ts e rest` says that the tokens `ts` begin with `form`, that its expression is `e`,
and that `rest` is left. It has one rule for each way in which the parser goes on, no fuel and no
refusals. That the parser reads exactly this is said in `Proofs/Query/Reading`.
-/
namespace ResourceGraph.Query

/-- The operators between two expressions. -/
inductive Operator where
  | pipe
  | or
  | and
  | compare (op : Comparator)

namespace Operator

def token : Operator → Token
  | pipe => .pipe
  | or => .or
  | and => .and
  | compare .eq => .eq
  | compare .ne => .ne
  | compare .lt => .lt
  | compare .le => .lte
  | compare .gt => .gt
  | compare .ge => .gte

def apply : Operator → Expr → Expr → Expr
  | pipe => .chain
  | or => .or
  | and => .and
  | compare op => .compare op

def power (o : Operator) : Nat := o.token.power

theorem power_compare (op : Comparator) : (compare op).power = Token.eq.power := by
  cases op <;> rfl

theorem power_pos (o : Operator) : 0 < o.power := by
  cases o with
  | compare op => rw [power_compare]; decide
  | _ => decide

end Operator

/-- What the parser may be about to read. -/
inductive Form where
  /-- An expression whose operators bind more tightly than `least`. -/
  | expr (least : Nat)
  /-- What extends `left` to such an expression. -/
  | climb (least : Nat) (left : Expr)
  /-- A first token and what belongs to it. -/
  | start
  /-- One token after `left`, and what belongs to it. -/
  | extend (left : Expr)
  /-- What stands after a dot. -/
  | member
  /-- What a projection applies to each element. -/
  | each (least : Nat)
  /-- The items of a list up to its bracket. -/
  | list
  /-- The entries of a hash up to its brace. -/
  | hash
  /-- The arguments of a call up to its parenthesis. -/
  | args (name : String)

namespace Token

/-- The first token, or the end of the query. -/
def front (ts : List Token) : Token := ts.head?.getD .eof

@[simp] theorem front_nil : front [] = .eof := rfl

@[simp] theorem front_cons (t : Token) (ts : List Token) : front (t :: ts) = t := rfl

/-- The expression that a token is by itself. -/
def atom? : Token → Option Expr
  | identifier name | quotedIdentifier name => some (.field name)
  | literal value => some (.literal value)
  | current => some .current
  | _ => none

/-- Whether a bracket with this token after it is an index or a slice. -/
def startsPlaces : Token → Bool
  | number _ | colon => true
  | _ => false

theorem startsPlaces_iff {t : Token} :
    t.startsPlaces = true ↔ t = .colon ∨ ∃ n, t = .number n := by
  cases t <;> simp [startsPlaces]

/-- Whether the tokens begin with brackets that may stand after an expression. -/
def opensProjection : List Token → Bool
  | .flatten :: _ | .filter :: _ => true
  | .lbracket :: .star :: .rbracket :: _ => true
  | .lbracket :: t :: _ => t.startsPlaces
  | _ => false

theorem opensProjection_of_startsPlaces {ts : List Token} (h : (front ts).startsPlaces = true) :
    opensProjection (.lbracket :: ts) = true := by
  match ts with
  | .number _ :: _ | .colon :: _ => rfl

theorem opensProjection_eq_false {ts : List Token} (hplaces : (front ts).startsPlaces = false)
    (hstar : ¬ (front ts = .star ∧ front ts.tail = .rbracket)) :
    opensProjection (.lbracket :: ts) = false := by
  unfold opensProjection
  split <;> simp_all

/-- Whether an expression may begin with the token. -/
def startsExpr : Token → Bool
  | identifier _ | quotedIdentifier _ | literal _ | current | star | flatten | filter | lbracket
  | lbrace | lparen | not | ampersand => true
  | _ => false

/-- Whether a token may stand after a dot and begin an expression. -/
def startsMember : Token → Bool
  | identifier _ | quotedIdentifier _ | lbrace => true
  | _ => false

/-- Whether a token may stand after a projection and begin an expression. -/
def startsEach : Token → Bool
  | lbracket | filter => true
  | _ => false

theorem startsEach_iff {t : Token} : t.startsEach = true ↔ t = .lbracket ∨ t = .filter := by
  cases t <;> simp [startsEach]

theorem startsMember_iff {t : Token} : t.startsMember = true ↔
    (∃ name, t = .identifier name) ∨ (∃ name, t = .quotedIdentifier name) ∨ t = .lbrace := by
  cases t <;> simp [startsMember]

end Token

open Token (front)

/-- No number yet, and no colon. -/
def Places.empty : Places := ⟨⟨none, none, none⟩, 0⟩

/-- The numbers and colons that fill places, up to the closing bracket. -/
inductive Fills : Places → List Token → Places → List Token → Prop
  | close {p : Places} {ts : List Token} : Fills p (.rbracket :: ts) p ts
  | number {p q : Places} {n : Int} {ts rest : List Token} :
      Fills (p.put n) ts q rest → Fills p (.number n :: ts) q rest
  | colon {p q : Places} {ts rest : List Token} : p.colons < 2 →
      Fills { p with colons := p.colons + 1 } ts q rest → Fills p (.colon :: ts) q rest

/-- The tokens begin with the form, the expression is what it makes, and the tokens after it are
left. For a list, a hash or a call it is the whole expression. -/
inductive Derives : Form → List Token → Expr → List Token → Prop
  | expr {least : Nat} {left e : Expr} {ts mid rest : List Token} :
      Derives .start ts left mid → Derives (.climb least left) mid e rest →
      Derives (.expr least) ts e rest
  | stop {least : Nat} {left : Expr} {ts : List Token} :
      (front ts).power ≤ least → Derives (.climb least left) ts left ts
  | step {least : Nat} {left next e : Expr} {t : Token} {ts mid rest : List Token} :
      least < t.power → Derives (.extend left) (t :: ts) next mid →
      Derives (.climb least next) mid e rest → Derives (.climb least left) (t :: ts) e rest
  -- what starts an expression
  | atom {t : Token} {e : Expr} {ts : List Token} :
      t.atom? = some e → Derives .start (t :: ts) e ts
  | projection {e : Expr} {ts rest : List Token} : Token.opensProjection ts = true →
      Derives (.extend .current) ts e rest → Derives .start ts e rest
  | values {each : Expr} {ts rest : List Token} :
      Derives (.each Token.star.power) ts each rest →
      Derives .start (.star :: ts) (.project (.values .current) each) rest
  | items {items : List Expr} {ts rest : List Token} :
      Token.opensProjection (.lbracket :: ts) = false → Derives .list ts (.list items) rest →
      Derives .start (.lbracket :: ts) (.list items) rest
  | entries {entries : List (String × Expr)} {ts rest : List Token} :
      Derives .hash ts (.hash entries) rest →
      Derives .start (.lbrace :: ts) (.hash entries) rest
  | group {e : Expr} {ts rest : List Token} :
      Derives (.expr 0) ts e (.rparen :: rest) → Derives .start (.lparen :: ts) e rest
  | not {e : Expr} {ts rest : List Token} :
      Derives (.expr Token.not.power) ts e rest → Derives .start (.not :: ts) (.not e) rest
  | reference {e : Expr} {ts rest : List Token} :
      Derives (.expr 0) ts e rest → Derives .start (.ampersand :: ts) (.reference e) rest
  -- what extends an expression
  | valuesOf {left each : Expr} {ts rest : List Token} :
      Derives (.each Token.star.power) ts each rest →
      Derives (.extend left) (.dot :: .star :: ts) (.project (.values left) each) rest
  | memberOf {left next : Expr} {ts rest : List Token} :
      Derives .member ts next rest → Derives (.extend left) (.dot :: ts) (.chain left next) rest
  | operator (o : Operator) {left right : Expr} {ts rest : List Token} :
      Derives (.expr o.power) ts right rest →
      Derives (.extend left) (o.token :: ts) (o.apply left right) rest
  | flatten {left each : Expr} {ts rest : List Token} :
      Derives (.each Token.flatten.power) ts each rest →
      Derives (.extend left) (.flatten :: ts) (.project (.flatten left) each) rest
  | elements {left each : Expr} {ts rest : List Token} :
      Derives (.each Token.star.power) ts each rest →
      Derives (.extend left) (.lbracket :: .star :: .rbracket :: ts) (.project left each) rest
  | filter {left test each : Expr} {ts mid rest : List Token} :
      Derives (.expr 0) ts test (.rbracket :: mid) →
      Derives (.each Token.filter.power) mid each rest →
      Derives (.extend left) (.filter :: ts) (.filter left test each) rest
  | index {left : Expr} {p : Places} {i : Int} {ts rest : List Token} :
      (front ts).startsPlaces = true → Fills .empty ts p rest → p.colons = 0 →
      p.slice.start = some i →
      Derives (.extend left) (.lbracket :: ts) (.chain left (.index i)) rest
  | slice {left each : Expr} {p : Places} {ts mid rest : List Token} :
      (front ts).startsPlaces = true → Fills .empty ts p mid → p.colons ≠ 0 →
      p.slice.step ≠ some 0 → Derives (.each Token.star.power) mid each rest →
      Derives (.extend left) (.lbracket :: ts) (.project (.chain left (.slice p.slice)) each) rest
  | call {name : String} {args : List Expr} {ts rest : List Token} :
      Derives (.args name) ts (.call name args) rest →
      Derives (.extend (.field name)) (.lparen :: ts) (.call name args) rest
  -- what stands after a dot
  | member {e : Expr} {ts rest : List Token} : (front ts).startsMember = true →
      Derives (.expr Token.dot.power) ts e rest → Derives .member ts e rest
  | memberItems {items : List Expr} {ts rest : List Token} :
      Derives .list ts (.list items) rest → Derives .member (.lbracket :: ts) (.list items) rest
  -- what a projection applies; nothing, where the next token binds too little
  | done {least : Nat} {ts : List Token} : (front ts).power < Token.projectionStop →
      Derives (.each least) ts .current ts
  | eachMember {least : Nat} {first e : Expr} {ts mid rest : List Token} :
      Derives .member ts first mid → Derives (.climb least first) mid e rest →
      Derives (.each least) (.dot :: ts) e rest
  | eachBracket {least : Nat} {e : Expr} {ts rest : List Token} :
      (front ts).startsEach = true → Derives (.expr least) ts e rest →
      Derives (.each least) ts e rest
  -- what stands in brackets, with at least one item or entry
  | moreItems {item : Expr} {items : List Expr} {ts mid rest : List Token} :
      Derives (.expr 0) ts item (.comma :: mid) → Derives .list mid (.list items) rest →
      Derives .list ts (.list (item :: items)) rest
  | lastItem {item : Expr} {ts rest : List Token} :
      Derives (.expr 0) ts item (.rbracket :: rest) → Derives .list ts (.list [item]) rest
  | moreEntries {t : Token} {key : String} {value : Expr} {entries : List (String × Expr)}
      {ts mid rest : List Token} : hashKey? t = some key →
      Derives (.expr 0) ts value (.comma :: mid) → Derives .hash mid (.hash entries) rest →
      Derives .hash (t :: .colon :: ts) (.hash ((key, value) :: entries)) rest
  | lastEntry {t : Token} {key : String} {value : Expr} {ts rest : List Token} :
      hashKey? t = some key → Derives (.expr 0) ts value (.rbrace :: rest) →
      Derives .hash (t :: .colon :: ts) (.hash [(key, value)]) rest
  | noArgs {name : String} {ts : List Token} :
      Derives (.args name) (.rparen :: ts) (.call name []) ts
  | moreArgs {name : String} {arg : Expr} {args : List Expr} {ts mid rest : List Token} :
      Derives (.expr 0) ts arg (.comma :: mid) → Derives (.args name) mid (.call name args) rest →
      Derives (.args name) ts (.call name (arg :: args)) rest
  | lastArg {name : String} {arg : Expr} {ts rest : List Token} :
      Derives (.expr 0) ts arg (.rparen :: rest) →
      Derives (.args name) ts (.call name [arg]) rest

/-! ## The tokens of a form -/

/-- The number of brackets open after the token. -/
def Token.shift : Token → Nat → Nat
  | .lbracket, d | .filter, d | .lbrace, d | .lparen, d => d + 1
  | .rbracket, d | .rbrace, d | .rparen, d => d - 1
  | _, d => d

/-- The number of brackets open after the tokens, where `d` are open before them. -/
def depthAfter (d : Nat) (ts : List Token) : Nat := ts.foldl (fun d t => t.shift d) d

@[simp] theorem depthAfter_nil (d : Nat) : depthAfter d [] = d := rfl

@[simp] theorem depthAfter_cons (d : Nat) (t : Token) (ts : List Token) :
    depthAfter d (t :: ts) = depthAfter (t.shift d) ts := rfl

@[simp] theorem depthAfter_append (d : Nat) (ts us : List Token) :
    depthAfter d (ts ++ us) = depthAfter (depthAfter d ts) us := List.foldl_append

/-- Whether reading the form takes a token at least. -/
def Form.takesToken : Form → Bool
  | .climb .. | .each _ => false
  | _ => true

/-- How many brackets that are open before the form end with it. -/
def Form.depth : Form → Nat
  | .list | .hash | .args _ => 1
  | _ => 0

/-- Tokens that a form may take: one at least if it needs one, and with all brackets closed. -/
structure Takes (form : Form) (seg : List Token) : Prop where
  ne_nil : form.takesToken = true → seg ≠ []
  depth (d : Nat) : depthAfter (d + form.depth) seg = d

theorem Token.shift_of_atom? {t : Token} {e : Expr} (h : t.atom? = some e) (d : Nat) :
    t.shift d = d := by
  cases t <;> first | rfl | contradiction

theorem Token.shift_of_hashKey? {t : Token} {key : String} (h : hashKey? t = some key) (d : Nat) :
    t.shift d = d := by
  cases t <;> first | rfl | contradiction

theorem Operator.shift_token (o : Operator) (d : Nat) : o.token.shift d = d := by
  cases o with
  | compare op => cases op <;> rfl
  | _ => rfl

theorem Fills.exists_segment {p q : Places} {ts rest : List Token} (h : Fills p ts q rest) :
    ∃ seg, ts = seg ++ .rbracket :: rest ∧
      ∀ t ∈ seg, t = .colon ∨ ∃ n, t = .number n := by
  induction h with
  | close => exact ⟨[], rfl, nofun⟩
  | @number p q n ts rest _ ih =>
    obtain ⟨seg, rfl, hseg⟩ := ih
    exact ⟨.number n :: seg, rfl, List.forall_mem_cons.2 ⟨.inr ⟨n, rfl⟩, hseg⟩⟩
  | colon _ _ ih =>
    obtain ⟨seg, rfl, hseg⟩ := ih
    exact ⟨.colon :: seg, rfl, List.forall_mem_cons.2 ⟨.inl rfl, hseg⟩⟩

theorem Fills.length_lt {p q : Places} {ts rest : List Token} (h : Fills p ts q rest) :
    rest.length < ts.length := by
  obtain ⟨seg, rfl, _⟩ := h.exists_segment
  rw [List.length_append, List.length_cons]
  omega

theorem depthAfter_places {seg : List Token} (h : ∀ t ∈ seg, t = .colon ∨ ∃ n, t = .number n)
    (d : Nat) : depthAfter d seg = d := by
  induction seg with
  | nil => rfl
  | cons t seg ih =>
    rw [List.forall_mem_cons] at h
    obtain rfl | ⟨n, rfl⟩ := h.1
    · exact ih h.2
    · exact ih h.2

namespace Takes

variable {form : Form} {seg : List Token}

theorem closed (h : Takes form seg) (hform : form.depth = 0) (d : Nat) :
    depthAfter d seg = d := by
  simpa [hform] using h.depth d

theorem closing (h : Takes form seg) (hform : form.depth = 1) (d : Nat) :
    depthAfter (d + 1) seg = d := by
  simpa [hform] using h.depth d

end Takes

/-- A form takes tokens from the front. Parts of it that do not need one take their brackets in
pairs all the same, so the depths of the parts add up. -/
theorem Derives.exists_segment {form : Form} {ts rest : List Token} {e : Expr}
    (h : Derives form ts e rest) : ∃ seg, ts = seg ++ rest ∧ Takes form seg := by
  induction h with
  | expr _ _ ih₁ ih₂ =>
    obtain ⟨seg₁, rfl, h₁⟩ := ih₁
    obtain ⟨seg₂, rfl, h₂⟩ := ih₂
    exact ⟨seg₁ ++ seg₂, by simp, by simp [h₁.ne_nil rfl], fun d => by
      simp [Form.depth, h₁.closed rfl, h₂.closed rfl]⟩
  | stop => exact ⟨[], rfl, nofun, fun _ => rfl⟩
  | step _ _ _ ih₁ ih₂ =>
    obtain ⟨seg₁, hts, h₁⟩ := ih₁
    obtain ⟨seg₂, rfl, h₂⟩ := ih₂
    exact ⟨seg₁ ++ seg₂, by simpa using hts, nofun, fun d => by
      simp [Form.depth, h₁.closed rfl, h₂.closed rfl]⟩
  | @atom t e ts ht => exact ⟨[t], rfl, by simp, Token.shift_of_atom? ht⟩
  | projection _ _ ih =>
    obtain ⟨seg, rfl, h⟩ := ih
    exact ⟨seg, rfl, fun _ => h.ne_nil rfl, h.depth⟩
  | values _ ih =>
    obtain ⟨seg, rfl, h⟩ := ih
    exact ⟨.star :: seg, rfl, by simp, h.depth⟩
  | items _ _ ih =>
    obtain ⟨seg, rfl, h⟩ := ih
    exact ⟨.lbracket :: seg, rfl, by simp, h.depth⟩
  | entries _ ih =>
    obtain ⟨seg, rfl, h⟩ := ih
    exact ⟨.lbrace :: seg, rfl, by simp, h.depth⟩
  | group _ ih =>
    obtain ⟨seg, rfl, h⟩ := ih
    exact ⟨.lparen :: (seg ++ [.rparen]), by simp, by simp, fun d => by
      simp [Form.depth, Token.shift, h.closed rfl]⟩
  | not _ ih =>
    obtain ⟨seg, rfl, h⟩ := ih
    exact ⟨.not :: seg, rfl, by simp, h.depth⟩
  | reference _ ih =>
    obtain ⟨seg, rfl, h⟩ := ih
    exact ⟨.ampersand :: seg, rfl, by simp, h.depth⟩
  | valuesOf _ ih =>
    obtain ⟨seg, rfl, h⟩ := ih
    exact ⟨.dot :: .star :: seg, rfl, by simp, h.depth⟩
  | memberOf _ ih =>
    obtain ⟨seg, rfl, h⟩ := ih
    exact ⟨.dot :: seg, rfl, by simp, h.depth⟩
  | operator o _ ih =>
    obtain ⟨seg, rfl, h⟩ := ih
    exact ⟨o.token :: seg, rfl, by simp, fun d => by
      simp [Form.depth, o.shift_token, h.closed rfl]⟩
  | flatten _ ih =>
    obtain ⟨seg, rfl, h⟩ := ih
    exact ⟨.flatten :: seg, rfl, by simp, h.depth⟩
  | elements _ ih =>
    obtain ⟨seg, rfl, h⟩ := ih
    exact ⟨.lbracket :: .star :: .rbracket :: seg, rfl, by simp, h.depth⟩
  | filter _ _ ih₁ ih₂ =>
    obtain ⟨seg₁, rfl, h₁⟩ := ih₁
    obtain ⟨seg₂, rfl, h₂⟩ := ih₂
    exact ⟨.filter :: (seg₁ ++ .rbracket :: seg₂), by simp, by simp, fun d => by
      simp [Form.depth, Token.shift, h₁.closed rfl, h₂.closed rfl]⟩
  | index _ hfills _ _ =>
    obtain ⟨seg, rfl, h⟩ := hfills.exists_segment
    exact ⟨.lbracket :: (seg ++ [.rbracket]), by simp, by simp, fun d => by
      simp [Form.depth, Token.shift, depthAfter_places h]⟩
  | slice _ hfills _ _ _ ih =>
    obtain ⟨seg₁, rfl, h₁⟩ := hfills.exists_segment
    obtain ⟨seg₂, rfl, h₂⟩ := ih
    exact ⟨.lbracket :: (seg₁ ++ .rbracket :: seg₂), by simp, by simp, fun d => by
      simp [Form.depth, Token.shift, depthAfter_places h₁, h₂.closed rfl]⟩
  | call _ ih =>
    obtain ⟨seg, rfl, h⟩ := ih
    exact ⟨.lparen :: seg, rfl, by simp, h.depth⟩
  | member _ _ ih =>
    obtain ⟨seg, rfl, h⟩ := ih
    exact ⟨seg, rfl, fun _ => h.ne_nil rfl, h.depth⟩
  | memberItems _ ih =>
    obtain ⟨seg, rfl, h⟩ := ih
    exact ⟨.lbracket :: seg, rfl, by simp, h.depth⟩
  | done => exact ⟨[], rfl, nofun, fun _ => rfl⟩
  | eachMember _ _ ih₁ ih₂ =>
    obtain ⟨seg₁, rfl, h₁⟩ := ih₁
    obtain ⟨seg₂, rfl, h₂⟩ := ih₂
    exact ⟨.dot :: (seg₁ ++ seg₂), by simp, nofun, fun d => by
      simp [Form.depth, Token.shift, h₁.closed rfl, h₂.closed rfl]⟩
  | eachBracket _ _ ih =>
    obtain ⟨seg, rfl, h⟩ := ih
    exact ⟨seg, rfl, nofun, h.depth⟩
  | moreItems _ _ ih₁ ih₂ =>
    obtain ⟨seg₁, rfl, h₁⟩ := ih₁
    obtain ⟨seg₂, rfl, h₂⟩ := ih₂
    exact ⟨seg₁ ++ .comma :: seg₂, by simp, by simp, fun d => by
      simp [Form.depth, Token.shift, h₁.closed rfl, h₂.closing rfl]⟩
  | lastItem _ ih =>
    obtain ⟨seg, rfl, h⟩ := ih
    exact ⟨seg ++ [.rbracket], by simp, by simp, fun d => by
      simp [Form.depth, Token.shift, h.closed rfl]⟩
  | @moreEntries t _ _ _ _ _ _ hkey _ _ ih₁ ih₂ =>
    obtain ⟨seg₁, rfl, h₁⟩ := ih₁
    obtain ⟨seg₂, rfl, h₂⟩ := ih₂
    exact ⟨t :: .colon :: (seg₁ ++ .comma :: seg₂), by simp, by simp, fun d => by
      rw [depthAfter_cons, Token.shift_of_hashKey? hkey]
      simp [Form.depth, Token.shift, h₁.closed rfl, h₂.closing rfl]⟩
  | @lastEntry t _ _ _ _ hkey _ ih =>
    obtain ⟨seg, rfl, h⟩ := ih
    exact ⟨t :: .colon :: (seg ++ [.rbrace]), by simp, by simp, fun d => by
      rw [depthAfter_cons, Token.shift_of_hashKey? hkey]
      simp [Form.depth, Token.shift, h.closed rfl]⟩
  | noArgs => exact ⟨[.rparen], rfl, by simp, fun _ => rfl⟩
  | moreArgs _ _ ih₁ ih₂ =>
    obtain ⟨seg₁, rfl, h₁⟩ := ih₁
    obtain ⟨seg₂, rfl, h₂⟩ := ih₂
    exact ⟨seg₁ ++ .comma :: seg₂, by simp, by simp, fun d => by
      simp [Form.depth, Token.shift, h₁.closed rfl, h₂.closing rfl]⟩
  | lastArg _ ih =>
    obtain ⟨seg, rfl, h⟩ := ih
    exact ⟨seg ++ [.rparen], by simp, by simp, fun d => by
      simp [Form.depth, Token.shift, h.closed rfl]⟩

namespace Derives

variable {form : Form} {ts rest : List Token} {e : Expr}

theorem suffix (h : Derives form ts e rest) : rest <:+ ts := by
  obtain ⟨seg, rfl, _⟩ := h.exists_segment
  exact List.suffix_append _ _

theorem startsExpr_of_start (h : Derives .start ts e rest) : (front ts).startsExpr = true := by
  cases h with
  | @atom t _ _ h => cases t <;> first | rfl | contradiction
  | @projection _ ts _ h =>
    match ts, h with
    | .flatten :: _, _ | .filter :: _, _ | .lbracket :: _, _ => rfl
  | _ => rfl

theorem startsExpr {least : Nat} (h : Derives (.expr least) ts e rest) :
    (front ts).startsExpr = true := by
  cases h with
  | expr h _ => exact h.startsExpr_of_start

theorem length_le (h : Derives form ts e rest) : rest.length ≤ ts.length := h.suffix.length_le

theorem length_lt (h : Derives form ts e rest) (hform : form.takesToken = true) :
    rest.length < ts.length := by
  obtain ⟨seg, rfl, htakes⟩ := h.exists_segment
  have := List.length_pos_iff.2 (htakes.ne_nil hform)
  rw [List.length_append]
  omega

end Derives

end ResourceGraph.Query
