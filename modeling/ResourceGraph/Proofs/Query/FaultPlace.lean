import ResourceGraph.Proofs.Query.LexemePlace
import ResourceGraph.Proofs.Query.RawText

/-!
# Where faults are found

The place of a fault is the start of a lexeme or the end of the query. A fault that names a token
is at the start of this token if the parser has only looked at it. Where the parser has passed the
token before it refuses it, the fault is at the start of what follows.
-/
namespace ResourceGraph.Query

variable {α β : Type}

namespace SyntaxFault

/-- The token that a fault says was found. -/
def found? : SyntaxFault → Option Token
  | trailing found | unexpected found | unexpectedAfterBracket found | unexpectedAfterDot found
  | unexpectedInProjection found | unexpectedInIndex found | expected _ found
  | expectedArgumentEnd found | expectedListEnd found | expectedHashEnd found
  | expectedKey found => some found
  | _ => none

/-- Whether the parser has passed the token that it names. -/
def isPassed : SyntaxFault → Bool
  | unexpected _ | unexpectedInIndex _ | expectedListEnd _ | expectedHashEnd _ | expectedKey _ =>
    true
  | _ => false

end SyntaxFault

/-! ## The lexer names no token -/

theorem found?_of_scanPair {cs : List Char} {second c : Char} {double : Token}
    {single : Option Token} {cause : SyntaxFault}
    (h : scanPair cs second double single c = .error cause) : cause.found? = none := by
  unfold scanPair at h
  split at h
  · cases h
  · cases single with
    | none =>
      cases h
      rfl
    | some token => cases h

theorem found?_of_scanDelimited {close : Char} {cs : List Char}
    {unterminated invalid cause : SyntaxFault} {read? : List Char → Option Token}
    (h : scanDelimited close cs unterminated invalid read? = .error cause)
    (hunterminated : unterminated.found? = none) (hinvalid : invalid.found? = none) :
    cause.found? = none := by
  unfold scanDelimited at h
  split at h
  · cases h
    exact hunterminated
  split at h
  · cases h
  · cases h
    exact hinvalid

theorem found?_of_scanNumber {c : Char} {digits : List Char} {cause : SyntaxFault}
    (h : scanNumber c digits = .error cause) : cause.found? = none := by
  unfold scanNumber at h
  cases hvalue : (if c = '-' then wholeNumber? true digits
      else wholeNumber? false (c :: digits)) with
  | some n => simp [hvalue] at h
  | none =>
    simp only [hvalue, Except.error.injEq] at h
    rw [← h]
    rfl

theorem found?_of_scanWord {c : Char} {cs : List Char} {cause : SyntaxFault}
    (h : scanWord c cs = .error cause) : cause.found? = none := by
  unfold scanWord at h
  split at h
  · exact found?_of_scanNumber h
  split at h
  · cases h
  · cases h
    rfl

theorem found?_of_scanToken {c : Char} {cs : List Char} {cause : SyntaxFault}
    (h : scanToken c cs = .error cause) : cause.found? = none := by
  unfold scanToken at h
  split at h
  case h_15 =>
    split at h
    · cases h
    · exact found?_of_scanPair h
  case h_16 | h_17 | h_18 | h_19 | h_20 | h_21 => exact found?_of_scanPair h
  case h_22 | h_23 | h_24 => exact found?_of_scanDelimited h rfl rfl
  case h_25 => exact found?_of_scanWord h
  all_goals cases h

/-! ## What a parser refuses -/

/-- The token stands right before the lexemes `ts`; the end of the query stands before none. -/
inductive Precedes (whole : Rest) : Token → Rest → Prop
  | lexeme {offset : Nat} {t : Token} {ts : Rest} :
      ⟨offset, t⟩ :: ts <:+ whole → Precedes whole t ts
  | eof : Precedes whole .eof []

/-- The fault names the next token, or the last one that was passed, or none. -/
inductive Blame (whole : Rest) : Refusal → Prop
  | next {ts : Rest} {cause : SyntaxFault} : ts <:+ whole → cause.found? = some ts.peek →
      cause.isPassed = false → Blame whole ⟨ts, cause⟩
  | passed {t : Token} {ts : Rest} {cause : SyntaxFault} : Precedes whole t ts →
      cause.found? = some t → cause.isPassed = true → Blame whole ⟨ts, cause⟩
  | unnamed {ts : Rest} {cause : SyntaxFault} : ts <:+ whole → cause.found? = none →
      Blame whole ⟨ts, cause⟩

theorem Precedes.suffix {whole ts : Rest} {t : Token} (h : Precedes whole t ts) : ts <:+ whole := by
  cases h with
  | lexeme h => exact (List.suffix_cons _ _).trans h
  | eof => exact List.nil_suffix

theorem precedes_peek {whole ts : Rest} (h : ts <:+ whole) : Precedes whole ts.peek ts.tail := by
  cases ts with
  | nil => exact .eof
  | cons l ts => exact .lexeme h

/-- The parser refuses with such a fault, or returns what satisfies `post`. -/
structure Blames (whole : Rest) (x : Attempt α) (post : α → Prop) : Prop where
  of_error {refusal : Refusal} : x.run = some (.error refusal) → Blame whole refusal
  of_ok {a : α} : x.run = some (.ok a) → post a

/-- As `Blames`, for a parser that leaves lexemes of the whole. -/
abbrev Stays (whole : Rest) (x : Attempt (α × Rest)) : Prop := Blames whole x fun r => r.2 <:+ whole

namespace Blames

variable {whole : Rest} {post : α → Prop}

theorem spent : Blames whole (spent : Attempt α) post := ⟨nofun, nofun⟩

theorem pure {a : α} (h : post a) : Blames whole (pure a) post :=
  ⟨nofun, fun ha => by cases ha; exact h⟩

theorem throw {refusal : Refusal} (h : Blame whole refusal) :
    Blames whole (throw refusal : Attempt α) post :=
  ⟨fun hr => by cases hr; exact h, nofun⟩

theorem bind {x : Attempt α} {f : α → Attempt β} {mid : α → Prop} {post : β → Prop}
    (hx : Blames whole x mid) (hf : ∀ a, mid a → Blames whole (f a) post) :
    Blames whole (x >>= f) post := by
  have hrun := run_bind x f
  rcases hx' : x.run with _ | refusal | a
  · exact ⟨fun h => by simp [hrun, hx'] at h, fun h => by simp [hrun, hx'] at h⟩
  · refine ⟨fun h => ?_, fun h => by simp [hrun, hx'] at h⟩
    rw [hrun, hx'] at h
    cases h
    exact hx.of_error hx'
  · rw [hx'] at hrun
    have hnext := hf a (hx.of_ok hx')
    exact ⟨fun h => hnext.of_error (hrun.symm.trans h), fun h => hnext.of_ok (hrun.symm.trans h)⟩

theorem expect {wanted : Token} {ts : Rest} (h : ts <:+ whole) :
    Blames whole (expect wanted ts) (· <:+ whole) := by
  rw [Query.expect]
  split
  · exact .pure ((List.tail_suffix ts).trans h)
  · exact .throw (.next h rfl rfl)

end Blames

/-! ## The parsers -/

theorem blame_of_scanPlaces {whole ts : Rest} {p : Places} (hts : ts <:+ whole) :
    (∀ refusal, scanPlaces p ts = .error refusal → Blame whole refusal) ∧
    ∀ q rest, scanPlaces p ts = .ok (q, rest) → rest <:+ whole := by
  induction ts generalizing p with
  | nil =>
    refine ⟨fun refusal h => ?_, fun q rest h => by cases h⟩
    cases h
    exact .passed .eof rfl rfl
  | cons l ts ih =>
    have hrest : ts <:+ whole := (List.suffix_cons _ _).trans hts
    obtain ⟨offset, t⟩ := l
    have hrefused : Blame whole ⟨ts, .unexpectedInIndex t⟩ := .passed (.lexeme hts) rfl rfl
    cases t with
    | number n => exact ih hrest
    | colon =>
      rw [scanPlaces]
      split
      · exact ih hrest
      · exact ⟨fun refusal h => by cases h; exact hrefused, fun q rest h => by cases h⟩
    | rbracket =>
      refine ⟨fun refusal h => (by cases h), fun q rest h => ?_⟩
      cases h
      exact hrest
    | _ => exact ⟨fun refusal h => by cases h; exact hrefused, fun q rest h => by cases h⟩

/-- With `n` steps of fuel, each parser that is given lexemes of the whole leaves lexemes of the
whole or refuses some. -/
structure Locates (whole : Rest) (n : Nat) : Prop where
  expr {ts : Rest} (least : Nat) : ts <:+ whole → Stays whole (parseExpr n least ts)
  climb {ts : Rest} (least : Nat) (left : Expr) : ts <:+ whole →
    Stays whole (parseClimb n least left ts)
  start {ts : Rest} {t : Token} : Precedes whole t ts → Stays whole (parseStart n t ts)
  extend {ts : Rest} {t : Token} (left : Expr) : Precedes whole t ts →
    Stays whole (parseExtend n t left ts)
  compare {ts : Rest} (op : Comparator) (left : Expr) : ts <:+ whole →
    Stays whole (parseCompare n op left ts)
  member {ts : Rest} : ts <:+ whole → Stays whole (parseMember n ts)
  each {ts : Rest} (least : Nat) : ts <:+ whole → Stays whole (parseEach n least ts)
  filter {ts : Rest} (left : Expr) : ts <:+ whole → Stays whole (parseFilter n left ts)
  places {ts : Rest} (left : Expr) : ts <:+ whole → Stays whole (parsePlaces n left ts)
  list {ts : Rest} : ts <:+ whole → Stays whole (parseList n ts)
  hash {ts : Rest} : ts <:+ whole → Stays whole (parseHash n ts)
  args {ts : Rest} : ts <:+ whole → Stays whole (parseArgs n ts)

theorem locates_zero (whole : Rest) : Locates whole 0 := by
  constructor <;> intros <;> exact .spent

namespace Locates

variable {whole ts : Rest} {n : Nat} {t : Token}

/-- What stays after another token has been passed. -/
theorem tail (h : ts <:+ whole) : ts.tail <:+ whole := (List.tail_suffix ts).trans h

/-- A parser whose result is handed on with the lexemes that it leaves. -/
theorem andThen {x : Attempt (α × Rest)} {f : α × Rest → Attempt β} {post : β → Prop}
    (hx : Stays whole x) (hf : ∀ a rest, rest <:+ whole → Blames whole (f (a, rest)) post) :
    Blames whole (x >>= f) post := hx.bind fun r => hf r.1 r.2

theorem expr_succ (h : Locates whole n) (least : Nat) (hts : ts <:+ whole) :
    Stays whole (parseExpr (n + 1) least ts) := by
  rw [parseExpr]
  exact andThen (h.start (precedes_peek hts)) fun left _ hrest => h.climb least left hrest

theorem climb_succ (h : Locates whole n) (least : Nat) (left : Expr) (hts : ts <:+ whole) :
    Stays whole (parseClimb (n + 1) least left ts) := by
  rw [parseClimb]
  split
  · exact andThen (h.extend left (precedes_peek hts)) fun next _ hrest => h.climb least next hrest
  · exact .pure hts

theorem start_succ (h : Locates whole n) (ht : Precedes whole t ts) :
    Stays whole (parseStart (n + 1) t ts) := by
  have hts := ht.suffix
  cases t with
  | identifier | quotedIdentifier | literal | current => exact .pure hts
  | star => exact andThen (h.each _ hts) fun _ _ hrest => .pure hrest
  | flatten => exact andThen (h.each _ hts) fun _ _ hrest => .pure hrest
  | filter => exact h.filter _ hts
  | lbracket =>
    rw [parseStart]
    split
    · exact h.places _ hts
    · exact h.places _ hts
    · exact andThen (h.each _ (tail (tail hts))) fun _ _ hrest => .pure hrest
    · exact andThen (h.list hts) fun _ _ hrest => .pure hrest
  | lbrace => exact andThen (h.hash hts) fun _ _ hrest => .pure hrest
  | lparen =>
    refine andThen (h.expr 0 hts) fun _ _ hmid => ?_
    exact (Blames.expect hmid).bind fun _ hrest => .pure hrest
  | not => exact andThen (h.expr _ hts) fun _ _ hrest => .pure hrest
  | ampersand => exact andThen (h.expr 0 hts) fun _ _ hrest => .pure hrest
  | _ => exact .throw (.passed ht rfl rfl)

theorem compare_succ (h : Locates whole n) (op : Comparator) (left : Expr) (hts : ts <:+ whole) :
    Stays whole (parseCompare (n + 1) op left ts) :=
  andThen (h.expr _ hts) fun _ _ hrest => .pure hrest

theorem dot_extend (h : Locates whole n) (left : Expr) (hts : ts <:+ whole) :
    Stays whole (parseExtend (n + 1) .dot left ts) := by
  rw [parseExtend]
  split
  · exact andThen (h.each _ (tail hts)) fun _ _ hrest => .pure hrest
  · exact andThen (h.member hts) fun _ _ hrest => .pure hrest

theorem lbracket_extend (h : Locates whole n) (left : Expr) (hts : ts <:+ whole) :
    Stays whole (parseExtend (n + 1) .lbracket left ts) := by
  rw [parseExtend]
  split
  · exact h.places _ hts
  · exact h.places _ hts
  · exact (Blames.expect (tail hts)).bind fun _ hmid =>
      andThen (h.each _ hmid) fun _ _ hrest => .pure hrest
  · exact .throw (.next hts rfl rfl)

theorem extend_succ (h : Locates whole n) (left : Expr) (ht : Precedes whole t ts) :
    Stays whole (parseExtend (n + 1) t left ts) := by
  have hts := ht.suffix
  cases t with
  | dot => exact h.dot_extend left hts
  | pipe => exact andThen (h.expr _ hts) fun _ _ hrest => .pure hrest
  | or => exact andThen (h.expr _ hts) fun _ _ hrest => .pure hrest
  | and => exact andThen (h.expr _ hts) fun _ _ hrest => .pure hrest
  | eq => exact h.compare .eq left hts
  | ne => exact h.compare .ne left hts
  | lt => exact h.compare .lt left hts
  | lte => exact h.compare .le left hts
  | gt => exact h.compare .gt left hts
  | gte => exact h.compare .ge left hts
  | flatten => exact andThen (h.each _ hts) fun _ _ hrest => .pure hrest
  | filter => exact h.filter _ hts
  | lbracket => exact h.lbracket_extend left hts
  | lparen =>
    cases left with
    | field name => exact andThen (h.args hts) fun _ _ hrest => .pure hrest
    | _ => exact .throw (.unnamed hts rfl)
  | _ => exact .throw (.passed ht rfl rfl)

theorem member_succ (h : Locates whole n) (hts : ts <:+ whole) :
    Stays whole (parseMember (n + 1) ts) := by
  rw [parseMember]
  split
  · exact h.expr _ hts
  · exact h.expr _ hts
  · exact h.expr _ hts
  · exact andThen (h.list (tail hts)) fun _ _ hrest => .pure hrest
  · exact .throw (.next hts rfl rfl)

theorem each_succ (h : Locates whole n) (least : Nat) (hts : ts <:+ whole) :
    Stays whole (parseEach (n + 1) least ts) := by
  rw [parseEach]
  split
  · exact .pure hts
  split
  · exact andThen (h.member (tail hts)) fun first _ hrest => h.climb least first hrest
  · exact h.expr _ hts
  · exact h.expr _ hts
  · exact .throw (.next hts rfl rfl)

theorem filter_succ (h : Locates whole n) (left : Expr) (hts : ts <:+ whole) :
    Stays whole (parseFilter (n + 1) left ts) :=
  andThen (h.expr 0 hts) fun _ _ hmid => (Blames.expect hmid).bind fun _ hmid' =>
    andThen (h.each _ hmid') fun _ _ hrest => .pure hrest

theorem places_succ (h : Locates whole n) (left : Expr) (hts : ts <:+ whole) :
    Stays whole (parsePlaces (n + 1) left ts) := by
  obtain ⟨herror, hok⟩ := blame_of_scanPlaces (p := ⟨⟨none, none, none⟩, 0⟩) hts
  rw [parsePlaces]
  split
  · next refusal hscan => exact .throw (herror refusal hscan)
  · next p rest hscan =>
    have hrest := hok p rest hscan
    split
    · split
      · exact .pure hrest
      · exact .throw (.unnamed hrest rfl)
    · split
      · exact .throw (.unnamed hrest rfl)
      · exact andThen (h.each _ hrest) fun _ _ hrest => .pure hrest

theorem list_succ (h : Locates whole n) (hts : ts <:+ whole) :
    Stays whole (parseList (n + 1) ts) := by
  refine andThen (h.expr 0 hts) fun _ mid hmid => ?_
  dsimp only
  split
  · exact andThen (h.list (tail hmid)) fun _ _ hrest => .pure hrest
  · exact .pure (tail hmid)
  · exact .throw (.passed (precedes_peek hmid) rfl rfl)

theorem hash_succ (h : Locates whole n) (hts : ts <:+ whole) :
    Stays whole (parseHash (n + 1) ts) := by
  rw [parseHash]
  split
  · exact .throw (.passed (precedes_peek hts) rfl rfl)
  · refine (Blames.expect (tail hts)).bind fun body hbody => ?_
    refine andThen (h.expr 0 hbody) fun _ mid hmid => ?_
    dsimp only
    split
    · exact andThen (h.hash (tail hmid)) fun _ _ hrest => .pure hrest
    · exact .pure (tail hmid)
    · exact .throw (.passed (precedes_peek hmid) rfl rfl)

theorem args_succ (h : Locates whole n) (hts : ts <:+ whole) :
    Stays whole (parseArgs (n + 1) ts) := by
  rw [parseArgs]
  split
  · exact .pure (tail hts)
  · refine andThen (h.expr 0 hts) fun _ mid hmid => ?_
    dsimp only
    split
    · exact andThen (h.args (tail hmid)) fun _ _ hrest => .pure hrest
    · exact .pure (tail hmid)
    · exact .throw (.next hmid rfl rfl)

end Locates

theorem locates (whole : Rest) (n : Nat) : Locates whole n := by
  induction n with
  | zero => exact locates_zero whole
  | succ n h =>
    exact ⟨h.expr_succ, h.climb_succ, h.start_succ, h.extend_succ, h.compare_succ, h.member_succ,
      h.each_succ, h.filter_succ, h.places_succ, h.list_succ, h.hash_succ, h.args_succ⟩

theorem blame_of_parseAll {ts : Rest} {refusal : Refusal}
    (h : (parseAll ts).run = some (.error refusal)) : Blame ts refusal := by
  have hall : Blames ts (parseAll ts) fun _ => True := by
    refine ((locates ts _).expr 0 List.suffix_rfl).bind fun ⟨_, rest⟩ hrest => ?_
    dsimp only
    split
    · exact .pure trivial
    · exact .throw (.next hrest rfl rfl)
  exact hall.of_error h

/-! ## The faults of a query -/

theorem Blame.suffix {whole : Rest} {refusal : Refusal} (h : Blame whole refusal) :
    refusal.rest <:+ whole := by
  cases h with
  | next h | unnamed h => exact h
  | passed h => exact h.suffix

/-- A query that is refused has a character that cannot be read, or lexemes that the parser
refuses. -/
theorem fault_of_parse_error {query : String} {fault : Fault} (h : parse query = .error fault) :
    lexFrom 0 query.toList = .error fault ∨
    ∃ ls refusal, lexFrom 0 query.toList = .ok ls ∧ Blame ls refusal ∧
      fault = ⟨refusal.rest.offset query.utf8ByteSize, refusal.cause⟩ := by
  cases hls : lexFrom 0 query.toList with
  | error =>
    rw [parse, hls] at h
    cases h
    exact .inl rfl
  | ok ls =>
    rw [parse, hls] at h
    simp only [bind, Except.bind] at h
    rcases hrun : (parseAll ls).run with _ | refusal | e
    · exact absurd hrun ((meets_parseAll ls).settles trivial)
    · rw [hrun] at h
      cases h
      exact .inr ⟨ls, refusal, rfl, blame_of_parseAll hrun, rfl⟩
    · rw [hrun] at h
      cases h

/-- In the lexemes of a query of `size` bytes the token starts at the byte `start`, and what
follows it at the byte `next`. The end of the query starts at its size, where nothing follows. -/
inductive FoundAt (size : Nat) (ls : Rest) : Token → Nat → Nat → Prop
  | lexeme {before after : Rest} {t : Token} {start : Nat} :
      ls = before ++ ⟨start, t⟩ :: after → FoundAt size ls t start (after.offset size)
  | eof : FoundAt size ls .eof size size

section Places

variable {query : String} {ls rest : Rest}

theorem isValid_offset (hls : lexFrom 0 query.toList = .ok ls) (h : rest <:+ ls) :
    String.Pos.Raw.IsValid query ⟨rest.offset query.utf8ByteSize⟩ := by
  cases rest with
  | nil => exact String.Pos.Raw.isValid_rawEndPos
  | cons l rest =>
    obtain ⟨c, after, more, hplace, -⟩ :=
      charAt_of_mem_lexFrom hls l (h.subset List.mem_cons_self)
    exact hplace.isValid

/-- The next lexeme is found where it starts. -/
theorem foundAt_peek (h : rest <:+ ls) (size : Nat) :
    ∃ next, FoundAt size ls rest.peek (rest.offset size) next := by
  cases rest with
  | nil => exact ⟨size, .eof⟩
  | cons l rest =>
    obtain ⟨before, heq⟩ := h
    exact ⟨_, .lexeme heq.symm⟩

theorem foundAt_of_precedes {t : Token} (h : Precedes ls t rest) (size : Nat) :
    ∃ start, FoundAt size ls t start (rest.offset size) := by
  cases h with
  | lexeme h =>
    obtain ⟨before, heq⟩ := h
    exact ⟨_, .lexeme heq.symm⟩
  | eof => exact ⟨size, .eof⟩

theorem FoundAt.lt {t : Token} {start next : Nat} (hls : lexFrom 0 query.toList = .ok ls)
    (h : FoundAt query.utf8ByteSize ls t start next) (ht : t ≠ .eof) : start < next := by
  cases h with
  | eof => exact absurd rfl ht
  | @lexeme before after t start heq =>
    subst heq
    cases after with
    | nil =>
      obtain ⟨c, after, more, hplace, -⟩ :=
        charAt_of_mem_lexFrom hls ⟨start, t⟩ (List.mem_append_right _ List.mem_cons_self)
      have hlt := hplace.lt
      rwa [Nat.zero_add, ← utf8ByteSize_eq_byteWidth] at hlt
    | cons l after =>
      have hpairwise := (List.pairwise_append.1 (pairwise_offset_of_lexFrom hls)).2.1
      exact (List.pairwise_cons.1 hpairwise).1 l List.mem_cons_self

end Places

theorem parse_error_of_ofText {text source : String} {fault : Fault}
    (h : Query.ofText text = .error (.illFormed source fault)) : source = Text.trim text ∧
      (fault = ⟨0, .emptyQuery⟩ ∨ parse source = .error fault) := by
  unfold Query.ofText at h
  dsimp only at h
  split at h
  · next hblank =>
    cases h
    exact ⟨hblank.symm, .inl rfl⟩
  · split at h
    · cases h
    · next hparse =>
      cases h
      exact ⟨rfl, .inr hparse⟩

/-- A fault is found at a character boundary of the trimmed query, at its end at most. If it names
a token, its place is where this token starts, or the end of the query if it names the end. Only
where the parser has passed the token, its place is where that which follows starts. -/
theorem fault_place {text source : String} {fault : Fault}
    (h : Query.ofText text = .error (.illFormed source fault)) :
    source = Text.trim text ∧ String.Pos.Raw.IsValid source ⟨fault.offset⟩ ∧
    ∀ found, fault.cause.found? = some found → ∃ ls start next,
      lexFrom 0 source.toList = .ok ls ∧ FoundAt source.utf8ByteSize ls found start next ∧
      (found ≠ .eof → start < next) ∧
      fault.offset = if fault.cause.isPassed then next else start := by
  obtain ⟨hsource, rfl | hparse⟩ := parse_error_of_ofText h
  · exact ⟨hsource, String.Pos.Raw.isValid_zero, fun found hfound => by cases hfound⟩
  refine ⟨hsource, ?_⟩
  obtain hlex | ⟨ls, refusal, hls, hblame, rfl⟩ := fault_of_parse_error hparse
  · obtain ⟨c, after, hplace, hscan⟩ := charAt_of_lexFrom_error hlex
    refine ⟨hplace.isValid, fun found hfound => ?_⟩
    rw [found?_of_scanToken hscan] at hfound
    cases hfound
  refine ⟨isValid_offset hls hblame.suffix, fun found hfound => ?_⟩
  cases hblame with
  | next hsuffix hnext hpassed =>
    obtain rfl := Option.some.inj (hnext.symm.trans hfound)
    obtain ⟨next, hfoundAt⟩ := foundAt_peek hsuffix source.utf8ByteSize
    exact ⟨ls, _, next, hls, hfoundAt, hfoundAt.lt hls, by rw [hpassed]; rfl⟩
  | passed hprecedes hlast hpassed =>
    obtain rfl := Option.some.inj (hlast.symm.trans hfound)
    obtain ⟨start, hfoundAt⟩ := foundAt_of_precedes hprecedes source.utf8ByteSize
    exact ⟨ls, start, _, hls, hfoundAt, hfoundAt.lt hls, by rw [hpassed]; rfl⟩
  | unnamed _ hnone =>
    rw [hnone] at hfound
    cases hfound

theorem ofText_eq_error_of_parseAll {text query : String} {ls : Rest} (refusal : Refusal)
    (htrim : Text.trim text = query) (hne : query ≠ "") (hlex : lexFrom 0 query.toList = .ok ls)
    (hparse : (parseAll ls).run = some (.error refusal)) : Query.ofText text =
      .error (.illFormed query ⟨refusal.rest.offset query.utf8ByteSize, refusal.cause⟩) := by
  have hfault : parse query =
      .error ⟨refusal.rest.offset query.utf8ByteSize, refusal.cause⟩ := by
    simp only [parse, hlex, bind, Except.bind, hparse]
  simp only [Query.ofText, htrim, if_neg hne, hfault]

/-- A parenthesis closes what a bracket opened, behind a character of two bytes. -/
theorem fault_place_unclosed :
    Query.ofText " ['é' )]" =
      .error (.illFormed "['é' )]" ⟨7, .expectedListEnd .rparen⟩) ∧
    String.Pos.Raw.IsValid "['é' )]" ⟨7⟩ ∧
    ∃ ls start, lexFrom 0 "['é' )]".toList = .ok ls ∧ FoundAt 8 ls .rparen start 7 ∧ start < 7 := by
  have hrest : lexFrom 5 [' ', ')', ']'] = .ok [⟨6, .rparen⟩, ⟨7, .rbracket⟩] :=
    lexFrom_eq_of_lexPast rfl
  have hquoted : scanToken '\'' ['é', '\'', ' ', ')', ']'] =
      .ok (some (.literal (.str "é")), 2) :=
    scanToken_raw (rfl : delimited? '\'' ['é', '\'', ' ', ')', ']'] = some ['é'])
  have hopening : scanToken '[' ['\'', 'é', '\'', ' ', ')', ']'] = .ok (some .lbracket, 0) := rfl
  have hlex : lexFrom 0 "['é' )]".toList = .ok [⟨0, .lbracket⟩, ⟨1, .literal (.str "é")⟩,
      ⟨6, .rparen⟩, ⟨7, .rbracket⟩] := by
    have htext : "['é' )]".toList = '[' :: '\'' :: ['é', '\'', ' ', ')', ']'] := rfl
    rw [htext]
    exact lexFrom_cons hopening (lexFrom_cons hquoted hrest)
  have hread : Query.ofText " ['é' )]" =
      .error (.illFormed "['é' )]" ⟨7, .expectedListEnd .rparen⟩) :=
    ofText_eq_error_of_parseAll ⟨[⟨7, .rbracket⟩], .expectedListEnd .rparen⟩ rfl (by decide)
      hlex rfl
  have hsize : "['é' )]".utf8ByteSize = 8 := rfl
  obtain ⟨-, hvalid, hplace⟩ := fault_place hread
  obtain ⟨ls, start, next, hls, hfound, hlt, hoffset⟩ := hplace .rparen rfl
  obtain rfl : 7 = next := hoffset
  exact ⟨hread, hvalid, ls, start, hls, hsize ▸ hfound, hlt (by simp)⟩

/-- The name that should be a comma stands at byte 3, and the fault that names it is at byte 4,
where the bracket is. -/
theorem passed_token_misplaced :
    Query.ofText "[a b]" = .error (.illFormed "[a b]" ⟨4, .expectedListEnd (.identifier "b")⟩) ∧
    ∃ ls, lexFrom 0 "[a b]".toList = .ok ls ∧
      ∀ start next, FoundAt 5 ls (.identifier "b") start next → start = 3 := by
  have hlex : lexFrom 0 "[a b]".toList = .ok [⟨0, .lbracket⟩, ⟨1, .identifier "a"⟩,
      ⟨3, .identifier "b"⟩, ⟨4, .rbracket⟩] := lexFrom_eq_of_lexPast rfl
  have hread : Query.ofText "[a b]" =
      .error (.illFormed "[a b]" ⟨4, .expectedListEnd (.identifier "b")⟩) :=
    ofText_eq_error_of_parseAll ⟨[⟨4, .rbracket⟩], .expectedListEnd (.identifier "b")⟩ rfl
      (by decide) hlex rfl
  refine ⟨hread, _, hlex, fun start next h => ?_⟩
  cases h with
  | lexeme heq =>
    have hmem := heq.symm ▸ List.mem_append_right _ List.mem_cons_self
    simpa using hmem

end ResourceGraph.Query
