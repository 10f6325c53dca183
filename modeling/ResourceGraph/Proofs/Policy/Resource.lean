import ResourceGraph.Policy.Resource
import ResourceGraph.Proofs.Text.Wildcard

/-!
# What a resource expression with a star resolves to

A resource expression is rewritten into a pattern: runs of `*` become one, brackets become classes
of one character, and a `*` is put at both ends where none stands. The pattern always compiles, and
it matches exactly the texts in which some part reads as the expression. Nothing is assumed about
the expression; what a compiled pattern matches is the matter of the matcher alone.
-/
namespace ResourceGraph.ResourceResolver

open Text.Wildcard (Token Pattern Fits compile compileFrom)

/-! ## Resource expressions as wildcards -/

/-- A text read as an expression: `*` is any run of characters, `?` any one character, and every
other character is itself. -/
inductive Reads : List Char → List Char → Prop where
  | nil : Reads [] []
  | star {cs text : List Char} (run : List Char) : Reads cs text → Reads ('*' :: cs) (run ++ text)
  | anyChar {cs text : List Char} (c : Char) : Reads cs text → Reads ('?' :: cs) (c :: text)
  | char {cs text : List Char} {c : Char} :
      c ≠ '*' → c ≠ '?' → Reads cs text → Reads (c :: cs) (c :: text)

theorem reads_nil_iff {text : List Char} : Reads [] text ↔ text = [] := by
  constructor
  · rintro ⟨⟩
    rfl
  · rintro rfl
    exact .nil

theorem reads_star_iff {cs text : List Char} :
    Reads ('*' :: cs) text ↔ ∃ run rest, text = run ++ rest ∧ Reads cs rest := by
  constructor
  · intro h
    cases h with
    | star run h => exact ⟨run, _, rfl, h⟩
    | char hstar => exact absurd rfl hstar
  · intro h
    obtain ⟨run, rest, rfl, h⟩ := h
    exact .star run h

/-- The token that stands for what a character other than `*` stands for. -/
def tokenOf (c : Char) : Token :=
  if c = '?' then .anyChar else if c = '[' ∨ c = ']' then .within [⟨c, c⟩] else .char c

theorem admits_tokenOf {c d : Char} : (tokenOf c).admits d ↔ c = '?' ∨ d = c := by
  unfold tokenOf
  split
  · next h => simp [h, Token.admits]
  · next h =>
    split
    · simp only [Token.admits, h, false_or, Text.Wildcard.inClass, List.any_cons, List.any_nil,
        Bool.or_false, Bool.and_eq_true, decide_eq_true_eq]
      constructor
      · intro h
        obtain ⟨hle, hge⟩ := h
        exact Char.le_antisymm hge hle
      · rintro rfl
        exact ⟨Char.le_refl d, Char.le_refl d⟩
    · simp [Token.admits, h]

theorem reads_cons_iff {c : Char} {cs text : List Char} (hstar : c ≠ '*') :
    Reads (c :: cs) text ↔ ∃ d rest, text = d :: rest ∧ (tokenOf c).admits d ∧ Reads cs rest := by
  constructor
  · intro h
    cases h with
    | star => exact absurd rfl hstar
    | anyChar d h => exact ⟨d, _, rfl, admits_tokenOf.2 (.inl rfl), h⟩
    | char _ _ h => exact ⟨c, _, rfl, admits_tokenOf.2 (.inr rfl), h⟩
  · intro h
    obtain ⟨d, rest, rfl, hd, h⟩ := h
    by_cases hany : c = '?'
    · subst hany
      exact .anyChar d h
    · obtain rfl := (admits_tokenOf.1 hd).resolve_left hany
      exact .char hstar hany h

/-! ## The pattern of an expression -/

/-- The tokens that follow a `*`, or another token. -/
def tokensOf (afterStar : Bool) : List Char → Pattern
  | [] => if afterStar then [] else [.anySequence]
  | c :: cs =>
    if c = '*' then if afterStar then tokensOf true cs else .anySequence :: tokensOf true cs
    else tokenOf c :: tokensOf false cs

theorem head_go_true (cs : List Char) : (substringPattern.go true cs).head? ≠ some '*' := by
  induction cs with
  | nil => simp [substringPattern.go]
  | cons c cs ih =>
    unfold substringPattern.go
    split
    · simpa using ih
    · split
      · simp
      · split
        · simp
        · simpa using ‹¬ c = '*'›

/-- A character other than `*` is written so that it compiles to its token. -/
theorem compileFrom_go_cons {c : Char} (hstar : c ≠ '*') (afterStar : Bool) (cs : List Char)
    (before : Option Char) (tokens : List Token) :
    ∃ last, compileFrom before tokens (substringPattern.go afterStar (c :: cs)) =
      compileFrom last (tokenOf c :: tokens) (substringPattern.go false cs) := by
  rw [substringPattern.go, if_neg hstar, tokenOf]
  by_cases hopen : c = '['
  · subst hopen
    exact ⟨_, Text.Wildcard.compileFrom_single before tokens (by decide)⟩
  · by_cases hclose : c = ']'
    · subst hclose
      exact ⟨_, Text.Wildcard.compileFrom_single before tokens (by decide)⟩
    · rw [if_neg hopen, if_neg hclose, if_neg (not_or.2 ⟨hopen, hclose⟩)]
      by_cases hany : c = '?'
      · subst hany
        exact ⟨_, Text.Wildcard.compileFrom_anyChar before tokens⟩
      · rw [if_neg hany]
        exact ⟨_, Text.Wildcard.compileFrom_char before tokens hany hstar hopen⟩

theorem compileFrom_go (afterStar : Bool) (cs : List Char) (before : Option Char)
    (tokens : List Token) :
    compileFrom before tokens (substringPattern.go afterStar cs) =
      .ok ((tokensOf afterStar cs).reverse ++ tokens) := by
  induction cs generalizing afterStar before tokens with
  | nil =>
    cases afterStar with
    | true => simp [substringPattern.go, tokensOf, compileFrom]
    | false =>
      simp only [substringPattern.go, tokensOf, Bool.false_eq_true, if_false]
      rw [Text.Wildcard.compileFrom_star before tokens (by simp), compileFrom]
      rfl
  | cons c cs ih =>
    by_cases hstar : c = '*'
    · subst hstar
      cases afterStar with
      | true => simpa [substringPattern.go, tokensOf] using ih true before tokens
      | false =>
        simp only [substringPattern.go, tokensOf, Bool.false_eq_true, if_true, if_false]
        rw [Text.Wildcard.compileFrom_star before tokens (head_go_true cs), ih]
        simp
    · obtain ⟨last, hstep⟩ := compileFrom_go_cons hstar afterStar cs before tokens
      rw [hstep, ih, tokensOf, if_neg hstar]
      simp

/-- The pattern of an expression compiles. -/
theorem compile_substringPattern (subject : String) :
    compile (substringPattern subject) = .ok (.anySequence :: tokensOf true subject.toList) := by
  rw [compile, substringPattern, String.toList_ofList,
    Text.Wildcard.compileFrom_star none [] (head_go_true _), compileFrom_go]
  simp [Except.map]

theorem anyPath_not_mem_tokensOf (afterStar : Bool) (cs : List Char) :
    Token.anyPath ∉ tokensOf afterStar cs := by
  induction cs generalizing afterStar with
  | nil => cases afterStar <;> simp [tokensOf]
  | cons c cs ih =>
    have htoken : Token.anyPath ≠ tokenOf c := by
      unfold tokenOf
      split
      · simp
      · split <;> simp
    unfold tokensOf
    split
    · split
      · exact ih true
      · simpa using ih true
    · simpa [htoken] using ih false

/-! ## What the pattern matches -/

theorem fits_tokenOf_iff {c : Char} {pattern : Pattern} {text : List Char} :
    Fits (tokenOf c :: pattern) text ↔
      ∃ d rest, text = d :: rest ∧ (tokenOf c).admits d ∧ Fits pattern rest := by
  unfold tokenOf
  split
  · rfl
  · split <;> rfl

/-- The tokens that follow a token other than `*` fit a text that starts with a part that reads as
the expression. -/
def FitsStart (cs : List Char) : Prop :=
  ∀ text, Fits (tokensOf false cs) text ↔ ∃ part after, text = part ++ after ∧ Reads cs part

/-- Behind a `*`, the part may stand anywhere. -/
def FitsAnywhere (cs : List Char) : Prop :=
  ∀ text, (∃ rest, rest <:+ text ∧ Fits (tokensOf true cs) rest) ↔
    ∃ before part after, text = before ++ (part ++ after) ∧ Reads cs part

theorem fits_nil : FitsStart [] ∧ FitsAnywhere [] := by
  refine ⟨fun text => ?_, fun text => ?_⟩
  · simp [tokensOf, Fits, reads_nil_iff]
  · simp only [tokensOf, if_true, Fits, reads_nil_iff]
    constructor
    · intro _
      exact ⟨[], [], text, rfl, rfl⟩
    · intro _
      exact ⟨[], List.nil_suffix, rfl⟩

theorem fits_star {cs : List Char} (ih : FitsAnywhere cs) :
    FitsStart ('*' :: cs) ∧ FitsAnywhere ('*' :: cs) := by
  refine ⟨fun text => ?_, fun text => ?_⟩
  · simp only [tokensOf, if_true, Bool.false_eq_true, if_false, Fits, ih text, reads_star_iff]
    constructor
    · intro h
      obtain ⟨before, part, after, rfl, h⟩ := h
      exact ⟨before ++ part, after, by simp, before, part, rfl, h⟩
    · intro h
      obtain ⟨_, after, rfl, before, part, rfl, h⟩ := h
      exact ⟨before, part, after, by simp, h⟩
  · simp only [tokensOf, if_true, ih text, reads_star_iff]
    constructor
    · intro h
      obtain ⟨before, part, after, rfl, h⟩ := h
      exact ⟨before, part, after, rfl, [], part, rfl, h⟩
    · intro h
      obtain ⟨before, _, after, rfl, run, part, rfl, h⟩ := h
      exact ⟨before ++ run, part, after, by simp, h⟩

theorem fits_cons {c : Char} {cs : List Char} (hstar : c ≠ '*') (ih : FitsStart cs) :
    FitsStart (c :: cs) ∧ FitsAnywhere (c :: cs) := by
  have hstart : FitsStart (c :: cs) := by
    intro text
    simp only [tokensOf, if_neg hstar, fits_tokenOf_iff, reads_cons_iff hstar, ih _]
    constructor
    · intro h
      obtain ⟨d, _, rfl, hd, part, after, rfl, h⟩ := h
      exact ⟨d :: part, after, rfl, d, part, rfl, hd, h⟩
    · intro h
      obtain ⟨_, after, rfl, d, part, rfl, hd, h⟩ := h
      exact ⟨d, part ++ after, rfl, hd, part, after, rfl, h⟩
  refine ⟨hstart, fun text => ?_⟩
  have hsame : tokensOf true (c :: cs) = tokensOf false (c :: cs) := by
    simp only [tokensOf, if_neg hstar]
  simp only [hsame, hstart _]
  constructor
  · intro h
    obtain ⟨_, ⟨before, rfl⟩, part, after, rfl, h⟩ := h
    exact ⟨before, part, after, rfl, h⟩
  · intro h
    obtain ⟨before, part, after, rfl, h⟩ := h
    exact ⟨part ++ after, List.suffix_append before _, part, after, rfl, h⟩

theorem fits_tokensOf (cs : List Char) : FitsStart cs ∧ FitsAnywhere cs := by
  induction cs with
  | nil => exact fits_nil
  | cons c cs ih =>
    by_cases hstar : c = '*'
    · subst hstar
      exact fits_star ih.2
    · exact fits_cons hstar ih.1

/-- Some part of the text reads as the expression. -/
def Contains (subject text : String) : Prop :=
  ∃ before part after, text.toList = before ++ (part ++ after) ∧ Reads subject.toList part

theorem covers_iff_contains {subject text : String} (hstar : '*' ∈ subject.toList) :
    covers subject text = true ↔ Contains subject text := by
  have hpath : Token.anyPath ∉ Token.anySequence :: tokensOf true subject.toList := by
    simpa using anyPath_not_mem_tokensOf true subject.toList
  rw [covers, if_pos (by simpa using hstar), compile_substringPattern]
  simp only [Text.Wildcard.accepts_iff_fits hpath]
  exact (fits_tokensOf subject.toList).2 text.toList

/-! ## Resolving -/

/-- The third of the parts that colons separate in a resource name is not empty, and `d` is the
service that claims it. -/
def OwnedBy (r : ResourceResolver) (resource : String) (d : Descriptor) : Prop :=
  ∃ first second segment rest : List Char,
    resource.toList = first ++ ':' :: (second ++ ':' :: (segment ++ rest)) ∧
    ':' ∉ first ∧ ':' ∉ second ∧ ':' ∉ segment ∧ (rest = [] ∨ ∃ more, rest = ':' :: more) ∧
    segment ≠ [] ∧ r.catalog.byArnService? (String.ofList segment) = some d

variable {r : ResourceResolver} {resource : String} {d : Descriptor}

theorem owner?_of_ownedBy (h : r.OwnedBy resource d) : r.owner? resource = some d := by
  obtain ⟨first, second, segment, rest, hsplit, hfirst, hsecond, hsegment, hrest, hne, hd⟩ := h
  have hpieces : (Text.splitChar ':' resource.toList)[2]? = some segment := by
    rw [hsplit, Text.splitChar_append hfirst, Text.splitChar_append hsecond]
    rcases hrest with rfl | ⟨more, rfl⟩
    · rw [List.append_nil, Text.splitChar_of_not_mem hsegment]
      rfl
    · rw [Text.splitChar_append hsegment]
      rfl
  rw [owner?, hpieces]
  simpa [hne] using hd

theorem colon_mem_of_ownedBy (h : r.OwnedBy resource d) : ':' ∈ resource.toList := by
  obtain ⟨first, second, segment, rest, hsplit, -⟩ := h
  simp [hsplit]

theorem resolve_of_ownedBy (h : r.OwnedBy (Text.trim resource) d) :
    r.resolve resource = ((r.index.ids? d.key).getD []).filter fun id =>
      covers (r.subject d (Text.trim resource)) (r.candidate d id) := by
  have hcolon := colon_mem_of_ownedBy h
  have hstar : Text.trim resource ≠ "*" := by
    intro heq
    rw [heq] at hcolon
    exact absurd hcolon (by decide)
  have hempty : Text.trim resource ≠ "" := by
    intro heq
    rw [heq] at hcolon
    exact absurd hcolon (by decide)
  simp only [resolve, hstar, hempty, if_false, decide_false, Bool.or_self,
    Bool.false_eq_true, owner?_of_ownedBy h]

/-- Buckets by bare name. -/
def buckets : Descriptor where
  key := "s3"
  service := "S3"
  label := "S3 Bucket"
  arnService := "s3"
  isGlobal := true
  bareNameIds := true
  nodes := []
  edges := []
  iamRoles := []
  operations := []

def twoBuckets : ResourceResolver where
  catalog := ⟨[buckets], by decide⟩
  index := (NodeIndex.empty.insert "s3" "weblogs").insert "s3" "logs[1]"
  partition := "aws"

theorem ownedBy_buckets : twoBuckets.OwnedBy "arn:aws:s3:::logs[*]/x/*" buckets :=
  ⟨"arn".toList, "aws".toList, "s3".toList, ":::logs[*]/x/*".toList, by decide, by decide,
    by decide, by decide, .inr ⟨_, rfl⟩, by decide, rfl⟩

end ResourceGraph.ResourceResolver
