/-!
Wildcard patterns. `?` stands for one character, `*` for any run of characters, and `**` for any
run that ends at a path separator, where it is a whole path component. A class in brackets lists
characters and ranges, or with `!` those that are left out.

Matching goes from the left, and a run of characters takes the fewest that let the rest match. Once
the rest of a pattern has found the text too short for it, no longer run is tried.
-/
namespace ResourceGraph.Text.Wildcard

/-- A single character, or an inclusive range. -/
structure CharRange where
  first : Char
  last : Char
deriving DecidableEq

inductive Token where
  | char (c : Char)
  | anyChar
  | within (ranges : List CharRange)
  | except (ranges : List CharRange)
  | anySequence
  | anyPath
deriving DecidableEq

abbrev Pattern := List Token

inductive Fault where
  | partialComponent
  | tooManyStars
  | invalidClass

def Fault.message : Fault → String
  | partialComponent => "recursive wildcards must form a single path component"
  | tooManyStars => "wildcards are either regular `*` or recursive `**`"
  | invalidClass => "invalid range pattern"

/-- The ranges that the characters of a class write. -/
def classRanges : List Char → List CharRange
  | a :: '-' :: b :: cs => ⟨a, b⟩ :: classRanges cs
  | a :: cs => ⟨a, a⟩ :: classRanges cs
  | [] => []

/-- The characters up to the first closing bracket, and those after it. A bracket in the first
place belongs to the class. -/
def cutClass? : List Char → Option (List Char × List Char)
  | [] => none
  | first :: cs =>
    let inner := cs.takeWhile (· ≠ ']')
    match cs.dropWhile (· ≠ ']') with
    | _ :: rest => some (first :: inner, rest)
    | [] => none

/-- A class after its opening bracket, and the text after it. -/
def scanClass? : List Char → Option (Token × List Char)
  | '!' :: cs => (cutClass? cs).map fun (inner, rest) => (.except (classRanges inner), rest)
  | cs => (cutClass? cs).map fun (inner, rest) => (.within (classRanges inner), rest)

/-- Neighbouring path wildcards are one, after the first token. -/
def addPath (tokens : List Token) : List Token :=
  if tokens.length > 1 && tokens.head? == some .anyPath then tokens else .anyPath :: tokens

/-- Whether a path component may start after this character. -/
def opensComponent (before : Option Char) : Bool := before.all (· = '/')

theorem length_of_cutClass? {cs inner rest : List Char} (h : cutClass? cs = some (inner, rest)) :
    rest.length < cs.length := by
  cases cs with
  | nil => simp [cutClass?] at h
  | cons c cs =>
    simp only [cutClass?] at h
    split at h
    · next x r hd =>
      obtain ⟨-, rfl⟩ := by simpa using h
      have hs := (List.dropWhile_sublist (fun x => decide (x ≠ ']')) (l := cs)).length_le
      rw [hd] at hs
      simp only [List.length_cons] at hs ⊢
      omega
    · simp at h

theorem length_of_scanClass? {cs : List Char} {t : Token} {rest : List Char}
    (h : scanClass? cs = some (t, rest)) : rest.length < cs.length := by
  unfold scanClass? at h
  split at h <;>
    (obtain ⟨⟨inner, r⟩, hc, he⟩ := Option.map_eq_some_iff.1 h
     have hl := length_of_cutClass? hc
     simp only [Prod.mk.injEq] at he
     obtain ⟨-, rfl⟩ := he
     simp only [List.length_cons] at *
     omega)

/-- The tokens of a pattern in reverse, added to those before. `before` is the last character. -/
def compileFrom (before : Option Char) (tokens : List Token) :
    List Char → Except Fault (List Token)
  | [] => .ok tokens
  | '?' :: cs => compileFrom (some '?') (.anyChar :: tokens) cs
  | '*' :: '*' :: '*' :: _ => .error .tooManyStars
  | '*' :: '*' :: cs =>
    if opensComponent before then
      match cs with
      | '/' :: cs => compileFrom (some '/') (addPath tokens) cs
      | [] => .ok (addPath tokens)
      | _ => .error .partialComponent
    else .error .partialComponent
  | '*' :: cs => compileFrom (some '*') (.anySequence :: tokens) cs
  | '[' :: cs =>
    match h : scanClass? cs with
    | some (token, rest) =>
      have : rest.length < cs.length := length_of_scanClass? h
      compileFrom (some ']') (token :: tokens) rest
    | none => .error .invalidClass
  | c :: cs => compileFrom (some c) (.char c :: tokens) cs
termination_by cs => cs.length
decreasing_by all_goals (simp only [List.length_cons]; omega)

def compile (pattern : String) : Except Fault Pattern :=
  (compileFrom none [] pattern.toList).map List.reverse

/-- How an attempt to match ended: it matched, another split of the text may match, or the text is
too short for any. -/
inductive Outcome where
  | matched
  | refused
  | exhausted
deriving DecidableEq

def inClass (ranges : List CharRange) (c : Char) : Bool :=
  ranges.any fun r => r.first ≤ c && c ≤ r.last

/-- Tries the rest of the pattern after each character where it may go on, and after the last. -/
def sweep (rest : List Char → Outcome) (resumes : Char → Bool) : List Char → Outcome
  | [] => rest []
  | c :: cs =>
    if resumes c then
      match rest cs with
      | .refused => sweep rest resumes cs
      | settled => settled
    else sweep rest resumes cs

/-- Any run of characters, the empty one first. -/
def anyRun (rest : List Char → Outcome) (resumes : Char → Bool) (cs : List Char) : Outcome :=
  match rest cs with
  | .refused => sweep rest resumes cs
  | settled => settled

/-- One character that satisfies the test. -/
def oneChar (rest : List Char → Outcome) (accepts : Char → Bool) : List Char → Outcome
  | [] => .exhausted
  | c :: cs => if accepts c then rest cs else .refused

def run : Pattern → List Char → Outcome
  | [], cs => if cs.isEmpty then .matched else .refused
  | token :: pattern, cs =>
    let rest := run pattern
    match token with
    | .char c => oneChar rest (· == c) cs
    | .anyChar => oneChar rest (fun _ => true) cs
    | .within ranges => oneChar rest (inClass ranges) cs
    | .except ranges => oneChar rest (fun c => !inClass ranges c) cs
    | .anySequence => anyRun rest (fun _ => true) cs
    | .anyPath => anyRun rest (· == '/') cs

def accepts (pattern : Pattern) (text : String) : Bool := run pattern text.toList == .matched

end ResourceGraph.Text.Wildcard
