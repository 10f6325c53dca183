import Mathlib.Data.List.Infix
import ResourceGraph.Text.Wildcard

/-!
# What a wildcard pattern matches

The matcher gives up as soon as the rest of a pattern has found the text too short, without trying
longer runs. For patterns without path wildcards nothing is lost by that: a text on which a pattern
is exhausted has no suffix that fits it. Path wildcards are left out, since they resume only after
separators and the argument fails for them.
-/
namespace ResourceGraph.Text.Wildcard

/-- Whether a token that stands for one character stands for `c`. -/
def Token.admits (token : Token) (c : Char) : Prop :=
  match token with
  | .char d => c = d
  | .anyChar => True
  | .within ranges => inClass ranges c
  | .except ranges => ¬ inClass ranges c
  | .anySequence | .anyPath => False

/-- The texts that a pattern without path wildcards stands for, whatever order they are tried in. -/
def Fits : Pattern → List Char → Prop
  | [], cs => cs = []
  | .anySequence :: pattern, cs => ∃ rest, rest <:+ cs ∧ Fits pattern rest
  | token :: pattern, cs => ∃ c rest, cs = c :: rest ∧ token.admits c ∧ Fits pattern rest

/-- A matcher that tells the texts of a set, and never takes a text for too short that has a suffix
in the set. -/
structure Decides (matcher : List Char → Outcome) (fits : List Char → Prop) : Prop where
  matched : ∀ {cs}, matcher cs = .matched → fits cs
  refused : ∀ {cs}, matcher cs = .refused → ¬ fits cs
  exhausted : ∀ {cs}, matcher cs = .exhausted → ∀ suffix, suffix <:+ cs → ¬ fits suffix

namespace Decides

variable {rest : List Char → Outcome} {fits : List Char → Prop}

theorem eq_matched_iff (h : Decides rest fits) {cs : List Char} :
    rest cs = .matched ↔ fits cs := by
  refine ⟨h.matched, fun hfits => ?_⟩
  cases hrun : rest cs with
  | matched => rfl
  | refused => exact absurd hfits (h.refused hrun)
  | exhausted => exact absurd hfits (h.exhausted hrun cs (List.suffix_refl cs))

theorem end_of_text : Decides (fun cs => if cs.isEmpty then .matched else .refused) (· = []) where
  matched h := by simpa using h
  refused h := by simpa using h
  exhausted h := by split at h <;> cases h

theorem oneChar (h : Decides rest fits) (accepts : Char → Bool) :
    Decides (Wildcard.oneChar rest accepts)
      (fun cs => ∃ c tail, cs = c :: tail ∧ accepts c ∧ fits tail) where
  matched {cs} hrun := by
    cases cs with
    | nil => cases hrun
    | cons c cs =>
      simp only [Wildcard.oneChar] at hrun
      split at hrun
      · next hc => exact ⟨c, cs, rfl, hc, h.matched hrun⟩
      · cases hrun
  refused {cs} hrun := by
    intro h
    obtain ⟨c, tail, rfl, hc, hfits⟩ := h
    simp only [Wildcard.oneChar, hc, if_true] at hrun
    exact h.refused hrun hfits
  exhausted {cs} hrun suffix hsuffix := by
    intro h
    obtain ⟨c, tail, rfl, hc, hfits⟩ := h
    cases cs with
    | nil => simp at hsuffix
    | cons d cs =>
      simp only [Wildcard.oneChar] at hrun
      split at hrun
      · have htail : tail <:+ cs := by
          rcases List.suffix_cons_iff.1 hsuffix with heq | hsuffix
          · rw [(List.cons.inj heq).2]
          · exact (List.suffix_cons c tail).trans hsuffix
        exact h.exhausted hrun tail htail hfits
      · cases hrun

theorem anyRun_nil : anyRun rest (fun _ => true) [] = rest [] := by
  unfold Wildcard.anyRun
  split
  · rfl
  · rfl

/-- After a character that lets a run go on, trying the rest from there is trying the same run on
what follows. -/
theorem anyRun_cons (c : Char) (cs : List Char) :
    anyRun rest (fun _ => true) (c :: cs) =
      match rest (c :: cs) with
      | .refused => anyRun rest (fun _ => true) cs
      | settled => settled := rfl

theorem anyRun (h : Decides rest fits) :
    Decides (anyRun rest fun _ => true) (fun cs => ∃ tail, tail <:+ cs ∧ fits tail) where
  matched {cs} hrun := by
    induction cs with
    | nil => exact ⟨[], List.suffix_refl [], h.matched (anyRun_nil.symm.trans hrun)⟩
    | cons c cs ih =>
      rw [anyRun_cons] at hrun
      split at hrun
      · obtain ⟨tail, htail, hfits⟩ := ih hrun
        exact ⟨tail, htail.trans (List.suffix_cons c cs), hfits⟩
      · exact ⟨c :: cs, List.suffix_refl _, h.matched hrun⟩
  refused {cs} hrun := by
    intro h
    obtain ⟨tail, htail, hfits⟩ := h
    induction cs with
    | nil =>
      rw [List.suffix_nil.1 htail] at hfits
      exact h.refused (anyRun_nil.symm.trans hrun) hfits
    | cons c cs ih =>
      rw [anyRun_cons] at hrun
      split at hrun
      · next hrefused =>
        rcases List.suffix_cons_iff.1 htail with rfl | htail
        · exact h.refused hrefused hfits
        · exact ih hrun htail
      · exact absurd hrun ‹_›
  exhausted {cs} hrun suffix hsuffix := by
    intro h
    obtain ⟨tail, htail, hfits⟩ := h
    replace htail := htail.trans hsuffix
    clear hsuffix
    induction cs with
    | nil =>
      rw [List.suffix_nil.1 htail] at hfits
      exact h.exhausted (anyRun_nil.symm.trans hrun) [] (List.suffix_refl []) hfits
    | cons c cs ih =>
      rw [anyRun_cons] at hrun
      split at hrun
      · next hrefused =>
        rcases List.suffix_cons_iff.1 htail with rfl | htail
        · exact h.refused hrefused hfits
        · exact ih hrun htail
      · exact h.exhausted hrun tail htail hfits

end Decides

/-- The matcher finds exactly the texts that a pattern without path wildcards stands for. -/
theorem decides_run {pattern : Pattern} (hpath : Token.anyPath ∉ pattern) :
    Decides (run pattern) (Fits pattern) := by
  induction pattern with
  | nil => exact .end_of_text
  | cons token pattern ih =>
    rw [List.mem_cons, not_or] at hpath
    have hdecides := ih hpath.2
    cases token with
    | char d => simpa [Fits, run, Token.admits] using hdecides.oneChar (· == d)
    | anyChar => simpa [Fits, run, Token.admits] using hdecides.oneChar fun _ => true
    | within ranges => exact hdecides.oneChar (inClass ranges)
    | except ranges =>
      simpa [Fits, run, Token.admits] using hdecides.oneChar fun c => !inClass ranges c
    | anySequence => exact hdecides.anyRun
    | anyPath => exact absurd rfl hpath.1

theorem accepts_iff_fits {pattern : Pattern} (hpath : Token.anyPath ∉ pattern) (text : String) :
    accepts pattern text = true ↔ Fits pattern text.toList := by
  rw [accepts, beq_iff_eq, (decides_run hpath).eq_matched_iff]

/-! ## Compiling one step of a pattern -/

section Compile

variable (before : Option Char) (tokens : List Token) {cs : List Char}

theorem compileFrom_anyChar :
    compileFrom before tokens ('?' :: cs) = compileFrom (some '?') (.anyChar :: tokens) cs := by
  rw [compileFrom]

theorem compileFrom_star (hcs : cs.head? ≠ some '*') :
    compileFrom before tokens ('*' :: cs) =
      compileFrom (some '*') (.anySequence :: tokens) cs := by
  rw [compileFrom]
  · rintro rest rfl
    simp at hcs
  · rintro rest rfl
    simp at hcs

theorem compileFrom_char {c : Char} (hany : c ≠ '?') (hstar : c ≠ '*') (hopen : c ≠ '[') :
    compileFrom before tokens (c :: cs) = compileFrom (some c) (.char c :: tokens) cs := by
  rw [compileFrom]
  all_goals simp_all

/-- A class of one character other than `!`. -/
theorem compileFrom_single {c : Char} (hc : c ≠ '!') :
    compileFrom before tokens ('[' :: c :: ']' :: cs) =
      compileFrom (some ']') (.within [⟨c, c⟩] :: tokens) cs := by
  have hcut : cutClass? (c :: ']' :: cs) = some ([c], cs) := rfl
  have hscan : scanClass? (c :: ']' :: cs) = some (.within [⟨c, c⟩], cs) := by
    unfold scanClass?
    split
    · next heq => exact absurd (List.cons.inj heq).1 hc
    · rw [hcut]
      rfl
  rw [compileFrom]
  split
  · next token rest h =>
    rw [hscan] at h
    cases h
    rfl
  · next h =>
    rw [hscan] at h
    cases h

end Compile

end ResourceGraph.Text.Wildcard
