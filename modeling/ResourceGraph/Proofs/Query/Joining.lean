import ResourceGraph.Proofs.Document.Written
import ResourceGraph.Proofs.Query.Lexing
import ResourceGraph.Proofs.Query.Sorting
import ResourceGraph.Proofs.Text.Cuts

/-!
# Joining undoes splitting

Whatever the text and the separator are, the pieces that a text is split into are joined to the text
again. At a separator that is not empty the text is cut from the left, and no piece has it inside.
The empty separator occurs at both ends and between any two characters.
-/
namespace ResourceGraph.Query

variable {text sep glue list : Expr} {data : Json} {s g : String} {pieces : List String}

/-! ## The two functions -/

/-- The pieces between the occurrences of the separator. -/
def piecesOf (g s : String) : List String := (Text.split g.toList s.toList).map String.ofList

theorem map_toList_piecesOf : (piecesOf g s).map String.toList = Text.split g.toList s.toList := by
  simp [piecesOf, Function.comp_def]

theorem eval_split (htext : eval text data = .ok (.str s)) (hsep : eval sep data = .ok (.str g)) :
    eval (.call "split" [text, sep]) data = .ok (.ofStrings (piecesOf g s)) := by
  have hpieces : Json.ofStrings (piecesOf g s) =
      .arr ((Text.split g.toList s.toList).map fun piece => .str (String.ofList piece)) := by
    simp [Json.ofStrings, piecesOf, Function.comp_def]
  rw [eval, evalArgs_cons_of_ok htext (by simp), evalArgs_cons_of_ok hsep (by simp), evalArgs,
    hpieces]
  rfl

theorem joinTexts_ofStrings (g : String) (pieces : List String) :
    joinTexts (.value (.str g)) (.value (.ofStrings pieces)) =
      .ok (.str (String.ofList (Text.join g.toList (pieces.map String.toList)))) := by
  have hread : Document.list? Json.str? (.arr (pieces.map Json.str)) = some (pieces.map id) :=
    Document.list?_map fun _ _ => rfl
  have htexts : (pieces.map Json.str).mapM Json.str? = some pieces := by
    rw [List.map_id] at hread
    exact hread
  simp only [joinTexts, Arg.asText, Arg.asList, Arg.asValue, Json.ofStrings, bind, Except.bind,
    pure, Except.pure, htexts]

theorem eval_join (hglue : eval glue data = .ok (.str g))
    (hlist : eval list data = .ok (.ofStrings pieces)) :
    eval (.call "join" [glue, list]) data =
      .ok (.str (String.ofList (Text.join g.toList (pieces.map String.toList)))) := by
  rw [eval, evalArgs_cons_of_ok hglue (by simp),
    evalArgs_cons_of_ok hlist (by simp [Json.ofStrings]), evalArgs]
  exact joinTexts_ofStrings g pieces

/-! ## There and back -/

theorem eval_join_split (htext : eval text data = .ok (.str s))
    (hsep : eval sep data = .ok (.str g)) :
    eval (.call "join" [sep, .call "split" [text, sep]]) data = .ok (.str s) := by
  rw [eval_join hsep (eval_split htext hsep), map_toList_piecesOf, Text.join_split,
    String.ofList_toList]

/-- What the pieces of a text at a separator are. -/
structure SplitAt (g s : String) (pieces : List String) : Prop where
  cuts : g ≠ "" → Text.Cuts g.toList s.toList (pieces.map String.toList)
  apart : g ≠ "" → ∀ piece ∈ pieces, ¬ g.toList <:+: piece.toList
  chars : g = "" → pieces = "" :: (s.toList.map String.singleton ++ [""])

theorem splitAt_piecesOf (g s : String) : SplitAt g s (piecesOf g s) := by
  have hcuts : g ≠ "" → Text.Cuts g.toList s.toList ((piecesOf g s).map String.toList) := by
    intro hg
    apply (Text.cuts_iff_eq_split (String.toList_eq_nil_iff.not.2 hg)).2
    exact map_toList_piecesOf
  refine ⟨hcuts, fun hg piece hpiece => ?_, ?_⟩
  · apply (hcuts hg).not_occurs (String.toList_eq_nil_iff.not.2 hg)
    exact List.mem_map_of_mem hpiece
  · rintro rfl
    simp [piecesOf, Text.split, Function.comp_def]

/-- Joining undoes splitting, whatever expressions give the text and the separator. The pieces are
those between the occurrences of the separator from the left, which is in none of them; at the
empty separator they are the characters, between two empty pieces. -/
theorem join_undoes_split :
    (∀ s g : String, (ofText "join(g, split(s, g))").bind
      (·.search (.obj [("s", .str s), ("g", .str g)])) = .ok (.str s)) ∧
    ∀ {text sep : Expr} {data : Json} {s g : String}, eval text data = .ok (.str s) →
      eval sep data = .ok (.str g) →
      eval (.call "join" [sep, .call "split" [text, sep]]) data = .ok (.str s) ∧
      ∃ pieces, eval (.call "split" [text, sep]) data = .ok (.ofStrings pieces) ∧
        SplitAt g s pieces := by
  refine ⟨fun s g => ?_, fun htext hsep => ⟨eval_join_split htext hsep, ?_⟩⟩
  · have hs : eval (.field "s") (.obj [("s", .str s), ("g", .str g)]) = .ok (.str s) := by
      rw [eval]
      rfl
    have hg : eval (.field "g") (.obj [("s", .str s), ("g", .str g)]) = .ok (.str g) := by
      rw [eval]
      rfl
    have hread : ofText "join(g, split(s, g))" = .ok ⟨"join(g, split(s, g))",
        .call "join" [.field "g", .call "split" [.field "s", .field "g"]]⟩ :=
      ofText_eq_ok_of_tokens [.identifier "join", .lparen, .identifier "g", .comma,
        .identifier "split", .lparen, .identifier "s", .comma, .identifier "g", .rparen, .rparen]
        rfl rfl rfl
    rw [hread]
    exact eval_join_split hs hg
  · exact ⟨_, eval_split htext hsep, splitAt_piecesOf _ _⟩

/-- The separator occurs twice in the text, but the second time it overlaps the first. -/
theorem join_undoes_split_banana :
    eval (.call "split" [.current, .literal (.str "ana")]) (.str "banana") =
      .ok (.ofStrings ["b", "na"]) ∧
    eval (.call "join" [.literal (.str "ana"), .call "split" [.current, .literal (.str "ana")]])
      (.str "banana") = .ok (.str "banana") := by
  have htext : eval .current (.str "banana") = .ok (.str "banana") := by rw [eval]
  have hsep : eval (.literal (.str "ana")) (.str "banana") = .ok (.str "ana") := by rw [eval]
  obtain ⟨hjoin, pieces, hsplit, hpieces⟩ := join_undoes_split.2 htext hsep
  have hcut : pieces.map String.toList = ["b", "na"].map String.toList := by
    rw [(Text.cuts_iff_eq_split (by decide)).1 (hpieces.cuts (by decide))]
    decide +kernel
  have hinjective : Function.Injective String.toList := fun _ _ => String.toList_injective
  rw [List.map_injective_iff.2 hinjective hcut] at hsplit
  exact ⟨hsplit, hjoin⟩

end ResourceGraph.Query
