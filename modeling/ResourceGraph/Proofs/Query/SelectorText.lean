import ResourceGraph.Proofs.Query.Lexing
import ResourceGraph.Query.Selector

/-!
# The text of a selector

A text is a selector if it has two bars, if what stands before the first and between the two is not
blank, and if all that follows the second is a query, whatever bars it has. A selector that is
written out is read back as it was: its parts have no blanks at their ends and the first two no
bars.
-/
namespace ResourceGraph

/-- Trimming a second time changes nothing, so a query is read back from its own text. -/
theorem Query.ofText_source {text : String} {q : Query} (h : Query.ofText text = .ok q) :
    Query.ofText q.source = .ok q := by
  have hsource : q.source = Text.trim text := by
    unfold Query.ofText at h
    dsimp only at h
    split at h
    · cases h
    split at h
    · cases h
      rfl
    · cases h
  rw [hsource, Query.ofText, Text.trim_trim]
  exact h

theorem Query.trimChars_ne_nil {query : List Char} {q : Query}
    (h : Query.ofText (String.ofList query) = .ok q) : Text.trimChars query ≠ [] := by
  intro hblank
  rw [Query.ofText, Text.trim, String.toList_ofList, hblank] at h
  cases h

namespace Selector

variable {text : String} {s : Selector} {service operation query : List Char}

/-- The text has these parts with bars between them, the first two without bars. -/
structure Parts (text : String) (service operation query : List Char) : Prop where
  toList_eq : text.toList = service ++ '|' :: (operation ++ '|' :: query)
  service_free : '|' ∉ service
  operation_free : '|' ∉ operation

theorem parts?_eq_some_iff :
    parts? text.toList = some (service, operation, query) ↔ Parts text service operation query := by
  simp only [parts?, bind, Option.bind_eq_some_iff, pure, Option.some.injEq, Prod.exists,
    Text.cutAt?_eq_some_iff, Prod.mk.injEq]
  constructor
  · rintro ⟨_, _, ⟨htext, hservice⟩, _, _, ⟨rfl, hoperation⟩, rfl, rfl, rfl⟩
    exact ⟨htext, hservice, hoperation⟩
  · rintro ⟨htext, hservice, hoperation⟩
    exact ⟨_, _, ⟨htext, hservice⟩, _, _, ⟨rfl, hoperation⟩, rfl, rfl, rfl⟩

theorem ofText_eq_ok_iff : ofText text = .ok s ↔ ∃ service operation query,
    Parts text service operation query ∧
    Text.trimChars service ≠ [] ∧ Text.trimChars operation ≠ [] ∧
    ∃ q, Query.ofText (String.ofList query) = .ok q ∧
      s = ⟨String.ofList (Text.trimChars service),
        String.ofList (Text.trimChars operation), q⟩ := by
  constructor
  · intro h
    unfold ofText at h
    cases hparts : parts? text.toList with
    | none => simp [hparts] at h
    | some parts =>
      obtain ⟨service, operation, query⟩ := parts
      simp only [hparts, String.ofList_eq_empty_iff] at h
      split at h
      · cases h
      next hservice =>
      split at h
      · cases h
      next hoperation =>
      split at h
      · cases h
      cases hquery : Query.ofText (String.ofList query) with
      | error fault => simp [hquery, Except.map] at h
      | ok q =>
        rw [hquery] at h
        cases h
        exact ⟨service, operation, query, parts?_eq_some_iff.1 hparts, hservice, hoperation, q,
          hquery, rfl⟩
  · rintro ⟨service, operation, query, hparts, hservice, hoperation, q, hquery, rfl⟩
    have hblank := Query.trimChars_ne_nil hquery
    simp [ofText, parts?_eq_some_iff.2 hparts, String.ofList_eq_empty_iff, hservice, hoperation,
      hblank, hquery, Except.map]

/-- A name that stands between bars as it is. -/
structure IsPart (name : String) : Prop where
  free : '|' ∉ name.toList
  trimmed : Text.trim name = name
  nonempty : name ≠ ""

theorem isPart_trimChars {cs : List Char} (hfree : '|' ∉ cs) (hne : Text.trimChars cs ≠ []) :
    IsPart (String.ofList (Text.trimChars cs)) where
  free := by
    rw [String.toList_ofList]
    exact fun hmem => hfree ((Text.trimChars_sublist cs).subset hmem)
  trimmed := by
    have htrim := Text.trim_trim (String.ofList cs)
    simpa [Text.trim] using htrim
  nonempty := String.ofList_eq_empty_iff.not.2 hne

theorem IsPart.trimChars_eq {name : String} (h : IsPart name) :
    Text.trimChars name.toList = name.toList :=
  String.ofList_injective (h.trimmed.trans String.ofList_toList.symm)

/-- A selector that is written out is read back if its query is read from its own text. -/
theorem ofText_display {source : String} (hservice : IsPart s.service)
    (hoperation : IsPart s.operation) (hsource : s.query.source = source)
    (hquery : Query.ofText source = .ok ⟨source, s.query.expr⟩) : ofText s.display = .ok s := by
  subst hsource
  refine ofText_eq_ok_iff.2 ⟨s.service.toList, s.operation.toList, s.query.source.toList,
    ⟨by simp [display, String.toList_append], hservice.free, hoperation.free⟩, ?_, ?_, s.query,
    ?_, ?_⟩
  · rw [hservice.trimChars_eq]
    exact String.toList_eq_nil_iff.not.2 hservice.nonempty
  · rw [hoperation.trimChars_eq]
    exact String.toList_eq_nil_iff.not.2 hoperation.nonempty
  · rwa [String.ofList_toList]
  · rw [hservice.trimChars_eq, hoperation.trimChars_eq, String.ofList_toList,
      String.ofList_toList]

/-- A selector that was read can be written out, and what is written has the parts it was read
from, trimmed. -/
theorem ofText_display_eq (h : ofText text = .ok s) : ofText s.display = .ok s := by
  obtain ⟨service, operation, query, hparts, hservice, hoperation, q, hquery, rfl⟩ :=
    ofText_eq_ok_iff.1 h
  exact ofText_display (isPart_trimChars hparts.service_free hservice)
    (isPart_trimChars hparts.operation_free hoperation) rfl (Query.ofText_source hquery)

/-- A text is a selector exactly if it has two bars, its first two parts are not blank, and the
whole rest, further bars included, is a query. Written out, a selector that was read is read as the
same selector again. -/
theorem accepted_iff_and_display (text : String) :
    ((∃ s, ofText text = .ok s) ↔ ∃ service operation query, Parts text service operation query ∧
      Text.trimChars service ≠ [] ∧ Text.trimChars operation ≠ [] ∧
      ∃ q, Query.ofText (String.ofList query) = .ok q) ∧
    ∀ s, ofText text = .ok s → ofText s.display = .ok s := by
  refine ⟨⟨?_, ?_⟩, fun s => ofText_display_eq⟩
  · rintro ⟨s, h⟩
    obtain ⟨service, operation, query, hparts, hservice, hoperation, q, hquery, -⟩ :=
      ofText_eq_ok_iff.1 h
    exact ⟨service, operation, query, hparts, hservice, hoperation, q, hquery⟩
  · rintro ⟨service, operation, query, hparts, hservice, hoperation, q, hquery⟩
    exact ⟨_, ofText_eq_ok_iff.2
      ⟨service, operation, query, hparts, hservice, hoperation, q, hquery, rfl⟩⟩

/-- Blanks around the parts, and a query with bars of its own. -/
theorem accepted_iff_and_display_piped :
    (∃ s, ofText " S3 | ListBuckets |\ta || b | [0] " = .ok s) ∧
    ofText "S3|ListBuckets|a || b | [0]" =
      .ok ⟨"S3", "ListBuckets", "a || b | [0]",
        .chain (.or (.field "a") (.field "b")) (.chain .current (.index 0))⟩ := by
  have hquery : Query.ofText (String.ofList "\ta || b | [0] ".toList) =
      .ok ⟨"a || b | [0]",
        .chain (.or (.field "a") (.field "b")) (.chain .current (.index 0))⟩ :=
    Query.ofText_eq_ok_of_tokens [.identifier "a", .or, .identifier "b", .pipe, .lbracket,
      .number 0, .rbracket] rfl rfl rfl
  have hparts : Parts " S3 | ListBuckets |\ta || b | [0] " " S3 ".toList " ListBuckets ".toList
      "\ta || b | [0] ".toList := ⟨rfl, by decide, by decide⟩
  have hread : ofText " S3 | ListBuckets |\ta || b | [0] " =
      .ok ⟨"S3", "ListBuckets", "a || b | [0]",
        .chain (.or (.field "a") (.field "b")) (.chain .current (.index 0))⟩ :=
    ofText_eq_ok_iff.2 ⟨_, _, _, hparts, by decide, by decide, _, hquery, rfl⟩
  have haccepted := accepted_iff_and_display " S3 | ListBuckets |\ta || b | [0] "
  exact ⟨haccepted.1.2 ⟨_, _, _, hparts, by decide, by decide, _, hquery⟩, haccepted.2 _ hread⟩

end Selector

end ResourceGraph
