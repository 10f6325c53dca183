import ResourceGraph.Proofs.Query.RowWise
import ResourceGraph.Service.BuiltIn

/-!
# The selectors of the built-in services are row-wise

Nodes, the items of edges and role bindings are read by selectors. Those that the built-in services
write can be read, and each of their queries goes row by row. The selectors of parameters are not
among them.
-/
namespace ResourceGraph

open Query (lexFrom parseAll isRowWise RowWise)

/-- The text is a selector if its three parts are not blank and the last one parses. -/
theorem Selector.ofText_eq_ok {text : String} {service operation query : List Char}
    {lexemes : Query.Rest} {e : Query.Expr}
    (hparts : parts? text.toList = some (service, operation, query))
    (hservice : Text.trimChars service ≠ []) (hoperation : Text.trimChars operation ≠ [])
    (hquery : Text.trimChars query ≠ []) (hlex : lexFrom 0 (Text.trimChars query) = .ok lexemes)
    (hparse : (parseAll lexemes).run = some (.ok e)) :
    ofText text = .ok ⟨String.ofList (Text.trimChars service),
      String.ofList (Text.trimChars operation), ⟨String.ofList (Text.trimChars query), e⟩⟩ := by
  have htrim : Text.trim (String.ofList query) = String.ofList (Text.trimChars query) := by
    rw [Text.trim, String.toList_ofList]
  have hread : Query.parse (String.ofList (Text.trimChars query)) = .ok e := by
    simp only [Query.parse, String.toList_ofList, hlex, bind, Except.bind, hparse]
    rfl
  simp [ofText, hparts, hservice, hoperation, hquery, Query.ofText, htrim, hread,
    String.ofList_eq_empty_iff, Except.map]

/-- Whether the text is a selector with a row-wise query. -/
def readsRowWise (text : List Char) : Bool :=
  match Selector.parts? text with
  | none => false
  | some (service, operation, query) =>
    Text.trimChars service ≠ [] && Text.trimChars operation ≠ [] && Text.trimChars query ≠ [] &&
      match lexFrom 0 (Text.trimChars query) with
      | .error _ => false
      | .ok lexemes =>
        match (parseAll lexemes).run with
        | some (.ok e) => isRowWise e
        | _ => false

theorem exists_rowWise_of_reads {text : String} (h : readsRowWise text.toList = true) :
    ∃ s, Selector.ofText text = .ok s ∧ RowWise s.query.expr := by
  unfold readsRowWise at h
  split at h
  · simp at h
  · next service operation query hparts =>
    simp only [Bool.and_eq_true, decide_eq_true_eq] at h
    obtain ⟨⟨⟨hservice, hoperation⟩, hquery⟩, h⟩ := h
    split at h
    · simp at h
    · next lexemes hlex =>
      split at h
      · next e hparse =>
        exact ⟨_, Selector.ofText_eq_ok hparts hservice hoperation hquery hlex hparse,
          Query.isRowWise_iff.1 h⟩
      · simp at h

/-- The selectors of nodes, of the items of edges and of role bindings. -/
def ServiceSpec.itemSelectors (spec : ServiceSpec) : List String :=
  spec.nodes ++ spec.edges.map (·.state) ++ spec.iamRoles

theorem readsRowWise_builtIn :
    ∀ spec ∈ BuiltIn.services, ∀ text ∈ spec.itemSelectors, readsRowWise text.toList = true := by
  simp only [BuiltIn.services, List.forall_mem_cons, ServiceSpec.itemSelectors]
  refine ⟨?_, ?_, ?_, ?_, ?_, ?_, ?_, ?_, ?_, ?_, nofun⟩
  all_goals
    simp only [BuiltIn.iam, BuiltIn.lambda, BuiltIn.ecs, BuiltIn.s3, BuiltIn.dynamodb, BuiltIn.sns,
      BuiltIn.sqs, BuiltIn.cloudfront, BuiltIn.route53, BuiltIn.elbv2, List.map, List.cons_append,
      List.nil_append, List.forall_mem_cons, String.toList_append]
    -- the texts become lists of characters first: decoding a text is slow to evaluate
    repeat rw [String.toList_ofList]
    decide +kernel

/-- Every selector of nodes, edges and role bindings that a built-in service writes is row-wise. -/
theorem rowWise_builtIn : ∀ spec ∈ BuiltIn.services, ∀ text ∈ spec.itemSelectors,
    ∃ s, Selector.ofText text = .ok s ∧ RowWise s.query.expr := by
  intro spec hspec text htext
  exact exists_rowWise_of_reads (readsRowWise_builtIn spec hspec text htext)

end ResourceGraph
