import ResourceGraph.Proofs.Fallible
import ResourceGraph.Proofs.Service.RowWiseBuiltIn
import ResourceGraph.Service.Catalog

/-!
# Descriptions that compile

A description compiles if nothing in it that must have a name is blank, every selector and query in
it can be read, and every parameter has a source. The built-in ones are like that, and no two of
them have one key, so there is a catalog of them.
-/
namespace ResourceGraph

/-! ## What is enough to compile -/

structure ParameterSpec.Compiles (p : ParameterSpec) : Prop where
  named : Text.trim p.key ≠ ""
  selector : ∀ text ∈ p.selector, ∃ s, Selector.ofText text = .ok s
  sourced : p.selector.isSome || p.value.isSome

structure OperationSpec.Compiles (o : OperationSpec) : Prop where
  named : Text.trim o.operation ≠ ""
  parameters : ∀ p ∈ o.parameters, p.Compiles

structure EdgeSpec.Compiles (e : EdgeSpec) : Prop where
  named : Text.trim e.name ≠ ""
  state : ∃ s, Selector.ofText e.state = .ok s
  source : ∃ q, Query.ofText e.source = .ok q
  target : ∃ q, Query.ofText e.target = .ok q

structure ServiceSpec.Compiles (s : ServiceSpec) : Prop where
  named : Text.trim s.key ≠ ""
  nodes : ∀ text ∈ s.nodes, ∃ s, Selector.ofText text = .ok s
  iamRoles : ∀ text ∈ s.iamRoles, ∃ s, Selector.ofText text = .ok s
  edges : ∀ e ∈ s.edges, e.Compiles
  operations : ∀ o ∈ s.operations, o.Compiles

theorem exists_readSelector (place : SelectorPlace) {text : String}
    (h : ∃ s, Selector.ofText text = .ok s) : ∃ s, readSelector place text = .ok s := by
  simpa only [readSelector, mapError_eq_ok_iff] using h

theorem exists_readQuery (place : SelectorPlace) {text : String}
    (h : ∃ q, Query.ofText text = .ok q) : ∃ q, readQuery place text = .ok q := by
  simpa only [readQuery, mapError_eq_ok_iff] using h

theorem ParameterSpec.Compiles.exists_ofSpec {p : ParameterSpec} (h : p.Compiles)
    (service operation : String) : ∃ q, Parameter.ofSpec service operation p = .ok q := by
  obtain ⟨key, selector, value⟩ := p
  have hnamed : Text.trim key ≠ "" := h.named
  cases selector with
  | some text =>
    obtain ⟨s, hs⟩ := h.selector text rfl
    exact ⟨⟨key, .selector s⟩, by simp [Parameter.ofSpec, hnamed, hs]⟩
  | none =>
    obtain ⟨v, rfl⟩ := Option.isSome_iff_exists.1 h.sourced
    exact ⟨⟨key, .value v⟩, by simp [Parameter.ofSpec, hnamed]⟩

theorem OperationSpec.Compiles.exists_ofSpec {o : OperationSpec} (h : o.Compiles)
    (service : String) : ∃ d, OperationDescriptor.ofSpec service o = .ok d := by
  obtain ⟨parameters, hparameters⟩ :=
    exists_mapM_eq_ok_iff.2 fun p hp => (h.parameters p hp).exists_ofSpec service o.operation
  exact ⟨⟨o.operation, parameters⟩, by
    rw [OperationDescriptor.ofSpec, if_neg h.named, hparameters]
    rfl⟩

theorem EdgeSpec.Compiles.exists_ofSpec {e : EdgeSpec} (h : e.Compiles) (service : String) :
    ∃ d, EdgeDescriptor.ofSpec service e = .ok d := by
  obtain ⟨state, hstate⟩ := exists_readSelector (.edge service e.name .state) h.state
  obtain ⟨source, hsource⟩ := exists_readQuery (.edge service e.name .source) h.source
  obtain ⟨target, htarget⟩ := exists_readQuery (.edge service e.name .target) h.target
  exact ⟨⟨e.name, state, source, target⟩, by
    rw [EdgeDescriptor.ofSpec, if_neg h.named, hstate, hsource, htarget]
    rfl⟩

theorem ServiceSpec.Compiles.exists_ofSpec {s : ServiceSpec} (h : s.Compiles) :
    ∃ d, Descriptor.ofSpec s = .ok d := by
  obtain ⟨nodes, hnodes⟩ := exists_mapM_eq_ok_iff.2 fun text htext =>
    exists_readSelector (.nodes s.key) (h.nodes text htext)
  obtain ⟨iamRoles, hiamRoles⟩ := exists_mapM_eq_ok_iff.2 fun text htext =>
    exists_readSelector (.iamRoles s.key) (h.iamRoles text htext)
  obtain ⟨edges, hedges⟩ := exists_mapM_eq_ok_iff.2 fun e he => (h.edges e he).exists_ofSpec s.key
  obtain ⟨operations, hoperations⟩ := exists_mapM_eq_ok_iff.2 fun o ho =>
    (h.operations o ho).exists_ofSpec s.effectiveService
  rw [Descriptor.ofSpec, if_neg h.named, hnodes, hiamRoles, hedges, hoperations]
  exact ⟨_, rfl⟩

/-- A compiled description keeps its key. -/
theorem Descriptor.key_of_ofSpec {s : ServiceSpec} {d : Descriptor} (h : ofSpec s = .ok d) :
    d.key = s.key := by
  unfold ofSpec at h
  split at h
  · cases h
  · obtain ⟨nodes, -, h⟩ := bind_eq_ok_iff.1 h
    obtain ⟨iamRoles, -, h⟩ := bind_eq_ok_iff.1 h
    obtain ⟨edges, -, h⟩ := bind_eq_ok_iff.1 h
    obtain ⟨operations, -, h⟩ := bind_eq_ok_iff.1 h
    cases h
    rfl

theorem Descriptor.map_key_of_mapM_ofSpec {specs : List ServiceSpec} {services : List Descriptor}
    (h : specs.mapM ofSpec = .ok services) : services.map (·.key) = specs.map (·.key) := by
  rw [eq_comm, ← List.forall₂_eq_eq_eq, List.forall₂_map_left_iff, List.forall₂_map_right_iff]
  exact (mapM_eq_ok_iff.1 h).imp fun s d h => (key_of_ofSpec h).symm

/-! ## The built-in descriptions -/

/-- The selectors that parameters read. -/
def ServiceSpec.parameterSelectors (s : ServiceSpec) : List String :=
  s.operations.flatMap fun o => o.parameters.filterMap (·.selector)

theorem readsRowWise_parameters :
    ∀ s ∈ BuiltIn.services, ∀ text ∈ s.parameterSelectors, readsRowWise text.toList = true := by
  simp only [BuiltIn.services, List.forall_mem_cons, ServiceSpec.parameterSelectors]
  refine ⟨?_, ?_, ?_, ?_, ?_, ?_, ?_, ?_, ?_, ?_, nofun⟩
  all_goals
    simp only [BuiltIn.iam, BuiltIn.lambda, BuiltIn.ecs, BuiltIn.s3, BuiltIn.dynamodb, BuiltIn.sns,
      BuiltIn.sqs, BuiltIn.cloudfront, BuiltIn.route53, BuiltIn.elbv2, ParameterSpec.reading,
      ParameterSpec.literal, List.flatMap_cons, List.flatMap_nil, List.filterMap_cons,
      List.filterMap_nil, List.cons_append, List.nil_append, List.append_nil, List.forall_mem_cons]
    -- as in `readsRowWise_builtIn`, the texts become lists of characters first
    repeat rw [String.toList_ofList]
    decide +kernel

theorem named_builtIn : ∀ s ∈ BuiltIn.services, Text.trim s.key ≠ "" ∧
    (∀ e ∈ s.edges, Text.trim e.name ≠ "" ∧
      (Query.ofText e.source).isOk ∧ (Query.ofText e.target).isOk) ∧
    ∀ o ∈ s.operations, Text.trim o.operation ≠ "" ∧
      ∀ p ∈ o.parameters, Text.trim p.key ≠ "" ∧ (p.selector.isSome || p.value.isSome) := by
  decide +kernel

theorem compiles_builtIn {s : ServiceSpec} (hs : s ∈ BuiltIn.services) : s.Compiles := by
  obtain ⟨hnamed, hedges, hoperations⟩ := named_builtIn s hs
  have hitem : ∀ text ∈ s.itemSelectors, ∃ s, Selector.ofText text = .ok s := fun text htext => by
    obtain ⟨selector, hselector, -⟩ := rowWise_builtIn s hs text htext
    exact ⟨selector, hselector⟩
  have hparameter : ∀ text ∈ s.parameterSelectors, ∃ s, Selector.ofText text = .ok s :=
    fun text htext => by
      obtain ⟨selector, hselector, -⟩ :=
        exists_rowWise_of_reads (readsRowWise_parameters s hs text htext)
      exact ⟨selector, hselector⟩
  refine ⟨hnamed, fun text htext => ?_, fun text htext => ?_, fun e he => ?_, fun o ho => ?_⟩
  · exact hitem text (by simp [ServiceSpec.itemSelectors, htext])
  · exact hitem text (by simp [ServiceSpec.itemSelectors, htext])
  · obtain ⟨hname, hsource, htarget⟩ := hedges e he
    have hstate : e.state ∈ s.itemSelectors := by
      simp only [ServiceSpec.itemSelectors, List.mem_append]
      exact .inl (.inr (List.mem_map_of_mem he))
    exact ⟨hname, hitem _ hstate, isOk_iff.1 hsource, isOk_iff.1 htarget⟩
  · obtain ⟨hname, hparameters⟩ := hoperations o ho
    refine ⟨hname, fun p hp => ⟨(hparameters p hp).1, fun text htext => ?_, (hparameters p hp).2⟩⟩
    refine hparameter text (List.mem_flatMap.2 ⟨o, ho, List.mem_filterMap.2 ⟨p, hp, ?_⟩⟩)
    exact htext

end ResourceGraph
