import ResourceGraph.Configuration
import ResourceGraph.Proofs.Document.Written
import ResourceGraph.Service.Parameter

/-!
# Descriptions and configurations written and read again

A parameter whose value is absent is written without it, and one whose value is null with a null.
The reader takes both for an absent value. All else in a description of a service, and in the
configuration around it, is read as it was written: what comes back is the description without its
nulls, and a parameter that was nothing but a null literal no longer has a source.

Of the settings it is assumed that their numbers are of the widths they are read with.
-/
namespace ResourceGraph

open Document

/-! ## Settings -/

structure RetrySettings.InRange (s : RetrySettings) : Prop where
  maxAttempts : ∀ n ∈ s.maxAttempts, n < Nat.pow 2 32
  baseDelay : ∀ n ∈ s.baseDelay, n < Nat.pow 2 64
  maxDelay : ∀ n ∈ s.maxDelay, n < Nat.pow 2 64

theorem RetrySettings.inRange_standard : standard.InRange := ⟨nofun, nofun, nofun⟩

theorem RetrySettings.read?_toJson {s : RetrySettings} (h : s.InRange) :
    read? s.toJson = some s := by
  refine of_part (parts?_obj _ _) ?_
  refine of_part (Parts.optional_eq_some rfl (optional?_ofNat? h.maxAttempts)) ?_
  refine of_part (Parts.optional_eq_some rfl (optional?_ofNat? h.baseDelay)) ?_
  exact of_part (Parts.optional_eq_some rfl (optional?_ofNat? h.maxDelay)) rfl

theorem RetrySettings.inRange_of_read? {d : Json} {s : RetrySettings} (h : read? d = some s) :
    s.InRange := by
  obtain ⟨parts, -, h⟩ := Option.bind_eq_some_iff.1 h
  obtain ⟨maxAttempts, hmaxAttempts, h⟩ := Option.bind_eq_some_iff.1 h
  obtain ⟨baseDelay, hbaseDelay, h⟩ := Option.bind_eq_some_iff.1 h
  obtain ⟨maxDelay, hmaxDelay, h⟩ := Option.bind_eq_some_iff.1 h
  cases h
  exact ⟨Parts.forall_of_optional hmaxAttempts fun _ _ => lt_of_natural?,
    Parts.forall_of_optional hbaseDelay fun _ _ => lt_of_natural?,
    Parts.forall_of_optional hmaxDelay fun _ _ => lt_of_natural?⟩

theorem ScanSettings.read?_toJson {s : ScanSettings} (h : s.retry.InRange) :
    read? s.toJson = some s := by
  refine of_part (parts?_obj _ _) ?_
  refine of_part (Parts.defaulted_eq_some rfl (list?_ofStrings s.regions)) ?_
  refine of_part (Parts.optional_eq_some rfl (optional?_ofStr? s.defaultRegion)) ?_
  refine of_part (Parts.defaulted_eq_some rfl (list?_ofStrings s.ignorableCodes)) ?_
  refine of_part (Parts.defaulted_eq_some rfl (list?_ofStrings s.retryableCodes)) ?_
  refine of_part (Parts.optional_eq_some rfl (optional?_ofFlag? s.parallel)) ?_
  exact of_part (Parts.defaulted_eq_some rfl (RetrySettings.read?_toJson h)) rfl

theorem ScanSettings.inRange_of_read? {d : Json} {s : ScanSettings} (h : read? d = some s) :
    s.retry.InRange := by
  obtain ⟨parts, -, h⟩ := Option.bind_eq_some_iff.1 h
  obtain ⟨regions, -, h⟩ := Option.bind_eq_some_iff.1 h
  obtain ⟨defaultRegion, -, h⟩ := Option.bind_eq_some_iff.1 h
  obtain ⟨ignorableCodes, -, h⟩ := Option.bind_eq_some_iff.1 h
  obtain ⟨retryableCodes, -, h⟩ := Option.bind_eq_some_iff.1 h
  obtain ⟨parallel, -, h⟩ := Option.bind_eq_some_iff.1 h
  obtain ⟨retry, hretry, h⟩ := Option.bind_eq_some_iff.1 h
  cases h
  exact Parts.prop_of_defaulted hretry RetrySettings.inRange_standard
    fun _ _ => RetrySettings.inRange_of_read?

theorem GraphSettings.read?_toJson (s : GraphSettings) : read? s.toJson = some s := by
  refine of_part (parts?_obj _ _) ?_
  refine of_part (Parts.optional_eq_some rfl (optional?_ofStr? s.roleSelector)) ?_
  exact of_part (Parts.optional_eq_some rfl (optional?_ofStr? s.partition)) rfl

theorem LogSettings.read?_toJson (s : LogSettings) : read? s.toJson = some s := by
  refine of_part (parts?_obj _ _) ?_
  exact of_part (Parts.optional_eq_some rfl (optional?_ofStr? s.level)) rfl

/-! ## Parameters -/

def ParameterSpec.NullFree (p : ParameterSpec) : Prop := p.value ≠ some .null

/-- A value that is null becomes an absent one. -/
def ParameterSpec.withoutNull (p : ParameterSpec) : ParameterSpec :=
  { p with value := p.value.filter fun v => !v.isNull }

theorem ParameterSpec.withoutNull_eq_self_iff {p : ParameterSpec} :
    p.withoutNull = p ↔ p.NullFree := by
  obtain ⟨key, selector, value⟩ := p
  cases value with
  | none => simp [withoutNull, NullFree]
  | some v => cases v <;> simp [withoutNull, NullFree, Json.isNull]

theorem ParameterSpec.field?_toJson (p : ParameterSpec) (name : String) :
    p.toJson.field? name =
      if name = "Key" then some (.str p.key)
      else (if name = "Selector" then p.selector.map .str else none).or
        (if name = "Value" then p.value else none) := by
  simp only [toJson, Json.field?, Fields.get?_cons, Fields.get?_append, Fields.get?_optional,
    Fields.get?_optional_any]

theorem ParameterSpec.field?_selector (p : ParameterSpec) :
    p.toJson.field? "Selector" = p.selector.map .str :=
  (p.field?_toJson "Selector").trans (by simp)

theorem ParameterSpec.field?_value (p : ParameterSpec) : p.toJson.field? "Value" = p.value :=
  (p.field?_toJson "Value").trans (by simp)

theorem ParameterSpec.read?_toJson (p : ParameterSpec) :
    read? p.toJson = some p.withoutNull := by
  refine of_part (parts?_obj _ _) ?_
  refine of_part rfl ?_
  refine of_part (Parts.optional_text p.field?_selector) ?_
  exact of_part (Parts.optional_any p.field?_value) rfl

theorem ParameterSpec.restored_iff (p : ParameterSpec) :
    read? p.toJson = some p ↔ p.NullFree := by
  rw [p.read?_toJson, Option.some.injEq, withoutNull_eq_self_iff]

theorem ParameterSpec.nullFree_of_read? {d : Json} {p : ParameterSpec} (h : read? d = some p) :
    p.NullFree := by
  obtain ⟨parts, -, h⟩ := Option.bind_eq_some_iff.1 h
  obtain ⟨key, -, h⟩ := Option.bind_eq_some_iff.1 h
  obtain ⟨selector, -, h⟩ := Option.bind_eq_some_iff.1 h
  obtain ⟨value, hvalue, h⟩ := Option.bind_eq_some_iff.1 h
  cases h
  exact Parts.ne_null_of_optional_any hvalue

/-! ## Operations, services and configurations -/

def OperationSpec.NullFree (o : OperationSpec) : Prop := ∀ p ∈ o.parameters, p.NullFree

def OperationSpec.withoutNulls (o : OperationSpec) : OperationSpec :=
  { o with parameters := o.parameters.map ParameterSpec.withoutNull }

theorem map_eq_self_iff {α : Type} {f : α → α} {xs : List α} :
    xs.map f = xs ↔ ∀ x ∈ xs, f x = x := by
  have h : xs.map f = xs.map id ↔ ∀ x ∈ xs, f x = id x := List.map_inj_left
  rwa [List.map_id] at h

theorem OperationSpec.withoutNulls_eq_self_iff {o : OperationSpec} :
    o.withoutNulls = o ↔ o.NullFree := by
  obtain ⟨operation, parameters⟩ := o
  simp only [withoutNulls, NullFree, mk.injEq, true_and, map_eq_self_iff,
    ParameterSpec.withoutNull_eq_self_iff]

theorem OperationSpec.read?_toJson (o : OperationSpec) :
    read? o.toJson = some o.withoutNulls := by
  refine of_part (parts?_obj _ _) ?_
  refine of_part rfl ?_
  exact of_part (Parts.defaulted_eq_some rfl (list?_map fun p _ => p.read?_toJson)) rfl

theorem OperationSpec.nullFree_of_read? {d : Json} {o : OperationSpec} (h : read? d = some o) :
    o.NullFree := by
  obtain ⟨parts, -, h⟩ := Option.bind_eq_some_iff.1 h
  obtain ⟨operation, -, h⟩ := Option.bind_eq_some_iff.1 h
  obtain ⟨parameters, hparameters, h⟩ := Option.bind_eq_some_iff.1 h
  cases h
  exact Parts.forall_of_defaulted_list hparameters fun _ _ => ParameterSpec.nullFree_of_read?

theorem EdgeSpec.read?_toJson (e : EdgeSpec) : read? e.toJson = some e := by
  refine of_part (parts?_obj _ _) ?_
  refine of_part rfl ?_
  refine of_part rfl ?_
  refine of_part rfl ?_
  exact of_part rfl rfl

def ServiceSpec.NullFree (s : ServiceSpec) : Prop := ∀ o ∈ s.operations, o.NullFree

def ServiceSpec.withoutNulls (s : ServiceSpec) : ServiceSpec :=
  { s with operations := s.operations.map OperationSpec.withoutNulls }

theorem ServiceSpec.withoutNulls_eq_self_iff {s : ServiceSpec} :
    s.withoutNulls = s ↔ s.NullFree := by
  obtain ⟨⟩ := s
  simp only [withoutNulls, NullFree, mk.injEq, true_and, map_eq_self_iff,
    OperationSpec.withoutNulls_eq_self_iff]

theorem ServiceSpec.read?_toJson (s : ServiceSpec) : read? s.toJson = some s.withoutNulls := by
  have hedges : list? EdgeSpec.read? (Json.arr (s.edges.map EdgeSpec.toJson)) =
      some (s.edges.map id) :=
    list?_map fun e _ => e.read?_toJson
  rw [List.map_id] at hedges
  refine of_part (parts?_obj _ _) ?_
  refine of_part rfl ?_
  refine of_part (Parts.optional_eq_some rfl (optional?_ofStr? s.service)) ?_
  refine of_part (Parts.optional_eq_some rfl (optional?_ofStr? s.label)) ?_
  refine of_part (Parts.optional_eq_some rfl (optional?_ofStr? s.arnService)) ?_
  refine of_part rfl ?_
  refine of_part rfl ?_
  refine of_part (Parts.defaulted_eq_some rfl (list?_ofStrings s.nodes)) ?_
  refine of_part (Parts.defaulted_eq_some rfl hedges) ?_
  refine of_part (Parts.defaulted_eq_some rfl (list?_ofStrings s.iamRoles)) ?_
  exact of_part (Parts.defaulted_eq_some rfl (list?_map fun o _ => o.read?_toJson)) rfl

theorem ServiceSpec.restored_iff (s : ServiceSpec) : read? s.toJson = some s ↔ s.NullFree := by
  rw [s.read?_toJson, Option.some.injEq, withoutNulls_eq_self_iff]

theorem ServiceSpec.nullFree_of_read? {d : Json} {s : ServiceSpec} (h : read? d = some s) :
    s.NullFree := by
  obtain ⟨parts, -, h⟩ := Option.bind_eq_some_iff.1 h
  obtain ⟨key, -, h⟩ := Option.bind_eq_some_iff.1 h
  obtain ⟨service, -, h⟩ := Option.bind_eq_some_iff.1 h
  obtain ⟨label, -, h⟩ := Option.bind_eq_some_iff.1 h
  obtain ⟨arnService, -, h⟩ := Option.bind_eq_some_iff.1 h
  obtain ⟨isGlobal, -, h⟩ := Option.bind_eq_some_iff.1 h
  obtain ⟨bareNameIds, -, h⟩ := Option.bind_eq_some_iff.1 h
  obtain ⟨nodes, -, h⟩ := Option.bind_eq_some_iff.1 h
  obtain ⟨edges, -, h⟩ := Option.bind_eq_some_iff.1 h
  obtain ⟨iamRoles, -, h⟩ := Option.bind_eq_some_iff.1 h
  obtain ⟨operations, hoperations, h⟩ := Option.bind_eq_some_iff.1 h
  cases h
  exact Parts.forall_of_defaulted_list hoperations fun _ _ => OperationSpec.nullFree_of_read?

namespace Configuration

variable {c : Configuration}

def InRange (c : Configuration) : Prop := c.scan.retry.InRange

def NullFree (c : Configuration) : Prop := ∀ s ∈ c.services, s.NullFree

def withoutNulls (c : Configuration) : Configuration :=
  { c with services := c.services.map ServiceSpec.withoutNulls }

theorem withoutNulls_eq_self_iff : c.withoutNulls = c ↔ c.NullFree := by
  obtain ⟨⟩ := c
  simp only [withoutNulls, NullFree, mk.injEq, true_and, map_eq_self_iff,
    ServiceSpec.withoutNulls_eq_self_iff]

theorem read?_toJson (h : c.InRange) : read? c.toJson = some c.withoutNulls := by
  refine of_part (parts?_obj _ _) ?_
  refine of_part (Parts.defaulted_eq_some rfl (ScanSettings.read?_toJson h)) ?_
  refine of_part (Parts.defaulted_eq_some rfl c.graph.read?_toJson) ?_
  refine of_part (Parts.defaulted_eq_some rfl c.logging.read?_toJson) ?_
  exact of_part (Parts.defaulted_eq_some rfl (list?_map fun s _ => s.read?_toJson)) rfl

theorem restored_iff (h : c.InRange) : read? c.toJson = some c ↔ c.NullFree := by
  rw [read?_toJson h, Option.some.injEq, withoutNulls_eq_self_iff]

theorem inRange_and_nullFree_of_read? {d : Json} (h : read? d = some c) :
    c.InRange ∧ c.NullFree := by
  obtain ⟨parts, -, h⟩ := Option.bind_eq_some_iff.1 h
  obtain ⟨scan, hscan, h⟩ := Option.bind_eq_some_iff.1 h
  obtain ⟨graph, -, h⟩ := Option.bind_eq_some_iff.1 h
  obtain ⟨logging, -, h⟩ := Option.bind_eq_some_iff.1 h
  obtain ⟨services, hservices, h⟩ := Option.bind_eq_some_iff.1 h
  cases h
  constructor
  · exact Parts.prop_of_defaulted (P := fun s : ScanSettings => s.retry.InRange) hscan
      RetrySettings.inRange_standard fun _ _ => ScanSettings.inRange_of_read?
  · exact Parts.forall_of_defaulted_list hservices fun _ _ => ServiceSpec.nullFree_of_read?

end Configuration

/-! ## What a parameter compiles to -/

/-- Nothing but a null literal is what the parameter gets its value from. -/
structure ParameterSpec.IsNullLiteral (p : ParameterSpec) : Prop where
  named : Text.trim p.key ≠ ""
  selector : p.selector = none
  value : p.value = some .null

theorem ParameterSpec.IsNullLiteral.ofSpec {p : ParameterSpec} (h : p.IsNullLiteral)
    (service operation : String) :
    Parameter.ofSpec service operation p = .ok ⟨p.key, .value .null⟩ := by
  simp [Parameter.ofSpec, h.named, h.selector, h.value]

theorem ParameterSpec.IsNullLiteral.ofSpec_withoutNull {p : ParameterSpec} (h : p.IsNullLiteral)
    (service operation : String) :
    Parameter.ofSpec service operation p.withoutNull =
      .error (.invalidParameter service operation p.key .noSource) := by
  obtain ⟨key, selector, value⟩ := p
  obtain ⟨hnamed, rfl, rfl⟩ := h
  have hlost : withoutNull ⟨key, none, some .null⟩ = ⟨key, none, none⟩ := rfl
  rw [hlost, Parameter.ofSpec, if_neg hnamed]

theorem ParameterSpec.ofSpec_withoutNull_eq_iff {p : ParameterSpec} {service operation : String} :
    Parameter.ofSpec service operation p.withoutNull = Parameter.ofSpec service operation p ↔
      ¬ p.IsNullLiteral := by
  constructor
  · intro h hnull
    rw [hnull.ofSpec, hnull.ofSpec_withoutNull] at h
    cases h
  · intro h
    by_cases hkept : p.NullFree
    · rw [withoutNull_eq_self_iff.2 hkept]
    obtain ⟨key, selector, value⟩ := p
    obtain rfl : value = some .null := not_not.1 hkept
    by_cases hnamed : Text.trim key = ""
    · simp [Parameter.ofSpec, withoutNull, hnamed]
    cases selector with
    | none => exact absurd ⟨hnamed, rfl, rfl⟩ h
    | some text => simp [Parameter.ofSpec, withoutNull, hnamed]

/-! ## The result -/

/-- What is read of a written parameter, service or configuration is that without its nulls, so it
is the same exactly if no parameter in it has a null for its value. A parameter compiles to the same
after it was written and read exactly if it was more than a null literal. What is itself read from a
document has no such nulls, and is not changed any more. -/
theorem descriptions_restored_iff (p : ParameterSpec) (s : ServiceSpec) {c : Configuration}
    (hc : c.InRange) (service operation : String) :
    (ParameterSpec.read? p.toJson = some p.withoutNull ∧
      (ParameterSpec.read? p.toJson = some p ↔ p.NullFree)) ∧
    (ServiceSpec.read? s.toJson = some s.withoutNulls ∧
      (ServiceSpec.read? s.toJson = some s ↔ s.NullFree)) ∧
    (Configuration.read? c.toJson = some c.withoutNulls ∧
      (Configuration.read? c.toJson = some c ↔ c.NullFree)) ∧
    ((ParameterSpec.read? p.toJson).map (Parameter.ofSpec service operation) =
      some (Parameter.ofSpec service operation p) ↔ ¬ p.IsNullLiteral) ∧
    Stable ParameterSpec.toJson ParameterSpec.read? ParameterSpec.NullFree ∧
    Stable ServiceSpec.toJson ServiceSpec.read? ServiceSpec.NullFree ∧
    Stable Configuration.toJson Configuration.read? (fun c => c.InRange ∧ c.NullFree) := by
  refine ⟨⟨p.read?_toJson, p.restored_iff⟩, ⟨s.read?_toJson, s.restored_iff⟩,
    ⟨Configuration.read?_toJson hc, Configuration.restored_iff hc⟩, ?_, ?_, ?_, ?_⟩
  · rw [p.read?_toJson, Option.map_some, Option.some.injEq, ParameterSpec.ofSpec_withoutNull_eq_iff]
  · exact stable_of (fun p => p.restored_iff.2) fun _ _ => ParameterSpec.nullFree_of_read?
  · exact stable_of (fun s => s.restored_iff.2) fun _ _ => ServiceSpec.nullFree_of_read?
  · exact stable_of (fun _ h => (Configuration.restored_iff h.1).2 h.2) fun _ _ =>
      Configuration.inRange_and_nullFree_of_read?

/-- A feed whose operation is asked with a literal size and a literal null for the page. The size
comes back and the page does not. -/
theorem descriptions_restored_iff_page :
    Configuration.read? (Configuration.toJson ⟨.standard, .standard, .standard,
        [⟨"feed", none, none, none, false, false, [], [], [],
          [⟨"ListItems", [⟨"size", none, some (.ofNat 50)⟩, ⟨"page", none, some .null⟩]⟩]⟩]⟩) =
      some ⟨.standard, .standard, .standard,
        [⟨"feed", none, none, none, false, false, [], [], [],
          [⟨"ListItems", [⟨"size", none, some (.ofNat 50)⟩, ⟨"page", none, none⟩]⟩]⟩]⟩ ∧
    ParameterSpec.read? (ParameterSpec.toJson ⟨"size", none, some (.ofNat 50)⟩) =
      some ⟨"size", none, some (.ofNat 50)⟩ := by
  have h := descriptions_restored_iff ⟨"size", none, some (.ofNat 50)⟩
    ⟨"feed", none, none, none, false, false, [], [], [], []⟩
    (c := ⟨.standard, .standard, .standard, [⟨"feed", none, none, none, false, false, [], [], [],
      [⟨"ListItems", [⟨"size", none, some (.ofNat 50)⟩, ⟨"page", none, some .null⟩]⟩]⟩]⟩)
    RetrySettings.inRange_standard "Feed" "ListItems"
  exact ⟨h.2.2.1.1, h.1.2.2 nofun⟩

/-- A literal null is a parameter of its own, but no source is left of it after it was written and
read. -/
theorem null_literal_lost :
    ParameterSpec.read? (ParameterSpec.toJson ⟨"page", none, some .null⟩) ≠
      some ⟨"page", none, some .null⟩ ∧
    Parameter.ofSpec "Feed" "ListItems" ⟨"page", none, some .null⟩ =
      .ok ⟨"page", .value .null⟩ ∧
    (ParameterSpec.read? (ParameterSpec.toJson ⟨"page", none, some .null⟩)).map
        (Parameter.ofSpec "Feed" "ListItems") =
      some (.error (.invalidParameter "Feed" "ListItems" "page" .noSource)) := by
  have hnull : ParameterSpec.IsNullLiteral ⟨"page", none, some .null⟩ := ⟨by decide, rfl, rfl⟩
  rw [ParameterSpec.read?_toJson, Option.map_some]
  refine ⟨fun h => ?_, hnull.ofSpec _ _, congrArg some (hnull.ofSpec_withoutNull _ _)⟩
  exact ParameterSpec.withoutNull_eq_self_iff.1 (Option.some.inj h) rfl

end ResourceGraph
