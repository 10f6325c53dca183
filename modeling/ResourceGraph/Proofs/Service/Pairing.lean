import Mathlib.Data.List.Forall2
import ResourceGraph.Proofs.Query.SelectorText
import ResourceGraph.Proofs.Record.Silence
import ResourceGraph.Service.BuiltIn

/-!
# Two parameters that filter the same records

Two parameters that filter the records of one operation by the same condition stay in step: each
gives one value for every record that passes, in the order of the records, so the values at one
position come from one record. That needs what they take to be there on each record that passes. A
null would be left out of one of the two lists, and the rest of it would move up.
-/
namespace ResourceGraph

open Query (Expr eval filterItems truthy)

/-- The records of an operation in the scope. -/
def Source.recordsOf (source : Source) (scope : Scope) (service operation : String) :
    Except StoreError (List Record) :=
  match scope with
  | .place account region => source.readScoped account region service operation
  | .everywhere => source.readGlobal service operation

theorem Source.records_eq_recordsOf {source : Source} {scope : Scope} {s : Selector} :
    source.records scope s = source.recordsOf scope s.service s.operation := by
  cases scope with
  | place account region => rfl
  | everywhere => rfl

/-- The selector filters the operation's records by a condition and takes the same of each one that
passes. -/
structure Selector.Filters (s : Selector) (service operation : String) (test each : Expr) :
    Prop where
  service : s.service = service
  operation : s.operation = operation
  expr : s.query.expr = .filter .current test each

namespace Record

/-- Whether the condition has a value on the record that counts as true. -/
def passes (test : Expr) (r : Record) : Bool :=
  match eval test r.toJson with
  | .ok value => truthy value
  | .error _ => false

/-- The expression has a value on the record. -/
def Evaluates (e : Expr) (r : Record) : Prop := ∃ value, eval e r.toJson = .ok value

/-- The expression has a value on the record, and that is not null. -/
def Yields (e : Expr) (r : Record) : Prop := ∃ value, eval e r.toJson = .ok value ∧ value ≠ .null

theorem passes_of_eval {test : Expr} {r : Record} {value : Json}
    (h : eval test r.toJson = .ok value) : r.passes test = truthy value := by
  rw [passes, h]

end Record

/-! ## One filter -/

section Filter

variable {test each : Expr} {records : List Record}

theorem Json.isNull_eq_false {value : Json} (h : value ≠ .null) : value.isNull = false := by
  cases value with
  | null => exact absurd rfl h
  | _ => rfl

/-- Where nothing that is taken is null, there is one value for each record that passes. -/
theorem exists_filterItems_records (htest : ∀ r ∈ records, r.Evaluates test)
    (heach : ∀ r ∈ records, r.passes test = true → r.Yields each) :
    ∃ values, filterItems (eval test) (eval each) (records.map Record.toJson) = .ok values ∧
      List.Forall₂ (fun r value => eval each r.toJson = .ok value)
        (records.filter (Record.passes test)) values := by
  induction records with
  | nil => exact ⟨[], rfl, .nil⟩
  | cons r records ih =>
    rw [List.forall_mem_cons] at htest heach
    obtain ⟨values, hvalues, hforall⟩ := ih htest.2 heach.2
    obtain ⟨passed, hpassed⟩ := htest.1
    have hpasses : r.passes test = truthy passed := Record.passes_of_eval hpassed
    rw [List.map_cons, filterItems, hpassed]
    by_cases htruthy : truthy passed = true
    · obtain ⟨value, hvalue, hnull⟩ := heach.1 (hpasses.trans htruthy)
      refine ⟨value :: values, ?_, ?_⟩
      · simp [htruthy, hvalue, hvalues, Json.isNull_eq_false hnull, bind, Except.bind, pure,
          Except.pure]
      · rw [List.filter_cons_of_pos (hpasses.trans htruthy)]
        exact .cons hvalue hforall
    · refine ⟨values, ?_, ?_⟩
      · simp [htruthy, hvalues, bind, Except.bind]
      · rwa [List.filter_cons_of_neg (by rwa [hpasses])]

theorem Selector.Filters.exists_evaluate {source : Source} {scope : Scope} {s : Selector}
    {service operation : String} (hs : s.Filters service operation test each)
    (hrecords : source.recordsOf scope service operation = .ok records)
    (htest : ∀ r ∈ records, r.Evaluates test)
    (heach : ∀ r ∈ records, r.passes test = true → r.Yields each) :
    ∃ values, source.evaluate scope s = .ok values ∧
      List.Forall₂ (fun r value => eval each r.toJson = .ok value)
        (records.filter (Record.passes test)) values := by
  have hread : source.records scope s = .ok records := by
    rw [Source.records_eq_recordsOf, hs.service, hs.operation, hrecords]
  cases records with
  | nil => exact ⟨[], Source.evaluate_of_no_records hread, .nil⟩
  | cons r records =>
    obtain ⟨values, hvalues, hforall⟩ := exists_filterItems_records htest heach
    have hsearch : s.query.search (.arr ((r :: records).map Record.toJson)) =
        .ok (.arr values) := by
      rw [Query.search, hs.expr, eval, eval]
      simp only [bind, Except.bind, hvalues]
      rfl
    -- the list of values is the sequence: a value that is itself a list stays whole
    exact ⟨values, Source.evaluate_of_search hread (List.cons_ne_nil _ _) hsearch, hforall⟩

end Filter

namespace Parameter

/-! ## Two filters -/

/-- The object has under both keys what the two expressions give on the record. -/
def Pairs (k₁ k₂ : String) (a b : Expr) (r : Record) (object : Fields) : Prop :=
  ∃ v w, eval a r.toJson = .ok v ∧ eval b r.toJson = .ok w ∧ object = [(k₁, v), (k₂, w)]

section Pair

variable {k₁ k₂ : String} {a b : Expr} {records : List Record} {vs ws : List Json}

theorem spread_nil : spread k₁ vs [] = vs.map fun v => [(k₁, v)] := by
  induction vs with
  | nil => rfl
  | cons v vs ih => rw [spread, ih, List.map_cons]

theorem forall₂_spread (hk : k₁ ≠ k₂)
    (ha : List.Forall₂ (fun r v => eval a r.toJson = .ok v) records vs)
    (hb : List.Forall₂ (fun r w => eval b r.toJson = .ok w) records ws) :
    List.Forall₂ (Pairs k₁ k₂ a b) records (spread k₂ ws (vs.map fun v => [(k₁, v)])) := by
  induction ha generalizing ws with
  | nil =>
    cases hb with
    | nil => exact .nil
  | @cons r v records vs hv _ ih =>
    cases hb with
    | @cons _ w _ ws hw hb =>
      have hobject : Fields.insert [(k₁, v)] k₂ w = [(k₁, v), (k₂, w)] := by
        simp [Fields.insert, hk]
      rw [List.map_cons, spread, hobject]
      exact .cons ⟨v, w, hv, hw, rfl⟩ (ih hb)

theorem filter_isComplete_pairs {p₁ p₂ : ParameterSource} {objects : List Fields}
    (h : List.Forall₂ (Pairs k₁ k₂ a b) records objects) :
    objects.filter (isComplete [⟨k₁, p₁⟩, ⟨k₂, p₂⟩]) = objects := by
  induction h with
  | nil => rfl
  | cons hobject _ ih =>
    obtain ⟨v, w, -, -, rfl⟩ := hobject
    rw [List.filter_cons_of_pos (by simp [isComplete, Fields.contains]), ih]

/-- One object for each record that passes, in the order of the records. -/
theorem exists_resolve_pairs {source : Source} {scope : Scope} {service operation : String}
    {s₁ s₂ : Selector} {test : Expr} (hk : k₁ ≠ k₂) (h₁ : s₁.Filters service operation test a)
    (h₂ : s₂.Filters service operation test b)
    (hrecords : source.recordsOf scope service operation = .ok records)
    (htest : ∀ r ∈ records, r.Evaluates test)
    (ha : ∀ r ∈ records, r.passes test = true → r.Yields a)
    (hb : ∀ r ∈ records, r.passes test = true → r.Yields b) :
    ∃ objects, resolve source scope [⟨k₁, .selector s₁⟩, ⟨k₂, .selector s₂⟩] = .ok objects ∧
      List.Forall₂ (Pairs k₁ k₂ a b) (records.filter (Record.passes test)) objects := by
  obtain ⟨vs, hvs, hav⟩ := h₁.exists_evaluate hrecords htest ha
  obtain ⟨ws, hws, hbw⟩ := h₂.exists_evaluate hrecords htest hb
  have hpairs := forall₂_spread hk hav hbw
  refine ⟨_, ?_, hpairs⟩
  simp only [resolve, List.foldlM_cons, List.foldlM_nil, extend, hvs, hws, Except.map, bind,
    Except.bind, pure, Except.pure, spread_nil, filter_isComplete_pairs hpairs]

end Pair

end Parameter

/-! ## The listings of the container service -/

/-- An operation that lists names cluster by cluster, and the one that describes what was found. -/
structure Listing where
  operation : String
  /-- Where the names stand in a result. -/
  field : String
  describing : String
  /-- The parameter that takes the names. -/
  key : String

namespace Listing

def services : Listing := ⟨"ListServices", "serviceArns", "DescribeServices", "services"⟩

def tasks : Listing := ⟨"ListTasks", "taskArns", "DescribeTasks", "tasks"⟩

/-- Whether the record's list has a first name, and that counts as true. -/
def found (l : Listing) (r : Record) : Bool :=
  match r.result.field? l.field with
  | some (.arr (name :: _)) => truthy name
  | _ => false

/-- The cluster that was asked for, and the list as it was found there. -/
def call (l : Listing) (r : Record) : Fields :=
  [("cluster", (r.parameters.get? "cluster").getD .null),
    (l.key, (r.result.field? l.field).getD .null)]

def test (l : Listing) : Expr := .chain (.field "result") (.chain (.field l.field) (.index 0))

def cluster : Expr := .chain (.field "parameters") (.field "cluster")

def names (l : Listing) : Expr := .chain (.field "result") (.field l.field)

def selector (l : Listing) (text : String) (each : Expr) : Selector where
  service := "ECS"
  operation := l.operation
  query := ⟨"[?result." ++ l.field ++ "[0]]." ++ text, .filter .current l.test each⟩

/-- The parameters of the describing operation. -/
def parameters (l : Listing) : List Parameter :=
  [⟨"cluster", .selector (l.selector "parameters.cluster" cluster)⟩,
    ⟨l.key, .selector (l.selector ("result." ++ l.field) l.names)⟩]

/-- The tokens of such a query, with two names for what is taken. -/
def tokens (l : Listing) (outer inner : String) : List Query.Token :=
  [.filter, .identifier "result", .dot, .identifier l.field, .lbracket, .number 0, .rbracket,
    .rbracket, .dot, .identifier outer, .dot, .identifier inner]

theorem ofText_display_selector (l : Listing) (text source : String) {outer inner : String}
    (hoperation : Selector.IsPart l.operation)
    (hsource : "[?result." ++ l.field ++ "[0]]." ++ text = source)
    (htrim : Text.trim source = source)
    (hlex : (Query.lexPast 0 0 source.toList).map Query.tokens = .ok (l.tokens outer inner)) :
    Selector.ofText (l.selector text (.chain (.field outer) (.field inner))).display =
      .ok (l.selector text (.chain (.field outer) (.field inner))) := by
  have hservice : Selector.IsPart "ECS" := ⟨by decide, rfl, by decide⟩
  have hquery : Query.ofText source =
      .ok ⟨source, .filter .current l.test (.chain (.field outer) (.field inner))⟩ :=
    Query.ofText_eq_ok_of_tokens _ htrim hlex rfl
  exact Selector.ofText_display hservice hoperation hsource hquery

/-- An operation with two parameters that selectors give. -/
theorem ofSpec_of_readings {service operation first second text text' : String} {s s' : Selector}
    (hoperation : Text.trim operation ≠ "") (hfirst : Text.trim first ≠ "")
    (hsecond : Text.trim second ≠ "") (hs : Selector.ofText text = .ok s)
    (hs' : Selector.ofText text' = .ok s') : OperationDescriptor.ofSpec service
      ⟨operation, [.reading first text, .reading second text']⟩ =
      .ok ⟨operation, [⟨first, .selector s⟩, ⟨second, .selector s'⟩]⟩ := by
  simp [OperationDescriptor.ofSpec, Parameter.ofSpec, ParameterSpec.reading, hoperation, hfirst,
    hsecond, hs, hs', bind, Except.bind, pure, Except.pure]

/-- The describing operations of the built-in service read the listings in this way. -/
theorem exists_builtIn {l : Listing} (hl : l ∈ [services, tasks]) :
    ∃ spec ∈ BuiltIn.ecs.operations, spec.operation = l.describing ∧
      OperationDescriptor.ofSpec BuiltIn.ecs.effectiveService spec =
        .ok ⟨l.describing, l.parameters⟩ := by
  simp only [List.mem_cons, List.not_mem_nil, or_false] at hl
  rcases hl with rfl | rfl
  · have hpart : Selector.IsPart "ListServices" := ⟨by decide, rfl, by decide⟩
    have hcluster : Selector.ofText
        "ECS|ListServices|[?result.serviceArns[0]].parameters.cluster" =
          .ok (services.selector "parameters.cluster" cluster) :=
      ofText_display_selector services "parameters.cluster"
        "[?result.serviceArns[0]].parameters.cluster" hpart rfl rfl rfl
    have hnames : Selector.ofText
        "ECS|ListServices|[?result.serviceArns[0]].result.serviceArns" =
          .ok (services.selector "result.serviceArns" services.names) :=
      ofText_display_selector services "result.serviceArns"
        "[?result.serviceArns[0]].result.serviceArns" hpart rfl rfl rfl
    exact ⟨BuiltIn.ecs.operations[3], List.getElem_mem _, rfl,
      ofSpec_of_readings (by decide) (by decide) (by decide) hcluster hnames⟩
  · have hpart : Selector.IsPart "ListTasks" := ⟨by decide, rfl, by decide⟩
    have hcluster : Selector.ofText "ECS|ListTasks|[?result.taskArns[0]].parameters.cluster" =
        .ok (tasks.selector "parameters.cluster" cluster) :=
      ofText_display_selector tasks "parameters.cluster"
        "[?result.taskArns[0]].parameters.cluster" hpart rfl rfl rfl
    have hnames : Selector.ofText "ECS|ListTasks|[?result.taskArns[0]].result.taskArns" =
        .ok (tasks.selector "result.taskArns" tasks.names) :=
      ofText_display_selector tasks "result.taskArns"
        "[?result.taskArns[0]].result.taskArns" hpart rfl rfl rfl
    exact ⟨BuiltIn.ecs.operations[5], List.getElem_mem _, rfl,
      ofSpec_of_readings (by decide) (by decide) (by decide) hcluster hnames⟩

section Record

variable {l : Listing} {r : Record}

theorem eval_chain_field {name : String} {next : Expr} {data : Json} :
    eval (.chain (.field name) next) data = eval next ((data.field? name).getD .null) := by
  rw [eval, eval]
  rfl

theorem eval_cluster :
    eval cluster r.toJson = .ok ((r.parameters.get? "cluster").getD .null) := by
  rw [cluster, eval_chain_field, eval]
  rfl

theorem eval_names : eval l.names r.toJson = .ok ((r.result.field? l.field).getD .null) := by
  rw [names, eval_chain_field, eval]
  rfl

/-- The condition has a value on every record, whatever the result of the call was. -/
theorem eval_test : ∃ value, eval l.test r.toJson = .ok value ∧ truthy value = l.found r := by
  have hresult : (r.toJson.field? "result").getD .null = r.result := rfl
  rw [test, eval_chain_field, eval_chain_field, hresult, found]
  cases r.result.field? l.field with
  | none => exact ⟨.null, by rw [eval]; simp, rfl⟩
  | some value =>
    cases value with
    | arr items =>
      cases items with
      | nil => exact ⟨.null, by rw [Option.getD_some, eval]; rfl, rfl⟩
      | cons name items => exact ⟨name, by rw [Option.getD_some, eval]; simp [Query.position?], rfl⟩
    | _ => exact ⟨.null, by rw [eval]; simp, rfl⟩

theorem passes_test : r.passes l.test = l.found r := by
  obtain ⟨value, hvalue, hfound⟩ := eval_test (l := l) (r := r)
  rw [Record.passes_of_eval hvalue, hfound]

/-- A list with a first name is there. -/
theorem yields_names (h : l.found r = true) : r.Yields l.names := by
  refine ⟨_, eval_names, ?_⟩
  unfold found at h
  split at h
  · next name rest hfield => simp [hfield]
  · cases h

end Record

/-- Every describing call takes its cluster and its names from one and the same record. -/
theorem resolve_parameters {l : Listing} {source : Source} {scope : Scope} {records : List Record}
    (hrecords : source.recordsOf scope "ECS" l.operation = .ok records) (hkey : "cluster" ≠ l.key)
    (hcluster : ∀ r ∈ records, ∃ c, r.parameters.get? "cluster" = some c ∧ c ≠ .null) :
    Parameter.resolve source scope l.parameters = .ok ((records.filter l.found).map l.call) := by
  have htest : ∀ r ∈ records, r.Evaluates l.test := fun r _ => by
    obtain ⟨value, hvalue, -⟩ := eval_test (l := l) (r := r)
    exact ⟨value, hvalue⟩
  have hfirst : ∀ r ∈ records, r.passes l.test = true → r.Yields cluster := by
    intro r hr _
    obtain ⟨c, hc, hnull⟩ := hcluster r hr
    exact ⟨_, eval_cluster, by rwa [hc]⟩
  have hsecond : ∀ r ∈ records, r.passes l.test = true → r.Yields l.names := by
    intro r _ hpasses
    exact yields_names (passes_test ▸ hpasses)
  have h₁ : (l.selector "parameters.cluster" cluster).Filters "ECS" l.operation l.test cluster :=
    ⟨rfl, rfl, rfl⟩
  have h₂ : (l.selector ("result." ++ l.field) l.names).Filters "ECS" l.operation l.test l.names :=
    ⟨rfl, rfl, rfl⟩
  obtain ⟨objects, hobjects, hpairs⟩ :=
    Parameter.exists_resolve_pairs hkey h₁ h₂ hrecords htest hfirst hsecond
  have hcalls : objects = (records.filter l.found).map l.call := by
    rw [show l.found = Record.passes l.test from funext fun r => passes_test.symm]
    refine (List.forall₂_eq_eq_eq ▸ List.forall₂_map_left_iff.2 (hpairs.imp ?_) :
      List.map l.call _ = objects).symm
    intro r object hpair
    obtain ⟨v, w, hv, hw, rfl⟩ := hpair
    rw [eval_cluster] at hv
    rw [eval_names] at hw
    obtain rfl := Except.ok.inj hv
    obtain rfl := Except.ok.inj hw
    rfl
  rw [← hcalls]
  exact hobjects

end Listing

namespace Parameter

/-- Two parameters that filter the same records by the same condition make one object for each
record that passes, in the order of the records, and it takes both its values from that record. So
do the built-in operations that describe the services and the tasks of a cluster: each call has a
cluster and the names that were listed for it, wherever every record names its cluster. -/
theorem resolve_in_step :
    (∀ {source : Source} {scope : Scope} {service operation : String} {records : List Record}
      {k₁ k₂ : String} {s₁ s₂ : Selector} {test a b : Expr}, k₁ ≠ k₂ →
      s₁.Filters service operation test a → s₂.Filters service operation test b →
      source.recordsOf scope service operation = .ok records →
      (∀ r ∈ records, r.Evaluates test) →
      (∀ r ∈ records, r.passes test = true → r.Yields a) →
      (∀ r ∈ records, r.passes test = true → r.Yields b) →
      ∃ objects, resolve source scope [⟨k₁, .selector s₁⟩, ⟨k₂, .selector s₂⟩] = .ok objects ∧
        List.Forall₂ (Pairs k₁ k₂ a b) (records.filter (Record.passes test)) objects) ∧
    ∀ l ∈ [Listing.services, Listing.tasks], ∃ spec ∈ BuiltIn.ecs.operations,
      spec.operation = l.describing ∧
      ∃ op, OperationDescriptor.ofSpec BuiltIn.ecs.effectiveService spec = .ok op ∧
        ∀ (source : Source) (scope : Scope) (records : List Record),
          source.recordsOf scope BuiltIn.ecs.effectiveService l.operation = .ok records →
          (∀ r ∈ records, ∃ c, r.parameters.get? "cluster" = some c ∧ c ≠ .null) →
          resolve source scope op.parameters = .ok ((records.filter l.found).map l.call) := by
  refine ⟨exists_resolve_pairs, fun l hl => ?_⟩
  obtain ⟨spec, hspec, hname, hop⟩ := Listing.exists_builtIn hl
  have hkey : "cluster" ≠ l.key := by
    simp only [List.mem_cons, List.not_mem_nil, or_false] at hl
    rcases hl with rfl | rfl
    · decide
    · decide
  exact ⟨spec, hspec, hname, _, hop, fun _ _ _ hrecords hcluster =>
    Listing.resolve_parameters hrecords hkey hcluster⟩

/-- A page of the names listed for one cluster. -/
def page (cluster : String) (names : List String) : Record where
  metadata := ⟨"1", "eu", 0⟩
  parameters := [("cluster", .str cluster)]
  result := .obj [("serviceArns", .ofStrings names)]

/-- Two pages for one cluster, and between them an empty one for another. -/
def pages : List Record := [page "a" ["x", "y"], page "b" [], page "a" ["z"]]

def paged : Source := .ofStore (Store.ofWrites [(⟨"1", "eu", "ECS", "ListServices"⟩, pages)])

def named : Expr := .chain (.field "result") (.field "serviceArns")

def firstNamed : Expr := .chain (.field "result") (.chain (.field "serviceArns") (.index 0))

/-- The selector `ECS|ListServices|[?result.serviceArns].` with more of the text after it. -/
def ofNamed (text : String) (each : Expr) : Selector where
  service := "ECS"
  operation := "ListServices"
  query := ⟨"[?result.serviceArns]." ++ text, .filter .current named each⟩

theorem resolve_in_step_paged :
    Selector.ofText "ECS|ListServices|[?result.serviceArns].parameters.cluster" =
      .ok (ofNamed "parameters.cluster" Listing.cluster) ∧
    Selector.ofText "ECS|ListServices|[?result.serviceArns].result.serviceArns[0]" =
      .ok (ofNamed "result.serviceArns[0]" firstNamed) ∧
    (∃ objects, resolve paged (.place "1" "eu")
        [⟨"from", .selector (ofNamed "parameters.cluster" Listing.cluster)⟩,
          ⟨"first", .selector (ofNamed "result.serviceArns[0]" firstNamed)⟩] = .ok objects ∧
      List.Forall₂ (Pairs "from" "first" Listing.cluster firstNamed)
        [page "a" ["x", "y"], page "a" ["z"]] objects) ∧
    ∃ spec ∈ BuiltIn.ecs.operations, spec.operation = "DescribeServices" ∧
      ∃ op, OperationDescriptor.ofSpec BuiltIn.ecs.effectiveService spec = .ok op ∧
        resolve paged (.place "1" "eu") op.parameters = .ok
          [[("cluster", .str "a"), ("services", .ofStrings ["x", "y"])],
            [("cluster", .str "a"), ("services", .ofStrings ["z"])]] := by
  have hrecords : paged.recordsOf (.place "1" "eu") "ECS" "ListServices" = .ok pages := by rfl
  have h₁ : (ofNamed "parameters.cluster" Listing.cluster).Filters "ECS" "ListServices" named
      Listing.cluster := ⟨rfl, rfl, rfl⟩
  have h₂ : (ofNamed "result.serviceArns[0]" firstNamed).Filters "ECS" "ListServices" named
      firstNamed := ⟨rfl, rfl, rfl⟩
  have hpart : Selector.IsPart "ECS" := ⟨by decide, rfl, by decide⟩
  have hpart' : Selector.IsPart "ListServices" := ⟨by decide, rfl, by decide⟩
  have hquery : Query.ofText "[?result.serviceArns].parameters.cluster" =
      .ok ⟨"[?result.serviceArns].parameters.cluster", .filter .current named Listing.cluster⟩ :=
    Query.ofText_eq_ok_of_tokens [.filter, .identifier "result", .dot, .identifier "serviceArns",
      .rbracket, .dot, .identifier "parameters", .dot, .identifier "cluster"] rfl rfl rfl
  have hquery' : Query.ofText "[?result.serviceArns].result.serviceArns[0]" =
      .ok ⟨"[?result.serviceArns].result.serviceArns[0]", .filter .current named firstNamed⟩ :=
    Query.ofText_eq_ok_of_tokens [.filter, .identifier "result", .dot, .identifier "serviceArns",
      .rbracket, .dot, .identifier "result", .dot, .identifier "serviceArns", .lbracket, .number 0,
      .rbracket] rfl rfl rfl
  have hsource : (ofNamed "parameters.cluster" Listing.cluster).query.source =
      "[?result.serviceArns].parameters.cluster" := rfl
  have hsource' : (ofNamed "result.serviceArns[0]" firstNamed).query.source =
      "[?result.serviceArns].result.serviceArns[0]" := rfl
  refine ⟨Selector.ofText_display hpart hpart' hsource hquery,
    Selector.ofText_display hpart hpart' hsource' hquery', ?_, ?_⟩
  · refine resolve_in_step.1 (by decide) h₁ h₂ hrecords ?_ ?_ ?_
    · simp only [pages, List.forall_mem_cons]
      exact ⟨⟨_, rfl⟩, ⟨_, rfl⟩, ⟨_, rfl⟩, List.forall_mem_nil _⟩
    · simp only [pages, List.forall_mem_cons]
      exact ⟨fun _ => ⟨.str "a", rfl, by simp⟩, fun _ => ⟨.str "b", rfl, by simp⟩,
        fun _ => ⟨.str "a", rfl, by simp⟩, List.forall_mem_nil _⟩
    · simp only [pages, List.forall_mem_cons]
      exact ⟨fun _ => ⟨.str "x", rfl, by simp⟩, fun h => absurd h (by decide),
        fun _ => ⟨.str "z", rfl, by simp⟩, List.forall_mem_nil _⟩
  · obtain ⟨spec, hspec, hname, op, hop, hresolve⟩ :=
      resolve_in_step.2 Listing.services List.mem_cons_self
    refine ⟨spec, hspec, hname, op, hop, hresolve _ _ _ hrecords ?_⟩
    simp only [pages, List.forall_mem_cons]
    exact ⟨⟨_, rfl, by simp⟩, ⟨_, rfl, by simp⟩, ⟨_, rfl, by simp⟩, List.forall_mem_nil _⟩

end Parameter

end ResourceGraph
