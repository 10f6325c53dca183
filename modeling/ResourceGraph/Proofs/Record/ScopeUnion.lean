import ResourceGraph.Proofs.Record.Scopes
import ResourceGraph.Proofs.Service.RowWiseBuiltIn
import ResourceGraph.Record.Source

/-!
# Evaluation over all scopes

A selector with a row-wise query gives over all scopes what it gives in each, one scope after the
other, and fails exactly if it fails in one of them. A scope without records of the operation gives
nothing. The fault that is reported over all scopes need not be that of the first scope that fails.
-/
namespace ResourceGraph.Source

open Query (RowWise Homomorphic)

variable {source : Source} {scope : Scope} {s : Selector} {records : List Record}
  {rows : List Json → Except QueryError (List Json)}

/-- No records are evaluated as an empty list would be. -/
theorem evaluate_eq_ofQuery_rows (hrecords : source.records scope s = .ok records)
    (hrows : Homomorphic rows)
    (heval : ∀ items, Query.eval s.query.expr (.arr items) = (rows items).map .arr) :
    source.evaluate scope s = EvalError.ofQuery (rows (records.map Record.toJson)) := by
  simp only [evaluate, evaluateValue, hrecords, EvalError.ofStore, Except.mapError, bind,
    Except.bind, Query.search, heval]
  cases records with
  | nil =>
    rw [List.map_nil, hrows.nil]
    rfl
  | cons record records =>
    cases rows ((record :: records).map Record.toJson) with
    | error fault => rfl
    | ok values => rfl

variable {store : Store}

/-- The values over all scopes are those of each scope in turn. -/
theorem evaluate_everywhere_eq_ok_iff (hrow : RowWise s.query.expr) (values : List Json) :
    (ofStore store).evaluate .everywhere s = .ok values ↔
      ∃ parts, List.Forall₂
          (fun p part => (ofStore store).evaluate (.place p.1 p.2) s = .ok part)
          store.scopes parts ∧
        values = parts.flatten := by
  obtain ⟨rows, hrows, heval⟩ := hrow.exists_homomorphic
  have hscoped : ∀ p : String × String, (ofStore store).evaluate (.place p.1 p.2) s =
      EvalError.ofQuery (rows
        ((store.readScoped p.1 p.2 s.service s.operation).map Record.toJson)) :=
    fun p => evaluate_eq_ofQuery_rows rfl hrows heval
  have hglobal : (ofStore store).evaluate .everywhere s = EvalError.ofQuery (rows
      ((store.scopes.map fun p =>
        (store.readScoped p.1 p.2 s.service s.operation).map Record.toJson).flatten)) := by
    rw [evaluate_eq_ofQuery_rows rfl hrows heval, store.readGlobal_eq_flatMap_scopes,
      List.map_flatMap, List.flatMap_def]
  rw [hglobal, EvalError.ofQuery, mapError_eq_ok_iff, hrows.flatten_eq_ok_iff]
  simp only [hscoped, EvalError.ofQuery, mapError_eq_ok_iff, List.forall₂_map_left_iff]

/-- One scope that fails makes the evaluation over all scopes fail, and nothing else does. -/
theorem evaluate_everywhere_eq_error_iff (hrow : RowWise s.query.expr) :
    (∃ fault, (ofStore store).evaluate .everywhere s = .error fault) ↔
      ∃ p ∈ store.scopes, ∃ fault,
        (ofStore store).evaluate (.place p.1 p.2) s = .error fault := by
  have hok : (∃ values, (ofStore store).evaluate .everywhere s = .ok values) ↔
      ∀ p ∈ store.scopes, ∃ part, (ofStore store).evaluate (.place p.1 p.2) s = .ok part := by
    rw [← exists_forall₂_iff]
    simp only [evaluate_everywhere_eq_ok_iff hrow]
    constructor
    · intro h
      obtain ⟨_, parts, hparts, rfl⟩ := h
      exact ⟨parts, hparts⟩
    · intro h
      obtain ⟨parts, hparts⟩ := h
      exact ⟨_, parts, hparts, rfl⟩
  rw [← not_exists_ok_iff, hok]
  simp only [not_forall, not_exists_ok_iff, exists_prop]

/-- Over what any writes leave behind, a selector with a row-wise query gives over all scopes what
it gives in each of them in turn, and fails exactly if it fails in one. The selectors by which the
built-in services read nodes, edges and role bindings have such queries. -/
theorem evaluate_everywhere_ofWrites (writes : List (Key × List Record))
    (hrow : RowWise s.query.expr) :
    (∀ values, (ofStore (Store.ofWrites writes)).evaluate .everywhere s = .ok values ↔
      ∃ parts, List.Forall₂
          (fun p part => (ofStore (Store.ofWrites writes)).evaluate (.place p.1 p.2) s = .ok part)
          (Store.ofWrites writes).scopes parts ∧
        values = parts.flatten) ∧
    ((∃ fault, (ofStore (Store.ofWrites writes)).evaluate .everywhere s = .error fault) ↔
      ∃ p ∈ (Store.ofWrites writes).scopes, ∃ fault,
        (ofStore (Store.ofWrites writes)).evaluate (.place p.1 p.2) s = .error fault) ∧
    ∀ spec ∈ BuiltIn.services, ∀ text ∈ spec.itemSelectors,
      ∃ builtIn, Selector.ofText text = .ok builtIn ∧ RowWise builtIn.query.expr :=
  ⟨evaluate_everywhere_eq_ok_iff hrow, evaluate_everywhere_eq_error_iff hrow, rowWise_builtIn⟩

/-- The results of one call that lists queues. -/
def queues (account region : String) (urls : List Json) : Key × List Record :=
  (⟨account, region, "SQS", "ListQueues"⟩,
    [⟨⟨account, region, 0⟩, [], .obj [("QueueUrls", .arr urls)]⟩])

/-- Two scopes with queues, the later one written first, and one without. -/
def queueWrites : List (Key × List Record) := [
  queues "2" "eu" [.str "c", .null],
  (⟨"1", "us", "SNS", "ListTopics"⟩, [⟨⟨"1", "us", 0⟩, [], .obj []⟩]),
  queues "1" "eu" [.str "a", .str "b"]]

/-- The query `[*].result.QueueUrls[]`. -/
def queueUrls : Selector where
  service := "SQS"
  operation := "ListQueues"
  query := ⟨"[*].result.QueueUrls[]", .project
    (.flatten (.project .current (.chain (.field "result") (.field "QueueUrls")))) .current⟩

theorem evaluate_everywhere_queues :
    RowWise queueUrls.query.expr ∧
      (ofStore (Store.ofWrites queueWrites)).evaluate .everywhere queueUrls =
        .ok [.str "a", .str "b", .str "c"] := by
  have hrow : RowWise queueUrls.query.expr := by decide
  have hscopes : (Store.ofWrites queueWrites).scopes = [("1", "eu"), ("1", "us"), ("2", "eu")] := by
    decide +kernel
  refine ⟨hrow, ((evaluate_everywhere_ofWrites queueWrites hrow).1 _).2
    ⟨[[.str "a", .str "b"], [], [.str "c"]], ?_, rfl⟩⟩
  rw [hscopes]
  exact .cons rfl (.cons rfl (.cons rfl .nil))

end ResourceGraph.Source
