import ResourceGraph.Record.Source

/-!
# Reads that find nothing

A selector gives nothing where there are no records, whatever its query, and else what its query
gives on the list of the records. A read that fails can be answered like one that finds none; then
only the faults of queries are left.
-/
namespace ResourceGraph.Source

variable {source : Source} {scope : Scope} {s : Selector} {items : List Json}

/-- The source in which a failing read of records finds none. -/
def silenced (source : Source) : Source where
  readScoped account region service operation :=
    .ok ((source.readScoped account region service operation).toOption.getD [])
  readGlobal service operation := .ok ((source.readGlobal service operation).toOption.getD [])
  scopes := source.scopes

theorem records_silenced :
    source.silenced.records scope s = .ok ((source.records scope s).toOption.getD []) := by
  cases scope with
  | place account region => rfl
  | everywhere => rfl

/-- A selector sees of a source what it reads there. -/
theorem evaluate_eq_of_records_eq {other : Source}
    (h : other.records scope s = source.records scope s) :
    other.evaluate scope s = source.evaluate scope s := by
  simp only [evaluate, evaluateValue, h]

theorem evaluate_of_no_records (h : source.records scope s = .ok []) :
    source.evaluate scope s = .ok [] := by
  simp only [evaluate, evaluateValue, h]
  rfl

theorem evaluate_of_failing {fault : StoreError} (h : source.records scope s = .error fault) :
    source.evaluate scope s = .error (.store fault) := by
  simp only [evaluate, evaluateValue, h]
  rfl

/-- The query is evaluated on the list of the records, and its result is taken as a sequence. -/
theorem evaluate_of_search {records : List Record} {value : Json}
    (h : source.records scope s = .ok records) (hne : records ≠ [])
    (hsearch : s.query.search (.arr (records.map Record.toJson)) = .ok value) :
    source.evaluate scope s = .ok (Query.sequenceOf value) := by
  have hsome : records.isEmpty = false := List.isEmpty_eq_false_iff.2 hne
  have hread : EvalError.ofStore (source.records scope s) = .ok records := by
    rw [h]
    rfl
  simp only [evaluate, evaluateValue, hread, bind, Except.bind, hsome, Bool.false_eq_true, if_false,
    hsearch]
  rfl

/-- Where the read does not fail, neither the result nor a fault of the query changes. -/
theorem evaluate_silenced_of_records {records : List Record}
    (h : source.records scope s = .ok records) :
    source.silenced.evaluate scope s = source.evaluate scope s := by
  refine evaluate_eq_of_records_eq ?_
  rw [records_silenced, h]
  rfl

theorem evaluate_silenced_of_failing {fault : StoreError}
    (h : source.records scope s = .error fault) :
    source.silenced.evaluate scope s = .ok [] := by
  refine evaluate_of_no_records ?_
  rw [records_silenced, h]
  rfl

theorem evaluate_silenced_of_ok (h : source.evaluate scope s = .ok items) :
    source.silenced.evaluate scope s = .ok items := by
  cases hrecords : source.records scope s with
  | ok records => rw [evaluate_silenced_of_records hrecords, h]
  | error fault =>
    rw [evaluate_of_failing hrecords] at h
    cases h

end ResourceGraph.Source
