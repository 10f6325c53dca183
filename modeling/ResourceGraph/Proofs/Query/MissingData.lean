import ResourceGraph.Proofs.Query.Lexing
import ResourceGraph.Proofs.Query.RowWise
import ResourceGraph.Proofs.Record.Silence

/-!
# Missing data

An expression without calls has a value on every input: a member that is missing and a value of
another kind than the expression takes apart give null. So a selector with such a query fails
exactly if the read of its records does. On null itself a path gives null, whatever conditions and
members stand in it. Literals and operators outside of these do not: they may make a value of null.
-/
namespace ResourceGraph.Query

/-- No function is called in the expression, not even in a reference. -/
inductive CallFree : Expr → Prop where
  | current : CallFree .current
  | field (name : String) : CallFree (.field name)
  | chain {first next : Expr} : CallFree first → CallFree next → CallFree (.chain first next)
  | index (i : Int) : CallFree (.index i)
  | slice (s : Slice) : CallFree (.slice s)
  | project {source each : Expr} :
      CallFree source → CallFree each → CallFree (.project source each)
  | filter {source test each : Expr} :
      CallFree source → CallFree test → CallFree each → CallFree (.filter source test each)
  | values {source : Expr} : CallFree source → CallFree (.values source)
  | flatten {source : Expr} : CallFree source → CallFree (.flatten source)
  | list {items : List Expr} : (∀ e ∈ items, CallFree e) → CallFree (.list items)
  | hash {entries : List (String × Expr)} :
      (∀ entry ∈ entries, CallFree entry.2) → CallFree (.hash entries)
  | literal (value : Json) : CallFree (.literal value)
  | not {e : Expr} : CallFree e → CallFree (.not e)
  | and {left right : Expr} : CallFree left → CallFree right → CallFree (.and left right)
  | or {left right : Expr} : CallFree left → CallFree right → CallFree (.or left right)
  | compare (op : Comparator) {left right : Expr} :
      CallFree left → CallFree right → CallFree (.compare op left right)
  | reference {e : Expr} : CallFree e → CallFree (.reference e)

/-- The expression goes into the current value member by member. Any expression without calls may be
the condition of a filter or a member of a list or a hash. -/
inductive Path : Expr → Prop where
  | current : Path .current
  | field (name : String) : Path (.field name)
  | chain {first next : Expr} : Path first → Path next → Path (.chain first next)
  | index (i : Int) : Path (.index i)
  | slice (s : Slice) : Path (.slice s)
  | project {source each : Expr} : Path source → Path each → Path (.project source each)
  | filter {source test each : Expr} :
      Path source → CallFree test → Path each → Path (.filter source test each)
  | values {source : Expr} : Path source → Path (.values source)
  | flatten {source : Expr} : Path source → Path (.flatten source)
  | list {items : List Expr} : (∀ e ∈ items, CallFree e) → Path (.list items)
  | hash {entries : List (String × Expr)} :
      (∀ entry ∈ entries, CallFree entry.2) → Path (.hash entries)

theorem Path.callFree {e : Expr} (h : Path e) : CallFree e := by
  induction h with
  | current => exact .current
  | field name => exact .field name
  | chain _ _ ihFirst ihNext => exact .chain ihFirst ihNext
  | index i => exact .index i
  | slice s => exact .slice s
  | project _ _ ihSource ihEach => exact .project ihSource ihEach
  | filter _ htest _ ihSource ihEach => exact .filter ihSource htest ihEach
  | values _ ih => exact .values ih
  | flatten _ ih => exact .flatten ih
  | list hitems => exact .list hitems
  | hash hentries => exact .hash hentries

/-! ## Every value there is -/

section Parts

variable {test each : Body} {data : Json}

theorem exists_filterItems (htest : ∀ item, ∃ value, test item = .ok value)
    (heach : ∀ item, ∃ value, each item = .ok value) (items : List Json) :
    ∃ values, filterItems test each items = .ok values := by
  induction items with
  | nil => exact ⟨[], rfl⟩
  | cons item items ih =>
    obtain ⟨passed, hpassed⟩ := htest item
    obtain ⟨value, hvalue⟩ := heach item
    obtain ⟨values, hvalues⟩ := ih
    rw [filterItems, hpassed]
    by_cases htruthy : truthy passed = true
    · exact ⟨if value.isNull then values else value :: values, by
        simp [htruthy, hvalue, hvalues, bind, Except.bind, pure, Except.pure]⟩
    · exact ⟨values, by simp [htruthy, hvalues, bind, Except.bind]⟩

theorem exists_projectItems (heach : ∀ item, ∃ value, each item = .ok value)
    (items : List Json) : ∃ values, projectItems each items = .ok values := by
  rw [projectItems_eq_filterItems]
  exact exists_filterItems (fun _ => ⟨_, rfl⟩) heach items

theorem exists_evalList {items : List Expr} (h : ∀ e ∈ items, ∃ value, eval e data = .ok value) :
    ∃ values, evalList items data = .ok values := by
  induction items with
  | nil => exact ⟨[], by rw [evalList]⟩
  | cons e items ih =>
    rw [List.forall_mem_cons] at h
    obtain ⟨value, hvalue⟩ := h.1
    obtain ⟨values, hvalues⟩ := ih h.2
    exact ⟨value :: values, by rw [evalList, hvalue, hvalues]; rfl⟩

theorem exists_evalEntries {entries : List (String × Expr)}
    (h : ∀ entry ∈ entries, ∃ value, eval entry.2 data = .ok value) :
    ∃ values, evalEntries entries data = .ok values := by
  induction entries with
  | nil => exact ⟨[], by rw [evalEntries]⟩
  | cons entry entries ih =>
    obtain ⟨key, e⟩ := entry
    rw [List.forall_mem_cons] at h
    obtain ⟨value, hvalue⟩ := h.1
    obtain ⟨values, hvalues⟩ := ih h.2
    exact ⟨(key, value) :: values, by rw [evalEntries, hvalue, hvalues]; rfl⟩

end Parts

/-- Each step takes what the one before it gave, of whatever kind that is. -/
theorem CallFree.exists_eval {e : Expr} (h : CallFree e) (data : Json) :
    ∃ value, eval e data = .ok value := by
  induction h generalizing data with
  | current => exact ⟨data, by rw [eval]⟩
  | field name => exact ⟨_, by rw [eval]⟩
  | chain _ _ ihFirst ihNext =>
    obtain ⟨value, hvalue⟩ := ihFirst data
    obtain ⟨result, hresult⟩ := ihNext value
    exact ⟨result, by rw [eval, hvalue]; exact hresult⟩
  | index i =>
    cases data with
    | arr items => exact ⟨_, by rw [eval]⟩
    | _ => exact ⟨.null, by rw [eval]; simp⟩
  | slice s =>
    cases data with
    | arr items => exact ⟨_, by rw [eval]⟩
    | _ => exact ⟨.null, by rw [eval]; simp⟩
  | @project _ each _ _ ihSource ihEach =>
    obtain ⟨value, hvalue⟩ := ihSource data
    rw [eval, hvalue]
    cases value with
    | arr items =>
      obtain ⟨values, hvalues⟩ := exists_projectItems ihEach items
      exact ⟨.arr values, by simp only [bind, Except.bind, hvalues]; rfl⟩
    | _ => exact ⟨.null, rfl⟩
  | filter _ _ _ ihSource ihTest ihEach =>
    obtain ⟨value, hvalue⟩ := ihSource data
    rw [eval, hvalue]
    cases value with
    | arr items =>
      obtain ⟨values, hvalues⟩ := exists_filterItems ihTest ihEach items
      exact ⟨.arr values, by simp only [bind, Except.bind, hvalues]; rfl⟩
    | _ => exact ⟨.null, rfl⟩
  | values _ ih =>
    obtain ⟨value, hvalue⟩ := ih data
    rw [eval, hvalue]
    cases value with
    | _ => exact ⟨_, rfl⟩
  | flatten _ ih =>
    obtain ⟨value, hvalue⟩ := ih data
    rw [eval, hvalue]
    cases value with
    | _ => exact ⟨_, rfl⟩
  | list _ ih =>
    obtain ⟨values, hvalues⟩ := exists_evalList fun e he => ih e he data
    rw [eval, hvalues]
    split
    · exact ⟨_, rfl⟩
    · exact ⟨_, rfl⟩
  | hash _ ih =>
    obtain ⟨values, hvalues⟩ := exists_evalEntries fun entry hentry => ih entry hentry data
    rw [eval, hvalues]
    split
    · exact ⟨_, rfl⟩
    · exact ⟨_, rfl⟩
  | literal value => exact ⟨value, by rw [eval]⟩
  | not _ ih =>
    obtain ⟨value, hvalue⟩ := ih data
    exact ⟨_, by rw [eval, hvalue]; rfl⟩
  | and _ _ ihLeft ihRight =>
    obtain ⟨left, hleft⟩ := ihLeft data
    rw [eval, hleft]
    by_cases htruthy : truthy left = true
    · simpa [htruthy, bind, Except.bind] using ihRight data
    · exact ⟨left, by simp [htruthy, bind, Except.bind, pure, Except.pure]⟩
  | or _ _ ihLeft ihRight =>
    obtain ⟨left, hleft⟩ := ihLeft data
    rw [eval, hleft]
    by_cases htruthy : truthy left = true
    · exact ⟨left, by simp [htruthy, bind, Except.bind, pure, Except.pure]⟩
    · simpa [htruthy, bind, Except.bind] using ihRight data
  | compare op _ _ ihLeft ihRight =>
    obtain ⟨left, hleft⟩ := ihLeft data
    obtain ⟨right, hright⟩ := ihRight data
    exact ⟨_, by rw [eval, hleft, hright]; rfl⟩
  | reference => exact ⟨.null, by rw [eval]⟩

/-- Null has no member and no element, and a path asks for one at every step. -/
theorem Path.eval_null {e : Expr} (h : Path e) : eval e .null = .ok .null := by
  induction h with
  | current => rw [eval]
  | field name => rw [eval]; rfl
  | chain _ _ ihFirst ihNext => rw [eval, ihFirst]; exact ihNext
  | index i => rw [eval]; simp
  | slice s => rw [eval]; simp
  | project _ _ ihSource _ => rw [eval, ihSource]; rfl
  | filter _ _ _ ihSource _ => rw [eval, ihSource]; rfl
  | values _ ih => rw [eval, ih]; rfl
  | flatten _ ih => rw [eval, ih]; rfl
  | list => rw [eval]; rfl
  | hash => rw [eval]; rfl

/-! ## Queries and selectors without calls -/

/-- The records that are read make a list, and on that the query has a result. -/
theorem exists_evaluate {source : Source} {scope : Scope} {s : Selector} {records : List Record}
    (hfree : CallFree s.query.expr) (hrecords : source.records scope s = .ok records) :
    ∃ values, source.evaluate scope s = .ok values := by
  cases records with
  | nil => exact ⟨[], Source.evaluate_of_no_records hrecords⟩
  | cons record records =>
    obtain ⟨value, hvalue⟩ := hfree.exists_eval (.arr ((record :: records).map Record.toJson))
    exact ⟨sequenceOf value, Source.evaluate_of_search hrecords (List.cons_ne_nil _ _) hvalue⟩

/-- A query without calls has a result on every value, and null on null if it is a path. A selector
with such a query fails exactly if the read of its records fails, and reports why it does. -/
theorem search_callFree {q : Query} (hfree : CallFree q.expr) :
    (∀ data, ∃ value, q.search data = .ok value) ∧
    (∀ (source : Source) (scope : Scope) (s : Selector), s.query = q → ∀ fault,
      source.evaluate scope s = .error fault ↔
        ∃ refusal, source.records scope s = .error refusal ∧ fault = .store refusal) ∧
    (Path q.expr → q.search .null = .ok .null) := by
  refine ⟨hfree.exists_eval, fun source scope s hs fault => ?_, Path.eval_null⟩
  cases hrecords : source.records scope s with
  | error refusal =>
    rw [Source.evaluate_of_failing hrecords]
    simp [eq_comm]
  | ok records =>
    obtain ⟨values, hvalues⟩ := exists_evaluate (hs ▸ hfree) hrecords
    simp [hvalues]

/-- Cranes that carry no more than they may, or are spare: the first of their parts, and their name
beside all they have. -/
def cranes : Query where
  source := "[?!(load > limit) || spare].\x7bhook: parts[0], rest: [name, *]\x7d"
  expr := .filter .current (.or (.not (.compare .gt (.field "load") (.field "limit")))
      (.field "spare"))
    (.hash [("hook", .chain (.field "parts") (.index 0)),
      ("rest", .list [.field "name", .project (.values .current) .current])])

theorem search_callFree_cranes :
    ofText cranes.source = .ok cranes ∧ CallFree cranes.expr ∧ Path cranes.expr ∧
      cranes.search .null = .ok .null ∧
      ∃ value, cranes.search (.arr [.null, .str "load", .obj [("load", .arr [])]]) = .ok value := by
  have hparse : ofText cranes.source = .ok cranes :=
    ofText_eq_ok_of_tokens [.filter, .not, .lparen, .identifier "load", .gt, .identifier "limit",
      .rparen, .or, .identifier "spare", .rbracket, .dot, .lbrace, .identifier "hook", .colon,
      .identifier "parts", .lbracket, .number 0, .rbracket, .comma, .identifier "rest", .colon,
      .lbracket, .identifier "name", .comma, .star, .rbracket, .rbrace] rfl rfl rfl
  have hpath : Path cranes.expr := by
    refine .filter .current (.or (.not (.compare .gt (.field _) (.field _))) (.field _)) (.hash ?_)
    simp only [List.forall_mem_cons]
    refine ⟨.chain (.field _) (.index 0), .list ?_, List.forall_mem_nil _⟩
    simp only [List.forall_mem_cons]
    exact ⟨.field _, .project (.values .current) .current, List.forall_mem_nil _⟩
  obtain ⟨htotal, -, hnull⟩ := search_callFree hpath.callFree
  exact ⟨hparse, hpath.callFree, hpath, hnull hpath, htotal _⟩

end ResourceGraph.Query
