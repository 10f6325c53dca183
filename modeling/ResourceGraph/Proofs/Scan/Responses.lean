import ResourceGraph.Proofs.Scan.Level

/-!
# Scanners without a memory

Scanners whose answers depend on the context, the parameters and the attempt, and on nothing that
happened before. What a task finds is then given by the records that its parameters read.
-/
namespace ResourceGraph

/-- What a call is answered with, by context, parameters and the attempts before it. -/
abbrev Responses := ScanContext → Option Fields → Nat → Except ProviderError (List Json)

variable {σ : Type}

/-! ## Calls -/

/-- A call whose answers do not hang on the state ends as it does without a state. -/
theorem RetryPolicy.run_attempt {α : Type} {c : Classifier}
    {call : Nat → StateM σ (Except ProviderError α)} {answers : Nat → Except ProviderError α}
    (hcall : ∀ n st, ((call n).run st).1 = answers n) {retries more : Nat} {st : σ} :
    ((attempt c call retries more).run st).1 = attempt (m := Id) c answers retries more := by
  induction more generalizing retries st with
  | zero =>
    have hrun : (call retries).run st = (answers retries, _) := Prod.ext (hcall retries st) rfl
    rw [attempt, Pipeline.run_bind_of_run hrun, attempt]
    cases answers retries with
    | ok value => rfl
    | error e => rfl
  | succ more ih =>
    have hrun : (call retries).run st = (answers retries, _) := Prod.ext (hcall retries st) rfl
    rw [attempt, Pipeline.run_bind_of_run hrun, attempt]
    cases answers retries with
    | ok value => rfl
    | error e =>
      change _ = if c.classify e = .retryable then attempt (m := Id) c answers (retries + 1) more
        else ⟨.error (c.classify e, e), retries⟩
      by_cases hretryable : c.classify e = .retryable
      · simp only [if_pos hretryable]
        exact ih
      · simp only [if_neg hretryable]
        rfl

namespace Pipeline

/-- The scanners answer so, whatever they were asked before. -/
def AnswersAs (p : Pipeline (StateM σ)) (responses : Responses) : Prop :=
  ∀ context scanner, p.scanner? context.service context.operation = some scanner →
    ∀ parameters before st,
      ((scanner.scan context parameters before).run st).1 = responses context parameters before

/-- What a call comes to after all its attempts. -/
def attemptedAs (settings : ScanSettings) (responses : Responses) (context : ScanContext)
    (parameters : Option Fields) : Attempted (List Json) :=
  (RetryPolicy.ofSettings settings.retry).run (m := Id) (.ofSettings settings) fun before =>
    responses context parameters before

theorem AnswersAs.run_answer {p : Pipeline (StateM σ)} {responses : Responses}
    (h : p.AnswersAs responses) {context : ScanContext}
    (hscanner : (p.scanner? context.service context.operation).isSome)
    {parameters : Option Fields} {st : σ} :
    ((p.answer context parameters).run st).1 =
      attemptedAs p.settings responses context parameters := by
  obtain ⟨scanner, hscanner⟩ := Option.isSome_iff_exists.1 hscanner
  rw [answer, hscanner]
  exact RetryPolicy.run_attempt fun before st => h context scanner hscanner parameters before st

/-- A scanner that answers so, and counts its calls. -/
def counting (responses : Responses) (name : String × String) : Scanner (StateM Nat) where
  service := name.1
  operation := name.2
  scan context parameters before := fun calls => (responses context parameters before, calls + 1)

theorem answersAs_counting {p : Pipeline (StateM Nat)} {responses : Responses}
    {names : List (String × String)} (h : p.scanners = names.map (counting responses)) :
    p.AnswersAs responses := by
  intro context scanner hscanner parameters before calls
  have hmem : scanner ∈ names.map (counting responses) := h ▸ List.mem_of_find?_eq_some hscanner
  obtain ⟨name, -, rfl⟩ := List.mem_map.1 hmem
  rfl

theorem isSome_scanner?_counting {p : Pipeline (StateM Nat)} {responses : Responses}
    {names : List (String × String)} (h : p.scanners = names.map (counting responses))
    (service operation : String) : (p.scanner? service operation).isSome =
      names.any fun name => name.1 = service && name.2 = operation := by
  rw [scanner?, h, List.find?_map, Option.isSome_map, List.isSome_find?]
  rfl

end Pipeline

/-! ## Parameters -/

/-- The times on records make no difference to the query. -/
def Selector.IgnoresTime (s : Selector) : Prop :=
  ∀ records others : List Record,
    records.map Clock.running.forget = others.map Clock.running.forget →
    s.query.search (.arr (records.map Record.toJson)) =
      s.query.search (.arr (others.map Record.toJson))

/-- No parameter takes a value from the times on records. -/
def PlannedOperation.IgnoresTime (op : PlannedOperation) : Prop :=
  ∀ q ∈ op.parameters, ∀ s, q.source = .selector s → s.IgnoresTime

/-- No parameter of a planned operation takes a value from the times on records. -/
def Pipeline.IgnoresTime {m : Type → Type} (p : Pipeline m) : Prop :=
  ∀ plan, p.plan = .ok plan → ∀ op ∈ plan.levels.flatten, op.IgnoresTime

section Congruence

variable {clock : Clock} {b : Backend} {s₁ s₂ : Store} {account region : String}

theorem Selector.search_congr {s : Selector} {records others : List Record}
    (hclock : clock = .running → s.IgnoresTime)
    (h : records.map clock.forget = others.map clock.forget) :
    s.query.search (.arr (records.map Record.toJson)) =
      s.query.search (.arr (others.map Record.toJson)) := by
  cases clock with
  | still =>
    rw [Clock.map_forget_still, Clock.map_forget_still] at h
    rw [h]
  | running => exact hclock rfl records others h

theorem Source.evaluate_congr {s : Selector} (hclock : clock = .running → s.IgnoresTime)
    (h : (s₁.read ⟨account, region, s.service, s.operation⟩).map clock.forget =
      (s₂.read ⟨account, region, s.service, s.operation⟩).map clock.forget) :
    (b.source s₁).evaluate (.place account region) s =
      (b.source s₂).evaluate (.place account region) s := by
  have hempty : (s₁.read ⟨account, region, s.service, s.operation⟩).isEmpty =
      (s₂.read ⟨account, region, s.service, s.operation⟩).isEmpty := by
    rw [← List.isEmpty_map, h, List.isEmpty_map]
  have hrecords : ∀ store : Store, (b.source store).records (.place account region) s =
      Backend.guarded (b.refusesScoped ⟨account, region, s.service, s.operation⟩)
        (store.read ⟨account, region, s.service, s.operation⟩) := fun _ => rfl
  have hsearch := Selector.search_congr hclock h
  simp only [Source.evaluate, Source.evaluateValue, hrecords]
  cases b.refusesScoped ⟨account, region, s.service, s.operation⟩ with
  | some fault => rfl
  | none =>
    simp only [Backend.guarded, EvalError.ofStore, Except.mapError, bind, Except.bind, hempty,
      hsearch]

theorem Parameter.extend_congr {q : Parameter} {objects : List Fields}
    (hclock : clock = .running → ∀ s, q.source = .selector s → s.IgnoresTime)
    (h : ∀ name, q.dependsOn? = some name →
      (s₁.read ⟨account, region, name.1, name.2⟩).map clock.forget =
        (s₂.read ⟨account, region, name.1, name.2⟩).map clock.forget) :
    extend (b.source s₁) (.place account region) objects q =
      extend (b.source s₂) (.place account region) objects q := by
  obtain ⟨key, s | v⟩ := q
  · have hevaluate : (b.source s₁).evaluate (.place account region) s =
        (b.source s₂).evaluate (.place account region) s :=
      Source.evaluate_congr (fun hrunning => hclock hrunning s rfl) (h _ rfl)
    simp only [extend, hevaluate]
  · rfl

/-- A task makes the same calls wherever its parameters read the same. -/
theorem Pipeline.callParameters_congr {task : ScanTask}
    (hclock : clock = .running → task.op.IgnoresTime)
    (h : ∀ name ∈ task.op.reads, (s₁.read (readKey account task name)).map clock.forget =
      (s₂.read (readKey account task name)).map clock.forget) :
    callParameters (b.source s₁) account task = callParameters (b.source s₂) account task := by
  have hfold : ∀ {parameters : List Parameter}, (∀ q ∈ parameters, q ∈ task.op.parameters) →
      ∀ objects, parameters.foldlM (Parameter.extend (b.source s₁) (.place account task.region))
          objects =
        parameters.foldlM (Parameter.extend (b.source s₂) (.place account task.region))
          objects := by
    intro parameters hmem
    induction parameters with
    | nil => exact fun _ => rfl
    | cons q parameters ih =>
      obtain ⟨hq, hrest⟩ := List.forall_mem_cons.1 hmem
      intro objects
      rw [List.foldlM_cons, List.foldlM_cons, funext (ih hrest), Parameter.extend_congr]
      · exact fun hrunning s => hclock hrunning q hq s
      · exact fun name hname => h name (List.mem_filterMap.2 ⟨q, hq, hname⟩)
  rw [callParameters_eq, callParameters_eq, hfold fun _ => id]

end Congruence

/-! ## Tasks -/

namespace Pipeline

/-- What a task finds if its calls are answered so. -/
def foundAs {m : Type → Type} [Monad m] (p : Pipeline m) (responses : Responses) (source : Source)
    (account : String) (task : ScanTask) : Harvest :=
  p.found account task ((callParameters source account task).map fun parameters =>
    ⟨parameters, attemptedAs p.settings responses (contextOf account task) parameters⟩)

/-- What comes of a task if its calls are answered so. -/
def outcomeAs {m : Type → Type} [Monad m] (p : Pipeline m) (responses : Responses) (s : Store)
    (account : String) (task : ScanTask) : Except StoreError TaskOutcome :=
  p.backend.settle (taskKey account task)
    (p.foundAs responses (p.backend.source s) account task)

/-- What a task leaves under a key, as far as it does not hang on the clock. -/
def leavesAs {m : Type → Type} [Monad m] (p : Pipeline m) (responses : Responses) (clock : Clock)
    (s : Store) (account : String) (key : Key) (task : ScanTask) : List (List Record) :=
  if taskKey account task = key then
    (p.backend.kept key (p.foundAs responses (p.backend.source s) account task)).map
      (·.map clock.forget)
  else []

namespace Interleaved

variable {p : Pipeline (StateM σ)} {clock : Clock} {st st' : σ} {s s' : Store} {account : String}
  {tasks : List ScanTask} {trace : List (Nat × Event)}
  {outcomes : List (Except StoreError TaskOutcome)} {responses : Responses}

theorem Parts.found_eq {runs : List TaskRun} {run : TaskRun}
    (h : Parts p clock account tasks trace outcomes runs)
    (hreplays : p.Replays st s (trace.map (·.2)) st' s')
    (hunread : ∀ task ∈ tasks, ∀ other ∈ tasks, other.op.name ∉ task.op.reads)
    (hregistered : ∀ task ∈ tasks, (p.scanner? task.op.service task.op.operation).isSome)
    (hresponses : p.AnswersAs responses) (hrun : run ∈ runs) :
    p.found account run.task run.calls =
      p.foundAs responses (p.backend.source s) account run.task := by
  have hattempted : ∀ c ∈ run.calls, c = ⟨c.parameters,
      attemptedAs p.settings responses (contextOf account run.task) c.parameters⟩ := by
    intro c hc
    have hmem := h.mem_trace hrun ((h.performed run hrun).mem_calls_iff.1 hc)
    obtain ⟨before, after, hanswer⟩ := hreplays.call_answer _ _ hmem
    have hresponse : ((p.answer (contextOf account run.task) c.parameters).run before).1 = _ :=
      hresponses.run_answer (hregistered _ (h.task_mem hrun))
    rw [hanswer] at hresponse
    rw [← hresponse]
  rw [foundAs, ← h.calls_parameters hreplays hunread hrun, List.map_map]
  congr 1
  exact (List.map_id run.calls).symm.trans (List.map_congr_left hattempted)

/-- The outcomes of a level do not hang on how its tasks are mixed. -/
theorem outcomes_eq
    (h : p.Interleaved clock st s (tasks.map (p.program account)) trace st' s' outcomes)
    (hunread : ∀ task ∈ tasks, ∀ other ∈ tasks, other.op.name ∉ task.op.reads)
    (hregistered : ∀ task ∈ tasks, (p.scanner? task.op.service task.op.operation).isSome)
    (hresponses : p.AnswersAs responses) :
    outcomes = tasks.map (p.outcomeAs responses s account) := by
  obtain ⟨runs, hparts⟩ := h.exists_parts hregistered
  rw [← hparts.outcome, ← hparts.task, List.map_map]
  refine List.map_congr_left fun run hrun => ?_
  rw [hparts.outcome_eq h.replays hrun,
    hparts.found_eq h.replays hunread hregistered hresponses hrun]
  rfl

theorem eq_of_mem_leavesAs {task : ScanTask} {key : Key} {records : List Record}
    (h : records ∈ p.leavesAs responses clock s account key task) :
    taskKey account task = key ∧ records =
      (p.foundAs responses (p.backend.source s) account task).records.map clock.forget := by
  unfold leavesAs Backend.kept at h
  split at h
  · next hkey =>
    split at h
    · cases h
    · exact ⟨hkey, List.mem_singleton.1 h⟩
  · cases h

/-- Neither do the records that it leaves. Tasks of the same key, if there are any, leave the same,
so that their order makes no difference. -/
theorem map_forget_read_eq
    (h : p.Interleaved clock st s (tasks.map (p.program account)) trace st' s' outcomes)
    (hunread : ∀ task ∈ tasks, ∀ other ∈ tasks, other.op.name ∉ task.op.reads)
    (hregistered : ∀ task ∈ tasks, (p.scanner? task.op.service task.op.operation).isSome)
    (hsame : ∀ task ∈ tasks, ∀ other ∈ tasks, taskKey account task = taskKey account other →
      task = other)
    (hresponses : p.AnswersAs responses) (key : Key) :
    (s'.read key).map clock.forget = (s.read key).map clock.forget ++
      (tasks.flatMap (p.leavesAs responses clock s account key)).flatten := by
  obtain ⟨runs, hparts⟩ := h.exists_parts hregistered
  have hperm : (((trace.map (·.2)).filterMap (Event.storedUnder? key)).map
      (·.map clock.forget)).Perm (tasks.flatMap (p.leavesAs responses clock s account key)) := by
    refine ((hparts.perm.filterMap _).map _).trans (.of_eq ?_)
    rw [← hparts.task, List.flatMap_map, List.filterMap_flatMap, List.map_flatMap]
    refine List.flatMap_congr fun run hrun => ?_
    rw [hparts.stored_eq h.replays hrun,
      hparts.found_eq h.replays hunread hregistered hresponses hrun, leavesAs]
    split
    · next hkey => rw [hkey]
    · rfl
  -- a permutation of equal lists is the same list
  have hequal : ∀ xs ∈ tasks.flatMap (p.leavesAs responses clock s account key),
      ∀ ys ∈ tasks.flatMap (p.leavesAs responses clock s account key), xs = ys := by
    intro xs hxs ys hys
    obtain ⟨task, htask, hxs⟩ := List.mem_flatMap.1 hxs
    obtain ⟨other, hother, hys⟩ := List.mem_flatMap.1 hys
    obtain ⟨hkey, rfl⟩ := eq_of_mem_leavesAs hxs
    obtain ⟨hkey', rfl⟩ := eq_of_mem_leavesAs hys
    rw [hsame task htask other hother (hkey.trans hkey'.symm)]
  have hpairs : (tasks.flatMap (p.leavesAs responses clock s account key)).Pairwise (· = ·) :=
    List.pairwise_of_forall_mem_list hequal
  have heq := hperm.eq_of_pairwise (fun _ _ _ _ hab _ => hab)
    (hperm.symm.pairwise hpairs Eq.symm) hpairs
  rw [h.replays.read_eq, List.map_append, List.map_flatten, heq]

end Interleaved

end Pipeline

/-! ## A harbour -/

/-- The selector `Fleet|Ports|[*].result`. -/
def portResults : Selector :=
  ⟨"Fleet", "Ports", ⟨"[*].result", .project .current (.field "result")⟩⟩

/-- Ports, and the ships in each port. -/
def harbours : Catalog where
  services := [{ Plan.fleet [] with operations :=
    [⟨"Ships", [⟨"port", .selector portResults⟩]⟩, ⟨"Ports", []⟩] }]
  distinct := by decide

def ports : PlannedOperation := ⟨"fleet", "Fleet", "Ports", false, []⟩

def ships : PlannedOperation :=
  ⟨"fleet", "Fleet", "Ships", false, [⟨"port", .selector portResults⟩]⟩

/-- A port and a ship in each region. -/
def oneEach : Responses := fun context parameters _ =>
  .ok [.obj (("of", .str context.region) :: parameters.getD [])]

/-- The same, but in the south no ports are found. -/
def southDown : Responses := fun context parameters before =>
  if (context.service, context.operation) = ("Fleet", "Ports") ∧ context.region = "south" then
    .error ⟨"Storm", ""⟩
  else oneEach context parameters before

theorem down_or_oneEach_eq_southDown (context : ScanContext) :
    (context.service, context.operation) = ("Fleet", "Ports") ∧ context.region = "south" ∨
      oneEach context = southDown context := by
  by_cases hdown : (context.service, context.operation) = ("Fleet", "Ports") ∧
      context.region = "south"
  · exact .inl hdown
  · refine .inr (funext fun parameters => funext fun before => ?_)
    rw [southDown, if_neg hdown]

/-- Every profile but the ghost's is its own account. -/
def harbour (regions : List String) (responses : Responses) : Pipeline (StateM Nat) where
  catalog := harbours
  backend := .reliable
  identity profile := if profile = "ghost" then .error ⟨"NoAccount", "ghost"⟩ else .ok profile
  scanners := [("Fleet", "Ports"), ("Fleet", "Ships")].map (Pipeline.counting responses)
  settings := { ScanSettings.standard with regions := regions }
  now := 7

theorem plan_harbour {regions : List String} {responses : Responses} :
    (harbour regions responses).plan = .ok ⟨[[ports], [ships]]⟩ := by
  cbv

theorem scanAccount_harbour {regions : List String} {responses : Responses} {s : Store} :
    (harbour regions responses).scanAccount s "crew" = do
      let (s, result) ← (harbour regions responses).runLevels "crew" s (.empty "crew")
        [[ports], [ships]]
      return (s, result.mapError .storage) :=
  Pipeline.scanAccount_of_plan rfl plan_harbour

theorem projectItems_result (records : List Record) :
    Query.projectItems (Query.eval (.field "result")) (records.map Record.toJson) =
      Query.projectItems .ok (records.map (·.result)) := by
  induction records with
  | nil => rfl
  | cons r records ih =>
    have hresult : Query.eval (.field "result") r.toJson = .ok r.result := rfl
    rw [List.map_cons, List.map_cons, Query.projectItems, Query.projectItems, hresult, ih]

theorem ignoresTime_portResults : portResults.IgnoresTime := by
  intro records others h
  have hresults : records.map (·.result) = others.map (·.result) := by
    have hmap := congrArg (List.map (·.result)) h
    rw [List.map_map, List.map_map] at hmap
    exact hmap
  have hsearch : ∀ records : List Record, portResults.query.search
      (.arr (records.map Record.toJson)) = Json.arr <$>
        Query.projectItems (Query.eval (.field "result")) (records.map Record.toJson) := by
    intro records
    rfl
  rw [hsearch, hsearch, projectItems_result, projectItems_result, hresults]

theorem ignoresTime_harbour {regions : List String} {responses : Responses} :
    (harbour regions responses).IgnoresTime := by
  intro plan hplan op hop q hq s hs
  obtain rfl := Except.ok.inj (plan_harbour.symm.trans hplan)
  rcases List.mem_pair.1 hop with rfl | rfl
  · cases hq
  · obtain rfl := List.mem_singleton.1 hq
    obtain rfl := ParameterSource.selector.inj hs
    exact ignoresTime_portResults

def portsCall (region : String) : Event :=
  .call ⟨"crew", region, "Fleet", "Ports"⟩ ⟨none, ⟨.ok [.obj [("of", .str region)]], 0⟩⟩

def portsWrite (region : String) (time : Nat) : Event :=
  .write ⟨⟨"crew", region, "Fleet", "Ports"⟩,
    [⟨⟨"crew", region, time⟩, [], .obj [("of", .str region)]⟩], .ok ()⟩

/-- Ports are called for in both regions before those of either are written, the second first. -/
def mixedPorts (first second : String) : List (Nat × Event) :=
  [(0, portsCall first), (1, portsCall second), (1, portsWrite second 8), (0, portsWrite first 9)]

theorem exists_scans_mixedPorts (first second : String) : ∃ rest st' s' result,
    (harbour [first, second] oneEach).Scans .running 0 .empty "crew"
      ((mixedPorts first second).map (·.2) ++ rest) st' s' result := by
  obtain ⟨st₁, s₁, o₁, o₂, hlevel⟩ : ∃ st₁ s₁ o₁ o₂,
      (harbour [first, second] oneEach).Interleaved .running 0 .empty
        ((Pipeline.tasksFor (harbour [first, second] oneEach).settings [ports]).map
          ((harbour [first, second] oneEach).program "crew"))
        (mixedPorts first second) st₁ s₁ [.ok o₁, .ok o₂] :=
    ⟨_, _, _, _, .step rfl .call (.call rfl) (.step rfl .call (.call rfl)
      (.step rfl (.write rfl) (.write rfl) (.step rfl (.write rfl) (.write rfl) (.finished rfl))))⟩
  have hidentity : (harbour [first, second] oneEach).identity "crew" = .ok "crew" := rfl
  obtain ⟨rest, hscan⟩ := Pipeline.exists_scans_of_first_level hidentity plan_harbour hlevel rfl
  exact ⟨rest, _, _, _, hscan⟩

/-! ## A harbour before midnight -/

/-- The selector ``Fleet|Ports|[?metadata.timestamp >= `4102444800`].result``: the ports found from
the year 2100 on. -/
def latePorts : Selector :=
  ⟨"Fleet", "Ports", ⟨"[?metadata.timestamp >= `4102444800`].result",
    .filter .current (.compare .ge (.chain (.field "metadata") (.field "timestamp"))
      (.literal (.ofInt 4102444800))) (.field "result")⟩⟩

/-- Ports, and the ships in each late port. -/
def lateHarbours : Catalog where
  services := [{ Plan.fleet [] with operations :=
    [⟨"Ships", [⟨"port", .selector latePorts⟩]⟩, ⟨"Ports", []⟩] }]
  distinct := by decide

def lateShips : PlannedOperation :=
  ⟨"fleet", "Fleet", "Ships", false, [⟨"port", .selector latePorts⟩]⟩

/-- The last second before the year 2100. -/
def lateHarbour (responses : Responses) : Pipeline (StateM Nat) :=
  { harbour ["north", "south"] responses with catalog := lateHarbours, now := 4102444799 }

theorem plan_lateHarbour {responses : Responses} :
    (lateHarbour responses).plan = .ok ⟨[[ports], [lateShips]]⟩ := by
  cbv

theorem scanAccount_lateHarbour {responses : Responses} {s : Store} {profile : String}
    (hprofile : profile ≠ "ghost") : (lateHarbour responses).scanAccount s profile = do
      let (s, result) ← (lateHarbour responses).runLevels profile s (.empty profile)
        [[ports], [lateShips]]
      return (s, result.mapError .storage) :=
  Pipeline.scanAccount_of_plan (if_neg hprofile) plan_lateHarbour

/-- The ports of one region are found before midnight, and then those of the other after it. -/
def portsInTurn : List (Nat × Event) :=
  [(0, portsCall "north"), (0, portsWrite "north" 4102444799),
    (1, portsCall "south"), (1, portsWrite "south" 4102444800)]

/-- They are called for at once, and found in the other order at the same times. -/
def portsAtOnce : List (Nat × Event) :=
  [(0, portsCall "north"), (1, portsCall "south"),
    (1, portsWrite "south" 4102444799), (0, portsWrite "north" 4102444800)]

def foundPort (region : String) : TaskOutcome := ⟨region ++ "/Fleet|Ports", 1, 1, 0, 0, 0, false⟩

/-- The store with the port of a region, found at a time. -/
def Store.withPort (s : Store) (region : String) (time : Nat) : Store :=
  s.write ⟨"crew", region, "Fleet", "Ports"⟩
    [⟨⟨"crew", region, time⟩, [], .obj [("of", .str region)]⟩]

theorem interleaved_portsAtOnce (st : Nat) (s : Store) :
    (lateHarbour oneEach).Interleaved .running st s
      ((Pipeline.tasksFor (lateHarbour oneEach).settings [ports]).map
        ((lateHarbour oneEach).program "crew")) portsAtOnce (st + 2)
      ((s.withPort "south" 4102444799).withPort "north" 4102444800)
      [.ok (foundPort "north"), .ok (foundPort "south")] :=
  .step rfl .call (.call rfl) (.step rfl .call (.call rfl)
    (.step rfl (.write rfl) (.write rfl) (.step rfl (.write rfl) (.write rfl) (.finished rfl))))

/-- The records that a scan has for each region and operation. -/
def Pipeline.scopesOf (result : Except ScanError ScanSummary) : Option (List (String × Nat)) :=
  result.toOption.map (·.perScope)

end ResourceGraph
