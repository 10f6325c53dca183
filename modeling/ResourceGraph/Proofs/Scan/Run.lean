import ResourceGraph.Proofs.Scan.TaskPath

/-!
# Runs of a scan

A scan runs the levels of its plan in order. The tasks of a level may run at once, and nothing is
said about how their requests are mixed. To run them one after the other is one of the ways.
-/
namespace ResourceGraph

variable {σ : Type}

namespace Pipeline

/-- The tasks of operations, in order. -/
def tasksFor (settings : ScanSettings) (ops : List PlannedOperation) : List ScanTask :=
  ops.flatMap (tasksOf settings)

/-- The levels in order, up to the first with a failure. -/
inductive LevelsRun (p : Pipeline (StateM σ)) (clock : Clock) (account : String) :
    σ → Store → ScanSummary → List (List PlannedOperation) → List Event → σ → Store →
      Except StoreError ScanSummary → Prop
  | done {st : σ} {s : Store} {summary : ScanSummary} :
      LevelsRun p clock account st s summary [] [] st s (.ok summary)
  | next {st st₁ st' : σ} {s s₁ s' : Store} {summary summary₁ : ScanSummary}
      {level : List PlannedOperation} {levels : List (List PlannedOperation)}
      {trace : List (Nat × Event)} {rest : List Event}
      {outcomes : List (Except StoreError TaskOutcome)} {result : Except StoreError ScanSummary}
      (hlevel : p.Interleaved clock st s ((tasksFor p.settings level).map (p.program account))
        trace st₁ s₁ outcomes)
      (habsorb : absorbAll summary outcomes = .ok summary₁)
      (hrest : LevelsRun p clock account st₁ s₁ summary₁ levels rest st' s' result) :
      LevelsRun p clock account st s summary (level :: levels) (trace.map (·.2) ++ rest) st' s'
        result
  | failed {st st' : σ} {s s' : Store} {summary : ScanSummary} {level : List PlannedOperation}
      {levels : List (List PlannedOperation)} {trace : List (Nat × Event)}
      {outcomes : List (Except StoreError TaskOutcome)} {fault : StoreError}
      (hlevel : p.Interleaved clock st s ((tasksFor p.settings level).map (p.program account))
        trace st' s' outcomes)
      (habsorb : absorbAll summary outcomes = .error fault) :
      LevelsRun p clock account st s summary (level :: levels) (trace.map (·.2)) st' s'
        (.error fault)

theorem absorbAll_cons {summary : ScanSummary} {outcome : Except StoreError TaskOutcome}
    {outcomes : List (Except StoreError TaskOutcome)} :
    absorbAll summary (outcome :: outcomes) =
      outcome.map summary.absorb >>= fun summary => absorbAll summary outcomes :=
  List.foldlM_cons

/-- The account of a profile is scanned. -/
inductive Scans (p : Pipeline (StateM σ)) (clock : Clock) :
    σ → Store → String → List Event → σ → Store → Except ScanError ScanSummary → Prop
  | unidentified {st : σ} {s : Store} {profile : String} {fault : ProviderError}
      (hidentity : p.identity profile = .error fault) :
      Scans p clock st s profile [] st s (.error (.identity profile fault))
  | unplanned {st : σ} {s : Store} {profile account : String} {fault : ConfigError}
      (hidentity : p.identity profile = .ok account) (hplan : p.plan = .error fault) :
      Scans p clock st s profile [] st s (.error (.plan fault))
  | planned {st st' : σ} {s s' : Store} {profile account : String} {plan : Plan}
      {trace : List Event} {result : Except StoreError ScanSummary}
      {answer : Except ScanError ScanSummary} (hidentity : p.identity profile = .ok account)
      (hplan : p.plan = .ok plan)
      (hlevels : p.LevelsRun clock account st s (.empty account) plan.levels trace st' s' result)
      (hanswer : answer = result.mapError .storage) :
      Scans p clock st s profile trace st' s' answer

/-- Profiles are scanned one after the other. -/
inductive ScansAll (p : Pipeline (StateM σ)) (clock : Clock) :
    σ → Store → List String → List Event → σ → Store →
      List (String × Except ScanError ScanSummary) → Prop
  | nil {st : σ} {s : Store} : ScansAll p clock st s [] [] st s []
  | cons {st st₁ st' : σ} {s s₁ s' : Store} {profile : String} {profiles : List String}
      {trace rest : List Event} {result : Except ScanError ScanSummary}
      {results : List (String × Except ScanError ScanSummary)}
      (hscan : p.Scans clock st s profile trace st₁ s₁ result)
      (hrest : ScansAll p clock st₁ s₁ profiles rest st' s' results) :
      ScansAll p clock st s (profile :: profiles) (trace ++ rest) st' s'
        ((profile, result) :: results)

variable {p : Pipeline (StateM σ)} {account profile : String} {st st' : σ} {s s' : Store}

/-! ## One task after the other -/

theorem run_bind_of_run {α β : Type} {x : StateM σ α} {f : α → StateM σ β} {a : α} {st₁ : σ}
    (h : x.run st = (a, st₁)) : (x >>= f).run st = (f a).run st₁ := by
  rw [StateT.run_bind, h]
  rfl

theorem exists_interleaved_of_runTasks (clock : Clock) {tasks : List ScanTask}
    {outcomes : List (Except StoreError TaskOutcome)}
    (h : (p.runTasks account s tasks).run st = ((s', outcomes), st')) :
    ∃ trace, p.Interleaved clock st s (tasks.map (p.program account)) trace st' s' outcomes := by
  induction tasks generalizing st s outcomes with
  | nil =>
    cases h
    exact ⟨[], .finished rfl⟩
  | cons task tasks ih =>
    rcases htask : (p.runTask account s task).run st with ⟨⟨s₁, outcome⟩, st₁⟩
    rcases hrest : (p.runTasks account s₁ tasks).run st₁ with ⟨⟨s₂, outcomes₂⟩, st₂⟩
    rw [runTasks, run_bind_of_run htask, run_bind_of_run hrest] at h
    cases h
    obtain ⟨trace, hinterleaved⟩ := ih hrest
    rw [runTask_eq_exec] at htask
    obtain ⟨path, hpath, hreplays⟩ := Program.exists_path_of_exec clock htask
    exact ⟨_, .of_follows hpath hreplays hinterleaved.cons_done⟩

theorem exists_levelsRun_of_runLevels (clock : Clock) {summary : ScanSummary}
    {levels : List (List PlannedOperation)} {result : Except StoreError ScanSummary}
    (h : (p.runLevels account s summary levels).run st = ((s', result), st')) :
    ∃ trace, p.LevelsRun clock account st s summary levels trace st' s' result := by
  induction levels generalizing st s summary with
  | nil =>
    cases h
    exact ⟨[], .done⟩
  | cons level levels ih =>
    rcases hlevel : (p.runTasks account s (level.flatMap (tasksOf p.settings))).run st with
      ⟨⟨s₁, outcomes⟩, st₁⟩
    obtain ⟨trace, hinterleaved⟩ := exists_interleaved_of_runTasks clock hlevel
    rw [runLevels, run_bind_of_run hlevel] at h
    cases habsorb : absorbAll summary outcomes with
    | ok summary₁ =>
      simp only [habsorb] at h
      obtain ⟨rest, hrest⟩ := ih h
      exact ⟨_, .next hinterleaved habsorb hrest⟩
    | error fault =>
      simp only [habsorb] at h
      cases h
      exact ⟨_, .failed hinterleaved habsorb⟩

/-- With an account and a plan, a scan runs the levels of the plan. -/
theorem scanAccount_of_plan {m : Type → Type} [Monad m] {p : Pipeline m} {plan : Plan}
    (hidentity : p.identity profile = .ok account) (hplan : p.plan = .ok plan) :
    p.scanAccount s profile = do
      let (s, result) ← p.runLevels account s (.empty account) plan.levels
      return (s, result.mapError .storage) := by
  simp only [scanAccount, hidentity, hplan]

/-- A scan whose tasks run one after the other is a scan. -/
theorem exists_scans_of_scanAccount (clock : Clock) {answer : Except ScanError ScanSummary}
    (h : (p.scanAccount s profile).run st = ((s', answer), st')) :
    ∃ trace, p.Scans clock st s profile trace st' s' answer := by
  unfold scanAccount at h
  cases hidentity : p.identity profile with
  | error fault =>
    simp only [hidentity] at h
    cases h
    exact ⟨[], .unidentified hidentity⟩
  | ok account =>
    simp only [hidentity] at h
    cases hplan : p.plan with
    | error fault =>
      simp only [hplan] at h
      cases h
      exact ⟨[], .unplanned hidentity hplan⟩
    | ok plan =>
      rcases hlevels : (p.runLevels account s (.empty account) plan.levels).run st with
        ⟨⟨s₁, result⟩, st₁⟩
      simp only [hplan] at h
      rw [run_bind_of_run hlevels] at h
      cases h
      obtain ⟨trace, hrun⟩ := exists_levelsRun_of_runLevels clock hlevels
      exact ⟨trace, .planned hidentity hplan hrun rfl⟩

/-- What `scanAccount` does is a scan. -/
theorem scans_scanAccount (p : Pipeline (StateM σ)) (clock : Clock) (st : σ) (s : Store)
    (profile : String) : ∃ trace, p.Scans clock st s profile trace
      ((p.scanAccount s profile).run st).2 ((p.scanAccount s profile).run st).1.1
      ((p.scanAccount s profile).run st).1.2 :=
  exists_scans_of_scanAccount clock rfl

/-- The tasks of the first level run in any order, and those of the other levels one after the
other. -/
theorem exists_scans_of_first_level {clock : Clock} {st₁ : σ} {s₁ : Store} {summary : ScanSummary}
    {level : List PlannedOperation} {levels : List (List PlannedOperation)}
    {trace : List (Nat × Event)} {outcomes : List (Except StoreError TaskOutcome)}
    (hidentity : p.identity profile = .ok account) (hplan : p.plan = .ok ⟨level :: levels⟩)
    (hlevel : p.Interleaved clock st s ((tasksFor p.settings level).map (p.program account))
      trace st₁ s₁ outcomes) (habsorb : absorbAll (.empty account) outcomes = .ok summary) :
    ∃ rest, p.Scans clock st s profile (trace.map (·.2) ++ rest)
      ((p.runLevels account s₁ summary levels).run st₁).2
      ((p.runLevels account s₁ summary levels).run st₁).1.1
      (((p.runLevels account s₁ summary levels).run st₁).1.2.mapError .storage) := by
  obtain ⟨rest, hlevels⟩ := exists_levelsRun_of_runLevels clock
    (rfl : (p.runLevels account s₁ summary levels).run st₁ = _)
  exact ⟨rest, .planned hidentity hplan (.next hlevel habsorb hlevels) rfl⟩

theorem exists_scansAll_of_scanAccounts (clock : Clock) {profiles : List String}
    {results : List (String × Except ScanError ScanSummary)}
    (h : (p.scanAccounts s profiles).run st = ((s', results), st')) :
    ∃ trace, p.ScansAll clock st s profiles trace st' s' results := by
  induction profiles generalizing st s results with
  | nil =>
    cases h
    exact ⟨[], .nil⟩
  | cons profile profiles ih =>
    rcases hscan : (p.scanAccount s profile).run st with ⟨⟨s₁, result⟩, st₁⟩
    rcases hrest : (p.scanAccounts s₁ profiles).run st₁ with ⟨⟨s₂, results₂⟩, st₂⟩
    rw [scanAccounts, run_bind_of_run hscan, run_bind_of_run hrest] at h
    cases h
    obtain ⟨trace, hprofile⟩ := exists_scans_of_scanAccount clock hscan
    obtain ⟨rest, hprofiles⟩ := ih hrest
    exact ⟨_, .cons hprofile hprofiles⟩

/-- What `scanAccounts` does is a scan of all profiles. -/
theorem scansAll_scanAccounts (p : Pipeline (StateM σ)) (clock : Clock) (st : σ) (s : Store)
    (profiles : List String) : ∃ trace, p.ScansAll clock st s profiles trace
      ((p.scanAccounts s profiles).run st).2 ((p.scanAccounts s profiles).run st).1.1
      ((p.scanAccounts s profiles).run st).1.2 :=
  exists_scansAll_of_scanAccounts clock rfl

end Pipeline

end ResourceGraph
