import ResourceGraph.Proofs.Scan.Responses

/-!
# Two scans of an account

Two scans that differ in their scanners and in how their tasks are mixed. Followed are keys whose
tasks are answered alike and read such keys only: if these hold the same records before the scans,
they hold the same records after them.
-/
namespace ResourceGraph

/-- Both stores have the same records under these keys, as far as they do not hang on the clock. -/
def Store.AgreeOn (clock : Clock) (keys : Key → Prop) (s other : Store) : Prop :=
  ∀ key, keys key → (s.read key).map clock.forget = (other.read key).map clock.forget

theorem Store.AgreeOn.length_eq {clock : Clock} {keys : Key → Prop} {s other : Store} {key : Key}
    (h : s.AgreeOn clock keys other) (hkey : keys key) :
    (s.read key).length = (other.read key).length := by
  simpa using congrArg List.length (h key hkey)

namespace Pipeline

variable {σ : Type}

/-- The same scan with other scanners. -/
def withScanners {m : Type → Type} (p : Pipeline m) (scanners : List (Scanner m)) : Pipeline m :=
  { p with scanners }

/-- Operations whose tasks can be compared. What happens under the keys does not hang on anything
else, and a task under another key does not end the scan. -/
structure Alike (p : Pipeline (StateM σ)) (scanners : List (Scanner (StateM σ)))
    (first second : Responses) (clock : Clock) (account : String) (keys : Key → Prop)
    (ops : List PlannedOperation) : Prop where
  answersFirst : p.AnswersAs first
  answersSecond : (p.withScanners scanners).AnswersAs second
  registered : ∀ op ∈ ops, ((p.withScanners scanners).scanner? op.service op.operation).isSome
  untimed : clock = .running → ∀ op ∈ ops, op.IgnoresTime
  closed : ∀ task, task.op ∈ ops → keys (taskKey account task) →
    ∀ name ∈ task.op.reads, keys (readKey account task name)
  same : ∀ task, task.op ∈ ops → keys (taskKey account task) →
    first (contextOf account task) = second (contextOf account task)
  admitted : ∀ task, task.op ∈ ops →
    keys (taskKey account task) ∨ p.backend.admits (taskKey account task) = .ok ()

variable {p : Pipeline (StateM σ)} {scanners : List (Scanner (StateM σ))}
  {first second : Responses} {clock : Clock} {account : String} {keys : Key → Prop}
  {ops : List PlannedOperation} {st₁ st₁' st₂ st₂' : σ} {s₁ s₁' s₂ s₂' : Store}

namespace Alike

variable {task : ScanTask}

theorem of_subset {others : List PlannedOperation}
    (h : p.Alike scanners first second clock account keys ops) (hsub : ∀ op ∈ others, op ∈ ops) :
    p.Alike scanners first second clock account keys others where
  answersFirst := h.answersFirst
  answersSecond := h.answersSecond
  registered op hop := h.registered op (hsub op hop)
  untimed hrunning op hop := h.untimed hrunning op (hsub op hop)
  closed task hop := h.closed task (hsub _ hop)
  same task hop := h.same task (hsub _ hop)
  admitted task hop := h.admitted task (hsub _ hop)

theorem found_withScanners {calls : List Call} :
    (p.withScanners scanners).found account task calls = p.found account task calls := by
  cases calls with
  | nil => rfl
  | cons c calls => rfl

/-- A task under one of the keys finds the same in both scans. -/
theorem foundAs_eq (h : p.Alike scanners first second clock account keys ops)
    (hagree : s₁.AgreeOn clock keys s₂) (hop : task.op ∈ ops) (hkey : keys (taskKey account task)) :
    p.foundAs first (p.backend.source s₁) account task =
      (p.withScanners scanners).foundAs second (p.backend.source s₂) account task := by
  have hparameters : callParameters (p.backend.source s₁) account task =
      callParameters (p.backend.source s₂) account task :=
    callParameters_congr (fun hrunning => h.untimed hrunning _ hop)
      fun name hname => hagree _ (h.closed task hop hkey name hname)
  simp only [foundAs, attemptedAs, found_withScanners, h.same task hop hkey]
  rw [hparameters]
  rfl

theorem outcomeAs_eq (h : p.Alike scanners first second clock account keys ops)
    (hagree : s₁.AgreeOn clock keys s₂) (hop : task.op ∈ ops) (hkey : keys (taskKey account task)) :
    p.outcomeAs first s₁ account task =
      (p.withScanners scanners).outcomeAs second s₂ account task :=
  congrArg (p.backend.settle (taskKey account task)) (h.foundAs_eq hagree hop hkey)

/-- A task under another key does not fail. -/
theorem outcomeAs_eq_or (h : p.Alike scanners first second clock account keys ops)
    (hagree : s₁.AgreeOn clock keys s₂) (hop : task.op ∈ ops) :
    p.outcomeAs first s₁ account task =
        (p.withScanners scanners).outcomeAs second s₂ account task ∨
      (∃ outcome, p.outcomeAs first s₁ account task = .ok outcome) ∧
        ∃ outcome, (p.withScanners scanners).outcomeAs second s₂ account task = .ok outcome := by
  have hsettled : ∀ h : Harvest, p.backend.admits (taskKey account task) = .ok () →
      ∃ outcome, p.backend.settle (taskKey account task) h = .ok outcome := by
    intro h hadmits
    refine ⟨h.outcome, ?_⟩
    rw [Backend.settle, hadmits]
    exact ite_self _
  rcases h.admitted task hop with hkey | hadmits
  · exact .inl (h.outcomeAs_eq hagree hop hkey)
  · exact .inr ⟨hsettled _ hadmits, hsettled _ hadmits⟩

theorem leavesAs_eq (h : p.Alike scanners first second clock account keys ops)
    (hagree : s₁.AgreeOn clock keys s₂) (hop : task.op ∈ ops) {key : Key} (hkey : keys key) :
    p.leavesAs first clock s₁ account key task =
      (p.withScanners scanners).leavesAs second clock s₂ account key task := by
  unfold leavesAs
  split
  · next heq =>
    rw [h.foundAs_eq hagree hop (heq ▸ hkey)]
    rfl
  · rfl

end Alike

/-! ## One level -/

/-- The first failure is found by comparing outcomes one by one. -/
theorem absorbAll_map_eq_error_iff {tasks : List ScanTask}
    {one other : ScanTask → Except StoreError TaskOutcome} {summary summary' : ScanSummary}
    {fault : StoreError} (h : ∀ task ∈ tasks, one task = other task ∨
      (∃ outcome, one task = .ok outcome) ∧ ∃ outcome, other task = .ok outcome) :
    absorbAll summary (tasks.map one) = .error fault ↔
      absorbAll summary' (tasks.map other) = .error fault := by
  induction tasks generalizing summary summary' with
  | nil => exact iff_of_false nofun nofun
  | cons task tasks ih =>
    obtain ⟨htask, hrest⟩ := List.forall_mem_cons.1 h
    rw [List.map_cons, List.map_cons, absorbAll_cons, absorbAll_cons]
    rcases htask with heq | ⟨⟨o₁, h₁⟩, o₂, h₂⟩
    · rw [heq]
      cases other task with
      | ok outcome => exact ih hrest
      | error e => exact Iff.rfl
    · rw [h₁, h₂]
      exact ih hrest

theorem Interleaved.agreeOn {level : List PlannedOperation} {levels : List (List PlannedOperation)}
    {trace₁ trace₂ : List (Nat × Event)}
    {outcomes₁ outcomes₂ : List (Except StoreError TaskOutcome)}
    (h₁ : p.Interleaved clock st₁ s₁ ((tasksFor p.settings level).map (p.program account)) trace₁
      st₁' s₁' outcomes₁)
    (h₂ : (p.withScanners scanners).Interleaved clock st₂ s₂
      ((tasksFor p.settings level).map ((p.withScanners scanners).program account)) trace₂ st₂' s₂'
      outcomes₂)
    (hlevels : p.Runnable (level :: levels))
    (halike : p.Alike scanners first second clock account keys level)
    (hagree : s₁.AgreeOn clock keys s₂) :
    s₁'.AgreeOn clock keys s₂' ∧
      (∀ summary₁ summary₂ fault, absorbAll summary₁ outcomes₁ = .error fault ↔
        absorbAll summary₂ outcomes₂ = .error fault) ∧
      ((∀ task, task.op ∈ level → keys (taskKey account task)) → outcomes₁ = outcomes₂) := by
  have hunread : ∀ task ∈ tasksFor p.settings level, ∀ other ∈ tasksFor p.settings level,
      other.op.name ∉ task.op.reads := hlevels.unread_tasks
  have hregistered₁ : ∀ task ∈ tasksFor p.settings level,
      (p.scanner? task.op.service task.op.operation).isSome := hlevels.registered_head
  have hregistered₂ : ∀ task ∈ tasksFor p.settings level,
      ((p.withScanners scanners).scanner? task.op.service task.op.operation).isSome :=
    fun task htask => halike.registered _ (op_mem_of_mem_tasksFor htask)
  have hsame : ∀ task ∈ tasksFor p.settings level, ∀ other ∈ tasksFor p.settings level,
      taskKey account task = taskKey account other → task = other := fun task htask other hother =>
    eq_of_taskKey_eq hlevels.once_head htask hother
  rw [h₁.outcomes_eq hunread hregistered₁ halike.answersFirst,
    h₂.outcomes_eq hunread hregistered₂ halike.answersSecond]
  refine ⟨fun key hkey => ?_, fun _ _ _ => ?_, fun hall => ?_⟩
  · rw [h₁.map_forget_read_eq hunread hregistered₁ hsame halike.answersFirst,
      h₂.map_forget_read_eq hunread hregistered₂ hsame halike.answersSecond, hagree key hkey]
    congr 2
    exact List.flatMap_congr fun task htask =>
      halike.leavesAs_eq hagree (op_mem_of_mem_tasksFor htask) hkey
  · exact absorbAll_map_eq_error_iff fun task htask =>
      halike.outcomeAs_eq_or hagree (op_mem_of_mem_tasksFor htask)
  · exact List.map_congr_left fun task htask =>
      halike.outcomeAs_eq hagree (op_mem_of_mem_tasksFor htask)
        (hall task (op_mem_of_mem_tasksFor htask))

/-! ## All levels -/

theorem LevelsRun.agreeOn {summary₁ summary₂ : ScanSummary}
    {levels : List (List PlannedOperation)} {trace₁ trace₂ : List Event}
    {result₁ result₂ : Except StoreError ScanSummary}
    (h₁ : p.LevelsRun clock account st₁ s₁ summary₁ levels trace₁ st₁' s₁' result₁)
    (h₂ : (p.withScanners scanners).LevelsRun clock account st₂ s₂ summary₂ levels trace₂ st₂' s₂'
      result₂)
    (hlevels : p.Runnable levels)
    (halike : p.Alike scanners first second clock account keys levels.flatten)
    (hagree : s₁.AgreeOn clock keys s₂) :
    s₁'.AgreeOn clock keys s₂' ∧
      ((∀ task, task.op ∈ levels.flatten → keys (taskKey account task)) → summary₁ = summary₂ →
        result₁ = result₂) := by
  -- the first failures of a level agree, so that both go on to the next one or both end there
  induction h₁ generalizing st₂ s₂ summary₂ trace₂ with
  | done =>
    cases h₂
    exact ⟨hagree, fun _ hsummary => congrArg Except.ok hsummary⟩
  | @next st st₁ st₁' s s₁ s₁' summary summary₁ level levels trace rest outcomes result hlevel
      habsorb _ ih =>
    have hhead := halike.of_subset fun op hop => List.mem_append_left levels.flatten hop
    have htail := halike.of_subset fun op hop => List.mem_append_right level hop
    cases h₂ with
    | next hlevel₂ habsorb₂ hrest₂ =>
      obtain ⟨hstores, -, houtcomes⟩ := hlevel.agreeOn hlevel₂ hlevels hhead hagree
      obtain ⟨hstores, hresults⟩ := ih hrest₂ hlevels.tail htail hstores
      refine ⟨hstores, fun hall hsummary => hresults (fun task hop => ?_) ?_⟩
      · exact hall task (List.mem_append_right level hop)
      · rw [houtcomes fun task hop => hall task (List.mem_append_left _ hop), hsummary,
          habsorb₂] at habsorb
        exact (Except.ok.inj habsorb).symm
    | failed hlevel₂ habsorb₂ =>
      obtain ⟨-, hfaults, -⟩ := hlevel.agreeOn hlevel₂ hlevels hhead hagree
      have hfault := (hfaults summary summary₂ _).2 habsorb₂
      rw [habsorb] at hfault
      cases hfault
  | @failed st st₁' s s₁' summary level levels trace outcomes fault hlevel habsorb =>
    have hhead := halike.of_subset fun op hop => List.mem_append_left levels.flatten hop
    cases h₂ with
    | next hlevel₂ habsorb₂ hrest₂ =>
      obtain ⟨-, hfaults, -⟩ := hlevel.agreeOn hlevel₂ hlevels hhead hagree
      have hfault := (hfaults summary summary₂ _).1 habsorb
      rw [habsorb₂] at hfault
      cases hfault
    | failed hlevel₂ habsorb₂ =>
      obtain ⟨hstores, hfaults, -⟩ := hlevel.agreeOn hlevel₂ hlevels hhead hagree
      have hfault := (hfaults summary summary₂ _).1 habsorb
      rw [habsorb₂] at hfault
      exact ⟨hstores, fun _ _ => by rw [Except.error.inj hfault]⟩

/-! ## Whole scans -/

/-- The plan hangs on which operations have a scanner, not on what the scanners answer. -/
theorem plan_withScanners (h : ∀ service operation,
    ((p.withScanners scanners).scanner? service operation).isSome =
      (p.scanner? service operation).isSome) : (p.withScanners scanners).plan = p.plan :=
  congrArg (Plan.build p.catalog) (funext fun service => funext (h service))

theorem Scans.agreeOn {profile : String} {trace₁ trace₂ : List Event}
    {result₁ result₂ : Except ScanError ScanSummary}
    (h₁ : p.Scans clock st₁ s₁ profile trace₁ st₁' s₁' result₁)
    (h₂ : (p.withScanners scanners).Scans clock st₂ s₂ profile trace₂ st₂' s₂' result₂)
    (hregistered : ∀ service operation,
      ((p.withScanners scanners).scanner? service operation).isSome =
        (p.scanner? service operation).isSome)
    (halike : ∀ account plan, p.identity profile = .ok account → p.plan = .ok plan →
      p.Alike scanners first second clock account keys plan.levels.flatten)
    (hagree : s₁.AgreeOn clock keys s₂) :
    s₁'.AgreeOn clock keys s₂' ∧
      ((∀ account task, p.identity profile = .ok account → keys (taskKey account task)) →
        result₁ = result₂) := by
  have hplans := plan_withScanners hregistered
  cases h₁ with
  | unidentified hidentity =>
    cases h₂ with
    | unidentified hidentity' =>
      obtain rfl := Except.error.inj (hidentity.symm.trans hidentity')
      exact ⟨hagree, fun _ => rfl⟩
    | unplanned hidentity' _ => cases hidentity.symm.trans hidentity'
    | planned hidentity' _ _ _ => cases hidentity.symm.trans hidentity'
  | unplanned hidentity hplan =>
    cases h₂ with
    | unidentified hidentity' => cases hidentity.symm.trans hidentity'
    | unplanned _ hplan' =>
      obtain rfl := Except.error.inj ((hplan.symm.trans hplans.symm).trans hplan')
      exact ⟨hagree, fun _ => rfl⟩
    | planned _ hplan' _ _ => cases (hplan.symm.trans hplans.symm).trans hplan'
  | planned hidentity hplan hlevels hanswer =>
    cases h₂ with
    | unidentified hidentity' => cases hidentity.symm.trans hidentity'
    | unplanned _ hplan' => cases (hplan.symm.trans hplans.symm).trans hplan'
    | planned hidentity' hplan' hlevels' hanswer' =>
      obtain rfl := Except.ok.inj (hidentity.symm.trans hidentity')
      obtain rfl := Except.ok.inj ((hplan.symm.trans hplans.symm).trans hplan')
      obtain ⟨hstores, hresults⟩ := hlevels.agreeOn hlevels' (.of_plan hplan)
        (halike _ _ hidentity hplan) hagree
      refine ⟨hstores, fun hall => ?_⟩
      rw [hanswer, hanswer', hresults (fun task _ => hall _ task hidentity) rfl]

/-- However the tasks of each level are mixed, a scan ends with the result of the one in which they
run one after the other, and with the same records. If the clock runs, this needs parameters that do
not take the time. -/
theorem Scans.eq_scanAccount {responses : Responses} {profile : String} {st st' : σ} {s s' : Store}
    {trace : List Event} {result : Except ScanError ScanSummary}
    (h : p.Scans clock st s profile trace st' s' result) (hresponses : p.AnswersAs responses)
    (hclock : clock = .running → p.IgnoresTime) (st₀ : σ) :
    result = ((p.scanAccount s profile).run st₀).1.2 ∧
      s'.content clock = ((p.scanAccount s profile).run st₀).1.1.content clock := by
  obtain ⟨trace₀, hsequential⟩ := p.scans_scanAccount clock st₀ s profile
  have halike : ∀ account plan, p.identity profile = .ok account → p.plan = .ok plan →
      p.Alike p.scanners responses responses clock account (fun _ => True)
        plan.levels.flatten := by
    intro account plan _ hplan
    exact {
      answersFirst := hresponses
      answersSecond := hresponses
      registered := (Runnable.of_plan hplan).registered
      untimed := fun hrunning => hclock hrunning plan hplan
      closed := fun _ _ _ _ _ => trivial
      same := fun _ _ _ => rfl
      admitted := fun _ _ => .inl trivial }
  obtain ⟨hstores, hresults⟩ := h.agreeOn hsequential (fun _ _ => rfl) halike fun _ _ => rfl
  exact ⟨hresults fun _ _ _ => trivial, Store.content_eq_iff.2 fun key => hstores key trivial⟩

/-- Both ports are called for before either is written, and the clock goes on from 8 to 9. -/
theorem scans_eq_scanAccount_harbour : ∃ rest st' s' result,
    (harbour ["north", "south"] oneEach).Scans .running 0 .empty "crew"
      ((mixedPorts "north" "south").map (·.2) ++ rest) st' s' result ∧
    result = (((harbour ["north", "south"] oneEach).scanAccount .empty "crew").run 5).1.2 ∧
    s'.content .running =
      (((harbour ["north", "south"] oneEach).scanAccount .empty "crew").run 5).1.1.content
        .running := by
  obtain ⟨rest, st', s', result, hscan⟩ := exists_scans_mixedPorts "north" "south"
  exact ⟨rest, st', s', result, hscan,
    hscan.eq_scanAccount (answersAs_counting rfl) (fun _ => ignoresTime_harbour) 5⟩

/-- A parameter that takes the time. The writes of both scans are stamped at the same two times, but
not in the same order, and only the port that comes second has its ships called for. -/
theorem late_ports_follow_schedule :
    (lateHarbour oneEach).AnswersAs oneEach ∧
    ∃ rest₁ st₁ s₁ result₁ rest₂ st₂ s₂ result₂,
      (lateHarbour oneEach).Scans .running 0 .empty "crew" (portsInTurn.map (·.2) ++ rest₁)
        st₁ s₁ result₁ ∧
      (lateHarbour oneEach).Scans .running 0 .empty "crew" (portsAtOnce.map (·.2) ++ rest₂)
        st₂ s₂ result₂ ∧
      result₂ ≠ result₁ ∧ s₂.content .running ≠ s₁.content .running ∧
      result₂ ≠ (((lateHarbour oneEach).scanAccount .empty "crew").run 0).1.2 ∧
      s₂.content .running ≠
        (((lateHarbour oneEach).scanAccount .empty "crew").run 0).1.1.content .running := by
  have hidentity : (lateHarbour oneEach).identity "crew" = .ok "crew" := rfl
  have hinTurn : (lateHarbour oneEach).Interleaved .running 0 .empty
      ((tasksFor (lateHarbour oneEach).settings [ports]).map
        ((lateHarbour oneEach).program "crew")) portsInTurn 2
      ((Store.empty.withPort "north" 4102444799).withPort "south" 4102444800)
      [.ok (foundPort "north"), .ok (foundPort "south")] :=
    .step rfl .call (.call rfl) (.step rfl (.write rfl) (.write rfl)
      (.step rfl .call (.call rfl) (.step rfl (.write rfl) (.write rfl) (.finished rfl))))
  obtain ⟨rest₁, h₁⟩ := exists_scans_of_first_level hidentity plan_lateHarbour hinTurn rfl
  obtain ⟨rest₂, h₂⟩ := exists_scans_of_first_level hidentity plan_lateHarbour
    (interleaved_portsAtOnce 0 .empty) rfl
  have hships : ∀ {s other : Store}, s.content .running = other.content .running →
      (s.read ⟨"crew", "north", "Fleet", "Ships"⟩).length =
        (other.read ⟨"crew", "north", "Fleet", "Ships"⟩).length := by
    intro s other h
    have hagree : s.AgreeOn .running (fun _ => True) other :=
      fun key _ => Store.content_eq_iff.1 h key
    exact hagree.length_eq trivial
  rw [scanAccount_lateHarbour (by decide)]
  refine ⟨answersAs_counting rfl, rest₁, _, _, _, rest₂, _, _, _, h₁, h₂, fun h => ?_, fun h => ?_,
    fun h => ?_, fun h => ?_⟩
  · exact absurd (congrArg scopesOf h) (by decide +kernel)
  · exact absurd (hships h) (by decide +kernel)
  · exact absurd (congrArg scopesOf h) (by decide +kernel)
  · exact absurd (hships h) (by decide +kernel)

end Pipeline

end ResourceGraph
