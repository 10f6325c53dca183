import ResourceGraph.Generator.Container
import ResourceGraph.Proofs.Graph.RoleEdges
import ResourceGraph.Proofs.Json.Fields

/-!
# Joins through a third resource

A load balancer is related to the services behind its target groups, and a role to the services and
tasks that run its task definition. Both relations are stated on the items that the selectors find,
wherever these were recorded, and what is generated is exactly the pairs they hold of. A text that
names something must not be empty: an empty one is read as if the field were not there.
-/
namespace ResourceGraph

namespace Ordered

variable {κ : Type} [LT κ] [DecidableLT κ] [DecidableEq κ] {keys : List κ} {k : κ}

theorem mem_ofList : k ∈ ofList keys ↔ k ∈ keys :=
  mem_insertAll.trans (or_iff_left List.not_mem_nil)

theorem ascending_ofList [Std.Trichotomous (· < · : κ → κ → Prop)]
    [Trans (· < · : κ → κ → Prop) (· < ·) (· < ·)] : Ascending (ofList keys) :=
  ascending_insertAll List.Pairwise.nil

end Ordered

namespace RoleBinding

instance : Trans (· < · : RoleBinding → RoleBinding → Prop) (· < ·) (· < ·) :=
  ⟨fun {a b c} => Std.lt_trans (a := a.parts) (b := b.parts) (c := c.parts)⟩

theorem eq_of_parts_eq {a b : RoleBinding} (h : a.parts = b.parts) : a = b := by
  cases a
  cases b
  simpa [parts] using h

instance : Std.Trichotomous (· < · : RoleBinding → RoleBinding → Prop) :=
  ⟨fun a b hab hba => eq_of_parts_eq
    (((Std.lt_trichotomy a.parts b.parts).resolve_left hab).resolve_right hba)⟩

end RoleBinding

variable {entries : List (String × List String)} {key text : String}

theorem mem_textsUnder_iff :
    text ∈ textsUnder entries key ↔ ∃ e ∈ entries, e.1 = key ∧ text ∈ e.2 := by
  simp only [textsUnder, List.mem_flatMap, List.mem_filter, decide_eq_true_eq, and_assoc]

/-! ## Load balancers of services -/

namespace BalancerSelectors

variable {read : Json → String → Option String} {groups : List Json} {service : Json}
  {balancer : String}

/-- The load balancer is one of a target group of the service. -/
def Joined (read : Json → String → Option String) (groups : List Json) (service : Json)
    (balancer : String) : Prop :=
  ∃ group ∈ groups, ∃ arn, read group "arn" = some arn ∧ arn ∈ service.textList "targetGroups" ∧
    balancer ∈ group.textList "loadBalancers"

/-- The edges of a service with an id: from each load balancer that is joined to it, in ascending
order. -/
def EdgesTo (read : Json → String → Option String) (groups : List Json) (service : Json)
    (edges : List Edge) : Prop :=
  match service.textField? "id" with
  | some id => ∃ balancers, Ordered.Ascending balancers ∧
      (∀ balancer, balancer ∈ balancers ↔ Joined read groups service balancer) ∧
      edges = balancers.map fun balancer => Edge.between balancer id "target-group"
  | none => edges = []

theorem mem_flatMap_textsUnder_iff :
    balancer ∈ (service.textList "targetGroups").flatMap (textsUnder (balancersByGroup groups)) ↔
      Joined Json.textField? groups service balancer := by
  simp only [List.mem_flatMap, mem_textsUnder_iff, balancersByGroup, List.mem_filterMap,
    Option.map_eq_some_iff]
  constructor
  · intro h
    obtain ⟨_, harn, _, ⟨group, hgroup, arn, hread, rfl⟩, rfl, hbalancer⟩ := h
    exact ⟨group, hgroup, arn, hread, harn, hbalancer⟩
  · intro h
    obtain ⟨group, hgroup, arn, hread, harn, hbalancer⟩ := h
    exact ⟨arn, harn, _, ⟨group, hgroup, arn, hread, rfl⟩, rfl, hbalancer⟩

theorem edgesTo_edgesOf :
    EdgesTo Json.textField? groups service (edgesOf (balancersByGroup groups) service) := by
  unfold EdgesTo edgesOf
  cases service.textField? "id" with
  | none => rfl
  | some id =>
    refine ⟨_, Ordered.ascending_ofList, fun balancer => ?_, rfl⟩
    rw [Ordered.mem_ofList, mem_flatMap_textsUnder_iff]

/-- Without services the target groups are not asked for. -/
theorem generate_eq {s : BalancerSelectors} {ctx : GeneratorContext} {services : List Json}
    (hservices : ctx.evaluate s.services = .ok services)
    (hgroups : ctx.evaluate s.targetGroups = .ok groups) :
    s.generate ctx = .ok ⟨services.flatMap (edgesOf (balancersByGroup groups)), []⟩ := by
  unfold generate
  rw [hservices, hgroups]
  cases services with
  | nil => rfl
  | cons service services => rfl

end BalancerSelectors

/-! ## Roles of services and tasks -/

namespace TaskRoleSelectors

variable {read : Json → String → Option String} {definitions executors : List Json}
  {binding : RoleBinding}

/-- The role is one of the two of a task definition that the executor runs. -/
def Joined (read : Json → String → Option String) (definitions executors : List Json)
    (binding : RoleBinding) : Prop :=
  ∃ executor ∈ executors, ∃ definition ∈ definitions, ∃ arn,
    read executor "id" = some binding.executor ∧ read executor "taskDefinition" = some arn ∧
    read definition "arn" = some arn ∧
    (read definition "taskRoleArn" = some binding.roleArn ∨
      read definition "executionRoleArn" = some binding.roleArn)

theorem mem_textsUnder_rolesByDefinition_iff {arn role : String} :
    role ∈ textsUnder (rolesByDefinition definitions) arn ↔ ∃ definition ∈ definitions,
      definition.textField? "arn" = some arn ∧
      (definition.textField? "taskRoleArn" = some role ∨
        definition.textField? "executionRoleArn" = some role) := by
  have hroles : ∀ definition : Json,
      role ∈ ["taskRoleArn", "executionRoleArn"].filterMap definition.textField? ↔
        definition.textField? "taskRoleArn" = some role ∨
          definition.textField? "executionRoleArn" = some role := by
    simp [List.mem_filterMap]
  simp only [mem_textsUnder_iff, rolesByDefinition, List.mem_filterMap, Option.map_eq_some_iff]
  constructor
  · intro h
    obtain ⟨_, ⟨definition, hdefinition, arn, hread, rfl⟩, rfl, hrole⟩ := h
    exact ⟨definition, hdefinition, hread, (hroles definition).1 hrole⟩
  · intro h
    obtain ⟨definition, hdefinition, hread, hrole⟩ := h
    exact ⟨_, ⟨definition, hdefinition, arn, hread, rfl⟩, rfl, (hroles definition).2 hrole⟩

theorem mem_bindingsOf_iff {executor : Json} : binding ∈ bindingsOf entries executor ↔
    ∃ arn, executor.textField? "id" = some binding.executor ∧
      executor.textField? "taskDefinition" = some arn ∧
      binding.roleArn ∈ textsUnder entries arn := by
  unfold bindingsOf
  cases executor.textField? "id" with
  | none => simp
  | some id =>
    cases executor.textField? "taskDefinition" with
    | none => simp
    | some arn =>
      simp only [List.mem_map, Option.some.injEq]
      constructor
      · intro h
        obtain ⟨role, hrole, rfl⟩ := h
        exact ⟨arn, rfl, rfl, hrole⟩
      · intro h
        obtain ⟨_, rfl, rfl, hrole⟩ := h
        exact ⟨binding.roleArn, hrole, rfl⟩

theorem mem_flatMap_bindingsOf_iff :
    binding ∈ executors.flatMap (bindingsOf (rolesByDefinition definitions)) ↔
      Joined Json.textField? definitions executors binding := by
  simp only [List.mem_flatMap, mem_bindingsOf_iff, mem_textsUnder_rolesByDefinition_iff]
  constructor
  · intro h
    obtain ⟨executor, hexecutor, arn, hid, hrun, definition, hdefinition, harn, hrole⟩ := h
    exact ⟨executor, hexecutor, definition, hdefinition, arn, hid, hrun, harn, hrole⟩
  · intro h
    obtain ⟨executor, hexecutor, definition, hdefinition, arn, hid, hrun, harn, hrole⟩ := h
    exact ⟨executor, hexecutor, arn, hid, hrun, definition, hdefinition, harn, hrole⟩

/-- Without task definitions the services and tasks are not asked for. -/
theorem generate_eq {s : TaskRoleSelectors} {ctx : GeneratorContext} {services tasks : List Json}
    (hdefinitions : ctx.evaluate s.taskDefinitions = .ok definitions)
    (hservices : ctx.evaluate s.services = .ok services)
    (htasks : ctx.evaluate s.tasks = .ok tasks) :
    s.generate ctx = .ok ⟨[], Ordered.ofList
      ((services ++ tasks).flatMap (bindingsOf (rolesByDefinition definitions)))⟩ := by
  unfold generate
  rw [hdefinitions, hservices, htasks]
  cases definitions with
  | cons definition definitions => rfl
  | nil =>
    -- no definition has a role, so nothing would have been bound
    have hnone : (services ++ tasks).flatMap (bindingsOf (rolesByDefinition [])) = [] := by
      refine List.eq_nil_iff_forall_not_mem.2 fun binding hbinding => ?_
      obtain ⟨_, -, _, hdefinition, -⟩ := mem_flatMap_bindingsOf_iff.1 hbinding
      exact List.not_mem_nil hdefinition
    rw [hnone]
    rfl

end TaskRoleSelectors

/-! ## Both relations -/

/-- Wherever the selectors evaluate, the generators propose the pairs that are joined and no others:
the edges service by service and for each in ascending order of the load balancers, the bindings in
ascending order. -/
theorem generators_join (ctx : GeneratorContext) :
    (∀ (s : BalancerSelectors) (services groups : List Json),
      ctx.evaluate s.services = .ok services → ctx.evaluate s.targetGroups = .ok groups →
      ∃ parts, List.Forall₂ (BalancerSelectors.EdgesTo Json.textField? groups) services parts ∧
        s.generate ctx = .ok ⟨parts.flatten, []⟩) ∧
    ∀ (s : TaskRoleSelectors) (definitions services tasks : List Json),
      ctx.evaluate s.taskDefinitions = .ok definitions → ctx.evaluate s.services = .ok services →
      ctx.evaluate s.tasks = .ok tasks →
      ∃ bindings, Ordered.Ascending bindings ∧
        (∀ binding, binding ∈ bindings ↔
          TaskRoleSelectors.Joined Json.textField? definitions (services ++ tasks) binding) ∧
        s.generate ctx = .ok ⟨[], bindings⟩ := by
  constructor
  · intro s services groups hservices hgroups
    refine ⟨services.map (BalancerSelectors.edgesOf (BalancerSelectors.balancersByGroup groups)),
      ?_, ?_⟩
    · rw [List.forall₂_map_right_iff]
      exact List.forall₂_same.2 fun service _ => BalancerSelectors.edgesTo_edgesOf
    · rw [BalancerSelectors.generate_eq hservices hgroups, List.flatMap_def]
  · intro s definitions services tasks hdefinitions hservices htasks
    refine ⟨_, Ordered.ascending_ofList, fun binding => ?_,
      TaskRoleSelectors.generate_eq hdefinitions hservices htasks⟩
    rw [Ordered.mem_ofList, TaskRoleSelectors.mem_flatMap_bindingsOf_iff]

/-! ## A fleet in two regions -/

open Assembler (found everything)

def fleetServices : List Json := [
  .obj [("id", .str "ferry"), ("targetGroups", .arr [.str "gone", .str "tg", .str "tg"]),
    ("taskDefinition", .str "sail")],
  .obj [("targetGroups", .str "tg"), ("taskDefinition", .str "sail")]]

def fleetTasks : List Json := [.obj [("id", .str "barge"), ("taskDefinition", .str "sail")]]

/-- The same target group in two regions, and one that cannot be told apart from others. -/
def fleetGroups : List Json := [
  .obj [("arn", .str "tg"), ("loadBalancers", .arr [.str "south", .null, .str "north"])],
  .obj [("loadBalancers", .str "idle")],
  .obj [("arn", .str "tg"), ("loadBalancers", .str "north")]]

/-- The same task definition in two regions. -/
def fleetDefinitions : List Json := [
  .obj [("arn", .str "sail"), ("taskRoleArn", .str "pilot"), ("executionRoleArn", .str "crew")],
  .obj [("arn", .str "sail"), ("taskRoleArn", .str "crew")]]

/-- A store in which the last item of a list of several was recorded in a region of its own. -/
def fleet : GeneratorContext where
  source := .ofStore (.ofWrites [
    found "us" "Group" "List" (fleetGroups.drop 2), found "eu" "Group" "List" (fleetGroups.take 2),
    found "eu" "Service" "List" fleetServices, found "us" "Task" "List" fleetTasks,
    found "us" "Definition" "List" (fleetDefinitions.drop 1),
    found "eu" "Definition" "List" (fleetDefinitions.take 1)])
  roles := .empty

def everyBalancer : BalancerSelectors := ⟨everything "Service" "List", everything "Group" "List"⟩

def everyTaskRole : TaskRoleSelectors :=
  ⟨everything "Service" "List", everything "Task" "List", everything "Definition" "List"⟩

theorem generators_join_fleet :
    (fleet.evaluate everyBalancer.services = .ok fleetServices ∧
      fleet.evaluate everyBalancer.targetGroups = .ok fleetGroups ∧
      ∃ parts, List.Forall₂ (BalancerSelectors.EdgesTo Json.textField? fleetGroups) fleetServices
          parts ∧
        parts.flatten = [Edge.between "north" "ferry" "target-group",
          Edge.between "south" "ferry" "target-group"]) ∧
    fleet.evaluate everyTaskRole.taskDefinitions = .ok fleetDefinitions ∧
      fleet.evaluate everyTaskRole.tasks = .ok fleetTasks ∧
      ∀ binding, binding ∈ [(⟨"crew", "barge"⟩ : RoleBinding), ⟨"crew", "ferry"⟩,
          ⟨"pilot", "barge"⟩, ⟨"pilot", "ferry"⟩] ↔
        TaskRoleSelectors.Joined Json.textField? fleetDefinitions (fleetServices ++ fleetTasks)
          binding := by
  have hservices : fleet.evaluate everyBalancer.services = .ok fleetServices := rfl
  have hgroups : fleet.evaluate everyBalancer.targetGroups = .ok fleetGroups := rfl
  have hdefinitions : fleet.evaluate everyTaskRole.taskDefinitions = .ok fleetDefinitions := rfl
  have htasks : fleet.evaluate everyTaskRole.tasks = .ok fleetTasks := rfl
  obtain ⟨hbalancers, hroles⟩ := generators_join fleet
  refine ⟨⟨hservices, hgroups, ?_⟩, hdefinitions, htasks, ?_⟩
  · obtain ⟨parts, hparts, hgenerate⟩ := hbalancers everyBalancer _ _ hservices hgroups
    have hedges : everyBalancer.generate fleet = .ok ⟨[Edge.between "north" "ferry" "target-group",
        Edge.between "south" "ferry" "target-group"], []⟩ := rfl
    rw [hedges] at hgenerate
    injection hgenerate with houtput
    exact ⟨parts, hparts, (congrArg GeneratorOutput.edges houtput).symm⟩
  · obtain ⟨bindings, -, hmem, hgenerate⟩ :=
      hroles everyTaskRole _ _ _ hdefinitions hservices htasks
    have hbindings : everyTaskRole.generate fleet = .ok ⟨[], [⟨"crew", "barge"⟩,
        ⟨"crew", "ferry"⟩, ⟨"pilot", "barge"⟩, ⟨"pilot", "ferry"⟩]⟩ := rfl
    rw [hbindings] at hgenerate
    injection hgenerate with houtput
    cases houtput
    exact hmem

def blankService : Json := .obj [("id", .str "ferry"), ("targetGroups", .str "")]

def blankGroups : List Json := [.obj [("arn", .str ""), ("loadBalancers", .str "north")]]

/-- The names of a task definition, of an executor and of a role are empty, one in each row. -/
def blankDefinitions : List Json := [
  .obj [("arn", .str ""), ("taskRoleArn", .str "crew")],
  .obj [("arn", .str "sail"), ("taskRoleArn", .str "pilot")],
  .obj [("arn", .str "moor"), ("taskRoleArn", .str "")]]

def blankTasks : List Json := [
  .obj [("id", .str "barge"), ("taskDefinition", .str "")],
  .obj [("id", .str ""), ("taskDefinition", .str "sail")],
  .obj [("id", .str "tug"), ("taskDefinition", .str "moor")]]

def blankFleet : GeneratorContext where
  source := .ofStore (.ofWrites [
    found "eu" "Service" "List" [blankService], found "eu" "Group" "List" blankGroups,
    found "eu" "Definition" "List" blankDefinitions, found "eu" "Task" "List" blankTasks])
  roles := .empty

/-- Read with their empty texts, these items are joined in one load balancer and in three bindings,
none of which is proposed. -/
theorem empty_names_left_out :
    (blankFleet.evaluate everyBalancer.services = .ok [blankService] ∧
      blankFleet.evaluate everyBalancer.targetGroups = .ok blankGroups ∧
      ¬ ∃ parts, List.Forall₂ (BalancerSelectors.EdgesTo Json.text? blankGroups) [blankService]
          parts ∧ everyBalancer.generate blankFleet = .ok ⟨parts.flatten, []⟩) ∧
    blankFleet.evaluate everyTaskRole.taskDefinitions = .ok blankDefinitions ∧
      blankFleet.evaluate everyTaskRole.tasks = .ok blankTasks ∧
      ∀ binding ∈ [(⟨"crew", "barge"⟩ : RoleBinding), ⟨"pilot", ""⟩, ⟨"", "tug"⟩],
        ¬ ∃ bindings, (binding ∈ bindings ↔ TaskRoleSelectors.Joined Json.text? blankDefinitions
            (blankService :: blankTasks) binding) ∧
          everyTaskRole.generate blankFleet = .ok ⟨[], bindings⟩ := by
  refine ⟨⟨rfl, rfl, ?_⟩, rfl, rfl, ?_⟩
  · intro h
    obtain ⟨parts, hparts, hgenerate⟩ := h
    have hnone : everyBalancer.generate blankFleet = .ok ⟨[], []⟩ := rfl
    rw [hnone] at hgenerate
    injection hgenerate with houtput
    obtain ⟨_, rest, ⟨balancers, -, hmem, rfl⟩, -, rfl⟩ := List.forall₂_cons_left_iff.1 hparts
    have hjoined : BalancerSelectors.Joined Json.text? blankGroups blankService "north" :=
      ⟨_, List.mem_cons_self, "", rfl, List.mem_cons_self, List.mem_cons_self⟩
    have hempty := congrArg GeneratorOutput.edges houtput
    rw [List.flatten_cons, List.nil_eq_append_iff, List.map_eq_nil_iff] at hempty
    have hnorth := (hmem "north").2 hjoined
    rw [hempty.1] at hnorth
    exact List.not_mem_nil hnorth
  · have hnone : everyTaskRole.generate blankFleet = .ok ⟨[], []⟩ := rfl
    intro binding hbinding h
    obtain ⟨bindings, hmem, hgenerate⟩ := h
    rw [hnone] at hgenerate
    injection hgenerate with houtput
    cases houtput
    apply List.not_mem_nil (hmem.2 _)
    simp only [List.mem_cons, List.not_mem_nil, or_false] at hbinding
    obtain rfl | rfl | rfl := hbinding
    · exact ⟨_, .tail _ (.head _), _, .head _, "", rfl, rfl, rfl, .inl rfl⟩
    · exact ⟨_, .tail _ (.tail _ (.head _)), _, .tail _ (.head _), "sail", rfl, rfl, rfl, .inl rfl⟩
    · exact ⟨_, .tail _ (.tail _ (.tail _ (.head _))), _, .tail _ (.tail _ (.head _)), "moor", rfl,
        rfl, rfl, .inl rfl⟩

end ResourceGraph
