import ResourceGraph.Generator.Basic

/-!
Relations of container services that go through a third resource: load balancers through target
groups, and roles through task definitions.
-/
namespace ResourceGraph

/-- The texts of the entries with this key, in order. -/
def textsUnder (entries : List (String × List String)) (key : String) : List String :=
  (entries.filter (·.1 = key)).flatMap (·.2)

/-- Services have fields `id` and `targetGroups`, target groups `arn` and `loadBalancers`. -/
structure BalancerSelectors where
  services : Selector
  targetGroups : Selector

namespace BalancerSelectors

def ofTexts (services targetGroups : String) : Except QueryError BalancerSelectors := do
  return ⟨← Selector.ofText services, ← Selector.ofText targetGroups⟩

def builtIn : Except QueryError BalancerSelectors :=
  ofTexts
    ("ECS|DescribeServices|[*].result.services[]." ++
      "\x7bid: serviceArn, targetGroups: loadBalancers[].targetGroupArn\x7d")
    ("ElasticLoadBalancingV2|DescribeTargetGroups|[*].result.TargetGroups[]." ++
      "\x7barn: TargetGroupArn, loadBalancers: LoadBalancerArns\x7d")

/-- The load balancers of each target group. -/
def balancersByGroup (groups : List Json) : List (String × List String) :=
  groups.filterMap fun group =>
    (group.textField? "arn").map fun arn => (arn, group.textList "loadBalancers")

/-- Edges from the load balancers of a service's target groups, in ascending order. -/
def edgesOf (byGroup : List (String × List String)) (service : Json) : List Edge :=
  match service.textField? "id" with
  | some id =>
    (Ordered.ofList ((service.textList "targetGroups").flatMap (textsUnder byGroup))).map
      fun balancer => Edge.between balancer id "target-group"
  | none => []

def generate (s : BalancerSelectors) (ctx : GeneratorContext) :
    Except GraphError GeneratorOutput := do
  let services ← ctx.evaluate s.services
  if services.isEmpty then return .empty
  else
    let byGroup := balancersByGroup (← ctx.evaluate s.targetGroups)
    return ⟨services.flatMap (edgesOf byGroup), []⟩

def generator (s : BalancerSelectors) : Generator := ⟨"ecs-load-balancer", s.generate⟩

end BalancerSelectors

/-- Services and tasks have fields `id` and `taskDefinition`, task definitions `arn` and possibly
`taskRoleArn` and `executionRoleArn`. -/
structure TaskRoleSelectors where
  services : Selector
  tasks : Selector
  taskDefinitions : Selector

namespace TaskRoleSelectors

def ofTexts (services tasks taskDefinitions : String) : Except QueryError TaskRoleSelectors := do
  return ⟨← Selector.ofText services, ← Selector.ofText tasks,
    ← Selector.ofText taskDefinitions⟩

def builtIn : Except QueryError TaskRoleSelectors :=
  ofTexts
    ("ECS|DescribeServices|[*].result.services[]." ++
      "\x7bid: serviceArn, taskDefinition: taskDefinition\x7d")
    ("ECS|DescribeTasks|[*].result.tasks[]." ++
      "\x7bid: taskArn, taskDefinition: taskDefinitionArn\x7d")
    ("ECS|DescribeTaskDefinition|[*].result.taskDefinition." ++
      "\x7barn: taskDefinitionArn, taskRoleArn: taskRoleArn, " ++
      "executionRoleArn: executionRoleArn\x7d")

/-- The roles of each task definition. -/
def rolesByDefinition (definitions : List Json) : List (String × List String) :=
  definitions.filterMap fun definition =>
    (definition.textField? "arn").map fun arn =>
      (arn, ["taskRoleArn", "executionRoleArn"].filterMap definition.textField?)

/-- The bindings of an executor to the roles of its task definition. -/
def bindingsOf (byDefinition : List (String × List String)) (executor : Json) :
    List RoleBinding :=
  match executor.textField? "id", executor.textField? "taskDefinition" with
  | some id, some definition => (textsUnder byDefinition definition).map fun role => ⟨role, id⟩
  | _, _ => []

def generate (s : TaskRoleSelectors) (ctx : GeneratorContext) :
    Except GraphError GeneratorOutput := do
  let definitions ← ctx.evaluate s.taskDefinitions
  if definitions.isEmpty then return .empty
  else
    let byDefinition := rolesByDefinition definitions
    let services ← ctx.evaluate s.services
    let tasks ← ctx.evaluate s.tasks
    return ⟨[], Ordered.ofList ((services ++ tasks).flatMap (bindingsOf byDefinition))⟩

def generator (s : TaskRoleSelectors) : Generator := ⟨"ecs-task-role", s.generate⟩

end TaskRoleSelectors

end ResourceGraph
