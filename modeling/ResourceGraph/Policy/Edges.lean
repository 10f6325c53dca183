import ResourceGraph.Graph.Basic
import ResourceGraph.Policy.Resource
import ResourceGraph.Policy.Role

/-! Edges from the executor of a role to the resources that the role's statements name. -/
namespace ResourceGraph

namespace ResourceResolver

/-- A statement that denies gives an edge too; its effect is kept beside it. -/
def edgeFor (roleArn executor : String) (policy : Policy) (statement : Statement)
    (target : String) : Edge :=
  let edge := Edge.between executor target policy.name
    |>.withMetadata "roleArn" (.str roleArn)
    |>.withMetadata "label" (.str policy.name)
    |>.withMetadata "statement" statement.raw
  match statement.effect with
  | some effect => edge.withMetadata "effect" (.str effect)
  | none => edge

/-- The edges of one binding. A role that is not known gives none. -/
def edgesForRole (r : ResourceResolver) (roles : Roles) (binding : RoleBinding) : List Edge :=
  match roles.get? binding.roleArn with
  | none => []
  | some role =>
    role.policies.flatMap fun policy =>
      policy.statements.flatMap fun statement =>
        statement.resources.flatMap fun resource =>
          (r.resolve resource).map (edgeFor binding.roleArn binding.executor policy statement)

end ResourceResolver

end ResourceGraph
