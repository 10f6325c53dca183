import ResourceGraph.Proofs.Graph.RoleEdges
import ResourceGraph.Proofs.Record.Silence

/-!
# Reads that fail

To an assembly, a read that fails is one that finds nothing: with the failing reads answered by no
records, and without the generators that gave up, the same graph comes out. Which reads fail is
left open. The list of scopes is not a read of records, and only a generator asks for it.
-/
namespace ResourceGraph

/-! ## Generators of the built-in kinds -/

namespace Generator

/-- What a generator of a built-in kind selects is its own. -/
inductive BuiltInKind : Generator → Prop
  | aliases (s : AliasSelectors) : BuiltInKind s.generator
  | origins (s : OriginSelectors) : BuiltInKind s.generator
  | balancers (s : BalancerSelectors) : BuiltInKind s.generator
  | taskRoles (s : TaskRoleSelectors) : BuiltInKind s.generator

/-- Whether the generator gives a result on what can be read. -/
def succeeds (ctx : GeneratorContext) (g : Generator) : Bool := (g.generate ctx).isOk

theorem succeeds_iff {ctx : GeneratorContext} {g : Generator} :
    g.succeeds ctx ↔ ∃ output, g.generate ctx = .ok output := by
  unfold succeeds
  cases g.generate ctx with
  | ok output => simp [Except.isOk, Except.toBool]
  | error fault => simp [Except.isOk, Except.toBool]

end Generator

namespace GeneratorContext

variable {α β : Type} {f : GeneratorContext → Except GraphError α}

/-- What succeeds gives the same result where failing reads find nothing. -/
def Robust (f : GeneratorContext → Except GraphError α) : Prop :=
  ∀ source roles x, f ⟨source, roles⟩ = .ok x → f ⟨source.silenced, roles⟩ = .ok x

theorem robust_evaluate (s : Selector) : Robust (·.evaluate s) := by
  intro source roles items h
  have heval : source.evaluate .everywhere s = .ok items := mapError_eq_ok_iff.1 h
  exact mapError_eq_ok_iff.2 (Source.evaluate_silenced_of_ok heval)

/-- The scopes are listed as before. -/
theorem robust_knownRegions : Robust knownRegions := fun _ _ _ h => h

theorem robust_pure (x : α) : Robust fun _ => .ok x := fun _ _ _ h => h

theorem Robust.bind {g : α → GeneratorContext → Except GraphError β} (hf : Robust f)
    (hg : ∀ x, Robust (g x)) : Robust fun ctx => f ctx >>= fun x => g x ctx := by
  intro source roles y h
  obtain ⟨x, hx, hy⟩ := bind_eq_ok_iff.1 h
  exact bind_eq_ok_iff.2 ⟨x, hf source roles x hx, hg x source roles y hy⟩

theorem Robust.ite {g : GeneratorContext → Except GraphError α} {c : Prop} [Decidable c]
    (hf : Robust f) (hg : Robust g) : Robust fun ctx => if c then f ctx else g ctx := by
  intro source roles x h
  by_cases hc : c
  · simp only [if_pos hc] at h ⊢
    exact hf source roles x h
  · simp only [if_neg hc] at h ⊢
    exact hg source roles x h

theorem robust_alias (s : AliasSelectors) : Robust s.generate :=
  (robust_evaluate _).bind fun _ => .ite (robust_pure _) <|
    (robust_evaluate _).bind fun _ => (robust_evaluate _).bind fun _ =>
      (robust_evaluate _).bind fun _ => robust_pure _

theorem robust_origin (s : OriginSelectors) : Robust s.generate :=
  (robust_evaluate _).bind fun _ => .ite (robust_pure _) <|
    robust_knownRegions.bind fun _ => (robust_evaluate _).bind fun _ => robust_pure _

theorem robust_balancer (s : BalancerSelectors) : Robust s.generate :=
  (robust_evaluate _).bind fun _ => .ite (robust_pure _) <|
    (robust_evaluate _).bind fun _ => robust_pure _

theorem robust_taskRole (s : TaskRoleSelectors) : Robust s.generate :=
  (robust_evaluate _).bind fun _ => .ite (robust_pure _) <|
    (robust_evaluate _).bind fun _ => (robust_evaluate _).bind fun _ => robust_pure _

end GeneratorContext

theorem Generator.BuiltInKind.robust {g : Generator} (h : g.BuiltInKind) :
    GeneratorContext.Robust g.generate := by
  cases h with
  | aliases s => exact GeneratorContext.robust_alias s
  | origins s => exact GeneratorContext.robust_origin s
  | balancers s => exact GeneratorContext.robust_balancer s
  | taskRoles s => exact GeneratorContext.robust_taskRole s

/-! ## Assembly -/

namespace Assembler

variable (a : Assembler) (manifest : Manifest)

/-- The assembler for which failing reads find nothing, with the generators that did not fail. -/
def silenced : Assembler :=
  { a with
    source := a.source.silenced
    generators := a.generators.filter (Generator.succeeds ⟨a.source, a.knownRoles⟩) }

variable {a}

theorem itemsOf_silenced : a.silenced.itemsOf = a.itemsOf := by
  funext scope s
  have hsilenced : a.silenced.source = a.source.silenced := rfl
  unfold itemsOf
  rw [hsilenced]
  cases hrecords : a.source.records scope s with
  | ok records => rw [Source.evaluate_silenced_of_records hrecords]
  | error fault =>
    rw [Source.evaluate_silenced_of_failing hrecords, Source.evaluate_of_failing hrecords]

/-- Roles that cannot be read are those of no items. -/
theorem knownRoles_eq_ofItems :
    a.knownRoles = Roles.ofItems (a.itemsOf .everywhere a.roleSelector) := by
  unfold knownRoles itemsOf Roles.hydrate
  cases a.source.evaluate .everywhere a.roleSelector with
  | ok items => rfl
  | error fault => rfl

theorem knownRoles_silenced : a.silenced.knownRoles = a.knownRoles := by
  rw [knownRoles_eq_ofItems, knownRoles_eq_ofItems, itemsOf_silenced]
  rfl

theorem proposals_silenced : a.silenced.proposals manifest = a.proposals manifest := by
  unfold proposals nodesFor
  rw [itemsOf_silenced]
  rfl

theorem roleBindings_silenced : a.silenced.roleBindings = a.roleBindings := by
  unfold roleBindings
  rw [itemsOf_silenced]
  rfl

theorem declaredEdges_silenced : a.silenced.declaredEdges = a.declaredEdges := by
  funext edge
  unfold declaredEdges
  rw [itemsOf_silenced]

/-- A generator that fails proposes nothing, and one that does not proposes the same. -/
theorem flatMap_generatedEdges_silenced {r : ResourceResolver} {source : Source} {roles : Roles}
    {generators : List Generator} (h : ∀ g ∈ generators, GeneratorContext.Robust g.generate) :
    (generators.filter (Generator.succeeds ⟨source, roles⟩)).flatMap
        (generatedEdges r ⟨source.silenced, roles⟩) =
      generators.flatMap (generatedEdges r ⟨source, roles⟩) := by
  induction generators with
  | nil => rfl
  | cons g generators ih =>
    obtain ⟨hg, hrest⟩ := List.forall_mem_cons.1 h
    rw [List.flatMap_cons, ← ih hrest]
    cases hgenerate : g.generate ⟨source, roles⟩ with
    | ok output =>
      have hok : g.succeeds ⟨source, roles⟩ := Generator.succeeds_iff.2 ⟨output, hgenerate⟩
      have hsilenced : g.generate ⟨source.silenced, roles⟩ = .ok output :=
        hg source roles output hgenerate
      rw [List.filter_cons_of_pos hok, List.flatMap_cons]
      simp only [generatedEdges, hgenerate, hsilenced]
    | error fault =>
      have hfault : ¬ g.succeeds ⟨source, roles⟩ := by simp [Generator.succeeds_iff, hgenerate]
      -- it is left out on one side, and adds nothing on the other
      rw [List.filter_cons_of_neg hfault]
      simp only [generatedEdges, hgenerate, List.nil_append]

theorem proposedEdges_silenced (h : ∀ g ∈ a.generators, g.BuiltInKind) {index : NodeIndex} :
    a.silenced.proposedEdges index = a.proposedEdges index := by
  have hgenerated : a.silenced.generators.flatMap
      (generatedEdges ⟨a.catalog, index, a.partition⟩ ⟨a.source.silenced, a.knownRoles⟩) =
      a.generators.flatMap
        (generatedEdges ⟨a.catalog, index, a.partition⟩ ⟨a.source, a.knownRoles⟩) :=
    flatMap_generatedEdges_silenced fun g hg => (h g hg).robust
  simp only [proposedEdges]
  rw [declaredEdges_silenced, roleBindings_silenced, knownRoles_silenced, ← hgenerated]
  rfl

/-- With generators of the built-in kinds, an assembly gives a graph whatever cannot be read: the
one of what is left, in which no read of records and no generator fails. The counters are the same
too. -/
theorem assemble_eq_assemble_silenced (h : ∀ g ∈ a.generators, g.BuiltInKind) :
    (∀ scope s, ∃ records, a.silenced.source.records scope s = .ok records) ∧
    (∀ g ∈ a.silenced.generators, ∃ output,
      g.generate ⟨a.source, a.knownRoles⟩ = .ok output ∧
        g.generate ⟨a.silenced.source, a.silenced.knownRoles⟩ = .ok output) ∧
    a.assemble manifest = a.silenced.assemble manifest := by
  refine ⟨fun scope s => ⟨_, Source.records_silenced⟩, fun g hg => ?_, ?_⟩
  · obtain ⟨hmem, hsucceeds⟩ := List.mem_filter.1 hg
    obtain ⟨output, houtput⟩ := Generator.succeeds_iff.1 hsucceeds
    refine ⟨output, houtput, ?_⟩
    rw [knownRoles_silenced]
    exact (h g hmem).robust a.source a.knownRoles output houtput
  · have hkept : a.silenced.keptProposals manifest = a.keptProposals manifest := by
      unfold keptProposals
      rw [proposals_silenced]
    unfold assemble
    simp only [hkept, proposals_silenced, proposedEdges_silenced h, knownRoles_silenced]

/-- Refuses reads in one region, and all of functions and distributions. -/
def halfDown : Backend where
  refusesWrite _ := none
  refusesScoped key := if key.region = "us" then some ⟨"down"⟩ else none
  refusesGlobal service _ :=
    if service = "Function" || service = "Distribution" then some ⟨"down"⟩ else none
  refusesScopes := none

/-- A third table, and a task that acts as the role. -/
def threeTables : Assembler :=
  { twoTables with
    source := halfDown.source (.ofWrites (tableWrites ++ [
      found "us" "Table" "List" [.obj [("id", .str "arn:aws:table:::a.c")]],
      found "eu" "Definition" "List" [.obj [("arn", .str "d"), ("taskRoleArn", .str "reader")]],
      found "eu" "Task" "List" [.obj [("id", .str "1"), ("taskDefinition", .str "d")]]]))
    generators := [
      OriginSelectors.generator ⟨everything "Distribution" "List", everything "Bucket" "List"⟩,
      TaskRoleSelectors.generator ⟨everything "Service" "List", everything "Task" "List",
        everything "Definition" "List"⟩] }

def twoRegions : Manifest := ⟨[⟨"1", ["eu", "us"]⟩], "eu"⟩

theorem assemble_threeTables :
    (∀ g ∈ threeTables.generators, g.BuiltInKind) ∧
    threeTables.assemble twoRegions = threeTables.silenced.assemble twoRegions ∧
    threeTables.silenced.generators.map (·.name) = ["ecs-task-role"] ∧
    (threeTables.assemble twoRegions).1.nodeIds =
      ["1", "1:eu", "1:us", "arn:aws:table:::a.b"] ∧
    (threeTables.assemble twoRegions).1.edges.map (fun e => (e.source, e.target)) =
      [("1", "arn:aws:table:::a.b")] := by
  have hkinds : ∀ g ∈ threeTables.generators, g.BuiltInKind :=
    List.forall_mem_cons.2 ⟨.origins _, List.forall_mem_cons.2 ⟨.taskRoles _, nofun⟩⟩
  obtain ⟨-, -, hsame⟩ := assemble_eq_assemble_silenced twoRegions hkinds
  exact ⟨hkinds, hsame, by decide +kernel, by decide +kernel, by decide +kernel⟩

end Assembler

end ResourceGraph
