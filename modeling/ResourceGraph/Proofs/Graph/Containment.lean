import ResourceGraph.Proofs.Graph.RoleEdges

/-!
# Accounts and regions contain the rest

A node that names no parent is put into its account or region. That is settled before ids that count
as one are told apart, so the container could be a node that is dropped. It is not if the names of
accounts and regions are plain: containers come first, and the sanitized id of one says which it is.
Nothing is assumed about the nodes of services, which may have any ids, those of containers among
them, and may name any parent, also one that is not in the graph.
-/
namespace ResourceGraph

/-! ## Plain names -/

/-- Has no character that displays refuse, and not the one that takes its place. -/
def PlainName (name : String) : Prop := ∀ c ∈ name.toList, c ∉ [':', '/', '\\', '.', '_']

instance (name : String) : Decidable (PlainName name) := List.decidableBAll _ name.toList

namespace PlainName

variable {name s t : String}

theorem bar_notMem (h : PlainName name) : '_' ∉ name.toList := fun hbar => h '_' hbar (by decide)

theorem sanitize_eq (h : PlainName name) : sanitize name = name := by
  have hchar : ∀ c ∈ name.toList, sanitizeChar c = c := by
    intro c hc
    have hplain := h c hc
    simp only [List.mem_cons, not_or] at hplain
    simp [sanitizeChar, hplain]
  apply String.toList_injective
  rw [toList_sanitize, List.map_congr_left hchar, List.map_id']

theorem ne_append_bar (h : PlainName name) : name ≠ s ++ "_" ++ t := by
  rintro rfl
  exact h.bar_notMem (by simp)

/-- A plain name ends where the first bar stands. -/
theorem append_bar_inj {name' : String} (hname : PlainName name) (hs : PlainName s)
    (heq : name ++ "_" ++ s = name' ++ "_" ++ t) : name = name' ∧ s = t := by
  have hlists : name.toList ++ '_' :: s.toList = name'.toList ++ '_' :: t.toList := by
    simpa using congrArg String.toList heq
  obtain ⟨hleft, -, hright⟩ :=
    (List.append_cons_inj_of_notMem hname.bar_notMem hs.bar_notMem).1 hlists
  exact ⟨String.toList_injective hleft, String.toList_injective hright⟩

end PlainName

theorem sanitize_regionNodeId (account region : String) :
    sanitize (regionNodeId account region) = sanitize account ++ "_" ++ sanitize region :=
  Edge.idOf_eq account region

/-- The accounts and regions have plain names. Nothing is said of the default region. -/
structure Manifest.Plain (m : Manifest) : Prop where
  accounts : ∀ scope ∈ m.accounts, PlainName scope.accountId
  regions : ∀ scope ∈ m.accounts, ∀ region ∈ scope.regions, PlainName region

/-! ## Containers -/

def accountNode (account : String) : Node := .ofKind account "account"

def regionNode (account region : String) : Node :=
  { Node.ofKind (regionNodeId account region) "region" with parent := some account }

/-- A service is read in this region of an account, and this node contains what names no parent. -/
inductive Manifest.ReadIn (m : Manifest) (scope : AccountScope) (d : Descriptor) :
    String → Node → Prop
  | global : d.isGlobal = true → m.ReadIn scope d m.defaultRegion (accountNode scope.accountId)
  | regional {region : String} : d.isGlobal = false → region ∈ scope.regions →
      m.ReadIn scope d region (regionNode scope.accountId region)

namespace Assembler

variable {a : Assembler} {manifest : Manifest} {m n : Node} {key : String}

theorem mem_containmentNodes_iff :
    n ∈ containmentNodes manifest ↔ ∃ scope ∈ manifest.accounts,
      n = accountNode scope.accountId ∨
        ∃ region ∈ scope.regions, n = regionNode scope.accountId region := by
  simp only [containmentNodes, accountNodes, List.mem_flatMap, List.mem_cons, List.mem_map,
    eq_comm (a := n)]
  rfl

theorem sanitizedId_accountNode {account : String} (h : PlainName account) :
    (accountNode account).sanitizedId = account := h.sanitize_eq

theorem sanitizedId_regionNode {account region : String} (ha : PlainName account)
    (hr : PlainName region) :
    (regionNode account region).sanitizedId = account ++ "_" ++ region := by
  have h : (regionNode account region).sanitizedId = sanitize (regionNodeId account region) := rfl
  rw [h, sanitize_regionNodeId, ha.sanitize_eq, hr.sanitize_eq]

theorem exists_plain_of_mem_containmentNodes (h : manifest.Plain)
    (hn : n ∈ containmentNodes manifest) :
    (∃ account, PlainName account ∧ n = accountNode account) ∨
      ∃ account region, PlainName account ∧ PlainName region ∧ n = regionNode account region := by
  obtain ⟨scope, hscope, heq | ⟨region, hregion, heq⟩⟩ := mem_containmentNodes_iff.1 hn
  · exact .inl ⟨_, h.accounts scope hscope, heq⟩
  · exact .inr ⟨_, region, h.accounts scope hscope, h.regions scope hscope region hregion, heq⟩

/-- The sanitized id of a container says which one it is. -/
theorem containmentNodes_inj (h : manifest.Plain) (hm : m ∈ containmentNodes manifest)
    (hn : n ∈ containmentNodes manifest) (heq : m.sanitizedId = n.sanitizedId) : m = n := by
  rcases exists_plain_of_mem_containmentNodes h hm with
    ⟨account, ha, rfl⟩ | ⟨account, region, ha, hr, rfl⟩ <;>
  rcases exists_plain_of_mem_containmentNodes h hn with
    ⟨account', ha', rfl⟩ | ⟨account', region', ha', hr', rfl⟩
  · rw [sanitizedId_accountNode ha, sanitizedId_accountNode ha'] at heq
    rw [heq]
  · rw [sanitizedId_accountNode ha, sanitizedId_regionNode ha' hr'] at heq
    exact absurd heq ha.ne_append_bar
  · rw [sanitizedId_regionNode ha hr, sanitizedId_accountNode ha'] at heq
    exact absurd heq.symm ha'.ne_append_bar
  · rw [sanitizedId_regionNode ha hr, sanitizedId_regionNode ha' hr'] at heq
    obtain ⟨rfl, rfl⟩ := ha.append_bar_inj hr heq
    rfl

/-! ## Which nodes stay -/

theorem StaysFrom.mem_nodes {service : Option String} (h : a.StaysFrom manifest service n) :
    n ∈ (a.assemble manifest).1.nodes :=
  mem_nodes_assemble_iff.2 ⟨service, h, fun _ hother => hother.unique h⟩

/-- Containers are proposed before all others, and what comes before a container for the first time
is other containers. -/
theorem staysFrom_none_iff (h : manifest.Plain) :
    a.StaysFrom manifest none n ↔ n ∈ containmentNodes manifest := by
  constructor
  · rintro ⟨before, after, hsplit, -⟩
    have hmem : (⟨none, n⟩ : Proposal) ∈ a.proposals manifest := by simp [hsplit]
    simpa [proposals] using hmem
  · intro hn
    obtain ⟨before, after, hsplit, hfirst⟩ := List.eq_append_cons_of_mem hn
    have hproposals : ∃ rest,
        a.proposals manifest = before.map (⟨none, ·⟩) ++ ⟨none, n⟩ :: rest := by
      rw [proposals, hsplit, List.map_append, List.map_cons, List.append_assoc, List.cons_append]
      exact ⟨_, rfl⟩
    obtain ⟨rest, hrest⟩ := hproposals
    refine ⟨_, rest, hrest, fun p hp heq => ?_⟩
    obtain ⟨m, hm, rfl⟩ := List.mem_map.1 hp
    have hmem : m ∈ containmentNodes manifest := hsplit ▸ List.mem_append_left _ hm
    exact hfirst (containmentNodes_inj h hmem hn heq ▸ hm)

theorem mem_nodes_of_mem_containmentNodes (h : manifest.Plain)
    (hn : n ∈ containmentNodes manifest) : n ∈ (a.assemble manifest).1.nodes :=
  ((staysFrom_none_iff h).2 hn).mem_nodes

/-- The nodes of services are those whose ids count as no container's. -/
theorem staysFrom_service_iff (h : manifest.Plain) :
    (∃ key, a.StaysFrom manifest (some key) n) ↔ n ∈ (a.assemble manifest).1.nodes ∧
      ∀ c ∈ containmentNodes manifest, n.sanitizedId ≠ c.sanitizedId := by
  constructor
  · rintro ⟨key, hkey⟩
    refine ⟨hkey.mem_nodes, fun c hc heq => ?_⟩
    have hsame : n = c := (a.wellFormed_assemble manifest).sanitizedId_inj hkey.mem_nodes
      (mem_nodes_of_mem_containmentNodes h hc) heq
    exact absurd (hkey.unique ((staysFrom_none_iff h).2 (hsame ▸ hc))) (by simp)
  · rintro ⟨hnode, hapart⟩
    obtain ⟨service, hstays, -⟩ := mem_nodes_assemble_iff.1 hnode
    cases service with
    | some key => exact ⟨key, hstays⟩
    | none => exact absurd rfl (hapart n ((staysFrom_none_iff h).1 hstays))

/-! ## What services propose -/

/-- A node selector of the service gives the item in this region of the account. -/
def Finds (a : Assembler) (d : Descriptor) (account region : String) (item : Json) : Prop :=
  ∃ s ∈ d.nodes, ∃ items, a.source.evaluate (.place account region) s = .ok items ∧ item ∈ items

theorem mem_itemsOf_iff {scope : Scope} {s : Selector} {item : Json} :
    item ∈ a.itemsOf scope s ↔ ∃ items, a.source.evaluate scope s = .ok items ∧ item ∈ items := by
  unfold itemsOf
  cases a.source.evaluate scope s with
  | ok items => simp
  | error e => simp

theorem mem_nodesFor_iff {d : Descriptor} {account region container : String} :
    n ∈ a.nodesFor ⟨d, .place account region, container⟩ ↔
      ∃ item named, a.Finds d account region item ∧
        a.translators.translate d.key item = some named ∧
        n = ⟨named.id, d.label, some (named.parent.getD container), named.metadata⟩ := by
  simp only [nodesFor, nodeOf?, Finds, List.mem_flatMap, List.mem_filterMap, mem_itemsOf_iff,
    Option.map_eq_some_iff]
  constructor
  · rintro ⟨s, hs, item, ⟨items, heval, hitem⟩, named, hnamed, rfl⟩
    exact ⟨item, named, ⟨s, hs, items, heval, hitem⟩, hnamed, rfl⟩
  · rintro ⟨item, named, ⟨s, hs, items, heval, hitem⟩, hnamed, rfl⟩
    exact ⟨s, hs, item, ⟨items, heval, hitem⟩, named, hnamed, rfl⟩

theorem mem_tasksOf_iff {scope : AccountScope} {d : Descriptor} {task : NodeTask} :
    task ∈ tasksOf manifest.defaultRegion scope d ↔ d.nodes ≠ [] ∧
      ∃ region container, manifest.ReadIn scope d region container ∧
        task = ⟨d, .place scope.accountId region, container.id⟩ := by
  unfold tasksOf
  split
  · next hnone => simp [List.isEmpty_iff.1 hnone]
  · next hsome =>
    rw [and_iff_right (fun hnone => hsome (List.isEmpty_iff.2 hnone))]
    split
    · next hglobal =>
      constructor
      · intro htask
        exact ⟨_, _, .global hglobal, List.mem_singleton.1 htask⟩
      · rintro ⟨region, container, hread, rfl⟩
        cases hread with
        | global => exact List.mem_singleton_self _
        | regional hregional => exact absurd hglobal (by simp [hregional])
    · next hregional =>
      rw [Bool.not_eq_true] at hregional
      constructor
      · intro htask
        obtain ⟨region, hregion, rfl⟩ := List.mem_map.1 htask
        exact ⟨region, _, .regional hregional hregion, rfl⟩
      · rintro ⟨region, container, hread, rfl⟩
        cases hread with
        | global hglobal => exact absurd hglobal (by simp [hregional])
        | regional _ hregion => exact List.mem_map.2 ⟨region, hregion, rfl⟩

theorem mem_proposals_task_iff : (⟨some key, n⟩ : Proposal) ∈ a.proposals manifest ↔
    ∃ scope ∈ manifest.accounts, ∃ d ∈ a.catalog.services,
      ∃ task ∈ tasksOf manifest.defaultRegion scope d,
        task.descriptor.key = key ∧ n ∈ a.nodesFor task := by
  simp only [proposals, nodeTasks, List.mem_append, List.mem_map, List.mem_flatMap,
    Proposal.mk.injEq]
  constructor
  · rintro (⟨_, -, hnone, -⟩ | ⟨task, ⟨scope, hscope, d, hd, htask⟩, _, hn, hkey, rfl⟩)
    · cases hnone
    · exact ⟨scope, hscope, d, hd, task, htask, Option.some.inj hkey, hn⟩
  · rintro ⟨scope, hscope, d, hd, task, htask, rfl, hn⟩
    exact .inr ⟨task, ⟨scope, hscope, d, hd, htask⟩, n, hn, rfl, rfl⟩

/-- A service proposes the nodes that its items give, wherever it is read in an account. -/
theorem mem_proposals_service_iff :
    (⟨some key, n⟩ : Proposal) ∈ a.proposals manifest ↔
      ∃ scope ∈ manifest.accounts, ∃ d ∈ a.catalog.services, d.key = key ∧
        ∃ region container, manifest.ReadIn scope d region container ∧
          ∃ item named, a.Finds d scope.accountId region item ∧
            a.translators.translate key item = some named ∧
            n = ⟨named.id, d.label, some (named.parent.getD container.id), named.metadata⟩ := by
  rw [mem_proposals_task_iff]
  constructor
  · rintro ⟨scope, hscope, d, hd, task, htask, rfl, hn⟩
    obtain ⟨-, region, container, hread, rfl⟩ := mem_tasksOf_iff.1 htask
    exact ⟨scope, hscope, d, hd, rfl, region, container, hread, mem_nodesFor_iff.1 hn⟩
  · rintro ⟨scope, hscope, d, hd, rfl, region, container, hread, hmade⟩
    have hn := mem_nodesFor_iff.2 hmade
    have hsome : d.nodes ≠ [] := by
      intro hnone
      simp [nodesFor, hnone] at hn
    exact ⟨scope, hscope, d, hd, _, mem_tasksOf_iff.2 ⟨hsome, region, container, hread, rfl⟩,
      rfl, hn⟩

/-! ## Every node has its place -/

/-- The accounts and regions are in the graph under their ids, however often they are listed. A node
that a service proposes, whether it stays or not, has the parent that its item names, or else it is
put into the account or region where it is read, which is in the graph. The nodes that stay as those
of services are exactly the ones whose ids count as no container's. -/
theorem containers_hold_their_places (a : Assembler) (h : manifest.Plain) :
    (∀ scope ∈ manifest.accounts,
      (a.assemble manifest).1.findNode? scope.accountId = some (accountNode scope.accountId) ∧
      ∀ region ∈ scope.regions,
        (a.assemble manifest).1.findNode? (regionNodeId scope.accountId region) =
          some (regionNode scope.accountId region)) ∧
    (∀ key n, ⟨some key, n⟩ ∈ a.proposals manifest ↔
      ∃ scope ∈ manifest.accounts, ∃ d ∈ a.catalog.services, d.key = key ∧
        ∃ region container, manifest.ReadIn scope d region container ∧
          container ∈ (a.assemble manifest).1.nodes ∧
          ∃ item named, a.Finds d scope.accountId region item ∧
            a.translators.translate key item = some named ∧
            n = ⟨named.id, d.label, some (named.parent.getD container.id), named.metadata⟩) ∧
    (∀ n, a.StaysFrom manifest none n ↔ n ∈ containmentNodes manifest) ∧
    ∀ n, (∃ key, a.StaysFrom manifest (some key) n) ↔ n ∈ (a.assemble manifest).1.nodes ∧
      ∀ c ∈ containmentNodes manifest, n.sanitizedId ≠ c.sanitizedId := by
  have hwf := a.wellFormed_assemble manifest
  have haccount : ∀ scope ∈ manifest.accounts,
      accountNode scope.accountId ∈ (a.assemble manifest).1.nodes := fun scope hscope =>
    mem_nodes_of_mem_containmentNodes h (mem_containmentNodes_iff.2 ⟨scope, hscope, .inl rfl⟩)
  have hregion : ∀ scope ∈ manifest.accounts, ∀ region ∈ scope.regions,
      regionNode scope.accountId region ∈ (a.assemble manifest).1.nodes :=
    fun scope hscope region hregion => mem_nodes_of_mem_containmentNodes h
      (mem_containmentNodes_iff.2 ⟨scope, hscope, .inr ⟨region, hregion, rfl⟩⟩)
  refine ⟨fun scope hscope => ⟨hwf.findNode?_eq_some_iff.2 ⟨haccount scope hscope, rfl⟩,
    fun region hr => hwf.findNode?_eq_some_iff.2 ⟨hregion scope hscope region hr, rfl⟩⟩,
    fun key n => ?_, fun n => staysFrom_none_iff h, fun n => staysFrom_service_iff h⟩
  rw [mem_proposals_service_iff]
  constructor
  · rintro ⟨scope, hscope, d, hd, hkey, region, container, hread, hmade⟩
    have hcontainer : container ∈ (a.assemble manifest).1.nodes := by
      cases hread with
      | global => exact haccount scope hscope
      | regional _ hr => exact hregion scope hscope region hr
    exact ⟨scope, hscope, d, hd, hkey, region, container, hread, hcontainer, hmade⟩
  · rintro ⟨scope, hscope, d, hd, hkey, region, container, hread, -, hmade⟩
    exact ⟨scope, hscope, d, hd, hkey, region, container, hread, hmade⟩

/-! ## Services that name containers -/

/-- A table and a bucket, each listed beside something whose id counts as a container's, and an
index of the table that names it as its parent. -/
def namesakes : Assembler where
  source := .ofStore (.ofWrites [
    found "eu" "Table" "List" [.obj [("id", .str "t")], .obj [("id", .str "1.eu")],
      .obj [("id", .str "t/index"), ("parent", .str "t")]],
    found "us" "Bucket" "List" [.obj [("id", .str "b")], .obj [("id", .str "1")]]])
  catalog := ⟨[
    ⟨"table", "Table", "Table", "table", false, false, [everything "Table" "List"], [], [], []⟩,
    ⟨"bucket", "Bucket", "Bucket", "s3", true, true, [everything "Bucket" "List"], [], [], []⟩],
    by decide⟩
  generators := []
  translators := .standard
  roleSelector := everything "Role" "List"
  partition := "aws"

/-- Buckets are read in a region that the account is not listed with. -/
def listedTwice : Manifest := ⟨[⟨"1", ["eu", "eu"]⟩, ⟨"1", []⟩], "us"⟩

theorem namesakes_leave_containers :
    listedTwice.Plain ∧
    (namesakes.assemble listedTwice).1.nodes.map (fun n => (n.id, n.parent)) =
      [("1", none), ("1:eu", some "1"), ("t", some "1:eu"), ("t/index", some "t"),
        ("b", some "1")] ∧
    (namesakes.assemble listedTwice).1.findNode? "1:eu" = some (regionNode "1" "eu") ∧
    ⟨some "table", ⟨"1.eu", "Table", some "1:eu", []⟩⟩ ∈ namesakes.proposals listedTwice ∧
    ∀ n, n.sanitizedId = "1_eu" → ¬ ∃ key, namesakes.StaysFrom listedTwice (some key) n := by
  have hplain : listedTwice.Plain := ⟨by decide, by decide⟩
  obtain ⟨hplaces, hproposed, -, hservices⟩ := containers_hold_their_places namesakes hplain
  have hscope : (⟨"1", ["eu", "eu"]⟩ : AccountScope) ∈ listedTwice.accounts := List.mem_cons_self
  have hregion : regionNode "1" "eu" ∈ containmentNodes listedTwice :=
    mem_containmentNodes_iff.2 ⟨_, hscope, .inr ⟨"eu", List.mem_cons_self, rfl⟩⟩
  have hfound : namesakes.Finds ⟨"table", "Table", "Table", "table", false, false,
      [everything "Table" "List"], [], [], []⟩ "1" "eu" (.obj [("id", .str "1.eu")]) :=
    ⟨_, List.mem_cons_self, _, rfl, List.mem_cons_of_mem _ List.mem_cons_self⟩
  refine ⟨hplain, by decide +kernel, (hplaces _ hscope).2 "eu" List.mem_cons_self,
    (hproposed _ _).2 ⟨_, hscope, _, List.mem_cons_self, rfl, "eu", _,
      .regional rfl List.mem_cons_self, mem_nodes_of_mem_containmentNodes hplain hregion, _, _,
      hfound, rfl, rfl⟩, fun n hn hkey => ?_⟩
  exact ((hservices n).1 hkey).2 _ hregion hn

end Assembler

end ResourceGraph
