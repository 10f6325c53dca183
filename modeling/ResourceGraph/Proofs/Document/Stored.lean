import ResourceGraph.Graph.Basic
import ResourceGraph.Graph.Manifest
import ResourceGraph.Policy.Role
import ResourceGraph.Proofs.Document.Written

/-!
# Values written as JSON and read again

Nodes, edges, records, manifests and role bindings are read back as they were written. Of a value it
is only assumed what its parts cannot break: fields have no key twice, and a time is a number of 64
bits. Whatever else a document holds, what is read from it is such a value, and so writing it loses
nothing more.
-/
namespace ResourceGraph

open Document

/-! ## Nodes -/

/-- No field of the metadata comes twice. -/
def Node.WellFormed (n : Node) : Prop := n.metadata.keys.Nodup

theorem Node.field?_toJson (n : Node) (name : String) :
    n.toJson.field? name =
      if name = "id" then some (.str n.id)
      else if name = "type" then some (.str n.kind)
      else if name = "parent" then n.parent.map .str
      else if name = "metadata" ∧ n.metadata ≠ [] then some (.obj n.metadata)
      else none := by
  simp only [toJson, Json.field?, Fields.get?_append, Fields.get?_cons, Fields.get?_nil,
    Fields.get?_optional, Fields.get?_unlessEmpty]
  by_cases hid : name = "id"
  · simp [hid]
  by_cases htype : name = "type"
  · simp [htype]
  by_cases hparent : name = "parent"
  · simp [hparent]
  simp [hid, htype, hparent]

theorem Node.field?_parent (n : Node) : n.toJson.field? "parent" = n.parent.map .str :=
  n.field?_toJson "parent"

theorem Node.field?_metadata (n : Node) :
    n.toJson.field? "metadata" = if n.metadata ≠ [] then some (.obj n.metadata) else none :=
  (n.field?_toJson "metadata").trans (by simp)

theorem Node.read?_toJson {n : Node} (h : n.WellFormed) : read? n.toJson = some n := by
  refine of_part (parts?_obj _ _) ?_
  refine of_part rfl ?_
  refine of_part rfl ?_
  refine of_part (Parts.optional_text n.field?_parent) ?_
  exact of_part (Parts.defaulted_fields h n.field?_metadata) rfl

theorem Node.wellFormed_of_read? {d : Json} {n : Node} (h : read? d = some n) : n.WellFormed := by
  obtain ⟨parts, -, h⟩ := Option.bind_eq_some_iff.1 h
  obtain ⟨id, -, h⟩ := Option.bind_eq_some_iff.1 h
  obtain ⟨kind, -, h⟩ := Option.bind_eq_some_iff.1 h
  obtain ⟨parent, -, h⟩ := Option.bind_eq_some_iff.1 h
  obtain ⟨metadata, hmetadata, h⟩ := Option.bind_eq_some_iff.1 h
  cases h
  exact Parts.nodup_keys_of_defaulted hmetadata

/-! ## Edges -/

/-- No field of the metadata comes twice. -/
def Edge.WellFormed (e : Edge) : Prop := e.metadata.keys.Nodup

theorem Edge.field?_metadata (e : Edge) :
    e.toJson.field? "metadata" = if e.metadata ≠ [] then some (.obj e.metadata) else none := by
  simp only [toJson, Json.field?, Fields.get?_append, Fields.get?_cons, Fields.get?_nil,
    Fields.get?_unlessEmpty]
  simp

theorem Edge.read?_toJson {e : Edge} (h : e.WellFormed) : read? e.toJson = some e := by
  refine of_part (parts?_obj _ _) ?_
  refine of_part rfl ?_
  refine of_part rfl ?_
  refine of_part rfl ?_
  refine of_part rfl ?_
  exact of_part (Parts.defaulted_fields h e.field?_metadata) rfl

theorem Edge.wellFormed_of_read? {d : Json} {e : Edge} (h : read? d = some e) : e.WellFormed := by
  obtain ⟨parts, -, h⟩ := Option.bind_eq_some_iff.1 h
  obtain ⟨id, -, h⟩ := Option.bind_eq_some_iff.1 h
  obtain ⟨source, -, h⟩ := Option.bind_eq_some_iff.1 h
  obtain ⟨target, -, h⟩ := Option.bind_eq_some_iff.1 h
  obtain ⟨name, -, h⟩ := Option.bind_eq_some_iff.1 h
  obtain ⟨metadata, hmetadata, h⟩ := Option.bind_eq_some_iff.1 h
  cases h
  exact Parts.nodup_keys_of_defaulted hmetadata

/-! ## Records -/

/-- The time is a number of 64 bits, and no parameter comes twice. -/
structure Record.WellFormed (r : Record) : Prop where
  timestamp : r.metadata.timestamp < Nat.pow 2 64
  parameters : r.parameters.keys.Nodup

theorem Metadata.read?_toJson {m : Metadata} (h : m.timestamp < Nat.pow 2 64) :
    read? m.toJson = some m := by
  refine of_part (parts?_obj _ _) ?_
  refine of_part rfl ?_
  refine of_part rfl ?_
  exact of_part (Parts.required_eq_some rfl (natural?_ofNat h)) rfl

theorem Metadata.timestamp_of_read? {d : Json} {m : Metadata} (h : read? d = some m) :
    m.timestamp < Nat.pow 2 64 := by
  obtain ⟨parts, -, h⟩ := Option.bind_eq_some_iff.1 h
  obtain ⟨account, -, h⟩ := Option.bind_eq_some_iff.1 h
  obtain ⟨region, -, h⟩ := Option.bind_eq_some_iff.1 h
  obtain ⟨timestamp, htimestamp, h⟩ := Option.bind_eq_some_iff.1 h
  cases h
  obtain ⟨part, -, hpart⟩ := Option.bind_eq_some_iff.1 htimestamp
  exact lt_of_natural? hpart

theorem Record.read?_toJson {r : Record} (h : r.WellFormed) : read? r.toJson = some r := by
  refine of_part (parts?_obj _ _) ?_
  refine of_part (Parts.required_eq_some rfl (Metadata.read?_toJson h.timestamp)) ?_
  refine of_part (Parts.defaulted_eq_some rfl (fields?_obj h.parameters)) ?_
  exact of_part rfl rfl

theorem Record.wellFormed_of_read? {d : Json} {r : Record} (h : read? d = some r) :
    r.WellFormed := by
  obtain ⟨parts, -, h⟩ := Option.bind_eq_some_iff.1 h
  obtain ⟨metadata, hmetadata, h⟩ := Option.bind_eq_some_iff.1 h
  obtain ⟨parameters, hparameters, h⟩ := Option.bind_eq_some_iff.1 h
  obtain ⟨result, -, h⟩ := Option.bind_eq_some_iff.1 h
  cases h
  obtain ⟨part, -, hpart⟩ := Option.bind_eq_some_iff.1 hmetadata
  exact ⟨Metadata.timestamp_of_read? hpart, Parts.nodup_keys_of_defaulted hparameters⟩

/-! ## Manifests and role bindings -/

theorem Manifest.readScope?_written (scope : AccountScope) :
    readScope? (.obj [("account_id", .str scope.accountId),
      ("regions", .ofStrings scope.regions)]) = some scope := by
  refine of_part (parts?_obj _ _) ?_
  refine of_part rfl ?_
  exact of_part (Parts.required_eq_some rfl (list?_ofStrings scope.regions)) rfl

theorem Manifest.read?_toJson (m : Manifest) : read? m.toJson = some m := by
  have haccounts : list? readScope? (Json.arr (m.accounts.map fun a =>
      .obj [("account_id", .str a.accountId), ("regions", .ofStrings a.regions)])) =
      some (m.accounts.map id) :=
    list?_map fun scope _ => readScope?_written scope
  rw [List.map_id] at haccounts
  refine of_part (parts?_obj _ _) ?_
  refine of_part (Parts.required_eq_some rfl haccounts) ?_
  exact of_part rfl rfl

theorem RoleBinding.read?_toJson (b : RoleBinding) : read? b.toJson = some b := by
  refine of_part (parts?_obj _ _) ?_
  refine of_part rfl ?_
  exact of_part rfl rfl

/-! ## All of them -/

/-- Each of these kinds of values is read back as it was written, and what is read from a document,
whatever else the document holds or leaves out, is read again from what is written of it. An absent
parent and empty metadata are not written. -/
theorem stored_values_stable :
    Stable Node.toJson Node.read? Node.WellFormed ∧
    Stable Edge.toJson Edge.read? Edge.WellFormed ∧
    Stable Record.toJson Record.read? Record.WellFormed ∧
    Stable Manifest.toJson Manifest.read? (fun _ => True) ∧
    Stable RoleBinding.toJson RoleBinding.read? (fun _ => True) ∧
    (∀ n : Node, n.toJson.field? "parent" = n.parent.map .str ∧
      n.toJson.field? "metadata" = if n.metadata ≠ [] then some (.obj n.metadata) else none) ∧
    ∀ e : Edge, e.toJson.field? "metadata" =
      if e.metadata ≠ [] then some (.obj e.metadata) else none := by
  refine ⟨?_, ?_, ?_, ?_, ?_, fun n => ⟨n.field?_parent, n.field?_metadata⟩, Edge.field?_metadata⟩
  · exact stable_of (fun _ => Node.read?_toJson) fun _ _ => Node.wellFormed_of_read?
  · exact stable_of (fun _ => Edge.read?_toJson) fun _ _ => Edge.wellFormed_of_read?
  · exact stable_of (fun _ => Record.read?_toJson) fun _ _ => Record.wellFormed_of_read?
  · exact stable_of (fun m _ => m.read?_toJson) fun _ _ _ => trivial
  · exact stable_of (fun b _ => b.read?_toJson) fun _ _ _ => trivial

/-- A node with neither parent nor metadata, read from a document with a field too many, and a
record with a null parameter and a null result. -/
theorem stored_values_stable_buoy :
    Node.read? (.obj [("colour", .str "red"), ("id", .str "buoy"), ("type", .str "mark")]) =
      some (.ofKind "buoy" "mark") ∧
    Node.read? (Node.ofKind "buoy" "mark").toJson = some (.ofKind "buoy" "mark") ∧
    Record.read? (Record.toJson ⟨⟨"1", "eu", 7⟩, [("page", .null), ("size", .null)], .null⟩) =
      some ⟨⟨"1", "eu", 7⟩, [("page", .null), ("size", .null)], .null⟩ := by
  obtain ⟨hnode, -, hrecord, -⟩ := stored_values_stable
  have hread : Node.read?
      (.obj [("colour", .str "red"), ("id", .str "buoy"), ("type", .str "mark")]) =
      some (.ofKind "buoy" "mark") := rfl
  exact ⟨hread, (hnode.settles _ _ hread).2, hrecord.restores _ ⟨by decide, by decide⟩⟩

end ResourceGraph
