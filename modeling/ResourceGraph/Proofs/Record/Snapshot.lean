import ResourceGraph.Proofs.Json.Fields
import ResourceGraph.Proofs.Record.Log

/-!
# Snapshots

A snapshot holds what is written under each key as a field named by the key's display. It is whole
exactly if no two written keys display alike; of keys that do, only the last one in key order is
kept. A display can be taken apart again if no account and no region has a slash and no service a
bar, so that a snapshot of such keys is whole. Nothing is claimed of the text of single records.
-/
namespace ResourceGraph

/-! ## Displays of keys -/

namespace Key

variable {k l : Key}

/-- The separators of the display are the first ones in it. -/
structure Plain (k : Key) : Prop where
  account : '/' ∉ k.account.toList
  region : '/' ∉ k.region.toList
  service : '|' ∉ k.service.toList

theorem toList_display : k.display.toList =
    k.account.toList ++ '/' :: (k.region.toList ++ '/' ::
      (k.service.toList ++ '|' :: k.operation.toList)) := by
  simp [display, String.toList_append]

/-- The display is cut at its separators, one after the other. -/
theorem Plain.eq_of_display_eq (hk : k.Plain) (hl : l.Plain) (h : k.display = l.display) :
    k = l := by
  have htext := congrArg String.toList h
  rw [toList_display, toList_display] at htext
  have hcut {sep : Char} {a a' rest rest' : List Char} (ha : sep ∉ a) (ha' : sep ∉ a')
      (heq : a ++ sep :: rest = a' ++ sep :: rest') : a = a' ∧ rest = rest' := by
    have hparts := congrArg (Text.cutAt? sep) heq
    rw [Text.cutAt?_append ha, Text.cutAt?_append ha'] at hparts
    simpa using hparts
  obtain ⟨haccount, htext⟩ := hcut hk.account hl.account htext
  obtain ⟨hregion, htext⟩ := hcut hk.region hl.region htext
  obtain ⟨hservice, hoperation⟩ := hcut hk.service hl.service htext
  apply parts_inj
  simp only [parts, String.toList_injective haccount, String.toList_injective hregion,
    String.toList_injective hservice, String.toList_injective hoperation]

end Key

/-! ## The entries of a snapshot -/

namespace Store

variable {writes : List (Key × List Record)} {keys : List Key} {key : Key}

/-- What is written under a key, as a snapshot holds it. -/
def sequenceOf (writes : List (Key × List Record)) (key : Key) : Json :=
  .arr ((logged writes key).map Record.toJson)

/-- The sequences under the keys, each named by the display of its key. -/
def shown (writes : List (Key × List Record)) (keys : List Key) : Fields :=
  keys.map fun key => (key.display, sequenceOf writes key)

/-- The number of items of a list. -/
def itemCount : Json → Nat
  | .arr items => items.length
  | _ => 0

/-- What a snapshot says of the writes if nothing is lost. -/
structure Whole (snapshot : Fields) (writes : List (Key × List Record)) : Prop where
  /-- One entry for each key that is written, in key order, with all that is written under it. -/
  entries : ∃ keys : List Key, Ordered.Ascending keys ∧
    (∀ key, key ∈ keys ↔ key ∈ loggedKeys writes) ∧ snapshot = shown writes keys
  keyCount : snapshot.length = (ofWrites writes).keyCount
  recordCount : (snapshot.map fun entry => itemCount entry.2).sum = (ofWrites writes).recordCount

/-- The keys of the store in key order. -/
def keysOf (writes : List (Key × List Record)) : List Key := (ofWrites writes).entries.map (·.1)

theorem ascending_keysOf : Ordered.Ascending (keysOf writes) := (ofWrites writes).ascending

theorem mem_keysOf_iff : key ∈ keysOf writes ↔ key ∈ loggedKeys writes := by
  rw [keysOf, mem_keys_iff_read_ne_nil, read_ofWrites, mem_loggedKeys_iff_logged_ne_nil]

/-- Under each key the store has what is written there. -/
theorem entries_ofWrites :
    (ofWrites writes).entries = (keysOf writes).map fun key => (key, logged writes key) := by
  have hself : ∀ e ∈ (ofWrites writes).entries, (e.1, logged writes e.1) = e := by
    intro e he
    rw [← read_ofWrites, read_eq_lookup,
      Ordered.lookup_of_mem (ofWrites writes).ascending.nodup he]
    rfl
  rw [keysOf, List.map_map]
  exact (List.map_id' _).symm.trans (List.map_congr_left fun e he => (hself e he).symm)

theorem snapshot_ofWrites :
    (ofWrites writes).snapshot = Fields.ofList (shown writes (keysOf writes)) := by
  rw [snapshot, entries_ofWrites, List.map_map]
  rfl

theorem keys_shown : (shown writes keys).keys = keys.map Key.display := by
  rw [shown, Fields.keys, List.map_map]
  rfl

theorem sum_itemCount_shown : ((shown writes (keysOf writes)).map fun e => itemCount e.2).sum =
    (ofWrites writes).recordCount := by
  rw [recordCount, entries_ofWrites, List.length_flatMap, shown, List.map_map, List.map_map]
  simp [Function.comp_def, sequenceOf, itemCount]

/-- Of the keys that display alike the last one is kept. -/
theorem lookup_reverse_shown {text : String} {value : Json} (h : Ordered.Ascending keys) :
    (shown writes keys).reverse.lookup text = some value ↔
      ∃ key ∈ keys, key.display = text ∧ (∀ other ∈ keys, other.display = text → ¬ key < other) ∧
        value = sequenceOf writes key := by
  rw [List.lookup_eq_some_iff]
  constructor
  · intro hsplit
    obtain ⟨later, earlier, hsplit, hlater⟩ := hsplit
    rw [List.reverse_eq_iff] at hsplit
    simp only [List.reverse_append, List.reverse_cons, List.append_assoc, List.singleton_append]
      at hsplit
    obtain ⟨before, rest, rfl, -, hrest⟩ := List.map_eq_append_iff.1 hsplit
    obtain ⟨key, after, rfl, hkey, hafter⟩ := List.map_eq_cons_iff.1 hrest
    obtain ⟨rfl, rfl⟩ := Prod.mk.inj hkey
    refine ⟨key, by simp, rfl, fun other hother hdisplay hlt => ?_, rfl⟩
    have hnext := List.pairwise_append.1 h
    rcases List.mem_append.1 hother with hother | hother
    · exact Std.lt_irrefl (Std.lt_trans hlt (hnext.2.2 other hother key List.mem_cons_self))
    rcases List.mem_cons.1 hother with rfl | hother
    · exact Std.lt_irrefl hlt
    · have hmem : (other.display, sequenceOf writes other) ∈ later := by
        rw [← List.mem_reverse, ← hafter]
        exact List.mem_map_of_mem hother
      exact absurd hdisplay.symm (by simpa using hlater _ hmem)
  · intro hkey
    obtain ⟨key, hmem, rfl, hlast, rfl⟩ := hkey
    obtain ⟨before, after, rfl⟩ := List.append_of_mem hmem
    refine ⟨(shown writes after).reverse, (shown writes before).reverse, by simp [shown], ?_⟩
    intro e he
    obtain ⟨other, hother, rfl⟩ := List.mem_map.1 (List.mem_reverse.1 he)
    have hlt : key < other := List.rel_of_pairwise_cons (List.pairwise_append.1 h).2.1 hother
    have hne : key.display ≠ other.display := fun heq =>
      hlast other (by simp [hother]) heq.symm hlt
    simpa using hne

/-- A snapshot is whole exactly if no two written keys display alike, as none do if their accounts
and regions have no slash and their services no bar. In any case it has under a text what is written
under the last key that displays so. -/
theorem snapshot_whole_iff (writes : List (Key × List Record)) :
    (Whole (ofWrites writes).snapshot writes ↔
      ∀ key ∈ loggedKeys writes, ∀ other ∈ loggedKeys writes,
        key.display = other.display → key = other) ∧
    ((∀ key ∈ loggedKeys writes, key.Plain) → Whole (ofWrites writes).snapshot writes) ∧
    ∀ text value, (ofWrites writes).snapshot.get? text = some value ↔
      ∃ key ∈ loggedKeys writes, key.display = text ∧
        (∀ other ∈ loggedKeys writes, other.display = text → ¬ key < other) ∧
        value = sequenceOf writes key := by
  have hwhole : Whole (ofWrites writes).snapshot writes ↔
      ∀ key ∈ loggedKeys writes, ∀ other ∈ loggedKeys writes,
        key.display = other.display → key = other := by
    constructor
    · intro h key hkey other hother hdisplay
      obtain ⟨keys, -, hmem, hkeys⟩ := h.entries
      have hnodup : (shown writes keys).keys.Nodup := by
        rw [← hkeys, snapshot_ofWrites]
        exact Fields.nodup_keys_ofList _
      rw [keys_shown] at hnodup
      exact List.inj_on_of_nodup_map hnodup ((hmem key).2 hkey) ((hmem other).2 hother) hdisplay
    · intro hinj
      have hnodup : ((keysOf writes).map Key.display).Nodup :=
        ascending_keysOf.nodup.map_on fun key hkey other hother =>
          hinj key (mem_keysOf_iff.1 hkey) other (mem_keysOf_iff.1 hother)
      have hshown : (ofWrites writes).snapshot = shown writes (keysOf writes) := by
        rw [snapshot_ofWrites, Fields.ofList_eq_self (keys_shown.symm ▸ hnodup)]
      rw [hshown]
      exact ⟨⟨_, ascending_keysOf, fun _ => mem_keysOf_iff, rfl⟩, by simp [shown, keysOf, keyCount],
        sum_itemCount_shown⟩
  refine ⟨hwhole, fun hplain => hwhole.2 fun key hkey other hother => ?_, fun text value => ?_⟩
  · exact (hplain key hkey).eq_of_display_eq (hplain other hother)
  · rw [snapshot_ofWrites, Fields.get?_ofList, lookup_reverse_shown ascending_keysOf]
    simp only [mem_keysOf_iff]

/-- Queues of two accounts, one of them found in two lots. -/
theorem snapshot_whole_mixedQueues :
    (∀ key ∈ loggedKeys mixedQueues, key.Plain) ∧
    Whole (ofWrites mixedQueues).snapshot mixedQueues ∧
    (ofWrites mixedQueues).snapshot.keys = ["1/eu/SQS|ListQueues", "2/eu/SQS|ListQueues"] := by
  have hplain : ∀ key ∈ loggedKeys mixedQueues, key.Plain := by
    intro key hkey
    obtain ⟨w, hw, rfl, -⟩ := mem_loggedKeys_iff.1 hkey
    have hqueues : ∀ w ∈ mixedQueues, w.1.region = "eu" ∧ w.1.service = "SQS" ∧
        '/' ∉ w.1.account.toList := by decide
    obtain ⟨hregion, hservice, haccount⟩ := hqueues w hw
    exact ⟨haccount, by rw [hregion]; decide, by rw [hservice]; decide⟩
  exact ⟨hplain, (snapshot_whole_iff mixedQueues).2.1 hplain, by decide +kernel⟩

/-- Buckets of an account and a region, and of others that put together read the same. -/
def collidingBuckets : List (Key × List Record) := [
  (⟨"1/eu", "west", "S3", "ListBuckets"⟩, [⟨⟨"1/eu", "west", 0⟩, [], .str "logs"⟩]),
  (⟨"1", "eu/west", "S3", "ListBuckets"⟩, [⟨⟨"1", "eu/west", 0⟩, [], .str "site"⟩])]

/-- Two keys are written, and the snapshot has one entry. -/
theorem snapshot_drops_colliding :
    ¬ Whole (ofWrites collidingBuckets).snapshot collidingBuckets := by
  intro h
  have hlength := h.keyCount
  have htexts : (ofWrites collidingBuckets).snapshot.length = 1 := by decide +kernel
  have hkeys : (ofWrites collidingBuckets).keyCount = 2 := by decide +kernel
  omega

end Store

end ResourceGraph
