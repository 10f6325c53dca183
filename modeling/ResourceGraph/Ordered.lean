/-!
Maps and sets kept as lists in strictly ascending order of their keys, so that the order in which
they are read is the order of the keys.
-/
namespace ResourceGraph.Ordered

variable {κ ν : Type} [LT κ]

def Ascending (keys : List κ) : Prop := keys.Pairwise (· < ·)

theorem Ascending.nodup [Std.Irrefl (· < · : κ → κ → Prop)] {keys : List κ}
    (h : Ascending keys) : keys.Nodup := by
  apply h.imp
  intro a b hlt heq
  exact Std.lt_irrefl (heq ▸ hlt)

/-- What comes before the first element comes before all. -/
theorem Ascending.cons_of_lt [Trans (· < · : κ → κ → Prop) (· < ·) (· < ·)] {key k : κ}
    {rest : List κ} (h : Ascending (k :: rest)) (hlt : key < k) :
    Ascending (key :: k :: rest) := by
  refine List.pairwise_cons.2 ⟨fun x hx => ?_, h⟩
  rcases List.mem_cons.1 hx with rfl | hx
  · exact hlt
  · exact Std.lt_trans hlt (List.rel_of_pairwise_cons h hx)

variable [DecidableLT κ] [DecidableEq κ]

/-- Changes the value of a key, or gives it a first one. -/
def adjust (key : κ) (change : Option ν → ν) : List (κ × ν) → List (κ × ν)
  | [] => [(key, change none)]
  | (k, v) :: rest =>
    if key = k then (k, change (some v)) :: rest
    else if key < k then (key, change none) :: (k, v) :: rest
    else (k, v) :: adjust key change rest

/-- Adds an element that is not there yet. -/
def insert (key : κ) : List κ → List κ
  | [] => [key]
  | k :: rest =>
    if key = k then k :: rest
    else if key < k then key :: k :: rest
    else k :: insert key rest

/-- Adds elements one after the other. -/
def insertAll (keys set : List κ) : List κ := keys.foldl (fun set key => insert key set) set

/-- The elements in ascending order, each once. -/
def ofList (keys : List κ) : List κ := insertAll keys []

theorem mem_insert {key k : κ} {set : List κ} : k ∈ insert key set ↔ k = key ∨ k ∈ set := by
  induction set with
  | nil => simp [insert]
  | cons x rest ih =>
    unfold insert
    split
    · next h => subst h; simp
    · split
      · simp
      · simp only [List.mem_cons, ih]
        exact or_left_comm

theorem mem_keys_adjust {key k : κ} {change : Option ν → ν} {entries : List (κ × ν)} :
    k ∈ (adjust key change entries).map (·.1) ↔ k = key ∨ k ∈ entries.map (·.1) := by
  induction entries with
  | nil => simp [adjust]
  | cons entry rest ih =>
    obtain ⟨x, v⟩ := entry
    unfold adjust
    split
    · next h => subst h; simp
    · split
      · simp
      · simp only [List.map_cons, List.mem_cons, ih]
        exact or_left_comm

/-- What every value satisfies still holds if the change keeps it. -/
theorem forall_adjust {P : ν → Prop} {key : κ} {change : Option ν → ν} {entries : List (κ × ν)}
    (hchange : ∀ before, (∀ v ∈ before, P v) → P (change before))
    (h : ∀ e ∈ entries, P e.2) : ∀ e ∈ adjust key change entries, P e.2 := by
  induction entries with
  | nil => simpa [adjust] using hchange none
  | cons entry rest ih =>
    obtain ⟨x, v⟩ := entry
    obtain ⟨hv, hrest⟩ := List.forall_mem_cons.1 h
    unfold adjust
    split
    · exact List.forall_mem_cons.2 ⟨hchange (some v) (by simpa using hv), hrest⟩
    · split
      · exact List.forall_mem_cons.2 ⟨hchange none (by simp), h⟩
      · exact List.forall_mem_cons.2 ⟨hv, ih hrest⟩

omit [LT κ] [DecidableLT κ] in
theorem mem_of_lookup {key : κ} {v : ν} {entries : List (κ × ν)}
    (h : entries.lookup key = some v) : (key, v) ∈ entries := by
  obtain ⟨before, after, rfl, -⟩ := List.lookup_eq_some_iff.1 h
  simp

section Laws

variable [Std.Trichotomous (· < · : κ → κ → Prop)] [Trans (· < · : κ → κ → Prop) (· < ·) (· < ·)]

theorem ascending_insert {key : κ} {set : List κ} (h : Ascending set) :
    Ascending (insert key set) := by
  induction set with
  | nil => exact List.pairwise_singleton ..
  | cons x rest ih =>
    unfold insert
    split
    · exact h
    · next hne =>
      split
      · next hlt => exact h.cons_of_lt hlt
      · next hge =>
        refine List.pairwise_cons.2 ⟨fun k hk => ?_, ih h.tail⟩
        rcases mem_insert.1 hk with rfl | hk
        · exact ((Std.lt_trichotomy ..).resolve_left hge).resolve_left hne
        · exact List.rel_of_pairwise_cons h hk

theorem ascending_insertAll {keys set : List κ} (h : Ascending set) :
    Ascending (insertAll keys set) := by
  induction keys generalizing set with
  | nil => exact h
  | cons key keys ih => exact ih (ascending_insert h)

theorem ascending_adjust {key : κ} {change : Option ν → ν} {entries : List (κ × ν)}
    (h : Ascending (entries.map (·.1))) :
    Ascending ((adjust key change entries).map (·.1)) := by
  induction entries with
  | nil => exact List.pairwise_singleton ..
  | cons entry rest ih =>
    obtain ⟨x, v⟩ := entry
    unfold adjust
    split
    · exact h
    · next hne =>
      split
      · next hlt => exact h.cons_of_lt hlt
      · next hge =>
        refine List.pairwise_cons.2 ⟨fun k hk => ?_, ih h.tail⟩
        rcases mem_keys_adjust.1 hk with rfl | hk
        · exact ((Std.lt_trichotomy ..).resolve_left hge).resolve_left hne
        · exact List.rel_of_pairwise_cons h hk

end Laws

end ResourceGraph.Ordered
