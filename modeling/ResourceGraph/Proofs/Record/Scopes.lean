import Mathlib.Data.List.Basic
import Mathlib.Tactic.Tauto
import ResourceGraph.Record.Store

/-!
# The scopes of a store

Keys ascend by account and region before they do by service, so that the entries of one scope stand
together and the scopes ascend. A read over all scopes is therefore the scoped reads one after the
other. This holds of every store; what was written to it does not matter.
-/
namespace ResourceGraph

/-- The account and region of a key. -/
def Key.place (k : Key) : String × String := (k.account, k.region)

theorem Key.eq_mk_iff {k : Key} {p : String × String} {service operation : String} :
    k = ⟨p.1, p.2, service, operation⟩ ↔
      (k.service = service ∧ k.operation = operation) ∧ k.place = p := by
  obtain ⟨account, region, service', operation'⟩ := k
  simp only [Key.place, Key.mk.injEq, Prod.ext_iff]
  tauto

/-- Scopes are ordered by account, then region. -/
def PlaceBefore (p q : String × String) : Prop := [p.1, p.2] < [q.1, q.2]

namespace PlaceBefore

variable {p q r : String × String}

protected theorem irrefl : ¬ PlaceBefore p p :=
  (Std.lt_irrefl : ¬ [p.1, p.2] < [p.1, p.2])

protected theorem trans (hpq : PlaceBefore p q) (hqr : PlaceBefore q r) : PlaceBefore p r :=
  (Std.lt_trans hpq hqr : [p.1, p.2] < [r.1, r.2])

protected theorem ne (h : PlaceBefore p q) : p ≠ q := by
  rintro rfl
  exact PlaceBefore.irrefl h

/-- An earlier key is in the same scope or in an earlier one. -/
theorem of_key_lt {a b : Key} (h : a < b) : a.place = b.place ∨ PlaceBefore a.place b.place := by
  have hparts : a.parts < b.parts := h
  simp only [Key.parts, List.cons_lt_cons_iff] at hparts
  simp only [PlaceBefore, Key.place, List.cons_lt_cons_iff, Prod.mk.injEq]
  rcases hparts with haccount | ⟨haccount, hregion | ⟨hregion, -⟩⟩
  · exact .inr (.inl haccount)
  · exact .inr (.inr ⟨haccount, .inl hregion⟩)
  · exact .inl ⟨haccount, hregion⟩

end PlaceBefore

/-! ## Grouping by scope -/

/-- Elements in the order of their scopes: those of one scope stand together. -/
def Grouped {α : Type} (place : α → String × String) (xs : List α) : Prop :=
  xs.Pairwise fun x y => place x = place y ∨ PlaceBefore (place x) (place y)

variable {α : Type} {place : α → String × String} {xs : List α}

theorem Store.mem_dedup {p : String × String} {ps : List (String × String)} :
    p ∈ dedup ps ↔ p ∈ ps := by
  induction ps using dedup.induct with
  | case1 a rest ih =>
    rw [dedup, if_pos rfl, ih]
    simp
  | case2 a b rest hne ih =>
    rw [dedup, if_neg hne, List.mem_cons, ih, List.mem_cons (a := p) (b := a)]
  | case3 short hshort =>
    rw [dedup]
    exact hshort

theorem Store.ascending_dedup {ps : List (String × String)}
    (h : ps.Pairwise fun p q => p = q ∨ PlaceBefore p q) : (dedup ps).Pairwise PlaceBefore := by
  induction ps using dedup.induct with
  | case1 a rest ih =>
    rw [dedup, if_pos rfl]
    exact ih h.tail
  | case2 a b rest hne ih =>
    rw [dedup, if_neg hne]
    refine List.pairwise_cons.2 ⟨fun x hx => ?_, ih h.tail⟩
    have hab : PlaceBefore a b := (List.rel_of_pairwise_cons h List.mem_cons_self).resolve_left hne
    rcases List.mem_cons.1 (mem_dedup.1 hx) with rfl | hx
    · exact hab
    · rcases List.rel_of_pairwise_cons h.tail hx with hbx | hbx
      · exact hbx ▸ hab
      · exact hab.trans hbx
  | case3 short hshort =>
    cases short with
    | nil => exact .nil
    | cons a rest =>
      cases rest with
      | nil => exact List.pairwise_singleton ..
      | cons b rest => exact (hshort a b rest rfl).elim

/-- The elements of the first scope and then all others. -/
theorem Grouped.filter_append_filter {p : String × String} (h : Grouped place xs)
    (hfirst : ∀ x ∈ xs, place x = p ∨ PlaceBefore p (place x)) :
    xs.filter (place · = p) ++ xs.filter (place · ≠ p) = xs := by
  induction xs with
  | nil => rfl
  | cons x xs ih =>
    have hrest := ih h.tail fun y hy => hfirst y (List.mem_cons_of_mem x hy)
    by_cases hx : place x = p
    · simpa [hx] using hrest
    · -- the first scope is over: none of the others is in it
      have hnone : ∀ y ∈ xs, place y ≠ p := by
        intro y hy heq
        have hpx := (hfirst x List.mem_cons_self).resolve_left hx
        rcases List.rel_of_pairwise_cons h hy with hxy | hxy
        · exact hx (hxy.trans heq)
        · exact PlaceBefore.irrefl (hpx.trans (heq ▸ hxy))
      have hkept : xs.filter (place · ≠ p) = xs := by
        rw [List.filter_eq_self]
        simpa using hnone
      have hgone : xs.filter (place · = p) = [] := by
        rw [List.filter_eq_nil_iff]
        simpa using hnone
      rw [List.filter_cons_of_neg (by simpa using hx), List.filter_cons_of_pos (by simpa using hx),
        hgone, hkept, List.nil_append]

/-- Grouped elements are those of each scope in turn. -/
theorem Grouped.flatMap_filter {ps : List (String × String)} (h : Grouped place xs)
    (hps : ps.Pairwise PlaceBefore) (hall : ∀ x ∈ xs, place x ∈ ps) :
    (ps.flatMap fun p => xs.filter (place · = p)) = xs := by
  induction ps generalizing xs with
  | nil =>
    have hnil : xs = [] := List.eq_nil_iff_forall_not_mem.2 fun x hx => by simpa using hall x hx
    rw [hnil]
    rfl
  | cons p ps ih =>
    have hfirst : ∀ x ∈ xs, place x = p ∨ PlaceBefore p (place x) := by
      intro x hx
      rcases List.mem_cons.1 (hall x hx) with hp | hps'
      · exact .inl hp
      · exact .inr (List.rel_of_pairwise_cons hps hps')
    have hothers : (ps.flatMap fun q => (xs.filter (place · ≠ p)).filter (place · = q)) =
        xs.filter (place · ≠ p) := by
      refine ih (h.filter _) hps.tail fun x hx => ?_
      obtain ⟨hx, hne⟩ := List.mem_filter.1 hx
      exact (List.mem_cons.1 (hall x hx)).resolve_left (by simpa using hne)
    have hsame : (ps.flatMap fun q => xs.filter (place · = q)) =
        ps.flatMap fun q => (xs.filter (place · ≠ p)).filter (place · = q) := by
      refine List.flatMap_congr fun q hq => ?_
      have hqp : q ≠ p := (List.rel_of_pairwise_cons hps hq).ne.symm
      rw [List.filter_filter]
      refine List.filter_congr fun x _ => ?_
      by_cases hx : place x = q
      · simp [hx, hqp]
      · simp [hx]
    rw [List.flatMap_cons, hsame, hothers]
    exact h.filter_append_filter hfirst

namespace Store

theorem lookup_getD_eq_flatMap {key : Key} {entries : List (Key × List Record)}
    (h : (entries.map (·.1)).Nodup) :
    (entries.lookup key).getD [] = (entries.filter (·.1 = key)).flatMap (·.2) := by
  induction entries with
  | nil => rfl
  | cons entry rest ih =>
    obtain ⟨k, records⟩ := entry
    obtain ⟨hk, hrest⟩ := List.nodup_cons.1 h
    by_cases hkey : k = key
    · subst hkey
      have hgone : rest.filter (·.1 = k) = [] := by
        rw [List.filter_eq_nil_iff]
        intro e he heq
        exact hk (List.mem_map.2 ⟨e, he, of_decide_eq_true heq⟩)
      simp [hgone]
    · have hother : (key == k) = false := beq_false_of_ne (Ne.symm hkey)
      rw [List.filter_cons_of_neg (by simpa using hkey), ← ih hrest, List.lookup_cons, hother]

variable (s : Store)

theorem grouped_entries : Grouped (fun e => e.1.place) s.entries :=
  (List.pairwise_map.1 s.ascending).imp PlaceBefore.of_key_lt

theorem scopes_eq : s.scopes = dedup (s.entries.map fun e => e.1.place) := rfl

/-- The scopes are those of the keys that hold records. -/
theorem mem_scopes_iff {p : String × String} :
    p ∈ s.scopes ↔ ∃ e ∈ s.entries, e.1.place = p := by
  rw [scopes_eq, mem_dedup, List.mem_map]

/-- The scopes ascend, each listed once. -/
theorem ascending_scopes : s.scopes.Pairwise PlaceBefore :=
  ascending_dedup (List.pairwise_map.2 s.grouped_entries)

/-- A scoped read goes over the entries of one key, of which there is one at most. -/
theorem readScoped_eq_flatMap (account region service operation : String) :
    s.readScoped account region service operation =
      (s.entries.filter (·.1 = ⟨account, region, service, operation⟩)).flatMap (·.2) := by
  unfold readScoped
  exact lookup_getD_eq_flatMap s.ascending.nodup

/-- The records of an operation in all scopes are those of each scope in turn. -/
theorem readGlobal_eq_flatMap_scopes (service operation : String) :
    s.readGlobal service operation =
      s.scopes.flatMap fun p => s.readScoped p.1 p.2 service operation := by
  have hentries := s.grouped_entries.flatMap_filter s.ascending_scopes fun e he =>
    s.mem_scopes_iff.2 ⟨e, he, rfl⟩
  have hread : ∀ p : String × String, s.readScoped p.1 p.2 service operation =
      ((s.entries.filter (·.1.place = p)).filter fun e =>
        e.1.service = service && e.1.operation = operation).flatMap (·.2) := by
    intro p
    rw [readScoped_eq_flatMap, List.filter_filter]
    congr 2
    funext e
    simp only [Key.eq_mk_iff, Bool.decide_and]
  calc s.readGlobal service operation
      = ((s.scopes.flatMap fun p => s.entries.filter (·.1.place = p)).filter fun e =>
          e.1.service = service && e.1.operation = operation).flatMap (·.2) := by
        rw [hentries]
        rfl
    _ = s.scopes.flatMap fun p => ((s.entries.filter (·.1.place = p)).filter fun e =>
          e.1.service = service && e.1.operation = operation).flatMap (·.2) := by
        rw [List.filter_flatMap, List.flatMap_assoc]
    _ = s.scopes.flatMap fun p => s.readScoped p.1 p.2 service operation := by
        simp only [hread]

end Store

end ResourceGraph
